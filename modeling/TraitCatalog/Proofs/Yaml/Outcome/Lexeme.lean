/-
  What reading a lexeme leaves, and what ends it.

  A reader that starts inside a text stays inside it: what is left after it stands at the end of the
  text.  All faults of the readers are foreseen but one, an escape whose number is too large by far.

  * `HugeEscape`: a text with such an escape;
  * `ReadsWithin`: a reader stays inside a text, and its faults are of these kinds;
  * `Token.Written`: a tag stands in a text with an exclamation mark, and a scalar without quotes
    does not end with a break;
  * `readTag_within`, `readDirective_within`, `readQuoted_within`, `readBlock_within`: all readers are
    of this kind;
  * `getLast?_readPlain`: no scalar without quotes ends with a break.
-/
import Mathlib.Tactic.SplitIfs
import TraitCatalog.Proofs.Yaml.Lexeme
import TraitCatalog.Proofs.Yaml.Outcome.Basic

namespace TraitCatalog.Yaml

open Text (lit)

/-- A text with an escape of eight digits whose number has more than 31 bits. -/
def HugeEscape (t : Text) : Prop :=
  ∃ before digits after n, t = before ++ lit "\\U" ++ digits ++ after ∧ digits.length = 8 ∧
    hexValue? digits = some n ∧ 0x80000000 ≤ n

/-- A fault that reading the lexemes of a text may end with. -/
def LexemeFault (t : Text) (f : Fault) : Prop :=
  f.isForeseen = true ∨ f = .pointOverflow ∧ HugeEscape t

/-- The place lies in the text. -/
def Cursor.Within (t : Text) (c : Cursor) : Prop :=
  c.rest <:+ t

/-- A reading that goes on inside a text. -/
def ReadsWithin {α : Type} (t : Text) (x : Except Fault (α × Cursor)) : Prop :=
  Yields (LexemeFault t) (fun r => r.2.Within t) x

/-- What a token of the text `t` says about it. -/
def Token.Written (t : Text) : Token → Prop
  | .tag _ _ => .scalar '!' ∈ t
  | .scalar true u => u.getLast? ≠ some (.scalar '\n')
  | _ => True

/-- A reading of a token that goes on inside a text. -/
def ReadsToken (t : Text) (x : Except Fault (Token × Cursor)) : Prop :=
  Yields (LexemeFault t) (fun r => r.1.Written t ∧ r.2.Within t) x

variable {t : Text} {c : Cursor} {p : CodePoint → Bool} {n : Nat}

theorem lexemeFault_invalid : LexemeFault t .invalid :=
  .inl rfl

/-! ## Moving -/

namespace Cursor.Within

theorem next (h : c.Within t) : c.next.Within t := by
  rw [Cursor.Within, Cursor.rest_next]
  exact (List.tail_suffix _).trans h

theorem skip (h : c.Within t) : (c.skip n).Within t := by
  induction n generalizing c with
  | zero => exact h
  | succ n ih => exact ih h.next

theorem takeWhile (h : c.Within t) : (c.takeWhile p).2.Within t :=
  h.skip

theorem skipSpaces (h : c.Within t) : c.skipSpaces.Within t :=
  h.skip

theorem takeBreak (h : c.Within t) : c.takeBreak.2.Within t := by
  rw [Cursor.takeBreak]
  split
  · exact h
  · split_ifs
    · exact h.skip
    · exact h.next
    · exact h.next
    · exact h

theorem skipComment (h : c.Within t) : c.skipComment.Within t := by
  rw [Cursor.skipComment]
  split_ifs
  · exact h.takeWhile
  · exact h

theorem skipIndent (h : c.Within t) (indent : Nat) : (c.skipIndent indent).Within t :=
  h.skip

theorem skipRestOfLine (h : c.Within t) :
    Yields (LexemeFault t) (fun c => c.Within t) c.skipRestOfLine :=
  .require lexemeFault_invalid fun _ => .ok h.skipSpaces.skipComment.takeBreak

end Cursor.Within

/-! ## Anchors, tags and directives -/

theorem readAnchorName_within (h : c.Within t) : ReadsWithin t (readAnchorName c) :=
  .require lexemeFault_invalid fun _ => .ok h.next.takeWhile

theorem readEscapedBytes_within (h : c.Within t) : ReadsWithin t (readEscapedBytes n c) := by
  induction n generalizing c with
  | zero => exact .ok h
  | succ n ih =>
    rw [readEscapedBytes]
    refine .ite (fun _ => .require lexemeFault_invalid fun _ => ?_) fun _ => .ok h
    split
    · exact .error lexemeFault_invalid
    · exact (ih h.skip).bind fun _ hr => .ok hr

theorem readTagPieces_within (h : c.Within t) : ReadsWithin t (readTagPieces n c) := by
  induction n generalizing c with
  | zero => exact .ok h
  | succ n ih =>
    rw [readTagPieces]
    refine .ite (fun _ => ?_) fun _ => .ite (fun _ => ?_) fun _ => .ok h
    · refine (readEscapedBytes_within h).bind ?_
      rintro ⟨bytes, c⟩ hr
      dsimp only
      split
      · exact .error lexemeFault_invalid
      · exact (ih hr).bind fun _ hr => .ok hr
    · exact (ih h.takeWhile).bind fun _ hr => .ok hr

theorem readTagBody_within (h : c.Within t) : ReadsWithin t (readTagBody c) :=
  (readTagPieces_within h).bind fun _ hr => .require lexemeFault_invalid fun _ => .ok hr

theorem readTagHandle_within (h : c.Within t) : ReadsWithin t (readTagHandle c) := by
  rw [readTagHandle]
  refine .require lexemeFault_invalid fun _ => .ite (fun _ => .ok h.next) fun _ => ?_
  exact .require lexemeFault_invalid fun _ => .ok h.next.takeWhile.next

/-- A tag is read where an exclamation mark stands. -/
theorem readTag_within (h : c.Within t) (hsign : .scalar '!' ∈ t) : ReadsToken t (readTag c) := by
  have hend : ∀ (handle? : Option Text) (suffix : Text) (c : Cursor), c.Within t →
      ReadsToken t (require (c.seesWordEnd 0) >>= fun _ => pure (.tag handle? suffix, c)) :=
    fun _ _ _ hc => .require lexemeFault_invalid fun _ => .ok ⟨hsign, hc⟩
  have hbody : ∀ (handle : Text) (c : Cursor), c.Within t →
      ReadsToken t (readTagBody c >>= fun r => require (r.2.seesWordEnd 0) >>= fun _ =>
        pure (.tag (some handle) r.1, r.2)) :=
    fun _ _ hc => (readTagBody_within hc).bind fun r hr => hend _ r.1 r.2 hr
  rw [readTag]
  refine .ite (fun _ => ?_) fun _ => .ite (fun _ => hend _ _ _ h.next) fun _ => ?_
  · refine (readTagBody_within h.skip).bind fun _ hr => .require lexemeFault_invalid fun _ => ?_
    exact hend _ _ _ hr.next
  · refine .ite (fun _ => ?_) fun _ => hbody _ _ h.next
    exact (readTagHandle_within h).bind fun r hr => hbody r.1 r.2 hr

theorem readVersionNumber_within (h : c.Within t) : ReadsWithin t (readVersionNumber c) :=
  .require lexemeFault_invalid fun _ => .ite (fun _ => .error (.inl rfl)) fun _ => .ok h.takeWhile

theorem readDirective_within (h : c.Within t) : ReadsToken t (readDirective c) := by
  have hend : ∀ (x : Token) (c : Cursor), x.Written t → c.Within t →
      ReadsToken t (do return (x, ← c.skipRestOfLine)) := fun _ _ hx hc =>
    hc.skipRestOfLine.bind fun _ hc => .ok ⟨hx, hc⟩
  rw [readDirective]
  refine .require lexemeFault_invalid fun _ => ?_
  refine .ite (fun _ => ?_) fun _ => .ite (fun _ => ?_) fun _ => ?_
  · refine (readVersionNumber_within h.next.takeWhile.skipSpaces).bind ?_
    rintro ⟨major, c⟩ hr
    refine .require lexemeFault_invalid fun _ => ?_
    refine (readVersionNumber_within hr.next).bind ?_
    rintro ⟨minor, c⟩ hr
    exact .require lexemeFault_invalid fun _ => hend (.version major minor) c trivial hr
  · refine (readTagHandle_within h.next.takeWhile.skipSpaces).bind ?_
    rintro ⟨handle, c⟩ hr
    refine .require lexemeFault_invalid fun _ => ?_
    refine (readTagBody_within hr.skipSpaces).bind ?_
    rintro ⟨lead, c⟩ hr
    exact .require lexemeFault_invalid fun _ => hend (.tagHandle handle lead) c trivial hr
  · exact hend .directive _ trivial h.next.takeWhile.takeWhile

/-! ## Scalars in quotes -/

theorem readQuotedBreaks_within (h : c.Within t) : ReadsWithin t (readQuotedBreaks n c) := by
  induction n generalizing c with
  | zero => exact .error lexemeFault_invalid
  | succ n ih =>
    rw [readQuotedBreaks]
    refine .ite (fun _ => .error lexemeFault_invalid) fun _ => ?_
    refine .ite (fun _ => ?_) fun _ => .ok h.takeWhile
    exact (ih h.takeWhile.takeBreak).bind fun _ hr => .ok hr

theorem readQuotedGap_within (h : c.Within t) : ReadsWithin t (readQuotedGap c) := by
  rw [readQuotedGap]
  refine .require lexemeFault_invalid fun _ => .ite (fun _ => ?_) fun _ => .ok h.takeWhile
  exact (readQuotedBreaks_within h.takeWhile.takeBreak).bind fun _ hr => .ok hr

/-! ### Escapes -/

theorem hexDigit?_lt {ch : CodePoint} {d : Nat} (h : ch.hexDigit? = some d) : d < 16 := by
  rw [CodePoint.hexDigit?] at h
  simp only [Bool.and_eq_true, decide_eq_true_eq] at h
  split_ifs at h
  all_goals
    have hd := Option.some.inj h
    omega

theorem foldl_hex_lt {digits : Text} {a n : Nat}
    (h : digits.foldl (fun n? c => do return (← n?) * 16 + (← c.hexDigit?)) (some a) = some n) :
    n < (a + 1) * Nat.pow 16 digits.length := by
  induction digits generalizing a with
  | nil =>
    rw [Option.some.inj h]
    simp
  | cons c digits ih =>
    rw [List.foldl_cons] at h
    cases hc : c.hexDigit? with
    | none =>
      rw [hc] at h
      cases (foldl_hex_none digits).symm.trans h
    | some d =>
      rw [hc] at h
      have hd := hexDigit?_lt hc
      have hn : n < (a * 16 + d + 1) * Nat.pow 16 digits.length := ih h
      have hstep : (a * 16 + d + 1) * Nat.pow 16 digits.length ≤
          (a + 1) * 16 * Nat.pow 16 digits.length := Nat.mul_le_mul_right _ (by omega)
      have hpow : (a + 1) * 16 * Nat.pow 16 digits.length =
          (a + 1) * Nat.pow 16 (digits.length + 1) := by
        rw [Nat.mul_assoc, Nat.mul_comm 16]
        rfl
      rw [List.length_cons, ← hpow]
      exact Nat.lt_of_lt_of_le hn hstep

theorem hexValue?_lt {digits : Text} {n : Nat} (h : hexValue? digits = some n) :
    n < Nat.pow 16 digits.length := by
  simpa using foldl_hex_lt h

/-- A number that is too large for a code point by far has eight digits. -/
theorem eq_of_escapeWidth? {ch : CodePoint} {digits : Text} {n : Nat}
    (hwidth : escapeWidth? ch = some digits.length) (hn : hexValue? digits = some n)
    (hlarge : 0x80000000 ≤ n) : ch = .scalar 'U' ∧ digits.length = 8 := by
  have hlt := hexValue?_lt hn
  rw [escapeWidth?.eq_def] at hwidth
  split at hwidth
  · rw [← Option.some.inj hwidth] at hlt
    exact absurd (Nat.lt_of_le_of_lt hlarge hlt) (by decide)
  · rw [← Option.some.inj hwidth] at hlt
    exact absurd (Nat.lt_of_le_of_lt hlarge hlt) (by decide)
  · exact ⟨rfl, (Option.some.inj hwidth).symm⟩
  · cases hwidth

theorem escapedPoint_yields (n : Nat) :
    Yields (fun f => f.isForeseen = true ∨ f = .pointOverflow ∧ 0x80000000 ≤ n) (fun _ => True)
      (escapedPoint n) := by
  rw [escapedPoint]
  split
  · exact .ok trivial
  · split_ifs with hn
    · exact .error (.inl rfl)
    · exact .error (.inr ⟨rfl, Nat.le_of_not_lt hn⟩)

/-- The only unforeseen fault in an escape is that of a number which is too large by far. -/
theorem readEscape_within (h : .scalar '\\' :: c.rest <:+ t) : ReadsWithin t (readEscape c) := by
  have hc : c.Within t := (List.suffix_cons _ _).trans h
  rw [readEscape]
  split
  · exact .error lexemeFault_invalid
  rename_i ch hpeek
  split
  · exact .ok hc.next
  split
  · rename_i width hwidth
    refine .require lexemeFault_invalid fun hlength => ?_
    split
    · exact .error lexemeFault_invalid
    · rename_i n hn
      refine ((escapedPoint_yields n).imp ?_ fun _ h => h).bind fun _ _ => .ok hc.skip
      rintro f (hf | ⟨rfl, hlarge⟩)
      · exact .inl hf
      · rw [beq_iff_eq] at hlength
        rw [← hlength] at hwidth
        obtain ⟨rfl, height⟩ := eq_of_escapeWidth? hwidth hn hlarge
        obtain ⟨before, hbefore⟩ := h
        rw [Cursor.peek_zero, List.head?_eq_some_iff] at hpeek
        obtain ⟨rest, hrest⟩ := hpeek
        refine .inr ⟨rfl, before, _, c.next.rest.drop width, n, ?_, height, hn, hlarge⟩
        rw [List.append_assoc, List.take_append_drop, Cursor.rest_next, ← hbefore, hrest,
          List.append_assoc]
        rfl
  · exact .require lexemeFault_invalid fun _ => readQuotedBreaks_within hc.takeBreak

/-! ### Pieces -/

theorem readQuotedPiece_within (double : Bool) (h : c.Within t) :
    ReadsWithin t (readQuotedPiece double c) := by
  rw [readQuotedPiece]
  split
  · exact .error lexemeFault_invalid
  rename_i ch hpeek
  refine .ite (fun _ => (readQuotedGap_within h).bind fun _ hr => .ok hr) fun _ => ?_
  refine .ite (fun hslash => ?_) fun _ => ?_
  · have hescape : .scalar '\\' :: c.next.rest <:+ t := by
      rw [Bool.and_eq_true, beq_iff_eq] at hslash
      rw [Cursor.peek_zero, List.head?_eq_some_iff] at hpeek
      obtain ⟨rest, hrest⟩ := hpeek
      rw [← hslash.2, Cursor.rest_next, hrest, List.tail_cons, ← hrest]
      exact h
    exact (readEscape_within hescape).bind fun _ hr => .ok hr
  exact .ite (fun _ => .ok h.skip) fun _ => .ite (fun _ => .ok h.next) fun _ => .ok h.next

theorem readQuotedPieces_within (double : Bool) (h : c.Within t) :
    ReadsWithin t (readQuotedPieces double n c) := by
  induction n generalizing c with
  | zero => exact .error lexemeFault_invalid
  | succ n ih =>
    rw [readQuotedPieces]
    refine (readQuotedPiece_within double h).bind ?_
    rintro ⟨piece?, c⟩ hr
    cases piece? with
    | none => exact .ok hr
    | some piece => exact (ih hr).bind fun _ hr => .ok hr

theorem readQuoted_within (double : Bool) (h : c.Within t) : ReadsWithin t (readQuoted double c) :=
  readQuotedPieces_within double h.next

/-! ## Plain scalars -/

theorem readPlainBreaks_within (h : c.Within t) : (readPlainBreaks n c).2.Within t := by
  induction n generalizing c with
  | zero => exact h
  | succ n ih =>
    rw [readPlainBreaks]
    split
    · exact h
    · dsimp only
      split
      · exact ih h.skipSpaces.takeBreak
      · exact h.skipSpaces

theorem readPlainGap_within (h : c.Within t) : (readPlainGap c).2.2.Within t := by
  rw [readPlainGap]
  dsimp only
  split
  · have hbreaks := readPlainBreaks_within (n := (c.takeWhile (· == .scalar ' ')).2.takeBreak.2.bound)
      (h.takeWhile (p := (· == .scalar ' '))).takeBreak
    split
    · rename_i hr
      rw [hr] at hbreaks
      exact hbreaks
    · rename_i hr
      rw [hr] at hbreaks
      exact hbreaks
  · exact h.takeWhile

theorem readPlainWords_within {inFlow : Bool} {indent : Nat} {gap : Text} {broke : Bool}
    (h : c.Within t) : (readPlainWords inFlow indent n gap broke c).2.2.Within t := by
  induction n generalizing c gap broke with
  | zero => exact h
  | succ n ih =>
    rw [readPlainWords_succ]
    split
    · exact h
    · have hgap := readPlainGap_within (h.skip (n := (wordAt inFlow c).length))
      dsimp only
      split
      · exact hgap
      · exact ih hgap

theorem readPlain_within {inFlow : Bool} {indent : Nat} (h : c.Within t) :
    (readPlain inFlow indent c).2.2.Within t :=
  readPlainWords_within h

theorem isBreak_of_mem_wordAt {inFlow : Bool} {ch : CodePoint} (h : ch ∈ wordAt inFlow c) :
    isBreak ch = false := by
  rw [wordAt] at h
  split at h
  · cases h
  · exact isBreak_of_mem_plainWord ch h

theorem getLast?_readPlainWords {inFlow : Bool} {indent : Nat} {gap : Text} {broke : Bool}
    {ch : CodePoint} (h : (readPlainWords inFlow indent n gap broke c).1.getLast? = some ch) :
    isBreak ch = false := by
  induction n generalizing c gap broke with
  | zero => cases h
  | succ n ih =>
    rw [readPlainWords_succ] at h
    split at h
    · cases h
    · rename_i hword
      have hlast : ∀ x : Text, (x ++ wordAt inFlow c).getLast? = some ch → isBreak ch = false := by
        intro x hx
        rw [List.isEmpty_iff] at hword
        rw [List.getLast?_append_of_ne_nil x hword] at hx
        exact isBreak_of_mem_wordAt (List.mem_of_getLast? hx)
      dsimp only at h
      split at h
      · exact hlast gap h
      · rcases List.eq_nil_or_concat (readPlainWords inFlow indent n
          (readPlainGap (c.skip (wordAt inFlow c).length)).1
          (readPlainGap (c.skip (wordAt inFlow c).length)).2.1
          (readPlainGap (c.skip (wordAt inFlow c).length)).2.2).1 with hmore | ⟨more, last, hmore⟩
        · rw [hmore, List.append_nil] at h
          exact hlast gap h
        · rw [List.getLast?_append_of_ne_nil _ (by rw [hmore]; simp)] at h
          exact ih h

/-- No scalar without quotes ends with a break. -/
theorem getLast?_readPlain {inFlow : Bool} {indent : Nat} :
    (readPlain inFlow indent c).1.getLast? ≠ some (.scalar '\n') := by
  intro h
  exact absurd (getLast?_readPlainWords h) (by decide)

/-! ## Block scalars -/

theorem readChomping_within (h : c.Within t) : (readChomping c).2.Within t := by
  rw [readChomping]
  split_ifs
  · exact h.next
  · exact h.next
  · exact h

theorem readIncrement_within (h : c.Within t) : ReadsWithin t (readIncrement c) := by
  rw [readIncrement]
  split
  · exact .ok h
  · refine .ite (fun _ => .ok h) fun _ => ?_
    exact .require lexemeFault_invalid fun _ => .ok h.next

theorem readBlockHead_within (h : c.Within t) :
    Yields (LexemeFault t) (fun r => r.2.2.Within t) (readBlockHead c) := by
  have hfirst := readChomping_within h
  rw [readBlockHead]
  generalize readChomping c = first at hfirst ⊢
  refine (readIncrement_within hfirst).bind ?_
  rintro ⟨increment?, c⟩ hr
  have hchomping : (if first.1.isNone && increment?.isSome then readChomping c
      else (first.1, c)).2.Within t := by
    split
    · exact readChomping_within hr
    · exact hr
  exact .require lexemeFault_invalid fun _ => hchomping.skipRestOfLine.bind fun _ hc => .ok hc

theorem readBlockBreaks_within (indent : Nat) (h : c.Within t) :
    (readBlockBreaks indent n c).2.Within t := by
  induction n generalizing c with
  | zero => exact h
  | succ n ih =>
    rw [readBlockBreaks]
    dsimp only
    split
    · exact ih (h.skipIndent indent).takeBreak
    · exact h.skipIndent indent

theorem readBlockIndent_within (h : c.Within t) : (readBlockIndent n c).2.2.Within t := by
  induction n generalizing c with
  | zero => exact h
  | succ n ih =>
    rw [readBlockIndent]
    dsimp only
    split
    · exact ih h.skipSpaces.takeBreak
    · exact h.skipSpaces

theorem readBlockLines_within {folded : Bool} {indent : Nat} {blank : Text} (h : c.Within t) :
    (readBlockLines folded indent n blank c).cursor.Within t := by
  induction n generalizing c blank with
  | zero => exact h
  | succ n ih =>
    rw [readBlockLines]
    split
    · have hnext := readBlockBreaks_within indent
        (n := (c.takeWhile (!isBreak ·)).2.takeBreak.2.bound)
        (h.takeWhile (p := (!isBreak ·))).takeBreak
      dsimp only
      split
      · exact ih hnext
      · exact hnext
    · exact h

theorem readBlockStart_within {least : Nat} {increment? : Option Nat} (h : c.Within t) :
    (readBlockStart least increment? c).2.2.Within t := by
  cases increment? with
  | none => exact readBlockIndent_within h
  | some k => exact readBlockBreaks_within _ h

theorem readBlock_within (folded : Bool) (around : Option Nat) (h : c.Within t) :
    ReadsWithin t (readBlock folded around c) := by
  rw [readBlock_eq]
  refine (readBlockHead_within h.next).bind ?_
  rintro ⟨chomping, increment?, c⟩ hr
  exact .ok (readBlockLines_within (readBlockStart_within hr))

end TraitCatalog.Yaml
