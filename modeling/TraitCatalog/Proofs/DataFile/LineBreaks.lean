/-
  Texts with carriage returns.

  A text may end its lines with CR LF instead of LF (`Text.withReturns`).  The reader gives the same
  outcome on both, line numbers included: `read_withReturns`.

  * `Phrase.occursIn_withReturns`: in the declaration and the registration call a carriage return is
    one more blank, and a phrase that begins with a word does not begin at a blank;
  * `readLine_padded`: an entry line may end in blanks, and a line that is cut to its shape has its
    semicolon before them, so that blanks more or fewer at the end of a line are not seen;
  * `padded_lines`: the lines of both texts differ in such blanks only.
-/
import TraitCatalog.Proofs.DataFile.Grammar

namespace TraitCatalog

open Text (lit Blanks Sharp Printable)

/-! ## Carriage returns -/

namespace Text

/-- A carriage return. -/
def carriageReturn : CodePoint := .scalar '\r'

/-- A text with a carriage return put before every line feed. -/
def withReturns (t : Text) : Text :=
  t.flatMap fun c => if c = newline then [carriageReturn, newline] else [c]

theorem withReturns_newline (t : Text) :
    withReturns (newline :: t) = carriageReturn :: newline :: withReturns t := rfl

theorem withReturns_cons {c : CodePoint} (h : c ≠ newline) (t : Text) :
    withReturns (c :: t) = c :: withReturns t := by
  simp [withReturns, h]

theorem isBlank_newline : newline.isBlank = true := by decide

theorem isBlank_carriageReturn : carriageReturn.isBlank = true := by decide

theorem skipBlanks_cons {c : CodePoint} (h : c.isBlank = true) (t : Text) :
    skipBlanks (c :: t) = skipBlanks t := by
  simp [skipBlanks, h]

theorem skipBlanks_withReturns : ∀ t : Text,
    skipBlanks (withReturns t) = withReturns (skipBlanks t)
  | [] => rfl
  | c :: t => by
    have ih := skipBlanks_withReturns t
    by_cases hn : c = newline
    · subst hn
      rw [withReturns_newline, skipBlanks_cons isBlank_carriageReturn,
        skipBlanks_cons isBlank_newline, skipBlanks_cons isBlank_newline, ih]
    · rw [withReturns_cons hn]
      by_cases hb : c.isBlank = true
      · rw [skipBlanks_cons hb, skipBlanks_cons hb, ih]
      · rw [Bool.not_eq_true] at hb
        rw [skipBlanks_of_sharp (sharp_cons hb _), skipBlanks_of_sharp (sharp_cons hb _),
          withReturns_cons hn]

theorem dropLead?_withReturns : ∀ {w : Text}, Printable w → ∀ t : Text,
    dropLead? w (withReturns t) = (dropLead? w t).map withReturns
  | [], _, t => by simp [dropLead?]
  | a :: w, _, [] => by simp [dropLead?, withReturns]
  | a :: w, h, c :: t => by
    have ha : 0x20 ≤ a.toNat := h a (List.mem_cons_self ..)
    by_cases hn : c = newline
    · subst hn
      have h₁ : a ≠ carriageReturn := by
        rintro rfl
        exact absurd ha (by decide)
      have h₂ : a ≠ newline := by
        rintro rfl
        exact absurd ha (by decide)
      simp [withReturns_newline, dropLead?, h₁, h₂]
    · have ih := dropLead?_withReturns (fun d hd => h d (List.mem_cons_of_mem a hd)) t
      rw [withReturns_cons hn, dropLead?, dropLead?]
      split_ifs
      · exact ih
      · rfl

/-! ## Blanks at the ends of lines -/

/-- The second text is the first with blanks put at its end. -/
def Padded (t u : Text) : Prop :=
  ∃ z, Blanks z ∧ u = t ++ z

theorem Padded.refl (t : Text) : Padded t t :=
  ⟨[], blanks_nil, (List.append_nil t).symm⟩

theorem Padded.cons {t u : Text} (h : Padded t u) (c : CodePoint) : Padded (c :: t) (c :: u) := by
  obtain ⟨z, hz, rfl⟩ := h
  exact ⟨z, hz, rfl⟩

theorem padded_consHead {ts us : List Text} (h : List.Forall₂ Padded ts us) (c : CodePoint) :
    List.Forall₂ Padded (consHead c ts) (consHead c us) := by
  cases h with
  | nil => exact .cons (.refl _) .nil
  | cons ht hs => exact .cons (ht.cons c) hs

/-- The lines of a text with carriage returns have one more blank at the end, the last one
    excepted. -/
theorem padded_lines : ∀ t : Text, List.Forall₂ Padded (lines t) (lines (withReturns t))
  | [] => .cons (.refl []) .nil
  | c :: t => by
    have ih := padded_lines t
    rw [lines] at ih ⊢
    by_cases hn : c = newline
    · subst hn
      have hcr : Blanks [carriageReturn] := List.forall_mem_singleton.2 isBlank_carriageReturn
      have hlines : lines (withReturns (newline :: t)) =
          [carriageReturn] :: lines (withReturns t) := rfl
      rw [hlines, splitOn, if_pos rfl]
      exact .cons ⟨_, hcr, rfl⟩ ih
    · rw [withReturns_cons hn, lines, splitOn, splitOn, if_neg hn, if_neg hn]
      exact padded_consHead ih c

/-- If two texts become the same by blanks put at their ends, and the first of them ends in no
    blank, then the second is the first with blanks put at its end. -/
theorem padded_of_append {u z t y : Text} (hu : Sharp u.reverse) (hz : Blanks z) (hy : Blanks y)
    (h : u ++ z = t ++ y) : Padded u t := by
  rcases List.append_eq_append_iff.1 h with ⟨x, rfl, rfl⟩ | ⟨x, rfl, rfl⟩
  · exact ⟨x, fun c hc => hz c (List.mem_append_left y hc), rfl⟩
  · have hx : Blanks x.reverse := fun c hc =>
      hy c (List.mem_append_left z (List.mem_reverse.1 hc))
    rw [List.reverse_append] at hu
    obtain rfl := List.reverse_eq_nil_iff.1 (nil_of_blanks hx hu)
    rw [List.append_nil]
    exact .refl t

theorem dropLead?_append_blanks {z : Text} (hz : Blanks z) : ∀ {w : Text},
    (∀ c ∈ w, c.isBlank = false) → ∀ t : Text,
      dropLead? w (t ++ z) = (dropLead? w t).map (· ++ z)
  | [], _, t => by simp [dropLead?]
  | a :: w, h, [] => by
    have ha : a.isBlank = false := h a (List.mem_cons_self ..)
    rcases z with _ | ⟨c, z⟩
    · simp [dropLead?]
    · have hne : a ≠ c := by
        rintro rfl
        rw [hz a (List.mem_cons_self ..)] at ha
        cases ha
      simp [dropLead?, hne]
  | a :: w, h, c :: t => by
    have ih := dropLead?_append_blanks hz (fun d hd => h d (List.mem_cons_of_mem a hd)) t
    rw [List.cons_append, dropLead?, dropLead?]
    split_ifs
    · exact ih
    · rfl

end Text

/-! ## Phrases -/

namespace Phrase

/-- The words of a phrase hold no control. -/
def printed : Phrase → Bool
  | [] => true
  | .word w :: ps => w.all (fun c => 0x20 ≤ c.toNat) && printed ps
  | .blanks :: ps | .someBlanks :: ps => printed ps

theorem isAtFront_withReturns : ∀ {p : Phrase}, printed p = true → ∀ t : Text,
    p.isAtFront (Text.withReturns t) = p.isAtFront t
  | [], _, _ => rfl
  | .word w :: ps, h, t => by
    obtain ⟨hw, hps⟩ := Bool.and_eq_true_iff.1 h
    have hprint : Printable w := by
      intro c hc
      simpa using List.all_eq_true.1 hw c hc
    rw [isAtFront, isAtFront, Text.dropLead?_withReturns hprint]
    cases Text.dropLead? w t with
    | none => rfl
    | some r => exact isAtFront_withReturns hps r
  | .blanks :: ps, h, t => by
    rw [isAtFront, isAtFront, Text.skipBlanks_withReturns]
    exact isAtFront_withReturns (p := ps) h _
  | .someBlanks :: ps, h, [] => rfl
  | .someBlanks :: ps, h, c :: t => by
    have ih := isAtFront_withReturns (p := ps) h (Text.skipBlanks t)
    by_cases hn : c = Text.newline
    · subst hn
      rw [Text.withReturns_newline, isAtFront, isAtFront, Text.isBlank_carriageReturn,
        Text.isBlank_newline, Text.skipBlanks_cons Text.isBlank_newline,
        Text.skipBlanks_withReturns, ih]
    · rw [Text.withReturns_cons hn, isAtFront, isAtFront, Text.skipBlanks_withReturns, ih]

/-- A phrase that begins with a word does not begin at a blank. -/
theorem isAtFront_of_blank {p : Phrase} (hp : beginsSharp p = true) {c : CodePoint}
    (hc : c.isBlank = true) (t : Text) : p.isAtFront (c :: t) = false := by
  rw [← Bool.not_eq_true]
  intro h
  obtain ⟨u, r, hu, he⟩ := spells_of_isAtFront h
  have hsharp : c.isBlank = false := by
    have := hu.sharp hp r
    rw [← he] at this
    exact this c rfl
  rw [hc] at hsharp
  cases hsharp

theorem occursIn_withReturns {p : Phrase} (hp : beginsSharp p = true) (hw : printed p = true) :
    ∀ t : Text, p.occursIn (Text.withReturns t) = p.occursIn t
  | [] => rfl
  | c :: t => by
    have ih := occursIn_withReturns hp hw t
    by_cases hn : c = Text.newline
    · subst hn
      rw [Text.withReturns_newline, occursIn, occursIn, occursIn,
        isAtFront_of_blank hp Text.isBlank_carriageReturn,
        isAtFront_of_blank hp Text.isBlank_newline, isAtFront_of_blank hp Text.isBlank_newline, ih]
      simp
    · have hfront := isAtFront_withReturns hw (c :: t)
      rw [Text.withReturns_cons hn] at hfront ⊢
      rw [occursIn, occursIn, hfront, ih]

end Phrase

namespace DataFile

theorem missingParts_withReturns (text : Text) :
    missingParts (Text.withReturns text) = missingParts text := by
  rw [missingParts, missingParts, Phrase.occursIn_withReturns (by decide) (by decide),
    Phrase.occursIn_withReturns (by decide) (by decide)]

/-! ## Lines -/

/-- Without the blanks at its end, a line of the shape of an entry ends in the semicolon. -/
theorem sharp_reverse_entryText (key a b body : Text) :
    Sharp (entryText key a b body []).reverse := by
  rw [entryText, List.append_nil, List.reverse_append]
  exact Text.sharp_cons (by decide) _

theorem entryText_append (key a b body z y : Text) :
    entryText key a b body (z ++ y) = entryText key a b body z ++ y := by
  simp only [entryText, List.append_assoc]

theorem entryShape_padded {line line' key body : Text} (h : Text.Padded line line') :
    EntryShape line' key body ↔ EntryShape line key body := by
  obtain ⟨y, hy, rfl⟩ := h
  constructor
  · generalize hl : line ++ y = line'
    rintro @⟨_, a, b, _, z, hk, ha, hb, hz⟩
    have hcut : entryText key a b body [] ++ z = line ++ y := by
      rw [hl, ← entryText_append, List.nil_append]
    obtain ⟨x, hx, rfl⟩ := Text.padded_of_append (sharp_reverse_entryText key a b body) hz hy hcut
    rw [← entryText_append]
    exact .mk hk ha hb hx
  · rintro ⟨hk, ha, hb, hz⟩
    rw [← entryText_append]
    refine .mk hk ha hb fun c hc => ?_
    exact (List.mem_append.1 hc).elim (hz c) (hy c)

theorem splitEntry?_padded {line line' : Text} (h : Text.Padded line line') :
    splitEntry? line' = splitEntry? line := by
  refine Option.ext fun ⟨key, body⟩ => ?_
  rw [splitEntry?_iff, splitEntry?_iff]
  exact entryShape_padded h

theorem startsWith_padded {line line' : Text} (h : Text.Padded line line') :
    line'.startsWith entryLead = line.startsWith entryLead := by
  obtain ⟨z, hz, rfl⟩ := h
  rw [Text.startsWith, Text.startsWith, Text.dropLead?_append_blanks hz (by decide),
    Option.isSome_map]

/-- Blanks put at the end of a line change nothing. -/
theorem readLine_padded {line line' : Text} (h : Text.Padded line line') (found : Found) (n : Nat) :
    readLine found n line' = readLine found n line := by
  rw [readLine, readLine, startsWith_padded h, splitEntry?_padded h]

theorem readLines_padded {ls ls' : List Text} (h : List.Forall₂ Text.Padded ls ls') :
    ∀ (found : Found) (n : Nat), readLines found n ls' = readLines found n ls := by
  induction h with
  | nil => exact fun _ _ => rfl
  | cons hl _ ih =>
    intro found n
    rw [readLines, readLines, readLine_padded hl]
    cases readLine found n _ with
    | error a => rfl
    | ok f => exact ih f (n + 1)

/-! ## Files -/

/-- **Reading does not see how lines end.**  With a carriage return before every line feed a text
    gives the same data file, or the same faults with the same line numbers, or the reading gives up
    in the same way. -/
theorem read_withReturns (text traitPath : Text) :
    read (Text.withReturns text) traitPath = read text traitPath := by
  rw [read, read, missingParts_withReturns, readLines_padded (Text.padded_lines text)]

end DataFile

end TraitCatalog
