/-
  What the tokens of a text say about it, and what ends them.

  * `Lexer.Within`: a lexer that is inside a text and has made such tokens only;
  * `Lexer.Within.step`: one token more, or a fault of a lexeme;
  * `tokenize_within`: all tokens of a text, and the fault that ended them.
-/
import TraitCatalog.Proofs.Yaml.Outcome.Lexeme
import TraitCatalog.Yaml.TokenStream

namespace TraitCatalog.Yaml

open Text (lit)

namespace Lexer

/-- The lexer is inside the text `t`, and its tokens are those of the text. -/
structure Within (t : Text) (s : Lexer) : Prop where
  cursor : s.cursor.Within t
  made : ∀ x ∈ s.made, x.Written t

variable {t : Text} {s : Lexer} {x : Token} {c : Cursor}

namespace Within

theorem emit (h : s.Within t) (x : Token) (hx : x.Written t) : (s.emit x).Within t :=
  ⟨h.cursor, List.forall_mem_cons.2 ⟨hx, h.made⟩⟩

theorem emitAt (h : s.Within t) (x : Token) (hx : x.Written t) (hc : c.Within t) :
    (s.emitAt x c).Within t :=
  ⟨hc, (h.emit x hx).made⟩

theorem emitSign (h : s.Within t) (x : Token) (hx : x.Written t) : (s.emitSign x).Within t :=
  h.emitAt x hx h.cursor.next

theorem emitAfter (h : s.Within t) (before : Nat) (x : Token) (hx : x.Written t) :
    (s.emitAfter before x).Within t := by
  refine ⟨h.cursor, fun y hy => ?_⟩
  rcases List.mem_append.1 hy with hy | hy
  · exact h.made y (List.mem_of_mem_take hy)
  · rcases List.mem_cons.1 hy with rfl | hy
    · exact hx
    · exact h.made y (List.mem_of_mem_drop hy)

/-- What is noted of keys, indentation and brackets says nothing about the tokens. -/
theorem of_eq {s' : Lexer} (h : s.Within t) (hc : s'.cursor = s.cursor) (hm : s'.made = s.made) :
    s'.Within t :=
  ⟨hc ▸ h.cursor, hm ▸ h.made⟩

/-! ## Keys and indentation -/

theorem forgetKey (h : s.Within t) : Yields (LexemeFault t) (Within t) s.forgetKey :=
  .require lexemeFault_invalid fun _ => .ok (h.of_eq rfl rfl)

theorem dropStale (h : s.Within t) : Yields (LexemeFault t) (Within t) s.dropStale :=
  .require lexemeFault_invalid fun _ => .ok (h.of_eq rfl rfl)

theorem noteKey (h : s.Within t) : Yields (LexemeFault t) (Within t) s.noteKey := by
  rw [Lexer.noteKey]
  exact .ite (fun _ => h.forgetKey.bind fun _ hs => .ok (hs.of_eq rfl rfl)) fun _ => .ok h

theorem closeTo {column : Nat} {indents : List Nat} (h : s.Within t) :
    (Lexer.closeTo column indents s).Within t := by
  induction indents generalizing s with
  | nil => exact h
  | cons i indents ih =>
    rw [Lexer.closeTo]
    split
    · exact ih ((h.emit .blockEnd trivial).of_eq rfl rfl)
    · exact h

theorem unwind (h : s.Within t) : s.unwind.Within t := by
  rw [Lexer.unwind]
  split
  · exact h
  · exact h.closeTo

theorem endBlocks (h : s.Within t) (indents : List Nat) :
    (indents.foldl (fun s _ => s.emit .blockEnd) s).Within t := by
  induction indents generalizing s with
  | nil => exact h
  | cons i indents ih => exact ih (h.emit .blockEnd trivial)

theorem unwindAll (h : s.Within t) : s.unwindAll.Within t := by
  rw [Lexer.unwindAll]
  split
  · exact h
  · exact (h.endBlocks _).of_eq rfl rfl

theorem openBlock (h : s.Within t) (x : Token) (hx : x.Written t) : (s.openBlock x).Within t := by
  rw [Lexer.openBlock]
  split
  · exact (h.emit x hx).of_eq rfl rfl
  · exact h

/-! ## Single tokens -/

theorem skipGaps {n : Nat} (h : s.Within t) : (Lexer.skipGaps n s).Within t := by
  induction n generalizing s with
  | zero => exact h
  | succ n ih =>
    rw [Lexer.skipGaps]
    split
    · exact ih ⟨h.cursor.skipSpaces.skipComment.takeBreak, h.made⟩
    · exact ⟨h.cursor.skipSpaces.skipComment, h.made⟩

theorem endAll (h : s.Within t) : Yields (LexemeFault t) (Within t) s.endAll :=
  h.unwindAll.forgetKey.bind fun _ hs => .ok (hs.of_eq rfl rfl)

theorem documentMarker (h : s.Within t) (x : Token) (hx : x.Written t) :
    Yields (LexemeFault t) (Within t) (s.documentMarker x) :=
  h.endAll.bind fun _ hs => .ok (hs.emitAt x hx hs.cursor.skip)

theorem openFlow (h : s.Within t) (x : Token) (hx : x.Written t) :
    Yields (LexemeFault t) (Within t) (s.openFlow x) :=
  h.noteKey.bind fun _ hs => .ok ((hs.emitSign x hx).of_eq rfl rfl)

theorem closeFlow (h : s.Within t) (x : Token) (hx : x.Written t) : (s.closeFlow x).Within t :=
  (h.emitSign x hx).of_eq rfl rfl

theorem comma (h : s.Within t) : Yields (LexemeFault t) (Within t) s.comma :=
  h.forgetKey.bind fun _ hs => .ok ((hs.emitSign .comma trivial).of_eq rfl rfl)

theorem openUnlessFlow (h : s.Within t) (x : Token) (hx : x.Written t) :
    (if s.inFlow then s else s.openBlock x).Within t := by
  split
  · exact h
  · exact h.openBlock x hx

theorem item (h : s.Within t) : Yields (LexemeFault t) (Within t) s.item :=
  .require lexemeFault_invalid fun _ =>
    (h.openUnlessFlow .blockSequence trivial).forgetKey.bind fun _ hs =>
      .ok ((hs.emitSign .item trivial).of_eq rfl rfl)

theorem keySign (h : s.Within t) : Yields (LexemeFault t) (Within t) s.keySign :=
  .require lexemeFault_invalid fun _ =>
    (h.openUnlessFlow .blockMapping trivial).forgetKey.bind fun _ hs =>
      .ok ((hs.emitSign .key trivial).of_eq rfl rfl)

theorem valueSign (h : s.Within t) : Yields (LexemeFault t) (Within t) s.valueSign := by
  rw [Lexer.valueSign]
  split
  · rename_i k _
    have hkey : Within t
        { s.emitAfter k.before .key with keys := s.outerKeys, keyAllowed := false } :=
      (h.emitAfter k.before .key trivial).of_eq rfl rfl
    refine .ok (emitSign ?_ .value trivial)
    split
    · exact (hkey.emitAfter k.before .blockMapping trivial).of_eq rfl rfl
    · exact hkey
  · exact .require lexemeFault_invalid fun _ =>
      .ok (((h.openUnlessFlow .blockMapping trivial).emitSign .value trivial).of_eq rfl rfl)

theorem content {read : Cursor → Except Fault (Token × Cursor)} (h : s.Within t)
    (hread : ∀ c : Cursor, c.Within t → ReadsToken t (read c)) :
    Yields (LexemeFault t) (Within t) (s.content read) :=
  h.noteKey.bind fun s hs => (hread s.cursor hs.cursor).bind fun _ hr =>
    .ok ((hs.emitAt _ hr.1 hr.2).of_eq rfl rfl)

theorem block (h : s.Within t) (folded : Bool) : Yields (LexemeFault t) (Within t) (s.block folded) :=
  h.forgetKey.bind fun _ hs => (readBlock_within folded _ hs.cursor).bind fun _ hr =>
    .ok ((hs.emitAt (.scalar false _) trivial hr).of_eq rfl rfl)

theorem plain (h : s.Within t) : Yields (LexemeFault t) (Within t) s.plain :=
  h.noteKey.bind fun _ hs =>
    .ok ((hs.emitAt (.scalar true _) getLast?_readPlain (readPlain_within hs.cursor)).of_eq rfl rfl)

theorem named {make : Text → Token} (h : s.Within t) (hmake : ∀ u, (make u).Written t) :
    Yields (LexemeFault t) (Within t) (s.content fun c => do
      let (name, c) ← readAnchorName c
      return (make name, c)) :=
  h.content fun _ hc => (readAnchorName_within hc).bind fun _ hr => .ok ⟨hmake _, hr⟩

theorem quoted (h : s.Within t) (double : Bool) :
    Yields (LexemeFault t) (Within t) (s.content fun c => do
      let (u, c) ← readQuoted double c
      return (.scalar false u, c)) :=
  h.content fun _ hc => (readQuoted_within double hc).bind fun _ hr => .ok ⟨trivial, hr⟩

/-- The next token says what it should about the text. -/
theorem token (h : s.Within t) : Yields (LexemeFault t) (Within t) s.token := by
  rw [Lexer.token]
  dsimp only
  split
  · exact h.endAll.bind fun _ hs => .ok (hs.emit .streamEnd trivial)
  rename_i ch hpeek
  refine .ite (fun _ => ?_) fun _ => ?_
  · refine h.endAll.bind fun _ hs => ?_
    exact (readDirective_within hs.cursor).bind fun _ hr => .ok (hs.emitAt _ hr.1 hr.2)
  refine .ite (fun _ => h.documentMarker .documentStart trivial) fun _ => ?_
  refine .ite (fun _ => h.documentMarker .documentEnd trivial) fun _ => ?_
  refine .ite (fun _ => h.openFlow .openSequence trivial) fun _ => ?_
  refine .ite (fun _ => h.openFlow .openMapping trivial) fun _ => ?_
  refine .ite (fun _ => .ok (h.closeFlow .closeSequence trivial)) fun _ => ?_
  refine .ite (fun _ => .ok (h.closeFlow .closeMapping trivial)) fun _ => ?_
  refine .ite (fun _ => h.comma) fun _ => ?_
  refine .ite (fun _ => h.item) fun _ => ?_
  refine .ite (fun _ => h.keySign) fun _ => ?_
  refine .ite (fun _ => h.valueSign) fun _ => ?_
  refine .ite (fun _ => h.named fun _ => trivial) fun _ => ?_
  refine .ite (fun _ => h.named fun _ => trivial) fun _ => ?_
  refine .ite (fun hsign => h.content fun _ hc => readTag_within hc ?_) fun _ => ?_
  · rw [Cursor.peek_zero] at hpeek
    rw [← eq_of_beq hsign]
    exact h.cursor.subset (List.mem_of_mem_head? hpeek)
  refine .ite (fun _ => h.block false) fun _ => ?_
  refine .ite (fun _ => h.block true) fun _ => ?_
  refine .ite (fun _ => h.quoted false) fun _ => ?_
  refine .ite (fun _ => h.quoted true) fun _ => ?_
  exact .ite (fun _ => h.plain) fun _ => .error lexemeFault_invalid

theorem step (h : s.Within t) : Yields (LexemeFault t) (Within t) s.step :=
  h.skipGaps.dropStale.bind fun _ hs => hs.unwind.token

/-- All tokens, and the fault after them. -/
theorem run {n : Nat} (h : s.Within t) :
    (∀ x ∈ (Lexer.run n s).1, x.Written t) ∧ ∀ f ∈ (Lexer.run n s).2, LexemeFault t f := by
  have hmade : ∀ {s : Lexer}, s.Within t → ∀ x ∈ s.made.reverse, x.Written t := fun hs x hx =>
    hs.made x (List.mem_reverse.1 hx)
  have hinvalid : ∀ f ∈ some Fault.invalid, LexemeFault t f := by
    rintro f ⟨⟩
    exact lexemeFault_invalid
  induction n generalizing s with
  | zero => exact ⟨hmade h, hinvalid⟩
  | succ n ih =>
    rw [Lexer.run]
    have hstep := h.step
    split
    · rename_i f hf
      refine ⟨fun x hx => hmade h x (List.mem_of_mem_take hx), ?_⟩
      rintro _ ⟨⟩
      exact hstep.of_error hf
    · rename_i s' hs'
      have hs' : s'.Within t := hstep.of_ok hs'
      split
      · exact ⟨hmade hs', by simp⟩
      · split
        · exact ih hs'
        · exact ⟨hmade hs', hinvalid⟩
      · split
        · exact ih hs'
        · exact ⟨hmade hs', hinvalid⟩
      · exact ih hs'

end Within

end Lexer

/-- **What the tokens of a text say about it, and what ends them**: a tag needs an exclamation
    mark, a scalar without quotes does not end with a break, and the only fault that is not foreseen
    is that of an escape with a number which is too large by far. -/
theorem tokenize_within (t : Text) :
    (∀ x ∈ (tokenize t).1, x.Written t) ∧ ∀ f ∈ (tokenize t).2, LexemeFault t f := by
  have hstart : (Lexer.start t).Within t := ⟨List.suffix_rfl, by simp [Lexer.start]⟩
  rw [tokenize]
  split
  · dsimp only
    split
    · exact Lexer.Within.run ⟨hstart.cursor.next, hstart.made⟩
    · exact hstart.run
  · refine ⟨by simp, ?_⟩
    rintro _ ⟨⟩
    exact lexemeFault_invalid

end TraitCatalog.Yaml
