/-
  Texts of which it is known exactly how the search for their value ends.

  The causes that end the search with a fault which is not foreseen do so in the simplest texts there
  are: a scalar with a tag and nothing else, and brackets with nothing else.

  * `Lexer.Idle`: a lexer that no key and no indentation keeps from going on;
  * `tokenize_tagged`, `tokenize_brackets`: the tokens of these texts;
  * `load_tagged`: the value of a scalar with a tag is that of its text, for every tag and text;
  * `load_brackets`: brackets are nested too deeply as soon as there are more than the limit.
-/
import Mathlib.Data.List.TakeWhile
import TraitCatalog.Proofs.Yaml.Outcome.Value

namespace TraitCatalog.Yaml

open Text (lit)

/-- A scalar in single quotes with a tag. -/
def tagged (name w : Text) : Text :=
  lit "!!" ++ name ++ lit " '" ++ w ++ lit "'"

/-- A name that a tag may have. -/
def IsTagName (name : Text) : Prop :=
  name ≠ [] ∧ ∀ c ∈ name, isTagPoint c = true ∧ isPrintable c = true

/-- A text that stands in single quotes as it is, on one line. -/
def IsQuotable (w : Text) : Prop :=
  ∀ c ∈ w, isPrintable c = true ∧ isSeparator c = false ∧ c ≠ .scalar '\''

variable {c : Cursor} {name w rest : Text} {n : Nat}

/-! ## Lexemes -/

theorem Cursor.bound_next (c : Cursor) : c.next.bound = c.bound := by
  rw [next]
  split
  · rfl
  · split <;> rfl

theorem Cursor.bound_skip (n : Nat) (c : Cursor) : (c.skip n).bound = c.bound := by
  induction n generalizing c with
  | zero => rfl
  | succ n ih => rw [skip, ih, bound_next]

theorem Cursor.rest_skip (n : Nat) (c : Cursor) : (c.skip n).rest = c.rest.drop n := by
  induction n generalizing c with
  | zero => rfl
  | succ n ih => rw [skip, ih, rest_next, List.drop_tail]

/-- What is read of a word, up to a code point that is none of it. -/
theorem Cursor.takeWhile_word {p : CodePoint → Bool} {ch : CodePoint} (hc : c.rest = w ++ ch :: rest)
    (hw : ∀ d ∈ w, p d = true) (hch : p ch = false) :
    c.takeWhile p = (w, c.skip w.length) ∧ (c.skip w.length).rest = ch :: rest := by
  have htake : c.rest.takeWhile p = w := by
    rw [hc, List.takeWhile_append_of_pos hw, List.takeWhile_cons_of_neg (by simp [hch]),
      List.append_nil]
  refine ⟨by rw [takeWhile, htake], ?_⟩
  rw [rest_skip, hc, List.drop_left]

theorem readTagPieces_end (hc : c.rest = .scalar ' ' :: rest) (n : Nat) :
    readTagPieces n c = .ok ([], c) := by
  cases n with
  | zero => rfl
  | succ n =>
    have hpeek : c.peek 0 = some (.scalar ' ') := by rw [Cursor.peek_zero, hc, List.head?_cons]
    rw [readTagPieces, Cursor.seesChar, Cursor.sees, hpeek]
    rfl

theorem readTagBody_name (hname : IsTagName name) (hbound : 0 < c.bound)
    (hc : c.rest = name ++ .scalar ' ' :: rest) :
    readTagBody c = .ok (name, c.skip name.length) ∧
      (c.skip name.length).rest = .scalar ' ' :: rest := by
  obtain ⟨hne, hpoints⟩ := hname
  obtain ⟨hword, hrest⟩ := Cursor.takeWhile_word hc (fun d hd => (hpoints d hd).1) (by decide)
  have hhead : name.head? = some (name.head hne) := List.head?_eq_some_head hne
  have hpoint : isTagPoint (name.head hne) = true := (hpoints _ (List.head_mem hne)).1
  have hpeek : c.peek 0 = some (name.head hne) := by
    rw [Cursor.peek_zero, hc, List.head?_append, hhead]
    rfl
  have hescape : c.seesChar 0 '%' = false := by
    rw [Cursor.seesChar, hpeek]
    refine beq_false_of_ne fun h => ?_
    rw [Option.some.inj h] at hpoint
    exact absurd hpoint (by decide)
  obtain ⟨n, hn⟩ := Nat.exists_eq_add_of_lt hbound
  have hpieces : readTagPieces c.bound c = .ok (name, c.skip name.length) := by
    rw [hn, Nat.zero_add, readTagPieces, hescape, Cursor.sees_of_peek hpeek hpoint, hword]
    dsimp only
    rw [readTagPieces_end hrest, if_neg Bool.false_ne_true, if_pos rfl]
    simp [bind, Except.bind, pure, Except.pure]
  refine ⟨?_, hrest⟩
  rw [readTagBody, hpieces]
  simp [require, hne, bind, Except.bind, pure, Except.pure]

/-- A tag with the handle `!!`. -/
theorem readTag_name (hname : IsTagName name) (hbound : 0 < c.bound)
    (hc : c.rest = lit "!!" ++ name ++ .scalar ' ' :: rest) :
    ∃ d : Cursor, readTag c = .ok (.tag (some (lit "!!")) name, d) ∧ d.rest = .scalar ' ' :: rest ∧
      d.bound = c.bound := by
  have hsigns : c.rest = .scalar '!' :: .scalar '!' :: (name ++ .scalar ' ' :: rest) := by
    rw [hc, List.append_assoc]
    rfl
  have hbody : c.next.next.rest = name ++ .scalar ' ' :: rest := by
    rw [Cursor.rest_next, Cursor.rest_next, hsigns]
    rfl
  have hbound' : c.next.next.bound = c.bound := by rw [Cursor.bound_next, Cursor.bound_next]
  obtain ⟨hread, hrest⟩ := readTagBody_name hname (hbound'.symm ▸ hbound) hbody
  refine ⟨_, ?_, hrest, by rw [Cursor.bound_skip, hbound']⟩
  have hnone : c.next.takeWhile isNamePoint = ([], c.next) :=
    Cursor.takeWhile_none (by
      rw [Cursor.sees, Cursor.peek_zero, Cursor.rest_next, hsigns, List.tail_cons, List.head?_cons]
      decide)
  have hhandle : readTagHandle c = .ok (lit "!!", c.next.next) := by
    rw [readTagHandle, hnone]
    simp [Cursor.seesChar, Cursor.peek, Cursor.rest_next, hsigns, require, bind, Except.bind, pure,
      Except.pure]
    rfl
  have hpeek : c.peek 1 = some (.scalar '!') := by rw [Cursor.peek, hsigns]; rfl
  have hverbatim : c.seesChar 1 '<' = false := by rw [Cursor.seesChar, hpeek]; decide
  have hgap : c.seesGap 1 = false := by rw [Cursor.seesGap, hpeek]; decide
  have hword : (((c.rest.drop 1).takeWhile fun ch => !(ch == .scalar ' ' || isBreak ch)).contains
      (.scalar '!')) = true := by
    rw [hsigns, List.drop_one, List.tail_cons, List.takeWhile_cons_of_pos (by decide)]
    exact List.contains_iff_mem.2 (List.mem_cons_self ..)
  have hend : (c.next.next.skip name.length).seesWordEnd 0 = true := by
    rw [Cursor.seesWordEnd, Cursor.peek_zero, hrest]
    rfl
  rw [readTag]
  dsimp only
  rw [hverbatim, hgap, hword, if_neg Bool.false_ne_true, if_neg Bool.false_ne_true, if_pos rfl,
    hhandle]
  simp only [bind, Except.bind, hread, pure, Except.pure, require, hend, if_true]

/-! ## Quotes -/

theorem readQuotedPiece_end (hc : c.rest = lit "'") :
    readQuotedPiece false c = .ok (none, c.next) := by
  have hpeek : c.peek 0 = some (.scalar '\'') := by rw [Cursor.peek_zero, hc]; rfl
  have hone : c.seesChar 1 '\'' = false := by rw [Cursor.seesChar, Cursor.peek, hc]; rfl
  rw [readQuotedPiece, hpeek]
  simp only [hone]
  rfl

theorem readQuotedPiece_point {ch : CodePoint} (hc : c.rest = ch :: rest)
    (hgap : isSeparator ch = false) (hquote : ch ≠ .scalar '\'') :
    readQuotedPiece false c = .ok (some [ch], c.next) := by
  have hpeek : c.peek 0 = some ch := by rw [Cursor.peek_zero, hc]; rfl
  rw [readQuotedPiece, hpeek]
  simp [hgap, hquote]
  rfl

theorem readQuotedPieces_quotable (hw : IsQuotable w) (hn : w.length < n)
    (hc : c.rest = w ++ lit "'") :
    ∃ d : Cursor, readQuotedPieces false n c = .ok (w, d) ∧ d.rest = [] ∧ d.bound = c.bound := by
  induction w generalizing n c with
  | nil =>
    obtain ⟨n, rfl⟩ := Nat.exists_eq_add_of_lt hn
    rw [readQuotedPieces, readQuotedPiece_end hc]
    exact ⟨c.next, rfl, by rw [Cursor.rest_next, hc]; rfl, c.bound_next⟩
  | cons ch w ih =>
    obtain ⟨hch, hw⟩ := List.forall_mem_cons.1 hw
    obtain ⟨n, rfl⟩ := Nat.exists_eq_add_of_lt hn
    obtain ⟨d, hread, hrest, hbound⟩ := ih (n := (ch :: w).length + n) (c := c.next) hw
      (by rw [List.length_cons]; omega) (by rw [Cursor.rest_next, hc]; rfl)
    refine ⟨d, ?_, hrest, hbound.trans c.bound_next⟩
    rw [readQuotedPieces, readQuotedPiece_point hc hch.2.1 hch.2.2]
    simp only [bind, Except.bind, hread]
    rfl

/-! ## Tokens -/

namespace Lexer

/-- Outside block collections, where no key has to be; what the tokens so far are. -/
structure Idle (made : List Token) (s : Lexer) : Prop where
  made : s.made = made
  indents : s.indents = []
  optional : ∀ k ∈ s.keys, k.required = false

namespace Idle

variable {s : Lexer} {made : List Token} {x : Token} {d : Cursor}

theorem forgetKey (h : s.Idle made) :
    ∃ s' : Lexer, s.forgetKey = .ok s' ∧ s'.Idle made ∧ s'.cursor = s.cursor := by
  have hkey : s.key?.any (·.required) = false := by
    rw [Lexer.key?]
    cases hk : s.keys with
    | nil => rfl
    | cons k keys =>
      have hrequired := h.optional k (hk ▸ List.mem_cons_self ..)
      simp [Option.filter_some, apply_ite, hrequired]
  have houter : ∀ k ∈ s.outerKeys, k.required = false := by
    intro k hk
    rw [Lexer.outerKeys] at hk
    split at hk
    · exact h.optional k (List.mem_of_mem_tail hk)
    · exact h.optional k hk
  refine ⟨{ s with keys := s.outerKeys }, ?_, ⟨h.made, h.indents, houter⟩, rfl⟩
  rw [Lexer.forgetKey, hkey]
  rfl

theorem noteKey (h : s.Idle made) :
    ∃ s' : Lexer, s.noteKey = .ok s' ∧ s'.Idle made ∧ s'.cursor = s.cursor := by
  rw [Lexer.noteKey]
  split
  · obtain ⟨s', hs', hidle, hcursor⟩ := h.forgetKey
    let place : KeyPlace := ⟨s'.depth, s'.count, !s.inFlow && s.indents.head? == some s.cursor.column,
      s.cursor.line, s.cursor.column, s.cursor.index⟩
    have hplace : place.required = false := by simp [place, h.indents]
    refine ⟨{ s' with keys := place :: s'.keys }, by rw [hs']; rfl,
      ⟨hidle.made, hidle.indents, ?_⟩, hcursor⟩
    exact List.forall_mem_cons.2 ⟨hplace, hidle.optional⟩
  · exact ⟨s, rfl, h, rfl⟩

theorem content (h : s.Idle made) (read : Cursor → Except Fault (Token × Cursor))
    (hread : read s.cursor = .ok (x, d)) :
    ∃ s' : Lexer, s.content read = .ok s' ∧ s'.Idle (x :: made) ∧ s'.cursor = d := by
  obtain ⟨s', hs', hidle, hcursor⟩ := h.noteKey
  refine ⟨{ s'.emitAt x d with keyAllowed := false }, ?_, ⟨?_, hidle.indents, hidle.optional⟩, rfl⟩
  · rw [Lexer.content, hs']
    simp only [bind, Except.bind, hcursor, hread]
    rfl
  · rw [← hidle.made]
    rfl

/-- A step is made after the spaces that stand here. -/
theorem step (h : s.Idle made) (hbound : 0 < s.cursor.bound) (hd : s.cursor.skipSpaces = d)
    (hcomment : d.seesChar 0 '#' = false) (hbreak : d.sees 0 isBreak = false) :
    ∃ s' : Lexer, s.step = s'.token ∧ s'.Idle made ∧ s'.cursor = d := by
  obtain ⟨n, hn⟩ := Nat.exists_eq_add_of_lt hbound
  have hgaps : skipGaps s.cursor.bound s = { s with cursor := d } := by
    rw [hn, Nat.zero_add, skipGaps, hd, Cursor.skipComment, hcomment, if_neg Bool.false_ne_true,
      hbreak, if_neg Bool.false_ne_true]
  have hstale : ∀ k ∈ s.keys.drop (s.keys.takeWhile (!isStale d ·)).length, k.required = false :=
    fun k hk => h.optional k (List.mem_of_mem_drop hk)
  refine ⟨{ s with cursor := d, keys := s.keys.takeWhile (!isStale d ·) }, ?_,
    ⟨h.made, h.indents, fun k hk => h.optional k ((List.takeWhile_sublist _).subset hk)⟩, rfl⟩
  have hdropped : (s.keys.drop (s.keys.takeWhile (!isStale d ·)).length).any (·.required) = false :=
    List.any_eq_false.2 fun k hk => by rw [hstale k hk]; exact Bool.false_ne_true
  rw [Lexer.step, hgaps, dropStale]
  dsimp only
  rw [hdropped]
  simp only [require, Bool.not_false, if_true, bind, Except.bind, pure, Except.pure]
  rw [unwind, h.indents, closeTo, ite_self]

theorem token_tag (hpeek : s.cursor.peek 0 = some (.scalar '!')) : s.token = s.content readTag := by
  rw [Lexer.token, hpeek]
  simp [Cursor.seesMarker, Cursor.seesChar, hpeek]

theorem token_quote (hpeek : s.cursor.peek 0 = some (.scalar '\'')) : s.token =
    s.content fun c => do let (t, c) ← readQuoted false c; return (.scalar false t, c) := by
  rw [Lexer.token, hpeek]
  simp [Cursor.seesMarker, Cursor.seesChar, hpeek]

theorem step_tag (h : s.Idle made) (hname : IsTagName name) (hbound : 0 < s.cursor.bound)
    (hrest : s.cursor.rest = lit "!!" ++ name ++ .scalar ' ' :: rest) :
    ∃ s' : Lexer, s.step = .ok s' ∧ s'.Idle (.tag (some (lit "!!")) name :: made) ∧
      s'.cursor.rest = .scalar ' ' :: rest ∧ s'.cursor.bound = s.cursor.bound := by
  have hsign : s.cursor.peek 0 = some (.scalar '!') := by rw [Cursor.peek_zero, hrest]; rfl
  have hspaces : s.cursor.skipSpaces = s.cursor := by
    rw [Cursor.skipSpaces, Cursor.takeWhile_none]
    rw [Cursor.sees, hsign]
    rfl
  obtain ⟨s', hs', hidle, hcursor⟩ := h.step hbound hspaces
    (by rw [Cursor.seesChar, hsign]; decide) (by rw [Cursor.sees, hsign]; rfl)
  obtain ⟨d, hread, hd, hdbound⟩ := readTag_name hname hbound hrest
  obtain ⟨s'', hs'', hidle', rfl⟩ := hidle.content readTag (hcursor ▸ hread)
  exact ⟨s'', by rw [hs', token_tag (hcursor ▸ hsign), hs''], hidle', hd, hdbound⟩

theorem step_quoted (h : s.Idle made) (hw : IsQuotable w) (hbound : w.length < s.cursor.bound)
    (hrest : s.cursor.rest = .scalar ' ' :: (lit "'" ++ w ++ lit "'")) :
    ∃ s' : Lexer, s.step = .ok s' ∧ s'.Idle (.scalar false w :: made) ∧
      s'.cursor.rest = [] ∧ s'.cursor.bound = s.cursor.bound := by
  have hrest' : s.cursor.rest = [.scalar ' '] ++ .scalar '\'' :: (w ++ lit "'") := hrest
  obtain ⟨hspace, hquoted⟩ :=
    Cursor.takeWhile_word (p := (· == .scalar ' ')) hrest' (by simp) (by decide)
  rw [List.length_singleton, Cursor.skip, Cursor.skip] at hspace hquoted
  have hquote : s.cursor.next.peek 0 = some (.scalar '\'') := by rw [Cursor.peek_zero, hquoted]; rfl
  obtain ⟨s', hs', hidle, hcursor⟩ := h.step (Nat.zero_lt_of_lt hbound)
    (by rw [Cursor.skipSpaces, hspace]) (by rw [Cursor.seesChar, hquote]; decide)
    (by rw [Cursor.sees, hquote]; rfl)
  obtain ⟨e, hpieces, he, hebound⟩ := readQuotedPieces_quotable (c := s.cursor.next.next) hw
    (n := s.cursor.next.bound) (by rwa [Cursor.bound_next]) (by rw [Cursor.rest_next, hquoted]; rfl)
  have hread : (do let (t, c) ← readQuoted false s'.cursor; return (Token.scalar false t, c) :
      Except Fault (Token × Cursor)) = .ok (.scalar false w, e) := by
    rw [hcursor, readQuoted, hpieces]
    rfl
  obtain ⟨s'', hs'', hidle', rfl⟩ := hidle.content
    (fun c => do let (t, c) ← readQuoted false c; return (.scalar false t, c)) hread
  refine ⟨s'', by rw [hs', token_quote (hcursor ▸ hquote), hs''], hidle', he, ?_⟩
  rw [hebound, Cursor.bound_next, Cursor.bound_next]

theorem token_open (hpeek : s.cursor.peek 0 = some (.scalar '[')) :
    s.token = s.openFlow .openSequence := by
  rw [Lexer.token, hpeek]
  simp [Cursor.seesMarker, Cursor.seesChar, hpeek]

theorem step_open (h : s.Idle made) (hbound : 0 < s.cursor.bound)
    (hrest : s.cursor.rest = .scalar '[' :: rest) :
    ∃ s' : Lexer, s.step = .ok s' ∧ s'.Idle (.openSequence :: made) ∧ s'.cursor.rest = rest ∧
      s'.cursor.bound = s.cursor.bound := by
  have hopen : s.cursor.peek 0 = some (.scalar '[') := by rw [Cursor.peek_zero, hrest]; rfl
  have hspaces : s.cursor.skipSpaces = s.cursor := by
    rw [Cursor.skipSpaces, Cursor.takeWhile_none]
    rw [Cursor.sees, hopen]
    rfl
  obtain ⟨s₁, hs₁, hidle, hcursor⟩ := h.step hbound hspaces
    (by rw [Cursor.seesChar, hopen]; decide) (by rw [Cursor.sees, hopen]; rfl)
  obtain ⟨s₂, hs₂, hidle', hcursor'⟩ := hidle.noteKey
  refine ⟨{ s₂.emitSign .openSequence with depth := s₂.depth + 1, keyAllowed := true }, ?_,
    ⟨?_, hidle'.indents, hidle'.optional⟩, ?_, ?_⟩
  · rw [hs₁, token_open (hcursor ▸ hopen), openFlow, hs₂]
    rfl
  · rw [← hidle'.made]
    rfl
  · change s₂.cursor.next.rest = rest
    rw [hcursor', hcursor, Cursor.rest_next, hrest, List.tail_cons]
  · change s₂.cursor.next.bound = s.cursor.bound
    rw [hcursor', hcursor, Cursor.bound_next]

theorem step_end (h : s.Idle made) (hbound : 0 < s.cursor.bound) (hrest : s.cursor.rest = []) :
    ∃ s' : Lexer, s.step = .ok s' ∧ s'.made = .streamEnd :: made := by
  have hpeek : s.cursor.peek 0 = none := by rw [Cursor.peek_zero, hrest]; rfl
  have hspaces : s.cursor.skipSpaces = s.cursor := by
    rw [Cursor.skipSpaces, Cursor.takeWhile_none]
    rw [Cursor.sees, hpeek]
    rfl
  obtain ⟨s', hs', hidle, hcursor⟩ := h.step hbound hspaces
    (by rw [Cursor.seesChar, hpeek]; decide) (by rw [Cursor.sees, hpeek]; rfl)
  have hidle' : s'.unwindAll.Idle made := by
    rw [unwindAll, hidle.indents]
    split
    · exact hidle
    · exact ⟨hidle.made, rfl, hidle.optional⟩
  obtain ⟨s'', hs'', hmade, -⟩ := hidle'.forgetKey
  refine ⟨({ s'' with keyAllowed := false } : Lexer).emit .streamEnd, ?_, ?_⟩
  · rw [hs', Lexer.token, hcursor, hpeek]
    simp only [endAll, hs'', bind, Except.bind, pure, Except.pure]
  · rw [← hmade.made]
    rfl

end Idle

end Lexer

/-! ## The text -/

theorem tagged_printable (hname : IsTagName name) (hw : IsQuotable w) :
    (tagged name w).all isPrintable = true := by
  have hname' : name.all isPrintable = true := List.all_eq_true.2 fun c hc => (hname.2 c hc).2
  have hw' : List.all w isPrintable = true := List.all_eq_true.2 fun c hc => (hw c hc).1
  rw [tagged, List.all_append, List.all_append, List.all_append, List.all_append, hname', hw']
  decide

/-- The tokens of a scalar with a tag. -/
theorem tokenize_tagged (hname : IsTagName name) (hw : IsQuotable w) : tokenize (tagged name w) =
    ([.tag (some (lit "!!")) name, .scalar false w, .streamEnd], none) := by
  have hstart : (Lexer.start (tagged name w)).Idle [] := ⟨rfl, rfl, by simp [Lexer.start]⟩
  have hrest : (Lexer.start (tagged name w)).cursor.rest =
      lit "!!" ++ name ++ .scalar ' ' :: (lit "'" ++ w ++ lit "'") := by
    rw [Lexer.start, Cursor.start, tagged, List.append_assoc, List.append_assoc, List.append_assoc]
    rfl
  have hlength : (tagged name w).length = 5 + name.length + w.length := by
    simp [tagged, lit]
    omega
  have hbound : (Lexer.start (tagged name w)).cursor.bound = 5 + name.length + w.length + 1 := by
    rw [← hlength]
    rfl
  obtain ⟨s₁, hs₁, hidle₁, hrest₁, hbound₁⟩ := hstart.step_tag hname (by omega) hrest
  obtain ⟨s₂, hs₂, hidle₂, hrest₂, hbound₂⟩ := hidle₁.step_quoted hw (by omega) hrest₁
  obtain ⟨s₃, hs₃, hmade₃⟩ := hidle₂.step_end (by omega) hrest₂
  have hmark : ((tagged name w).head? == some byteOrderMark) = false := rfl
  have hrounds : (tagged name w).length + 2 = (4 + name.length + w.length) + 3 := by omega
  rw [tokenize, if_pos (tagged_printable hname hw), hmark]
  simp only [Bool.false_eq_true, if_false, hrounds]
  simp only [Lexer.run, hs₁, hs₂, hs₃, hidle₁.made, hidle₂.made, hmade₃]
  rfl

/-! ## The value -/

/-- The nodes of a scalar with a tag. -/
theorem ofText_tagged (hname : IsTagName name) (hw : IsQuotable w) : Graph.ofText (tagged name w) =
    .ok (#[⟨.ofName (Tag.lead ++ name), .scalar w⟩], some 0) := by
  rw [Graph.ofText, tokenize_tagged hname hw]
  rfl

theorem ofPart_leaf (built : List (Nat × Filling)) (depth : Nat) (v : Value) :
    Value.ofPart built depth (.leaf v) = v := by
  cases depth <;> rfl

/-- A value that is a scalar is all there is to build. -/
theorem build_leaf (x : Except Fault Value) (cells : Graph) (bound depth n : Nat) :
    ((do
      let p ← (do return Part.leaf (← x) : Build Part)
      Build.all (n + 1)
      return p : Build Part).run ⟨cells, bound, [], [], []⟩ >>=
        fun (p, s) => pure (Value.ofPart s.built depth p)) = x := by
  cases x with
  | error f => rfl
  | ok v => exact congrArg Except.ok (ofPart_leaf [] depth v)

/-- The value of a scalar with a tag. -/
theorem load_tagged (hname : IsTagName name) (hw : IsQuotable w) (depth : Nat) :
    load depth (tagged name w) = Build.scalarValue (.ofName (Tag.lead ++ name)) (.scalar w) w := by
  rw [load, ofText_tagged hname hw]
  generalize Tag.ofName (Tag.lead ++ name) = tag
  have hleaf := build_leaf (Build.scalarValue tag (.scalar w) w) #[⟨tag, .scalar w⟩]
    (Graph.mergeCount #[⟨tag, .scalar w⟩] + 1) depth 1
  cases tag with
  | sequence | mapping | set | orderedMapping | pairs | merge | default | unknown => rfl
  | null | text | truth | integer | real | bytes | moment => exact hleaf

/-! ## Nested brackets -/

/-- So many opening brackets. -/
def brackets (n : Nat) : Text :=
  List.replicate n (.scalar '[')

theorem Lexer.Idle.run_brackets {s : Lexer} {made : List Token} (h : s.Idle made) (k rounds : Nat)
    (hbound : 0 < s.cursor.bound) (hrest : s.cursor.rest = brackets k) :
    Lexer.run (k + 1 + rounds) s =
      (made.reverse ++ (List.replicate k .openSequence ++ [.streamEnd]), none) := by
  induction k generalizing s made with
  | zero =>
    obtain ⟨s', hs', hmade⟩ := h.step_end hbound hrest
    rw [Nat.zero_add, Nat.add_comm, Lexer.run, hs']
    simp only [hmade]
    simp
  | succ k ih =>
    obtain ⟨s', hs', hidle, hrest', hbound'⟩ := h.step_open hbound hrest
    rw [Nat.add_right_comm, Lexer.run, hs']
    simp only [hidle.made]
    rw [ih hidle (hbound' ▸ hbound) hrest']
    simp [List.replicate_succ]

theorem tokenize_brackets (n : Nat) :
    tokenize (brackets n) = (List.replicate n .openSequence ++ [.streamEnd], none) := by
  have hstart : (Lexer.start (brackets n)).Idle [] := ⟨rfl, rfl, by simp [Lexer.start]⟩
  have hprintable : List.all (brackets n) isPrintable = true :=
    List.all_eq_true.2 fun c hc => by rw [List.eq_of_mem_replicate hc]; decide
  have hmark : ((brackets n).head? == some byteOrderMark) = false := by
    cases n <;> rfl
  rw [tokenize, if_pos hprintable, hmark]
  have hlength : (brackets n).length + 2 = n + 1 + 1 := by rw [brackets, List.length_replicate]
  rw [hlength]
  exact hstart.run_brackets n 1 (Nat.succ_pos _) rfl

namespace Compose

variable {child grandchild : Child} {position : Position} {f : Fault} {ts : List Token} {s : Composer}

variable {α β : Type} {m : Compose α} {g : α → Compose β}

theorem run_bind_ok {a : α} {s' : Composer} (h : m.run s = .ok (a, s')) :
    (m >>= g).run s = (g a).run s' := by
  rw [StateT.run_bind, h]
  rfl

theorem run_bind_error (h : m.run s = .error f) : (m >>= g).run s = .error f := by
  rw [StateT.run_bind, h]
  rfl

theorem peek_cons {x : Token} (hs : s.tokens = x :: ts) : peek.run s = .ok (x, s) := by
  obtain ⟨tokens, fault, bound, cells, anchors, handles⟩ := s
  obtain rfl := hs
  rfl

theorem accept_ne {x z : Token} (hs : s.tokens = x :: ts) (hz : x ≠ z) :
    (accept z).run s = .ok (false, s) := by
  rw [accept, run_bind_ok (peek_cons hs), if_neg hz]
  rfl

/-- The first item of brackets in which a bracket comes next. -/
theorem flowItems_open {n : Nat} (hs : s.tokens = .openSequence :: ts)
    (hchild : (child .flow).run s = .error f) :
    (flowItems child grandchild true (n + 1)).run s = .error f := by
  have hitem : (flowItem child grandchild).run s = .error f := by
    rw [flowItem, run_bind_ok (accept_ne hs (by decide)), if_neg Bool.false_ne_true, hchild]
  have hclose : (accept .closeSequence).run s = .ok (false, s) := accept_ne hs (by decide)
  rw [flowItems, run_bind_ok hclose, if_neg Bool.false_ne_true, if_pos rfl, run_bind_ok hclose,
    if_neg Bool.false_ne_true, run_bind_error hitem]

/-- A collection whose children are not read is not read. -/
theorem collection_error {tag : Tag} {children : Compose Content}
    (hchildren : ∀ s' : Composer, s'.tokens = s.tokens → s'.bound = s.bound →
      children.run s' = .error f) : (collection none tag children).run s = .error f := by
  have hadd : (addCell ⟨tag, .sequence []⟩).run s =
      .ok (s.cells.size, { s with cells := s.cells.push ⟨tag, .sequence []⟩ }) := rfl
  have hbind : ∀ i (s' : Composer), (bindAnchor none i).run s' = .ok ((), s') := fun _ _ => rfl
  rw [collection, run_bind_ok hadd, run_bind_ok (hbind _ _)]
  exact run_bind_error (hchildren _ rfl rfl)

/-- A bracket inside a bracket is read as a child. -/
theorem nodeWith_open (hs : s.tokens = .openSequence :: .openSequence :: ts) (hbound : 0 < s.bound)
    (hchild : ∀ s' : Composer, s'.tokens = .openSequence :: ts → 0 < s'.bound →
      (child .flow).run s' = .error f) : (nodeWith child grandchild position).run s = .error f := by
  obtain ⟨n, hn⟩ := Nat.exists_eq_add_of_lt hbound
  have hproperties : properties.run s = .ok ((none, .none), s) := by
    rw [properties, run_bind_ok (peek_cons hs)]
    rfl
  rw [nodeWith, run_bind_ok (peek_cons hs)]
  dsimp only
  rw [run_bind_ok hproperties]
  dsimp only
  have hget : (get : Compose Composer).run s = .ok (s, s) := rfl
  have hadvance : advance.run s = .ok ((), { s with tokens := s.tokens.tail }) := rfl
  rw [run_bind_ok hget, run_bind_ok (peek_cons hs)]
  dsimp only
  rw [run_bind_ok hadvance, hn, Nat.zero_add]
  refine collection_error fun s' hs' hbound' => ?_
  have htokens : s'.tokens = .openSequence :: ts := by rw [hs', hs, List.tail_cons]
  have hpos : 0 < s'.bound := by
    rw [hbound']
    exact Nat.succ_pos n
  exact run_bind_error (flowItems_open htokens (hchild s' htokens hpos))

/-- Brackets that are nested too deeply for the room that is left. -/
theorem node_brackets (room : Nat) (position : Position) (s : Composer) (hbound : 0 < s.bound)
    (hs : s.tokens = List.replicate (room + 1) .openSequence ++ ts) :
    (node room position).run s = .error .tooDeep := by
  match room with
  | 0 => rfl
  | 1 => exact nodeWith_open hs hbound fun s' _ _ => rfl
  | room + 2 =>
    exact nodeWith_open hs hbound fun s' hs' hbound' => node_brackets (room + 1) .flow s' hbound' hs'

end Compose

theorem ofText_brackets {n : Nat} (hn : depthLimit < n) :
    Graph.ofText (brackets n) = .error .tooDeep := by
  obtain ⟨k, rfl⟩ := Nat.exists_eq_add_of_lt hn
  rw [Graph.ofText, tokenize_brackets]
  dsimp only
  generalize hs : Composer.mk _ _ _ _ _ _ = s
  have htokens : s.tokens =
      .openSequence :: (List.replicate (depthLimit + k) .openSequence ++ [.streamEnd]) := by
    rw [← hs, List.replicate_succ]
    rfl
  have hnested : s.tokens = List.replicate (depthLimit + 1) .openSequence ++
      (List.replicate k .openSequence ++ [.streamEnd]) := by
    rw [htokens, List.replicate_succ, List.replicate_add, List.append_assoc]
    rfl
  have hpos : 0 < s.bound := by
    rw [← hs]
    exact Nat.succ_pos _
  have hpeek := Compose.peek_cons htokens
  have hnode := Compose.node_brackets depthLimit .block s hpos hnested
  have hdocument : (Compose.document s.bound).run s = .error .tooDeep := by
    rw [Compose.document, Compose.run_bind_ok hpeek, if_neg (by decide), Compose.run_bind_ok hpeek]
    exact Compose.run_bind_error hnode
  have hbound : s.bound = (List.replicate (depthLimit + k + 1) Token.openSequence ++
      [Token.streamEnd]).length + 1 := by rw [← hs]
  rw [← hbound, hdocument]
  rfl

theorem load_brackets {n : Nat} (hn : depthLimit < n) (depth : Nat) :
    load depth (brackets n) = .error .tooDeep := by
  rw [load, ofText_brackets hn]
  rfl

end TraitCatalog.Yaml
