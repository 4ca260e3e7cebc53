/-
  Tokens of two texts that differ in how their lines end.

  `tokenize_unified`: a text and the one in which its breaks are unified have the same tokens, and the
  same fault if there is one.

  Two lexers are `Alike` if they have made the same tokens and stand at corresponding places.  They
  may have numbered their places differently, so the places where keys may have started are related
  by `SameKey`, and how far behind they are is kept by marks.  Every token but the last takes part of
  the text, so that the bounds on the steps of both are enough (`run_alike`).
-/
import Mathlib.Data.List.Forall2
import TraitCatalog.Proofs.Yaml.Lexeme
import TraitCatalog.Yaml.TokenStream

namespace TraitCatalog.Yaml

namespace Lexer

/-! ## Lexers side by side -/

/-- The same place of two texts, apart from its index. -/
structure SameKey (p q : KeyPlace) : Prop where
  depth : p.depth = q.depth
  before : p.before = q.before
  required : p.required = q.required
  line : p.line = q.line
  column : p.column = q.column

/-- Where keys may have started in both texts. -/
def marks (ps qs : List KeyPlace) : List Mark :=
  List.zipWith (fun p q => ⟨p.line, p.index, q.index⟩) ps qs

/-- The lexers have made the same tokens and stand at corresponding places. -/
structure Alike (k : Nat) (s t : Lexer) : Prop where
  cursor : Cursor.Alike (marks s.keys t.keys) k s.cursor t.cursor
  keys : List.Forall₂ SameKey s.keys t.keys
  made : s.made = t.made
  count : s.count = t.count
  indents : s.indents = t.indents
  depth : s.depth = t.depth
  keyAllowed : s.keyAllowed = t.keyAllowed

/-- The lexers `s'` and `t'` are alike, and still where `s` and `t` were. -/
structure Kept (k : Nat) (s t s' t' : Lexer) : Prop where
  alike : Alike k s' t'
  left : s'.cursor = s.cursor
  right : t'.cursor = t.cursor
  depth : s'.depth = s.depth

variable {k n m : Nat} {s t : Lexer} {ps qs : List KeyPlace}

theorem endBlocks_keeps (indents : List Nat) (s : Lexer) :
    (indents.foldl (fun s _ => s.emit .blockEnd) s).cursor = s.cursor ∧
      (indents.foldl (fun s _ => s.emit .blockEnd) s).depth = s.depth := by
  induction indents generalizing s with
  | nil => exact ⟨rfl, rfl⟩
  | cons i is ih => exact ih (s.emit .blockEnd)

theorem unwindAll_keeps (s : Lexer) : s.unwindAll.cursor = s.cursor ∧ s.unwindAll.depth = s.depth := by
  rw [unwindAll]
  split
  · exact ⟨rfl, rfl⟩
  · exact endBlocks_keeps s.indents s

theorem openUnlessFlow_cursor (s : Lexer) (x : Token) :
    (if s.inFlow then s else s.openBlock x).cursor = s.cursor := by
  rw [openBlock]
  split
  · rfl
  · split
    · rfl
    · rfl

theorem openMappingAt_cursor (s : Lexer) (before column : Nat) :
    (if !s.inFlow && s.isDeeper column then
      { s.emitAfter before .blockMapping with indents := column :: s.indents } else s).cursor =
      s.cursor := by
  split
  · rfl
  · rfl

/-- A word starts at a code point that is neither a blank nor a sign. -/
theorem plainWord_ne_nil {inFlow : Bool} {c : CodePoint} {t : Text} (hs : isSeparator c = false)
    (hcolon : c = .scalar ':' →
      (t.head?.all fun d => isSeparator d || (inFlow && d.isOneOf ",[]\x7b\x7d")) = false)
    (hflow : (inFlow && c.isOneOf ",?[]\x7b\x7d") = false) :
    (plainWord inFlow (c :: t)).isEmpty = false := by
  have hc : (c == .scalar ':' &&
      t.head?.all fun d => isSeparator d || (inFlow && d.isOneOf ",[]\x7b\x7d")) = false := by
    rw [Bool.and_eq_false_imp, beq_iff_eq]
    exact hcolon
  rw [plainWord, hs, hc, hflow]
  rfl

/-- Where a plain scalar may start, there is a word. -/
theorem word_of_startsPlain (hs : s.startsPlain = true) :
    (wordAt s.inFlow s.cursor).isEmpty = false := by
  rw [startsPlain, Cursor.seesGap, Cursor.peek_succ, Cursor.peek_zero, Cursor.rest_next, Cursor.sees,
    Cursor.sees, Cursor.seesChar, Cursor.peek_zero] at hs
  rw [wordAt, Cursor.seesChar, Cursor.peek_zero]
  generalize s.cursor.rest = t at hs
  generalize s.inFlow = inFlow at hs
  cases t with
  | nil => simp at hs
  | cons c t =>
    simp only [List.head?_cons, Option.any_some, List.tail_cons, Bool.or_eq_true, Bool.and_eq_true,
      Bool.not_eq_true', Bool.or_eq_false_iff, beq_iff_eq, Option.some.injEq] at hs
    rw [List.head?_cons]
    rcases hs with ⟨hsep, hsigns⟩ | ⟨hgap, rfl | ⟨rfl, hc⟩⟩
    · -- None of the signs that could end a word at once.
      have hne : ∀ x ∈ "#:,?[]\x7b\x7d".toList, c ≠ .scalar x := by
        rintro x hx rfl
        have hsign : ("#:,?[]\x7b\x7d".toList.all fun x =>
            CodePoint.isOneOf "-?:,[]\x7b\x7d#&*!|>'\"%@`" (.scalar x)) = true := by decide
        rw [List.all_eq_true.1 hsign x hx] at hsigns
        cases hsigns
      rw [if_neg (by simpa using hne '#' (by decide))]
      refine plainWord_ne_nil hsep (fun hc => absurd hc (hne ':' (by decide))) ?_
      rw [← Bool.not_eq_true, Bool.and_eq_true]
      rintro ⟨-, hflow⟩
      obtain ⟨x, hx, rfl⟩ := exists_of_isOneOf hflow
      have hsub : ",?[]\x7b\x7d".toList ⊆ "#:,?[]\x7b\x7d".toList := by decide
      exact hne x (hsub hx) rfl
    · show (plainWord inFlow (.scalar '-' :: t)).isEmpty = false
      refine plainWord_ne_nil ?_ (fun hc => absurd hc (by decide)) ?_
      · decide
      · cases inFlow <;> decide
    · obtain ⟨x, hx, rfl⟩ := exists_of_isOneOf hc
      have hx : x = '?' ∨ x = ':' := by simpa using hx
      have hcolon :
          (t.head?.all fun d => isSeparator d || (false && d.isOneOf ",[]\x7b\x7d")) = false := by
        simpa only [Bool.false_and, Bool.or_false] using hgap
      rcases hx with rfl | rfl
      · show (plainWord false (.scalar '?' :: t)).isEmpty = false
        exact plainWord_ne_nil rfl (fun _ => hcolon) rfl
      · show (plainWord false (.scalar ':' :: t)).isEmpty = false
        exact plainWord_ne_nil rfl (fun _ => hcolon) rfl

namespace Alike

theorem weaken {k' : Nat} (h : Alike k s t) (hk : k ≤ k') : Alike k' s t :=
  { h with cursor := h.cursor.weaken hk }

theorem inFlow (h : Alike k s t) : s.inFlow = t.inFlow := by
  rw [Lexer.inFlow, Lexer.inFlow, h.depth]

theorem isDeeper (h : Alike k s t) (column : Nat) : s.isDeeper column = t.isDeeper column := by
  rw [Lexer.isDeeper, Lexer.isDeeper, h.indents]

theorem allow (h : Alike k s t) {b b' : Bool} (hb : b = b') :
    Alike k { s with keyAllowed := b } { t with keyAllowed := b' } :=
  { h with keyAllowed := hb }

theorem moveTo {k' : Nat} {c d : Cursor} (h : Alike k s t)
    (hc : Cursor.Alike (marks s.keys t.keys) k' c d) :
    Alike k' { s with cursor := c } { t with cursor := d } :=
  { h with cursor := hc }

theorem withKeys (h : Alike k s t) (hk : List.Forall₂ SameKey ps qs)
    (hm : marks ps qs ⊆ marks s.keys t.keys) : Alike k { s with keys := ps } { t with keys := qs } :=
  { h with cursor := h.cursor.mono hm, keys := hk }

theorem emit (h : Alike k s t) (x : Token) : Alike k (s.emit x) (t.emit x) :=
  { h with made := congrArg (x :: ·) h.made, count := congrArg (· + 1) h.count }

theorem emitAt {k' : Nat} {c d : Cursor} (h : Alike k s t) (x : Token)
    (hc : Cursor.Alike (marks s.keys t.keys) k' c d) : Alike k' (s.emitAt x c) (t.emitAt x d) :=
  (h.emit x).moveTo hc

theorem emitSign (h : Alike k s t) (hp : s.cursor.AtPoint) (x : Token) :
    Alike (k - 1) (s.emitSign x) (t.emitSign x) :=
  h.emitAt x (h.cursor.next hp)

theorem emitAfter (h : Alike k s t) (before : Nat) (x : Token) :
    Alike k (s.emitAfter before x) (t.emitAfter before x) := by
  refine { h with made := ?_, count := congrArg (· + 1) h.count }
  show s.made.take (s.count - before) ++ x :: s.made.drop (s.count - before) =
    t.made.take (t.count - before) ++ x :: t.made.drop (t.count - before)
  rw [h.made, h.count]

/-! ## Keys -/

theorem isStale {c d : Cursor} {p q : KeyPlace} (hl : c.line = d.line) (hk : SameKey p q)
    (hn : Mark.Near ⟨p.line, p.index, q.index⟩ c d) : isStale c p = isStale d q := by
  obtain ⟨-, hi⟩ := hn
  dsimp only at hi
  rw [Lexer.isStale, Lexer.isStale, hk.line, hl]
  by_cases hq : q.line = d.line
  · have := hi (by rw [hk.line, hl, hq])
    rw [show c.index - p.index = d.index - q.index by omega]
  · have hne : (q.line != d.line) = true := bne_iff_ne.2 hq
    rw [hne]
    rfl

theorem any_required (h : List.Forall₂ SameKey ps qs) : ps.any (·.required) = qs.any (·.required) := by
  induction h with
  | nil => rfl
  | cons hpq _ ih => rw [List.any_cons, List.any_cons, hpq.required, ih]

/-- The places that can still be keys', in both texts: as many of them. -/
theorem length_fresh {c d : Cursor} (hl : c.line = d.line) (hk : List.Forall₂ SameKey ps qs)
    (hn : ∀ m ∈ marks ps qs, m.Near c d) :
    (ps.takeWhile (!Lexer.isStale c ·)).length = (qs.takeWhile (!Lexer.isStale d ·)).length := by
  induction hk with
  | nil => rfl
  | cons hpq _ ih =>
    obtain ⟨hfirst, hn⟩ := List.forall_mem_cons.1 hn
    rw [List.takeWhile_cons, List.takeWhile_cons, isStale hl hpq hfirst]
    split
    · rw [List.length_cons, List.length_cons, ih hn]
    · rfl

theorem fresh {c d : Cursor} (hl : c.line = d.line) (hk : List.Forall₂ SameKey ps qs)
    (hn : ∀ m ∈ marks ps qs, m.Near c d) :
    List.Forall₂ SameKey (ps.takeWhile (!Lexer.isStale c ·)) (qs.takeWhile (!Lexer.isStale d ·)) ∧
      marks (ps.takeWhile (!Lexer.isStale c ·)) (qs.takeWhile (!Lexer.isStale d ·)) ⊆ marks ps qs := by
  have hps := List.prefix_iff_eq_take.1 (List.takeWhile_prefix (l := ps) (!Lexer.isStale c ·))
  have hqs := List.prefix_iff_eq_take.1 (List.takeWhile_prefix (l := qs) (!Lexer.isStale d ·))
  rw [← length_fresh hl hk hn] at hqs
  rw [hps, hqs]
  generalize (ps.takeWhile (!Lexer.isStale c ·)).length = l
  refine ⟨List.forall₂_take l hk, ?_⟩
  rw [marks, ← List.take_zipWith]
  exact List.take_subset l _

theorem key? (h : Alike k s t) :
    s.key? = none ∧ t.key? = none ∨ ∃ p q, s.key? = some p ∧ t.key? = some q ∧ SameKey p q := by
  have hkeys := h.keys
  rw [Lexer.key?, Lexer.key?]
  generalize s.keys = ps at hkeys
  generalize t.keys = qs at hkeys
  cases hkeys with
  | nil => exact .inl ⟨rfl, rfl⟩
  | @cons p q _ _ hpq _ =>
    rw [List.head?_cons, List.head?_cons, Option.filter_some, Option.filter_some, hpq.depth, h.depth]
    split
    · exact .inr ⟨p, q, rfl, rfl, hpq⟩
    · exact .inl ⟨rfl, rfl⟩

theorem outerKeys (h : Alike k s t) :
    List.Forall₂ SameKey s.outerKeys t.outerKeys ∧
      marks s.outerKeys t.outerKeys ⊆ marks s.keys t.keys := by
  have hsome : s.key?.isSome = t.key?.isSome := by
    rcases h.key? with ⟨hs, ht⟩ | ⟨p, q, hs, ht, -⟩
    · rw [hs, ht]
    · rw [hs, ht]
      rfl
  rw [Lexer.outerKeys, Lexer.outerKeys, hsome]
  split
  · have hkeys := h.keys
    generalize s.keys = ps at hkeys
    generalize t.keys = qs at hkeys
    cases hkeys with
    | nil => exact ⟨.nil, List.Subset.refl _⟩
    | cons _ hrest => exact ⟨hrest, List.subset_cons_self ..⟩
  · exact ⟨h.keys, List.Subset.refl _⟩

theorem forgetKey (h : Alike k s t) : Both (Kept k s t) s.forgetKey t.forgetKey := by
  have hrequired : s.key?.any (·.required) = t.key?.any (·.required) := by
    rcases h.key? with ⟨hs, ht⟩ | ⟨p, q, hs, ht, hpq⟩
    · rw [hs, ht]
    · rw [hs, ht]
      exact hpq.required
  rw [Lexer.forgetKey, Lexer.forgetKey, hrequired]
  obtain ⟨hkeys, hmarks⟩ := h.outerKeys
  exact .require rfl fun _ => .ok ⟨h.withKeys hkeys hmarks, rfl, rfl, rfl⟩

theorem dropStale (h : Alike k s t) : Both (Alike k) s.dropStale t.dropStale := by
  obtain ⟨hkeys, hmarks⟩ := fresh h.cursor.line h.keys h.cursor.near
  rw [Lexer.dropStale, Lexer.dropStale]
  rw [any_required (List.forall₂_drop _ h.keys), length_fresh h.cursor.line h.keys h.cursor.near]
  exact .require rfl fun _ => .ok (h.withKeys hkeys hmarks)

/-- The place where both lexers stand may become a key's. -/
theorem consKey {c d : Cursor} (h : Alike k s t) (hc : s.cursor = c) (hd : t.cursor = d) {b b' : Bool}
    (hb : b = b') :
    Alike k { s with keys := ⟨s.depth, s.count, b, c.line, c.column, c.index⟩ :: s.keys }
      { t with keys := ⟨t.depth, t.count, b', d.line, d.column, d.index⟩ :: t.keys } := by
  subst hc hd
  refine { h with cursor := { h.cursor with near := ?_ }, keys := .cons ?_ h.keys }
  · exact List.forall_mem_cons.2 ⟨⟨Nat.le_refl _, fun _ => Nat.add_comm ..⟩, h.cursor.near⟩
  · exact ⟨h.depth, h.count, hb, h.cursor.line, h.cursor.column⟩

theorem noteKey (h : Alike k s t) : Both (Kept k s t) s.noteKey t.noteKey := by
  have hrequired : (!s.inFlow && s.indents.head? == some s.cursor.column) =
      (!t.inFlow && t.indents.head? == some t.cursor.column) := by
    rw [h.inFlow, h.indents, h.cursor.column]
  rw [Lexer.noteKey, Lexer.noteKey, h.keyAllowed]
  split
  · refine h.forgetKey.bind fun hr => .ok ⟨?_, hr.left, hr.right, hr.depth⟩
    exact hr.alike.consKey hr.left hr.right hrequired
  · exact .ok ⟨h, rfl, rfl, rfl⟩

/-! ## Indentation -/

theorem closeTo {column : Nat} {indents : List Nat} (h : Alike k s t) :
    Alike k (closeTo column indents s) (closeTo column indents t) := by
  induction indents generalizing s t with
  | nil => exact h
  | cons i is ih =>
    rw [Lexer.closeTo, Lexer.closeTo]
    split
    · exact ih { h.emit .blockEnd with indents := rfl }
    · exact h

theorem unwind (h : Alike k s t) : Alike k s.unwind t.unwind := by
  rw [Lexer.unwind, Lexer.unwind, h.inFlow, h.cursor.column, h.indents]
  split
  · exact h
  · exact h.closeTo

theorem endBlocks (h : Alike k s t) (indents : List Nat) :
    Alike k (indents.foldl (fun s _ => s.emit .blockEnd) s)
      (indents.foldl (fun s _ => s.emit .blockEnd) t) := by
  induction indents generalizing s t with
  | nil => exact h
  | cons i is ih => exact ih (h.emit .blockEnd)

theorem unwindAll (h : Alike k s t) : Alike k s.unwindAll t.unwindAll := by
  rw [Lexer.unwindAll, Lexer.unwindAll, h.inFlow, h.indents]
  split
  · exact h
  · exact { h.endBlocks t.indents with indents := rfl }

theorem openBlock (h : Alike k s t) (x : Token) : Alike k (s.openBlock x) (t.openBlock x) := by
  rw [Lexer.openBlock, Lexer.openBlock]
  rw [h.cursor.column, h.isDeeper, h.indents]
  split
  · exact { h.emit x with indents := rfl }
  · exact h

/-! ## Single tokens -/

theorem skipGaps (h : Alike k s t) (hn : k < n) (hm : k < m) :
    Alike k (skipGaps n s) (skipGaps m t) := by
  induction n generalizing m k s t with
  | zero => exact absurd hn (Nat.not_lt_zero k)
  | succ n ih =>
    obtain ⟨m, rfl⟩ := Nat.exists_eq_add_one.2 (Nat.zero_lt_of_lt hm)
    have hc := h.cursor.skipSpaces.skipComment
    rw [Lexer.skipGaps, Lexer.skipGaps]
    rw [← hc.seesBreak]
    split
    · next hb =>
      have hk := hc.pos (Cursor.atEnd_of_sees hb)
      have hmoved := (h.moveTo (hc.takeBreak hb).alike).allow
        (show (s.keyAllowed || !s.inFlow) = (t.keyAllowed || !t.inFlow) by rw [h.keyAllowed, h.inFlow])
      exact (ih hmoved (by omega) (by omega)).weaken (Nat.sub_le ..)
    · exact h.moveTo hc

theorem endAll (h : Alike k s t) : Both (Kept k s t) s.endAll t.endAll := by
  rw [Lexer.endAll, Lexer.endAll]
  refine h.unwindAll.forgetKey.bind fun hr => .ok ⟨hr.alike.allow rfl, ?_, ?_, ?_⟩
  · exact hr.left.trans (unwindAll_keeps s).1
  · exact hr.right.trans (unwindAll_keeps t).1
  · exact hr.depth.trans (unwindAll_keeps s).2

theorem documentMarker (h : Alike k s t) {ch : Char} (hb : isBreak (.scalar ch) = false)
    (hs : s.cursor.seesMarker ch = true) (x : Token) :
    Both (Alike (k - 1)) (s.documentMarker x) (t.documentMarker x) := by
  rw [Lexer.documentMarker, Lexer.documentMarker]
  refine h.endAll.bind fun hr => .ok (hr.alike.emitAt x (hr.alike.cursor.skipMarker hb ?_))
  rw [hr.left, hs]

theorem openFlow (h : Alike k s t) (hp : s.cursor.AtPoint) (x : Token) :
    Both (Alike (k - 1)) (s.openFlow x) (t.openFlow x) := by
  rw [Lexer.openFlow, Lexer.openFlow]
  refine h.noteKey.bind fun hr => .ok ?_
  exact { hr.alike.emitSign (hr.left ▸ hp) x with
    depth := congrArg (· + 1) hr.alike.depth, keyAllowed := rfl }

theorem closeFlow (h : Alike k s t) (hp : s.cursor.AtPoint) (x : Token) :
    Alike (k - 1) (s.closeFlow x) (t.closeFlow x) := by
  obtain ⟨hkeys, hmarks⟩ := h.outerKeys
  exact { (h.emitSign hp x).withKeys hkeys hmarks with
    depth := congrArg (· - 1) h.depth, keyAllowed := rfl }

theorem comma (h : Alike k s t) (hp : s.cursor.AtPoint) :
    Both (Alike (k - 1)) s.comma t.comma := by
  rw [Lexer.comma, Lexer.comma]
  exact h.forgetKey.bind fun hr => .ok ((hr.alike.emitSign (hr.left ▸ hp) .comma).allow rfl)

/-- What opens a block collection, unless it stands in brackets. -/
theorem openUnlessFlow (h : Alike k s t) (x : Token) :
    Alike k (if s.inFlow then s else s.openBlock x) (if t.inFlow then t else t.openBlock x) := by
  rw [h.inFlow]
  split
  · exact h
  · exact h.openBlock x

theorem item (h : Alike k s t) (hp : s.cursor.AtPoint) : Both (Alike (k - 1)) s.item t.item := by
  rw [Lexer.item, Lexer.item]
  refine .require (by rw [h.inFlow, h.keyAllowed]) fun _ => ?_
  refine (h.openUnlessFlow .blockSequence).forgetKey.bind fun hr => .ok ?_
  refine (hr.alike.emitSign ?_ .item).allow rfl
  rwa [hr.left, openUnlessFlow_cursor]

theorem keySign (h : Alike k s t) (hp : s.cursor.AtPoint) :
    Both (Alike (k - 1)) s.keySign t.keySign := by
  rw [Lexer.keySign, Lexer.keySign]
  refine .require (by rw [h.inFlow, h.keyAllowed]) fun _ => ?_
  refine (h.openUnlessFlow .blockMapping).forgetKey.bind fun hr => .ok ?_
  refine (hr.alike.emitSign ?_ .key).allow (congrArg (!·) hr.alike.inFlow)
  rwa [hr.left, openUnlessFlow_cursor]

/-- What opens a block mapping at the place of its first key. -/
theorem openMappingAt (h : Alike k s t) (before column : Nat) :
    Alike k
      (if !s.inFlow && s.isDeeper column then
        { s.emitAfter before .blockMapping with indents := column :: s.indents } else s)
      (if !t.inFlow && t.isDeeper column then
        { t.emitAfter before .blockMapping with indents := column :: t.indents } else t) := by
  rw [h.inFlow, h.isDeeper]
  split
  · exact { h.emitAfter before .blockMapping with indents := congrArg (column :: ·) h.indents }
  · exact h

theorem valueSign (h : Alike k s t) (hp : s.cursor.AtPoint) :
    Both (Alike (k - 1)) s.valueSign t.valueSign := by
  obtain ⟨hkeys, hmarks⟩ := h.outerKeys
  rw [Lexer.valueSign, Lexer.valueSign]
  rcases h.key? with ⟨hs, ht⟩ | ⟨p, q, hs, ht, hpq⟩
  · rw [hs, ht]
    refine .require (by rw [h.inFlow, h.keyAllowed]) fun _ => .ok ?_
    have hopen := h.openUnlessFlow .blockMapping
    refine (hopen.emitSign ?_ .value).allow (congrArg (!·) hopen.inFlow)
    rwa [openUnlessFlow_cursor]
  · rw [hs, ht]
    dsimp only
    rw [← hpq.before, ← hpq.column]
    have hafter := ((h.emitAfter p.before .key).withKeys hkeys hmarks).allow (b := false) rfl
    refine .ok ((hafter.openMappingAt p.before p.column).emitSign ?_ .value)
    rwa [openMappingAt_cursor]

theorem content {read : Cursor → Except Fault (Token × Cursor)} (h : Alike k s t)
    (hread : ∀ {ms}, Cursor.Alike ms k s.cursor t.cursor →
      Both (Cursor.SameReading ms (k - 1)) (read s.cursor) (read t.cursor)) :
    Both (Alike (k - 1)) (s.content read) (t.content read) := by
  rw [Lexer.content, Lexer.content]
  refine h.noteKey.bind fun {s' t'} hr => ?_
  have hcursor := hr.alike.cursor
  rw [hr.left, hr.right] at hcursor ⊢
  refine (hread hcursor).bind fun hx => .ok ?_
  rw [hx.same]
  exact (hr.alike.emitAt _ hx.alike).allow rfl

theorem block (h : Alike k s t) (hp : s.cursor.AtPoint) (folded : Bool) :
    Both (Alike (k - 1)) (s.block folded) (t.block folded) := by
  rw [Lexer.block, Lexer.block]
  refine h.forgetKey.bind fun hr => ?_
  rw [← hr.alike.indents]
  refine (readBlock_alike folded _ hr.alike.cursor (hr.left ▸ hp)).bind fun hx => .ok ?_
  rw [hx.same]
  exact (hr.alike.emitAt _ hx.alike).allow rfl

theorem startsPlain (h : Alike k s t) (hp : s.cursor.AtPoint) : s.startsPlain = t.startsPlain := by
  rw [Lexer.startsPlain, Lexer.startsPlain]
  rw [h.cursor.sees (by decide), h.cursor.seesGap_one hp, h.cursor.seesChar (by decide), h.inFlow,
    h.cursor.sees (by decide)]

theorem plain (h : Alike k s t) (hs : s.startsPlain = true) : Both (Alike (k - 1)) s.plain t.plain := by
  rw [Lexer.plain, Lexer.plain]
  refine h.noteKey.bind fun {s' t'} hr => ?_
  have hword : (wordAt s'.inFlow s'.cursor).isEmpty = false := by
    rw [hr.left, Lexer.inFlow, hr.depth]
    exact word_of_startsPlain hs
  rw [← hr.alike.inFlow, ← hr.alike.indents]
  obtain ⟨x, broke, c, d, hc, hd, hcd⟩ := (readPlain_alike (s'.indents.head?.elim 0 (· + 1))
    hr.alike.cursor hword).split
  rw [hc, hd]
  exact .ok ((hr.alike.emitAt _ hcd).allow rfl)

end Alike

/-- No scalar starts at a break. -/
theorem startsPlain_of_break {c : CodePoint} (h : s.cursor.peek 0 = some c) (hb : isBreak c = true) :
    s.startsPlain = false := by
  have hsees : ∀ {p : CodePoint → Bool}, (∀ b ∈ breaks, p b = false) → s.cursor.sees 0 p = false := by
    intro p hp
    rw [Cursor.sees, h]
    exact of_isBreak hp c hb
  have hhyphen : s.cursor.seesChar 0 '-' = false := by
    rw [Cursor.seesChar, h]
    exact of_isBreak (p := fun c => some c == some (.scalar '-')) (by decide) c hb
  rw [startsPlain, hsees (by decide), hhyphen, hsees (by decide), Bool.and_false, Bool.or_false,
    Bool.and_false, Bool.or_false]

/-- A break is no token. -/
theorem token_of_break {c : CodePoint} (h : s.cursor.peek 0 = some c) (hb : isBreak c = true) :
    s.token = .error .invalid := by
  have hplain := startsPlain_of_break h hb
  have hc := mem_breaks hb
  simp only [breaks, List.mem_cons, List.not_mem_nil, or_false] at hc
  rw [token, h]
  rcases hc with rfl | rfl | rfl | rfl | rfl <;>
    simp [h, hplain, Cursor.seesChar, Cursor.seesMarker]

/-- After a token: the text was over, or less of it is left. -/
inductive Advanced (k : Nat) (s t : Lexer) : Prop
  | atEnd {made : List Token} : Alike k s t → s.made = .streamEnd :: made → Advanced k s t
  | shorter : 0 < k → Alike (k - 1) s t → Advanced k s t

theorem Alike.token (h : Alike k s t) : Both (Advanced k) s.token t.token := by
  have hahead := h.cursor.ahead
  cases hahead with
  | atEnd hs ht =>
    rw [Lexer.token, Lexer.token, hs, ht]
    exact h.endAll.bind fun hr => .ok (.atEnd (hr.alike.emit .streamEnd) rfl)
  | lineEnd ha hb hs ht =>
    rw [token_of_break hs ha, token_of_break ht hb]
    exact .error
  | @point c hb hs ht =>
    have hp := Cursor.atPoint_of_peek hs hb
    have hk : 0 < k := h.cursor.pos hp.atEnd
    have hname : ∀ (f : Text → Token) {ms}, Cursor.Alike ms k s.cursor t.cursor →
        Both (Cursor.SameReading ms (k - 1))
          (readAnchorName s.cursor >>= fun x => .ok (f x.1, x.2))
          (readAnchorName t.cursor >>= fun x => .ok (f x.1, x.2)) := fun f _ hc =>
      (readAnchorName_alike hc hp).bind fun hr => .ok ⟨congrArg f hr.same, hr.alike⟩
    have hquoted : ∀ (double : Bool) {ms}, Cursor.Alike ms k s.cursor t.cursor →
        Both (Cursor.SameReading ms (k - 1))
          (readQuoted double s.cursor >>= fun x => .ok (Token.scalar false x.1, x.2))
          (readQuoted double t.cursor >>= fun x => .ok (Token.scalar false x.1, x.2)) := by
      intro double _ hc
      refine (readQuoted_alike double hc hp).bind fun hr => ?_
      exact .ok ⟨congrArg (Token.scalar false) hr.same, hr.alike⟩
    refine Both.imp (P := Alike (k - 1)) ?_ (.shorter hk)
    rw [Lexer.token, Lexer.token, hs, ht]
    -- One case for each kind of token, in the order in which they are looked for.
    refine .ite (by rw [h.cursor.column]) (fun _ => ?_) ?_
    · refine h.endAll.bind fun hr => ?_
      refine (readDirective_alike hr.alike.cursor (hr.left ▸ hp)).bind fun hx => .ok ?_
      rw [hx.same]
      exact hr.alike.emitAt _ hx.alike
    refine .ite (by rw [h.cursor.column, h.cursor.seesMarker (by decide)]) (fun hm => ?_) ?_
    · exact h.documentMarker (by decide) (Bool.and_eq_true_iff.1 hm).2 .documentStart
    refine .ite (by rw [h.cursor.column, h.cursor.seesMarker (by decide)]) (fun hm => ?_) ?_
    · exact h.documentMarker (by decide) (Bool.and_eq_true_iff.1 hm).2 .documentEnd
    refine .ite rfl (fun _ => h.openFlow hp .openSequence) ?_
    refine .ite rfl (fun _ => h.openFlow hp .openMapping) ?_
    refine .ite rfl (fun _ => .ok (h.closeFlow hp .closeSequence)) ?_
    refine .ite rfl (fun _ => .ok (h.closeFlow hp .closeMapping)) ?_
    refine .ite rfl (fun _ => h.comma hp) ?_
    refine .ite (by rw [h.cursor.seesGap_one hp]) (fun _ => h.item hp) ?_
    refine .ite (by rw [h.cursor.seesGap_one hp, h.inFlow]) (fun _ => h.keySign hp) ?_
    refine .ite (by rw [h.cursor.seesGap_one hp, h.inFlow]) (fun _ => h.valueSign hp) ?_
    refine .ite rfl (fun _ => h.content (hname .alias)) ?_
    refine .ite rfl (fun _ => h.content (hname .anchor)) ?_
    refine .ite rfl (fun _ => h.content fun hc => readTag_alike hc hp) ?_
    refine .ite (by rw [h.inFlow]) (fun _ => h.block hp false) ?_
    refine .ite (by rw [h.inFlow]) (fun _ => h.block hp true) ?_
    refine .ite rfl (fun _ => h.content (hquoted false)) ?_
    refine .ite rfl (fun _ => h.content (hquoted true)) ?_
    exact .ite (h.startsPlain hp) h.plain .error

theorem Advanced.weaken {k' : Nat} (h : Advanced k s t) (hk : k ≤ k') : Advanced k' s t := by
  cases h with
  | atEnd h hmade => exact .atEnd (h.weaken hk) hmade
  | shorter hpos h => exact .shorter (Nat.lt_of_lt_of_le hpos hk) (h.weaken (Nat.sub_le_sub_right hk 1))

theorem Alike.step (h : Alike k s t) : Both (Advanced k) s.step t.step := by
  have htight : Alike t.cursor.rest.length s t := { h with cursor := h.cursor.tight }
  have hgaps := htight.skipGaps h.cursor.left h.cursor.right
  rw [Lexer.step, Lexer.step]
  refine hgaps.dropStale.bind fun hfresh => ?_
  exact hfresh.unwind.token.imp fun hr => hr.weaken h.cursor.size

/-! ## Runs -/

theorem map_before (h : List.Forall₂ SameKey ps qs) : ps.map (·.before) = qs.map (·.before) := by
  induction h with
  | nil => rfl
  | cons hpq _ ih => rw [List.map_cons, List.map_cons, hpq.before, ih]

theorem Alike.settled (h : Alike k s t) : s.settled = t.settled := by
  have hlast : ∀ (ps : List KeyPlace) (z : Nat),
      ps.getLast?.elim z (·.before) = (ps.map (·.before)).getLast?.getD z := by
    intro ps z
    rw [List.getLast?_map]
    cases ps.getLast? <;> rfl
  obtain ⟨hfresh, -⟩ := Alike.fresh h.cursor.line h.keys h.cursor.near
  rw [Lexer.settled, Lexer.settled, hlast, hlast, map_before hfresh, h.made, h.count]

/-- The tokens and the fault are the same, however many steps are allowed beyond what is left. -/
theorem run_alike (h : Alike k s t) (hn : k < n) (hm : k < m) : run n s = run m t := by
  induction n generalizing m k s t with
  | zero => exact absurd hn (Nat.not_lt_zero k)
  | succ n ih =>
    obtain ⟨m, rfl⟩ := Nat.exists_eq_add_one.2 (Nat.zero_lt_of_lt hm)
    have hstep := h.step
    rw [run, run, h.settled, h.inFlow]
    generalize s.step = x at hstep
    generalize t.step = y at hstep
    cases hstep with
    | error => rfl
    | ok hadv =>
      cases hadv with
      | atEnd h' hmade =>
        dsimp only
        rw [← h'.made, hmade]
      | shorter hk h' =>
        dsimp only
        rw [← h'.made, ih h' (by omega : k - 1 < n) (by omega : k - 1 < m)]

end Lexer

/-- Texts that differ in how their lines end have the same tokens. -/
theorem tokenize_unified {t u : Text} (h : Unified t u) : tokenize t = tokenize u := by
  have hstart : Lexer.Alike u.length (.start t) (.start u) :=
    ⟨⟨h, rfl, rfl, by simp [Lexer.start, Lexer.marks], Nat.le_refl _, Nat.lt_succ_of_le h.length_le,
      Nat.lt_succ_self _⟩, .nil, rfl, rfl, rfl, rfl, rfl⟩
  have hmark : (t.head? == some byteOrderMark) = (u.head? == some byteOrderMark) := by
    have hsees := hstart.cursor.seesChar (show isBreak byteOrderMark = false by decide)
    rwa [Cursor.seesChar, Cursor.seesChar, Cursor.peek_zero, Cursor.peek_zero] at hsees
  rw [tokenize, tokenize, h.all (by decide), ← hmark]
  split
  · refine Lexer.run_alike (k := u.length) ?_ (Nat.lt_add_right 1 (Nat.lt_succ_of_le h.length_le))
      (Nat.lt_add_right 1 (Nat.lt_succ_self _))
    split
    · next hb =>
      have hp : (Lexer.start t).cursor.AtPoint := by
        rw [beq_iff_eq, List.head?_eq_some_iff] at hb
        obtain ⟨rest, hr⟩ := hb
        exact ⟨byteOrderMark, rest, hr, by decide⟩
      exact (hstart.moveTo (hstart.cursor.next hp)).weaken (Nat.sub_le ..)
    · exact hstart
  · rfl

end TraitCatalog.Yaml
