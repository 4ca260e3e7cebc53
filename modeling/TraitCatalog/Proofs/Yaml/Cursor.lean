/-
  Two texts that differ in how their lines end.

  CR LF, CR and U+0085 are read as LF.  So a text and the text in which LF is written for each of
  them (`Unified`) are read alike: readers that start at corresponding places of the two
  (`Cursor.Alike`) find the same, and go on at corresponding places.

  * `Alike.ahead`: what the two texts have ahead;
  * `Alike.next` and `Alike.takeBreak`: the two ways in which readers move; all others are made of
    them;
  * `Both`: two readings with the same fault, or with results that are related.

  Indexes differ between the two texts, but not by how much on one line: a `Mark` notes a place of
  both, and a cursor stays as far from it in one text as in the other while it is on its line.
-/
import Mathlib.Data.List.Basic
import TraitCatalog.Proofs.Text.Order
import TraitCatalog.Yaml.Lexeme

namespace TraitCatalog.Yaml

open Text (lit)

/-! ## Breaks -/

/-- All breaks. -/
def breaks : List CodePoint :=
  [.scalar '\n', .scalar '\r', .scalar '\u0085', .scalar '\u2028', .scalar '\u2029']

theorem mem_breaks {c : CodePoint} (h : isBreak c = true) : c ∈ breaks := by
  have hnat : c.toNat ∈ breaks.map CodePoint.toNat := by
    simpa [isBreak, breaks, CodePoint.toNat, or_assoc] using h
  obtain ⟨b, hb, hbc⟩ := List.mem_map.1 hnat
  rwa [← Text.toNat_injective hbc]

/-- A test that no break passes. -/
theorem of_isBreak {p : CodePoint → Bool} (hp : ∀ b ∈ breaks, p b = false) (c : CodePoint)
    (h : isBreak c = true) : p c = false :=
  hp c (mem_breaks h)

theorem exists_of_isOneOf {a : String} {c : CodePoint} (h : c.isOneOf a = true) :
    ∃ x ∈ a.toList, c = .scalar x := by
  cases c with
  | scalar x => exact ⟨x, by simpa [CodePoint.isOneOf, CodePoint.holds] using h, rfl⟩
  | surrogate n => cases h

theorem isBreak_of_isOneOf {c : CodePoint} (h : c.isOneOf "\r\n\x85" = true) : isBreak c = true := by
  have hbreaks : ("\r\n\x85".toList.all fun x => isBreak (.scalar x)) = true := by decide
  obtain ⟨x, hx, rfl⟩ := exists_of_isOneOf h
  exact List.all_eq_true.1 hbreaks x hx

/-- The second text is the first with LF for every CR LF, CR and U+0085. -/
inductive Unified : Text → Text → Prop
  | nil : Unified [] []
  | point {c : CodePoint} {t u : Text} : isBreak c = false → Unified t u → Unified (c :: t) (c :: u)
  /-- U+2028 and U+2029 are kept. -/
  | separator {c : CodePoint} {t u : Text} : isBreak c = true → c.isOneOf "\r\n\x85" = false →
      Unified t u → Unified (c :: t) (c :: u)
  | pair {t u : Text} : Unified t u →
      Unified (.scalar '\r' :: .scalar '\n' :: t) (.scalar '\n' :: u)
  | single {c : CodePoint} {t u : Text} : c.isOneOf "\r\n\x85" = true →
      (c = .scalar '\r' → t.head? ≠ some (.scalar '\n')) → Unified t u →
      Unified (c :: t) (.scalar '\n' :: u)

/-- What two texts have ahead: their ends, the same code point, or a break in both. -/
inductive Ahead (x y : Option CodePoint) : Prop
  | atEnd : x = none → y = none → Ahead x y
  | point {c : CodePoint} : isBreak c = false → x = some c → y = some c → Ahead x y
  | lineEnd {a b : CodePoint} : isBreak a = true → isBreak b = true → x = some a → y = some b →
      Ahead x y

theorem Ahead.any {x y : Option CodePoint} (h : Ahead x y) {p : CodePoint → Bool}
    (hp : ∀ a b, isBreak a = true → isBreak b = true → p a = p b) : x.any p = y.any p := by
  cases h with
  | atEnd hx hy => rw [hx, hy]
  | point _ hx hy => rw [hx, hy]
  | lineEnd ha hb hx hy =>
    rw [hx, hy]
    exact hp _ _ ha hb

theorem Ahead.all {x y : Option CodePoint} (h : Ahead x y) {p : CodePoint → Bool}
    (hp : ∀ a b, isBreak a = true → isBreak b = true → p a = p b) : x.all p = y.all p := by
  cases h with
  | atEnd hx hy => rw [hx, hy]
  | point _ hx hy => rw [hx, hy]
  | lineEnd ha hb hx hy =>
    rw [hx, hy]
    exact hp _ _ ha hb

namespace Unified

theorem ahead {t u : Text} (h : Unified t u) : Ahead t.head? u.head? := by
  have hfeed : isBreak (.scalar '\n') = true := by decide
  have hreturn : isBreak (.scalar '\r') = true := by decide
  cases h with
  | nil => exact .atEnd rfl rfl
  | point hc _ => exact .point hc rfl rfl
  | separator hc _ _ => exact .lineEnd hc hc rfl rfl
  | pair _ => exact .lineEnd hreturn hfeed rfl rfl
  | single hc _ _ => exact .lineEnd (isBreak_of_isOneOf hc) hfeed rfl rfl

/-- Where no break stands, the two texts have the same code point. -/
theorem of_point {c : CodePoint} {t v : Text} (hc : isBreak c = false) (h : Unified (c :: t) v) :
    ∃ u, v = c :: u ∧ Unified t u := by
  cases h with
  | point _ hu => exact ⟨_, rfl, hu⟩
  | separator hb _ _ =>
    rw [hc] at hb
    cases hb
  | pair _ => exact absurd hc (by decide)
  | single hb _ _ =>
    rw [isBreak_of_isOneOf hb] at hc
    cases hc

/-- The same code points stand in front of the first break. -/
theorem takeWhile {p : CodePoint → Bool} (hp : ∀ c, isBreak c = true → p c = false) {t u : Text}
    (h : Unified t u) : t.takeWhile p = u.takeWhile p := by
  induction h with
  | nil => rfl
  | point _ _ ih => rw [List.takeWhile_cons, List.takeWhile_cons, ih]
  | separator hb _ _ _ => simp [hp _ hb]
  | pair => simp [hp (.scalar '\r') (by decide), hp (.scalar '\n') (by decide)]
  | single hb _ _ _ => simp [hp _ (isBreak_of_isOneOf hb), hp (.scalar '\n') (by decide)]

theorem length_le {t u : Text} (h : Unified t u) : u.length ≤ t.length := by
  induction h with
  | nil => exact Nat.le_refl _
  | point _ _ ih => exact Nat.succ_le_succ ih
  | separator _ _ _ ih => exact Nat.succ_le_succ ih
  | pair _ ih => exact Nat.succ_le_succ (Nat.le_succ_of_le ih)
  | single _ _ _ ih => exact Nat.succ_le_succ ih

/-- A property of all breaks holds throughout both texts or in neither. -/
theorem all {p : CodePoint → Bool} (hp : ∀ b ∈ breaks, p b = true) {t u : Text} (h : Unified t u) :
    t.all p = u.all p := by
  have hbreak : ∀ {b}, isBreak b = true → p b = true := fun hb => hp _ (mem_breaks hb)
  induction h with
  | nil => rfl
  | point _ _ ih => rw [List.all_cons, List.all_cons, ih]
  | separator _ _ _ ih => rw [List.all_cons, List.all_cons, ih]
  | pair _ ih =>
    simp [hbreak (b := .scalar '\r') (by decide), hbreak (b := .scalar '\n') (by decide), ih]
  | single hb _ _ ih =>
    simp [hbreak (isBreak_of_isOneOf hb), hbreak (b := .scalar '\n') (by decide), ih]

end Unified

/-! ## Readings side by side -/

section
variable {α β γ δ : Type} {P : α → β → Prop} {Q : γ → δ → Prop}

/-- Two readings with the same fault, or with related results. -/
inductive Both (P : α → β → Prop) : Except Fault α → Except Fault β → Prop
  | ok {a : α} {b : β} : P a b → Both P (.ok a) (.ok b)
  | error {f : Fault} : Both P (.error f) (.error f)

theorem Both.bind {x : Except Fault α} {y : Except Fault β} {f : α → Except Fault γ}
    {g : β → Except Fault δ} (h : Both P x y) (hf : ∀ {a b}, P a b → Both Q (f a) (g b)) :
    Both Q (x >>= f) (y >>= g) := by
  cases h with
  | ok hab => exact hf hab
  | error => exact .error

theorem Both.imp {P' : α → β → Prop} {x : Except Fault α} {y : Except Fault β} (h : Both P x y)
    (hi : ∀ {a b}, P a b → P' a b) : Both P' x y := by
  cases h with
  | ok hab => exact .ok (hi hab)
  | error => exact .error

/-- A condition that both readings split on. -/
theorem Both.ite {b b' : Bool} {x x' : Except Fault γ} {y y' : Except Fault δ} (h : b = b')
    (ht : b = true → Both Q x y) (hf : Both Q x' y') :
    Both Q (if b then x else x') (if b' then y else y') := by
  subst h
  cases b with
  | true => exact ht rfl
  | false => exact hf

/-- A condition that both readings check. -/
theorem Both.require {b b' : Bool} {f : Unit → Except Fault γ} {g : Unit → Except Fault δ}
    (h : b = b') (hf : b = true → Both Q (f ()) (g ())) :
    Both Q (require b >>= f) (require b' >>= g) := by
  subst h
  cases b with
  | true => exact hf rfl
  | false => exact .error

end

/-! ## Cursors side by side -/

/-- A place of two texts: its line, and its index in each of them. -/
structure Mark where
  line : Nat
  left : Nat
  right : Nat

/-- The cursors are not before the mark, and as far from it in one text as in the other if they are
    on its line. -/
def Mark.Near (m : Mark) (c d : Cursor) : Prop :=
  m.line ≤ c.line ∧ (m.line = c.line → c.index + m.right = d.index + m.left)

namespace Cursor

/-- Corresponding places of a text and of the one in which its breaks are unified.  At most `k` code
    points of the latter are left, so that a reader which takes one in every round has `k` rounds at
    most. -/
structure Alike (ms : List Mark) (k : Nat) (c d : Cursor) : Prop where
  rest : Unified c.rest d.rest
  line : c.line = d.line
  column : c.column = d.column
  near : ∀ m ∈ ms, m.Near c d
  size : d.rest.length ≤ k
  left : d.rest.length < c.bound
  right : d.rest.length < d.bound

/-- The same is read at both cursors, and the places after it correspond. -/
structure SameReading {α : Type} (ms : List Mark) (k : Nat) (x y : α × Cursor) : Prop where
  same : x.1 = y.1
  alike : Alike ms k x.2 y.2

/-- The same two things are read at both cursors, and the places after them correspond. -/
structure SameReadings {α β : Type} (ms : List Mark) (k : Nat) (x y : α × β × Cursor) : Prop where
  same : x.1 = y.1
  reading : SameReading ms k x.2 y.2

/-- The cursor is at a code point other than a break. -/
def AtPoint (c : Cursor) : Prop :=
  ∃ ch rest, c.rest = ch :: rest ∧ isBreak ch = false

variable {ms : List Mark} {k : Nat} {c d : Cursor}

theorem peek_zero (c : Cursor) : c.peek 0 = c.rest.head? := by
  rw [peek, List.head?_eq_getElem?]

theorem rest_next (c : Cursor) : c.next.rest = c.rest.tail := by
  rw [next]
  split
  · next h => rw [h]; rfl
  · next h => split <;> rw [h] <;> rfl

/-- Looking further ahead is looking ahead from the next place. -/
theorem peek_succ (c : Cursor) (k : Nat) : c.peek (k + 1) = c.next.peek k := by
  rw [peek, peek, rest_next, List.getElem?_tail]

theorem sees_of_peek {p : CodePoint → Bool} {ch : CodePoint} (h : c.peek 0 = some ch)
    (hp : p ch = true) : c.sees 0 p = true := by
  rw [sees, h]
  exact hp

/-- Nothing is read where `p` does not hold. -/
theorem takeWhile_none {p : CodePoint → Bool} (h : c.sees 0 p = false) : c.takeWhile p = ([], c) := by
  have hnil : c.rest.takeWhile p = [] := by
    rw [sees, peek_zero] at h
    cases hr : c.rest with
    | nil => rfl
    | cons ch rest =>
      have hch : p ch = false := by simpa [hr] using h
      simp [hch]
  rw [takeWhile, hnil]
  rfl

theorem seesChar_succ (c : Cursor) (k : Nat) (ch : Char) :
    c.seesChar (k + 1) ch = c.next.seesChar k ch := by
  rw [seesChar, seesChar, peek_succ]

theorem seesGap_succ (c : Cursor) (k : Nat) : c.seesGap (k + 1) = c.next.seesGap k := by
  rw [seesGap, seesGap, peek_succ]

theorem atPoint_of_peek {ch : CodePoint} (h : c.peek 0 = some ch) (hb : isBreak ch = false) :
    c.AtPoint := by
  rw [peek_zero, List.head?_eq_some_iff] at h
  obtain ⟨rest, hr⟩ := h
  exact ⟨ch, rest, hr, hb⟩

theorem atPoint_of_seesChar {ch : Char} (h : c.seesChar 0 ch = true)
    (hb : isBreak (.scalar ch) = false) : c.AtPoint := by
  rw [seesChar, beq_iff_eq] at h
  exact atPoint_of_peek h hb

theorem AtPoint.atEnd (h : c.AtPoint) : c.atEnd = false := by
  obtain ⟨ch, rest, hr, -⟩ := h
  rw [Cursor.atEnd, hr]
  rfl

theorem atEnd_of_sees {p : CodePoint → Bool} (h : c.sees 0 p = true) : c.atEnd = false := by
  rw [sees, peek_zero] at h
  rw [atEnd]
  cases hr : c.rest with
  | nil => rw [hr] at h; cases h
  | cons => rfl

/-! ### Single steps -/

/-- The place after a break of `n` code points. -/
def newLine (c : Cursor) (n : Nat) (rest : Text) : Cursor :=
  { c with rest := rest, line := c.line + 1, column := 0, index := c.index + n }

/-- What one step does where no break stands. -/
theorem next_point {ch : CodePoint} {rest : Text} (h : c.rest = ch :: rest) (hb : isBreak ch = false) :
    c.next = { c with
      rest := rest
      column := if ch == byteOrderMark then c.column else c.column + 1
      index := c.index + 1 } := by
  rw [next, h]
  simp [hb]

/-- What one step does at a break, other than the first half of CR LF. -/
theorem next_break {ch : CodePoint} {rest : Text} (h : c.rest = ch :: rest) (hb : isBreak ch = true)
    (hp : ch = .scalar '\r' → rest.head? ≠ some (.scalar '\n')) : c.next = c.newLine 1 rest := by
  rw [next, h]
  simpa [hb, newLine] using hp

theorem feed_ne_return {t : Text} :
    (.scalar '\n' : CodePoint) = .scalar '\r' → t.head? ≠ some (.scalar '\n') :=
  fun h => absurd h (by decide)

theorem takeBreak_pair {rest : Text} (h : c.rest = .scalar '\r' :: .scalar '\n' :: rest) :
    c.takeBreak = (lit "\n", c.newLine 2 rest) := by
  have hpeek : c.peek 0 = some (.scalar '\r') := by rw [peek_zero, h]; rfl
  have hnext : c.seesChar 1 '\n' = true := by rw [seesChar_succ, seesChar, peek_zero, rest_next, h]; rfl
  have hbreak : c.takeBreak = (lit "\n", c.next.next) := by
    rw [takeBreak, hpeek]
    simp [hnext, skip]
  have hfirst : c.next = { c with
      rest := .scalar '\n' :: rest, column := c.column + 1, index := c.index + 1 } := by
    rw [next, h]
    rfl
  rw [hbreak, hfirst, @next_break _ (.scalar '\n') rest rfl (by decide) feed_ne_return]
  rfl

theorem takeBreak_single {ch : CodePoint} {rest : Text} (h : c.rest = ch :: rest)
    (hb : ch.isOneOf "\r\n\x85" = true)
    (hp : ch = .scalar '\r' → rest.head? ≠ some (.scalar '\n')) :
    c.takeBreak = (lit "\n", c.newLine 1 rest) := by
  have hpeek : c.peek 0 = some ch := by rw [peek_zero, h]; rfl
  have hpair : (ch == .scalar '\r' && c.seesChar 1 '\n') = false := by
    rw [seesChar_succ, seesChar, peek_zero, rest_next, h]
    simpa using hp
  rw [takeBreak, hpeek]
  dsimp only
  rw [hpair, if_neg Bool.false_ne_true, if_pos hb, next_break h (isBreak_of_isOneOf hb) hp]

theorem takeBreak_separator {ch : CodePoint} {rest : Text} (h : c.rest = ch :: rest)
    (hb : isBreak ch = true) (ho : ch.isOneOf "\r\n\x85" = false) :
    c.takeBreak = ([ch], c.newLine 1 rest) := by
  have hpeek : c.peek 0 = some ch := by rw [peek_zero, h]; rfl
  have hne : ch ≠ .scalar '\r' := by
    rintro rfl
    cases ho
  rw [takeBreak, hpeek]
  simp [hne, ho, hb, next_break h hb (absurd · hne)]

theorem takeBreak_none (h : c.sees 0 isBreak = false) : c.takeBreak = ([], c) := by
  rw [sees] at h
  rw [takeBreak]
  cases hp : c.peek 0 with
  | none => rfl
  | some ch =>
    have hb : isBreak ch = false := by simpa [hp] using h
    have ho : ch.isOneOf "\r\n\x85" = false := by
      rw [← Bool.not_eq_true]
      intro ho
      rw [isBreak_of_isOneOf ho] at hb
      cases hb
    have hne : ch ≠ .scalar '\r' := by
      rintro rfl
      cases ho
    simp [hne, ho, hb]

/-! ### What is ahead -/

theorem SameReading.weaken {α : Type} {k' : Nat} {x y : α × Cursor} (h : SameReading ms k x y)
    (hk : k ≤ k') : SameReading ms k' x y :=
  ⟨h.same, { h.alike with size := Nat.le_trans h.alike.size hk }⟩

theorem SameReading.split {α : Type} {x y : α × Cursor} (h : SameReading ms k x y) :
    ∃ a c' d', x = (a, c') ∧ y = (a, d') ∧ Alike ms k c' d' := by
  obtain ⟨a, c'⟩ := x
  obtain ⟨b, d'⟩ := y
  obtain ⟨rfl, h'⟩ := h
  exact ⟨a, c', d', rfl, rfl, h'⟩

theorem SameReadings.split {α β : Type} {x y : α × β × Cursor} (h : SameReadings ms k x y) :
    ∃ a b c' d', x = (a, b, c') ∧ y = (a, b, d') ∧ Alike ms k c' d' := by
  obtain ⟨a, b, c'⟩ := x
  obtain ⟨_, _, d'⟩ := y
  obtain ⟨rfl, rfl, h'⟩ := h
  exact ⟨a, b, c', d', rfl, rfl, h'⟩

namespace Alike

theorem weaken {k' : Nat} (h : Alike ms k c d) (hk : k ≤ k') : Alike ms k' c d :=
  { h with size := Nat.le_trans h.size hk }

theorem tight (h : Alike ms k c d) : Alike ms d.rest.length c d :=
  { h with size := Nat.le_refl _ }

theorem mono {ms' : List Mark} (h : Alike ms k c d) (hm : ms' ⊆ ms) : Alike ms' k c d :=
  { h with near := fun m hm' => h.near m (hm hm') }

theorem ahead (h : Alike ms k c d) : Ahead (c.peek 0) (d.peek 0) := by
  rw [peek_zero, peek_zero]
  exact h.rest.ahead

theorem sees (h : Alike ms k c d) {p : CodePoint → Bool} (hp : ∀ b ∈ breaks, p b = false) :
    c.sees 0 p = d.sees 0 p :=
  h.ahead.any fun a b ha hb => by rw [of_isBreak hp a ha, of_isBreak hp b hb]

theorem seesChar (h : Alike ms k c d) {ch : Char} (hb : isBreak (.scalar ch) = false) :
    c.seesChar 0 ch = d.seesChar 0 ch := by
  have hne : ∀ {x : CodePoint}, isBreak x = true → x ≠ .scalar ch := by
    rintro x hx rfl
    rw [hb] at hx
    cases hx
  rw [Cursor.seesChar, Cursor.seesChar]
  cases h.ahead with
  | atEnd hc hd => rw [hc, hd]
  | point _ hc hd => rw [hc, hd]
  | lineEnd hx hy hc hd =>
    rw [hc, hd]
    simp [hne hx, hne hy]

theorem seesBreak (h : Alike ms k c d) : c.sees 0 isBreak = d.sees 0 isBreak :=
  h.ahead.any fun _ _ ha hb => ha.trans hb.symm

theorem seesLineEnd (h : Alike ms k c d) : c.seesLineEnd 0 = d.seesLineEnd 0 :=
  h.ahead.all fun _ _ ha hb => ha.trans hb.symm

theorem seesGap (h : Alike ms k c d) : c.seesGap 0 = d.seesGap 0 :=
  h.ahead.all fun a b ha hb => by simp [isSeparator, ha, hb]

theorem seesWordEnd (h : Alike ms k c d) : c.seesWordEnd 0 = d.seesWordEnd 0 :=
  h.ahead.all fun a b ha hb => by simp [ha, hb]

theorem atEnd (h : Alike ms k c d) : c.atEnd = d.atEnd := by
  have hpeek : ∀ e : Cursor, e.atEnd = (e.peek 0).isNone := by
    intro e
    rw [Cursor.atEnd, peek_zero]
    cases e.rest <;> rfl
  rw [hpeek, hpeek]
  cases h.ahead with
  | atEnd hc hd => rw [hc, hd]
  | point _ hc hd => rw [hc, hd]
  | lineEnd _ _ hc hd =>
    rw [hc, hd]
    rfl

theorem pos (h : Alike ms k c d) (hc : c.atEnd = false) : 0 < k := by
  rw [h.atEnd, Cursor.atEnd, List.isEmpty_eq_false_iff] at hc
  exact Nat.lt_of_lt_of_le (List.length_pos_iff.2 hc) h.size

/-- The bounds on rounds are enough for one round more than what is left. -/
theorem rounds (h : Alike ms k c d) :
    ∃ n m, c.bound = n + 1 ∧ d.bound = m + 1 ∧ d.rest.length ≤ n ∧ d.rest.length ≤ m := by
  have hl := h.left
  have hr := h.right
  exact ⟨c.bound - 1, d.bound - 1, by omega, by omega, by omega, by omega⟩

/-! ### Moving -/

/-- One step ahead, where no break stands. -/
theorem next (h : Alike ms k c d) (hp : c.AtPoint) : Alike ms (k - 1) c.next d.next := by
  obtain ⟨ch, rest, hr, hb⟩ := hp
  have hrest := h.rest
  rw [hr] at hrest
  obtain ⟨u, hd, hu⟩ := hrest.of_point hb
  have hsize := h.size
  have hleft := h.left
  have hright := h.right
  rw [hd, List.length_cons] at hsize hleft hright
  rw [next_point hr hb, next_point hd hb]
  refine ⟨hu, h.line, ?_, fun m hm => ?_, Nat.le_sub_one_of_lt hsize, Nat.lt_of_succ_lt hleft,
    Nat.lt_of_succ_lt hright⟩
  · dsimp only
    rw [h.column]
  · obtain ⟨hl, hi⟩ := h.near m hm
    refine ⟨hl, fun hml => ?_⟩
    have := hi hml
    dsimp only
    omega

/-- When a line is left, no mark is on the line of the cursors any more. -/
theorem newLine {t u : Text} {x : CodePoint} (h : Alike ms k c d) (hd : d.rest = x :: u)
    (hu : Unified t u) (i j : Nat) : Alike ms (k - 1) (c.newLine i t) (d.newLine j u) := by
  have hsize := h.size
  have hleft := h.left
  have hright := h.right
  rw [hd, List.length_cons] at hsize hleft hright
  refine ⟨hu, congrArg (· + 1) h.line, rfl, fun m hm => ?_, Nat.le_sub_one_of_lt hsize,
    Nat.lt_of_succ_lt hleft, Nat.lt_of_succ_lt hright⟩
  obtain ⟨hl, -⟩ := h.near m hm
  refine ⟨Nat.le_succ_of_le hl, fun hml => ?_⟩
  rw [hml] at hl
  exact absurd hl (Nat.not_succ_le_self _)

/-- The break that stands at both cursors is read, as the same text. -/
theorem takeBreak (h : Alike ms k c d) (hb : c.sees 0 isBreak = true) :
    SameReading ms (k - 1) c.takeBreak d.takeBreak := by
  have hrest := h.rest
  generalize hc : c.rest = t at hrest
  generalize hd : d.rest = u at hrest
  cases hrest with
  | nil =>
    rw [Cursor.sees, peek_zero, hc] at hb
    cases hb
  | point hp _ =>
    rw [Cursor.sees, peek_zero, hc] at hb
    exact absurd (hp.symm.trans hb) Bool.false_ne_true
  | separator hs ho hu =>
    rw [takeBreak_separator hc hs ho, takeBreak_separator hd hs ho]
    exact ⟨rfl, h.newLine hd hu 1 1⟩
  | pair hu =>
    rw [takeBreak_pair hc, takeBreak_single hd (by decide) feed_ne_return]
    exact ⟨rfl, h.newLine hd hu 2 1⟩
  | single ho hp hu =>
    rw [takeBreak_single hc ho hp, takeBreak_single hd (by decide) feed_ne_return]
    exact ⟨rfl, h.newLine hd hu 1 1⟩

/-- The same where a break may be missing. -/
theorem takeBreak? (h : Alike ms k c d) : SameReading ms k c.takeBreak d.takeBreak := by
  cases hb : c.sees 0 isBreak with
  | true => exact (h.takeBreak hb).weaken (Nat.sub_le ..)
  | false =>
    rw [takeBreak_none hb, takeBreak_none (h.seesBreak ▸ hb)]
    exact ⟨rfl, h⟩

/-- Ahead over code points that are no breaks. -/
theorem skip {w rest : Text} (hw : ∀ ch ∈ w, isBreak ch = false) (h : Alike ms k c d)
    (hr : c.rest = w ++ rest) : Alike ms (k - w.length) (c.skip w.length) (d.skip w.length) := by
  induction w generalizing c d k with
  | nil => exact h
  | cons ch w ih =>
    obtain ⟨hch, hw⟩ := List.forall_mem_cons.1 hw
    have hnext := ih hw (h.next ⟨ch, w ++ rest, hr, hch⟩) (by rw [rest_next, hr]; rfl)
    rw [List.length_cons, Nat.add_comm, ← Nat.sub_sub, Nat.add_comm]
    exact hnext

/-- The code points on which `p` holds, which no break does. -/
theorem takeWhile {p : CodePoint → Bool} (hp : ∀ b ∈ breaks, p b = false) (h : Alike ms k c d) :
    SameReading ms (k - (c.takeWhile p).1.length) (c.takeWhile p) (d.takeWhile p) := by
  have hsame := h.rest.takeWhile (of_isBreak hp)
  have hpoints : ∀ ch ∈ c.rest.takeWhile p, isBreak ch = false := by
    intro ch hch
    have hpch := List.all_eq_true.1 (@List.all_takeWhile _ p c.rest) ch hch
    rw [← Bool.not_eq_true]
    intro hb
    rw [of_isBreak hp ch hb] at hpch
    cases hpch
  have hskip := h.skip hpoints (List.takeWhile_append_dropWhile (p := p)).symm
  refine ⟨hsame, ?_⟩
  rw [Cursor.takeWhile, Cursor.takeWhile, ← hsame]
  exact hskip

/-- The same, whether or not anything is read. -/
theorem takeWhile? {p : CodePoint → Bool} (hp : ∀ b ∈ breaks, p b = false) (h : Alike ms k c d) :
    SameReading ms k (c.takeWhile p) (d.takeWhile p) :=
  (h.takeWhile hp).weaken (Nat.sub_le ..)

/-- The same where one code point at least is read. -/
theorem takeWhile_pos {p : CodePoint → Bool} (hp : ∀ b ∈ breaks, p b = false) (h : Alike ms k c d)
    (hs : c.sees 0 p = true) : SameReading ms (k - 1) (c.takeWhile p) (d.takeWhile p) := by
  refine (h.takeWhile hp).weaken (Nat.sub_le_sub_left ?_ k)
  rw [Cursor.sees, peek_zero] at hs
  show 0 < (c.rest.takeWhile p).length
  cases hr : c.rest with
  | nil => simp [hr] at hs
  | cons ch rest =>
    have hch : p ch = true := by simpa [hr] using hs
    simp [hch]

theorem skipSpaces (h : Alike ms k c d) : Alike ms k c.skipSpaces d.skipSpaces :=
  (h.takeWhile? (by decide)).alike

theorem skipComment (h : Alike ms k c d) : Alike ms k c.skipComment d.skipComment := by
  rw [Cursor.skipComment, Cursor.skipComment, h.seesChar (by decide)]
  split
  · exact (h.takeWhile? (by decide)).alike
  · exact h

theorem skipRestOfLine (h : Alike ms k c d) :
    Both (Alike ms k) c.skipRestOfLine d.skipRestOfLine := by
  have hrest := h.skipSpaces.skipComment
  rw [Cursor.skipRestOfLine, Cursor.skipRestOfLine]
  exact .require hrest.seesLineEnd fun _ => .ok hrest.takeBreak?.alike

/-! ### Further ahead -/

theorem seesChar_one (h : Alike ms k c d) (hp : c.AtPoint) {ch : Char}
    (hb : isBreak (.scalar ch) = false) : c.seesChar 1 ch = d.seesChar 1 ch := by
  rw [seesChar_succ, seesChar_succ]
  exact (h.next hp).seesChar hb

theorem seesGap_one (h : Alike ms k c d) (hp : c.AtPoint) : c.seesGap 1 = d.seesGap 1 := by
  rw [seesGap_succ, seesGap_succ]
  exact (h.next hp).seesGap

/-- Three characters in a row are the same in both texts, and so is the gap after them. -/
theorem seesMarker (h : Alike ms k c d) {ch : Char} (hb : isBreak (.scalar ch) = false) :
    c.seesMarker ch = d.seesMarker ch := by
  rw [Cursor.seesMarker, Cursor.seesMarker, h.seesChar hb]
  simp only [seesChar_succ, seesGap_succ]
  cases h₀ : d.seesChar 0 ch with
  | false => rfl
  | true =>
    have h' := h.next (atPoint_of_seesChar ((h.seesChar hb).trans h₀) hb)
    rw [h'.seesChar hb]
    cases h₁ : d.next.seesChar 0 ch with
    | false => rfl
    | true =>
      have h'' := h'.next (atPoint_of_seesChar ((h'.seesChar hb).trans h₁) hb)
      rw [h''.seesChar hb]
      cases h₂ : d.next.next.seesChar 0 ch with
      | false => rfl
      | true =>
        rw [(h''.next (atPoint_of_seesChar ((h''.seesChar hb).trans h₂) hb)).seesGap]

/-- A marker is no break. -/
theorem skipMarker (h : Alike ms k c d) {ch : Char} (hb : isBreak (.scalar ch) = false)
    (hs : c.seesMarker ch = true) : Alike ms (k - 1) (c.skip 3) (d.skip 3) := by
  simp only [Cursor.seesMarker, seesChar_succ, Bool.and_eq_true] at hs
  obtain ⟨⟨⟨h₀, h₁⟩, h₂⟩, -⟩ := hs
  have hnext := h.next (atPoint_of_seesChar h₀ hb)
  have hnext' := (hnext.next (atPoint_of_seesChar h₁ hb)).weaken (Nat.sub_le ..)
  exact (hnext'.next (atPoint_of_seesChar h₂ hb)).weaken (Nat.sub_le ..)

theorem seesDocumentMarker (h : Alike ms k c d) :
    c.seesDocumentMarker = d.seesDocumentMarker := by
  rw [Cursor.seesDocumentMarker, Cursor.seesDocumentMarker, h.seesMarker (by decide),
    h.seesMarker (by decide)]

end Alike

end Cursor

end TraitCatalog.Yaml
