/-
  Cutting texts and putting them together.

  * `dropLead?_eq_some` and `dropTail?_eq_some`: taking a text off the front or the
    end of another succeeds exactly when it stands there;
  * `splitOn_join`: pieces that do not hold the separator come back from their join,
    and `join_splitOn` is the other direction;
  * `skipBlanks_append`, `trimRight_append`, `trim_append`: trimming stops at the
    first code point that is no blank (`Text.Sharp`).

  `CodePoint.ofNat?_toNat`: a code point is known by its number.
-/
import Mathlib.Tactic.SplitIfs
import TraitCatalog.Text.Blank
import TraitCatalog.Text.Lines

namespace TraitCatalog

theorem CodePoint.ofNat?_toNat (c : CodePoint) : CodePoint.ofNat? c.toNat = some c := by
  cases c with
  | scalar ch =>
    have hv : Nat.isValidChar ch.toNat := ch.valid
    rw [CodePoint.ofNat?, CodePoint.toNat, dif_pos hv]
    rfl
  | surrogate n =>
    have hv : ¬ Nat.isValidChar (0xD800 + n.val) := by
      simp only [Nat.isValidChar]
      omega
    have hr : 0xD800 ≤ 0xD800 + n.val ∧ 0xD800 + n.val < 0xE000 := by omega
    rw [CodePoint.ofNat?, CodePoint.toNat, dif_neg hv, dif_pos hr]
    simp

namespace Text

/-! ## Texts at the ends -/

theorem dropLead?_eq_some : ∀ {lead t r : Text}, dropLead? lead t = some r ↔ t = lead ++ r
  | [], t, r => by simp [dropLead?]
  | a :: lead, [], r => by simp [dropLead?]
  | a :: lead, b :: t, r => by
    rw [dropLead?]
    split_ifs with h
    · subst h
      simp [dropLead?_eq_some]
    · simp only [List.cons_append, List.cons.injEq, false_iff, not_and]
      exact fun hb => absurd hb.symm h

@[simp] theorem dropLead?_append (lead r : Text) : dropLead? lead (lead ++ r) = some r :=
  dropLead?_eq_some.2 rfl

theorem startsWith_iff {t lead : Text} : t.startsWith lead = true ↔ ∃ r, t = lead ++ r := by
  simp only [startsWith, Option.isSome_iff_exists, dropLead?_eq_some]

theorem dropTail?_eq_some {tail t r : Text} : dropTail? tail t = some r ↔ t = r ++ tail := by
  simp only [dropTail?, Option.map_eq_some_iff, dropLead?_eq_some]
  constructor
  · rintro ⟨s, hs, rfl⟩
    have := congrArg List.reverse hs
    simpa using this
  · rintro rfl
    exact ⟨r.reverse, by simp, by simp⟩

@[simp] theorem dropTail?_append (tail r : Text) : dropTail? tail (r ++ tail) = some r :=
  dropTail?_eq_some.2 rfl

/-! ## Pieces -/

theorem splitOn_ne_nil (sep : CodePoint) : ∀ t : Text, splitOn sep t ≠ []
  | [] => by simp [splitOn]
  | c :: t => by
    rw [splitOn]
    split_ifs
    · simp
    · cases splitOn sep t <;> simp [consHead]

theorem splitOn_of_notMem {sep : CodePoint} : ∀ {t : Text}, sep ∉ t → splitOn sep t = [t]
  | [], _ => rfl
  | c :: t, h => by
    simp only [List.mem_cons, not_or] at h
    rw [splitOn, if_neg (Ne.symm h.1), splitOn_of_notMem h.2, consHead]

theorem splitOn_append_cons {sep : CodePoint} (t : Text) :
    ∀ {p : Text}, sep ∉ p → splitOn sep (p ++ sep :: t) = p :: splitOn sep t
  | [], _ => by simp [splitOn]
  | c :: p, h => by
    simp only [List.mem_cons, not_or] at h
    rw [List.cons_append, splitOn, if_neg (Ne.symm h.1), splitOn_append_cons t h.2, consHead]

/-- **Joined pieces are cut apart again.** -/
theorem splitOn_join {sep : CodePoint} : ∀ {ps : List Text}, ps ≠ [] → (∀ p ∈ ps, sep ∉ p) →
    splitOn sep (join [sep] ps) = ps
  | [], h, _ => absurd rfl h
  | [p], _, h => by
    rw [join, List.intercalate_singleton]
    exact splitOn_of_notMem (h p (by simp))
  | p :: q :: ps, _, h => by
    have ih : splitOn sep (join [sep] (q :: ps)) = q :: ps :=
      splitOn_join (by simp) fun r hr => h r (List.mem_cons_of_mem p hr)
    rw [join, List.intercalate_cons_cons, List.append_assoc, List.singleton_append,
      splitOn_append_cons _ (h p (by simp))]
    rw [join] at ih
    rw [ih]

theorem join_splitOn (sep : CodePoint) : ∀ t : Text, join [sep] (splitOn sep t) = t
  | [] => rfl
  | c :: t => by
    have ih := join_splitOn sep t
    rw [splitOn]
    rcases hs : splitOn sep t with _ | ⟨p, ps⟩
    · exact absurd hs (splitOn_ne_nil sep t)
    rw [hs, join] at ih
    split_ifs with h
    · rw [join, List.intercalate_cons_cons, ih, h]; rfl
    · rw [consHead, join, List.intercalate_cons_cons_left, ih]

theorem notMem_of_mem_splitOn {sep : CodePoint} : ∀ {t p : Text}, p ∈ splitOn sep t → sep ∉ p
  | [], p, h => by
    simp only [splitOn, List.mem_singleton] at h
    simp [h]
  | c :: t, p, h => by
    rw [splitOn] at h
    split_ifs at h with hc
    · rcases List.mem_cons.1 h with rfl | h
      · simp
      · exact notMem_of_mem_splitOn h
    · rcases hs : splitOn sep t with _ | ⟨q, qs⟩
      · exact absurd hs (splitOn_ne_nil sep t)
      rw [hs, consHead] at h
      rcases List.mem_cons.1 h with rfl | h
      · have hq : sep ∉ q := notMem_of_mem_splitOn (by rw [hs]; exact List.mem_cons_self)
        simp only [List.mem_cons, not_or]
        exact ⟨Ne.symm hc, hq⟩
      · exact notMem_of_mem_splitOn (by rw [hs]; exact List.mem_cons_of_mem q h)

theorem mem_join {sep : Text} {c : CodePoint} : ∀ {ps : List Text}, c ∈ join sep ps →
    c ∈ sep ∨ ∃ p ∈ ps, c ∈ p
  | [], h => by simp [join] at h
  | [p], h => by
    rw [join, List.intercalate_singleton] at h
    exact .inr ⟨p, List.mem_singleton_self p, h⟩
  | p :: q :: ps, h => by
    rw [join, List.intercalate_cons_of_ne_nil (List.cons_ne_nil q ps), ← join] at h
    rcases List.mem_append.1 h with h | h
    · rcases List.mem_append.1 h with h | h
      · exact .inr ⟨p, List.mem_cons_self .., h⟩
      · exact .inl h
    · rcases mem_join h with h | ⟨r, hr, h⟩
      · exact .inl h
      · exact .inr ⟨r, List.mem_cons_of_mem _ hr, h⟩

theorem join_append (sep : Text) {ps qs : List Text} (hp : ps ≠ []) (hq : qs ≠ []) :
    join sep (ps ++ qs) = join sep ps ++ sep ++ join sep qs := by
  induction ps with
  | nil => exact absurd rfl hp
  | cons p ps ih =>
    rcases ps with _ | ⟨p', ps⟩
    · simp [join, List.intercalate_cons_of_ne_nil hq]
    · have := ih (by simp)
      simp only [join, List.cons_append, List.intercalate_cons_cons] at this ⊢
      rw [this]; simp

/-! ## Controls -/

/-- A text without the controls below U+0020. -/
def Printable (t : Text) : Prop :=
  ∀ c ∈ t, 0x20 ≤ c.toNat

theorem Printable.append {t u : Text} (ht : Printable t) (hu : Printable u) : Printable (t ++ u) :=
  fun c hc => (List.mem_append.1 hc).elim (ht c) (hu c)

theorem Printable.notMem {t : Text} (h : Printable t) {c : CodePoint} (hc : c.toNat < 0x20) :
    c ∉ t :=
  fun hm => absurd (h c hm) (Nat.not_le.2 hc)

/-! ## Blanks -/

/-- A text of blanks. -/
def Blanks (t : Text) : Prop :=
  ∀ c ∈ t, c.isBlank = true

/-- A text that does not begin with a blank. -/
def Sharp (t : Text) : Prop :=
  ∀ c ∈ t.head?, c.isBlank = false

theorem blanks_nil : Blanks [] := by simp [Blanks]

theorem sharp_nil : Sharp [] := by simp [Sharp]

theorem sharp_cons {c : CodePoint} (h : c.isBlank = false) (t : Text) : Sharp (c :: t) := by
  simpa [Sharp] using h

theorem Sharp.append {t : Text} (h : Sharp t) (hne : t ≠ []) (u : Text) : Sharp (t ++ u) := by
  rcases t with _ | ⟨c, t⟩
  · exact absurd rfl hne
  · exact h

theorem nil_of_blanks {a t : Text} (ha : Blanks a) (h : Sharp (a ++ t)) : a = [] := by
  rcases a with _ | ⟨c, a⟩
  · rfl
  · have hc : c.isBlank = false := h c rfl
    rw [ha c (by simp)] at hc
    cases hc

theorem skipBlanks_of_sharp {t : Text} (h : Sharp t) : skipBlanks t = t := by
  rcases t with _ | ⟨c, t⟩
  · rfl
  · have hc : c.isBlank = false := h c rfl
    simp [skipBlanks, hc]

theorem skipBlanks_append {a t : Text} (ha : Blanks a) (ht : Sharp t) : skipBlanks (a ++ t) = t := by
  rw [skipBlanks, List.dropWhile_append_of_pos ha]
  exact skipBlanks_of_sharp ht

theorem sharp_skipBlanks (t : Text) : Sharp (skipBlanks t) := by
  have := List.head?_dropWhile_not CodePoint.isBlank t
  intro c hc
  rw [skipBlanks] at hc
  rw [Option.mem_def.1 hc] at this
  exact this

/-- A text is its leading blanks and what `skipBlanks` leaves. -/
theorem skipBlanks_spec (t : Text) : ∃ a, Blanks a ∧ t = a ++ skipBlanks t := by
  refine ⟨t.takeWhile CodePoint.isBlank, ?_, ?_⟩
  · intro c hc
    have := List.all_takeWhile (p := CodePoint.isBlank) (l := t)
    exact List.all_eq_true.1 this c hc
  · rw [skipBlanks, List.takeWhile_append_dropWhile]

theorem trimRight_append {t z : Text} (ht : Sharp t.reverse) (hz : Blanks z) :
    trimRight (t ++ z) = t := by
  have hz' : Blanks z.reverse := fun c hc => hz c (List.mem_reverse.1 hc)
  have := skipBlanks_append hz' ht
  rw [trimRight, List.reverse_append]
  rw [skipBlanks] at this
  rw [this, List.reverse_reverse]

theorem trimRight_spec (t : Text) : ∃ z, Blanks z ∧ t = trimRight t ++ z := by
  obtain ⟨a, ha, h⟩ := skipBlanks_spec t.reverse
  refine ⟨a.reverse, fun c hc => ha c (List.mem_reverse.1 hc), ?_⟩
  have := congrArg List.reverse h
  rw [List.reverse_reverse, List.reverse_append] at this
  exact this

theorem sharp_reverse_trimRight (t : Text) : Sharp (trimRight t).reverse := by
  rw [trimRight, List.reverse_reverse]
  exact sharp_skipBlanks t.reverse

/-- **Trimming leaves what stands between the blanks.** -/
theorem trim_append {a t z : Text} (ha : Blanks a) (ht : Sharp t) (ht' : Sharp t.reverse)
    (hz : Blanks z) : trim (a ++ t ++ z) = t := by
  rcases t with _ | ⟨c, t⟩
  · have haz : Blanks (a ++ z) := fun c hc => (List.mem_append.1 hc).elim (ha c) (hz c)
    have := skipBlanks_append haz sharp_nil
    rw [List.append_nil] at this
    rw [trim, List.append_nil, this]; rfl
  · rw [trim, List.append_assoc, skipBlanks_append ha (ht.append (by simp) z),
      trimRight_append ht' hz]

theorem trim_spec (t : Text) : ∃ a z, Blanks a ∧ Blanks z ∧ t = a ++ trim t ++ z := by
  obtain ⟨a, ha, h⟩ := skipBlanks_spec t
  obtain ⟨z, hz, h'⟩ := trimRight_spec (skipBlanks t)
  refine ⟨a, z, ha, hz, ?_⟩
  rw [trim, List.append_assoc, ← h', ← h]

theorem sharp_reverse_trim (t : Text) : Sharp (trim t).reverse :=
  sharp_reverse_trimRight _

theorem sharp_trim (t : Text) : Sharp (trim t) := by
  obtain ⟨z, -, h⟩ := trimRight_spec (skipBlanks t)
  have hs := sharp_skipBlanks t
  rcases ht : trim t with _ | ⟨c, u⟩
  · exact sharp_nil
  · rw [trim] at ht
    rw [h, ht] at hs
    exact hs

end Text

end TraitCatalog
