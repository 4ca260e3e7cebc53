/-
  Maps that remember the order of their keys: what `put` does to the entries and to a look-up, and
  what a look-up says of the entries.
-/
import Mathlib.Data.List.Nodup
import Mathlib.Tactic.SplitIfs
import TraitCatalog.OrderedMap

namespace TraitCatalog.OrderedMap

variable {α : Type}

theorem eq_of_entries {m m' : OrderedMap α} (h : m.entries = m'.entries) : m = m' := by
  cases m
  cases m'
  simp only at h
  subst h
  rfl

theorem contains_iff {m : OrderedMap α} {k : Text} : m.contains k = true ↔ k ∈ m.keys := by
  rw [contains, List.contains_iff_mem]

/-- A new key goes to the end. -/
theorem entries_put {m : OrderedMap α} {k : Text} (h : k ∉ m.keys) (v : α) :
    (m.put k v).entries = m.entries ++ [(k, v)] := by
  rw [put, dif_neg h]

theorem lookup_eq_none {es : List (Text × α)} {k : Text} (h : k ∉ es.map Prod.fst) :
    es.lookup k = none := by
  rw [List.lookup_eq_none_iff]
  intro e he
  refine bne_iff_ne.2 fun heq => h ?_
  rw [heq]
  exact List.mem_map_of_mem he

theorem lookup_replaceValue (k k' : Text) (v : α) (es : List (Text × α)) :
    (replaceValue k v es).lookup k' =
      if k' = k then (es.lookup k).map fun _ => v else es.lookup k' := by
  induction es with
  | nil => simp [replaceValue]
  | cons e es ih =>
    obtain ⟨a, b⟩ := e
    have hcons : replaceValue k v ((a, b) :: es) =
        (a, if a = k then v else b) :: replaceValue k v es := by
      simp only [replaceValue, List.map_cons]
      split_ifs <;> rfl
    rw [hcons, List.lookup_cons, List.lookup_cons, List.lookup_cons, ih]
    by_cases hk : k' = k
    · subst hk
      by_cases ha : k' = a
      · simp [ha]
      · simp [beq_false_of_ne ha]
    · by_cases ha : k' = a
      · subst ha
        simp [hk]
      · simp [hk, beq_false_of_ne ha]

/-- After `put`, the key has the new value, and all other keys have the values they had. -/
@[simp] theorem get?_put (m : OrderedMap α) (k k' : Text) (v : α) :
    (m.put k v).get? k' = if k' = k then some v else m.get? k' := by
  by_cases hk : k ∈ m.keys
  · have hs : ∃ u, m.entries.lookup k = some u := by
      obtain ⟨e, he, rfl⟩ := List.mem_map.1 hk
      exact Option.ne_none_iff_exists'.1 fun hn => by
        have := List.lookup_eq_none_iff.1 hn e he
        simp at this
    obtain ⟨u, hu⟩ := hs
    rw [put, dif_pos hk, get?, lookup_replaceValue, hu]
    rfl
  · rw [get?, entries_put hk, List.lookup_append]
    by_cases hkk : k' = k
    · subst hkk
      simp [lookup_eq_none hk]
    · rw [List.lookup_cons, beq_false_of_ne hkk]
      simp [hkk, get?]

/-! ## Entries and look-ups -/

theorem get?_eq_none_iff {m : OrderedMap α} {k : Text} : m.get? k = none ↔ k ∉ m.keys := by
  constructor
  · intro h hk
    obtain ⟨e, he, rfl⟩ := List.mem_map.1 hk
    have := List.lookup_eq_none_iff.1 h e he
    simp at this
  · exact lookup_eq_none

theorem get?_of_mem {m : OrderedMap α} {k : Text} {v : α} (h : (k, v) ∈ m.entries) :
    m.get? k = some v := by
  rcases hg : m.get? k with _ | w
  · exact absurd (List.mem_map_of_mem h) (get?_eq_none_iff.1 hg)
  · obtain ⟨pre, post, he, -⟩ := List.lookup_eq_some_iff.1 hg
    have hw : (k, w) ∈ m.entries := by rw [he]; simp
    have := List.inj_on_of_nodup_map m.nodup hw h rfl
    rw [(Prod.mk.inj this).2]

theorem replaceValue_of_notMem {es : List (Text × α)} {k : Text} (h : k ∉ es.map Prod.fst) (v : α) :
    replaceValue k v es = es := by
  have hid : ∀ e ∈ es, (if e.1 = k then (e.1, v) else e) = e := by
    intro e he
    refine if_neg ?_
    rintro rfl
    exact h (List.mem_map_of_mem he)
  rw [replaceValue, List.map_congr_left hid, List.map_id']

/-- A key has one entry, and `put` changes nothing but its value. -/
theorem entries_of_get? {m : OrderedMap α} {k : Text} {v : α} (h : m.get? k = some v) :
    ∃ pre post, m.entries = pre ++ (k, v) :: post ∧
      ∀ w, (m.put k w).entries = pre ++ (k, w) :: post := by
  obtain ⟨pre, post, he, -⟩ := List.lookup_eq_some_iff.1 h
  have hn := m.nodup
  rw [he, List.map_append, List.map_cons, List.nodup_append, List.nodup_cons] at hn
  obtain ⟨-, ⟨hpost, -⟩, hdisjoint⟩ := hn
  have hpre : k ∉ pre.map Prod.fst := fun hk => hdisjoint k hk k (List.mem_cons_self ..) rfl
  refine ⟨pre, post, he, fun w => ?_⟩
  have hk : k ∈ m.keys := by rw [keys, he]; simp
  rw [put, dif_pos hk]
  change replaceValue k w m.entries = _
  have happend : replaceValue k w m.entries =
      replaceValue k w pre ++ (k, w) :: replaceValue k w post := by
    rw [he]
    simp [replaceValue]
  rw [happend, replaceValue_of_notMem hpre, replaceValue_of_notMem hpost]

end TraitCatalog.OrderedMap
