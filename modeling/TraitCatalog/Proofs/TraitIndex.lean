/-
  What an index holds after it has taken in maps.

  * `implementorsOf_foldl_receive`: under every trait stand the descriptors that the maps have for
    it, one map after the other;
  * `keys_foldl_receive`: the traits are those of the maps, in the order in which they first occur;
  * `descriptors_foldl_receive`: over all traits, the index has the descriptors of the maps and no
    others, each as often as it was taken in;
  * `index_groups_deliveries`: a fresh index and its summary, after any maps.
-/
import TraitCatalog.TraitIndex
import TraitCatalog.Proofs.OrderedMap
import TraitCatalog.Proofs.Text.Order

namespace TraitCatalog

/-- The descriptors that a map has for a trait; none if the trait is no key of it. -/
def ImplementorMap.descriptorsOf (m : ImplementorMap) (trait_ : Text) : List Text :=
  (m.get? trait_).getD []

/-- All descriptors of a map, trait by trait. -/
def ImplementorMap.descriptors (m : ImplementorMap) : List Text :=
  m.values.flatten

namespace TraitIndex

theorem get?_extend (ix : OrderedMap (List Text)) (t u : Text) (ds : List Text) :
    ((extend ix t ds).get? u).getD [] = (ix.get? u).getD [] ++ if u = t then ds else [] := by
  rw [extend, OrderedMap.get?_put]
  split_ifs with h
  · rw [h]
    rfl
  · rw [List.append_nil]

/-- Of entries with distinct keys, a trait gets the one that is its own. -/
theorem get?_foldl_extend (u : Text) : ∀ (es : List (Text × List Text)) (ix : OrderedMap (List Text)),
    (es.map Prod.fst).Nodup → ((es.foldl (fun ix e => extend ix e.1 e.2) ix).get? u).getD [] =
      (ix.get? u).getD [] ++ (es.lookup u).getD []
  | [], ix, _ => by simp
  | (t, ds) :: es, ix, h => by
    obtain ⟨ht, hes⟩ := List.nodup_cons.1 h
    rw [List.foldl_cons, get?_foldl_extend u es _ hes, get?_extend, List.append_assoc, List.lookup_cons]
    by_cases hu : u = t
    · subst hu
      simp [OrderedMap.lookup_eq_none ht]
    · simp [hu, beq_false_of_ne hu]

theorem implementorsOf_receive (ix : TraitIndex) (m : ImplementorMap) (t : Text) :
    (ix.receive m).implementorsOf t = ix.implementorsOf t ++ m.descriptorsOf t :=
  get?_foldl_extend t m.entries ix.index m.nodup

/-- After maps have been taken in, a trait has the descriptors that it has in any of them, in
    order. -/
theorem implementorsOf_foldl_receive (t : Text) : ∀ (ms : List ImplementorMap) (ix : TraitIndex),
    (ms.foldl receive ix).implementorsOf t = ix.implementorsOf t ++ ms.flatMap (·.descriptorsOf t)
  | [], ix => by simp
  | m :: ms, ix => by
    rw [List.foldl_cons, implementorsOf_foldl_receive t ms, implementorsOf_receive,
      List.append_assoc, List.flatMap_cons]

theorem deliveries_foldl_receive : ∀ (ms : List ImplementorMap) (ix : TraitIndex),
    (ms.foldl receive ix).deliveries = ix.deliveries + ms.length
  | [], _ => rfl
  | m :: ms, ix => by
    have hm : (ix.receive m).deliveries = ix.deliveries + 1 := rfl
    rw [List.foldl_cons, deliveries_foldl_receive ms, hm, List.length_cons]
    omega

/-! ## Traits -/

theorem keys_extend {ix : OrderedMap (List Text)} {ks : List Text} (h : ix.keys = ks.eraseDups)
    (t : Text) (ds : List Text) : (extend ix t ds).keys = (ks ++ [t]).eraseDups := by
  rw [extend, OrderedMap.keys_put, h, List.eraseDups_append, List.removeAll]
  by_cases ht : t ∈ ks <;> simp [ht, List.eraseDups_cons]

theorem keys_foldl_extend : ∀ (es : List (Text × List Text)) {ix : OrderedMap (List Text)}
    {ks : List Text}, ix.keys = ks.eraseDups →
    (es.foldl (fun ix e => extend ix e.1 e.2) ix).keys = (ks ++ es.map Prod.fst).eraseDups
  | [], ix, ks, h => by rw [List.map_nil, List.append_nil, List.foldl_nil, h]
  | e :: es, ix, ks, h => by
    rw [List.foldl_cons, keys_foldl_extend es (keys_extend h e.1 e.2), List.append_assoc,
      List.singleton_append, List.map_cons]

/-- The traits of an index stand in the order in which they first occurred. -/
theorem keys_foldl_receive : ∀ (ms : List ImplementorMap) {ix : TraitIndex} {ks : List Text},
    ix.index.keys = ks.eraseDups →
    (ms.foldl receive ix).index.keys = (ks ++ ms.flatMap (·.keys)).eraseDups
  | [], ix, ks, h => by rw [List.flatMap_nil, List.append_nil, List.foldl_nil, h]
  | m :: ms, ix, ks, h => by
    have hm : (ix.receive m).index.keys = (ks ++ m.keys).eraseDups := keys_foldl_extend m.entries h
    rw [List.foldl_cons, keys_foldl_receive ms hm, List.append_assoc, List.flatMap_cons]

/-- A trait of an index has an entry, and no other trait has. -/
theorem get?_index (ix : TraitIndex) (t : Text) :
    ix.index.get? t = if t ∈ ix.index.keys then some (ix.implementorsOf t) else none := by
  rw [implementorsOf]
  rcases hg : ix.index.get? t with _ | ds
  · rw [if_neg fun ht => OrderedMap.get?_eq_none_iff.1 hg ht]
  · rw [if_pos, Option.getD_some]
    by_contra ht
    rw [OrderedMap.get?_eq_none_iff.2 ht] at hg
    cases hg

/-! ## Descriptors of all traits -/

theorem descriptors_extend (ix : ImplementorMap) (t : Text) (ds : List Text) :
    (ImplementorMap.descriptors (extend ix t ds)).Perm (ix.descriptors ++ ds) := by
  rcases hg : ix.get? t with _ | old
  · have he := OrderedMap.entries_put (OrderedMap.get?_eq_none_iff.1 hg) ds
    simp [ImplementorMap.descriptors, OrderedMap.values, extend, hg, he]
  · obtain ⟨pre, post, hix, hput⟩ := OrderedMap.entries_of_get? hg
    have hold : ix.descriptors =
        (pre.map Prod.snd).flatten ++ (old ++ (post.map Prod.snd).flatten) := by
      simp [ImplementorMap.descriptors, OrderedMap.values, hix]
    have hnew : ImplementorMap.descriptors (extend ix t ds) =
        (pre.map Prod.snd).flatten ++ (old ++ (ds ++ (post.map Prod.snd).flatten)) := by
      simp [ImplementorMap.descriptors, OrderedMap.values, extend, hg, hput]
    rw [hold, hnew, List.append_assoc, List.append_assoc]
    exact (List.perm_append_comm.append_left old).append_left _

theorem descriptors_foldl_extend : ∀ (es : List (Text × List Text)) (ix : ImplementorMap),
    (ImplementorMap.descriptors (es.foldl (fun ix e => extend ix e.1 e.2) ix)).Perm
      (ix.descriptors ++ (es.map Prod.snd).flatten)
  | [], ix => by simp
  | (t, ds) :: es, ix => by
    refine (descriptors_foldl_extend es (extend ix t ds)).trans ?_
    rw [List.map_cons, List.flatten_cons, ← List.append_assoc]
    exact (descriptors_extend ix t ds).append_right _

/-- An index loses no descriptor and adds none. -/
theorem descriptors_foldl_receive : ∀ (ms : List ImplementorMap) (ix : TraitIndex),
    (ImplementorMap.descriptors (ms.foldl receive ix).index).Perm
      (ImplementorMap.descriptors ix.index ++ ms.flatMap (·.descriptors))
  | [], ix => by simp
  | m :: ms, ix => by
    refine (descriptors_foldl_receive ms (ix.receive m)).trans ?_
    rw [List.flatMap_cons, ← List.append_assoc]
    exact (descriptors_foldl_extend m.entries ix.index).append_right _

/-- The descriptors of an index are those of its traits. -/
theorem flatMap_implementorsOf (ix : TraitIndex) :
    ix.index.keys.flatMap ix.implementorsOf = ImplementorMap.descriptors ix.index := by
  have hentry : ∀ e ∈ ix.index.entries, ix.implementorsOf e.1 = e.2 := by
    intro e he
    rw [implementorsOf, OrderedMap.get?_of_mem he, Option.getD_some]
  rw [OrderedMap.keys, List.flatMap_map, ImplementorMap.descriptors, OrderedMap.values,
    ← List.flatMap_def]
  exact List.flatMap_congr hentry

/-! ## Summaries -/

theorem mem_summary {ix : TraitIndex} {t : Text} {n : Nat} :
    (t, n) ∈ ix.summary ↔ t ∈ ix.index.keys ∧ n = (ix.implementorsOf t).length := by
  simp only [summary, List.mem_map, (Text.sort_perm _).mem_iff, Prod.mk.injEq]
  constructor
  · rintro ⟨t', ht, rfl, rfl⟩
    exact ⟨ht, rfl⟩
  · rintro ⟨ht, rfl⟩
    exact ⟨t, ht, rfl, rfl⟩

/-- The traits of a summary strictly ascend. -/
theorem pairwise_summary (ix : TraitIndex) : (ix.summary.map Prod.fst).Pairwise Text.Before := by
  have hfst : ix.summary.map Prod.fst = Text.sort ix.index.keys := by
    rw [summary, List.map_map]
    exact List.map_id' _
  rw [hfst]
  exact Text.pairwise_before_sort ix.index.nodup

theorem foldl_counts (f : Text → List Text) : ∀ (ts : List Text) (k : Nat),
    (ts.map fun t => (t, (f t).length)).foldl (fun n e => n + e.2) k = k + (ts.flatMap f).length
  | [], _ => rfl
  | t :: ts, k => by
    rw [List.map_cons, List.foldl_cons, foldl_counts f ts, List.flatMap_cons, List.length_append]
    omega

/-- The counts of a summary add up to the number of all descriptors. -/
theorem sum_summary (ix : TraitIndex) :
    ix.summary.foldl (fun n e => n + e.2) 0 = (ImplementorMap.descriptors ix.index).length := by
  rw [summary, foldl_counts, Nat.zero_add, ← flatMap_implementorsOf]
  exact ((Text.sort_perm ix.index.keys).flatMap_right ix.implementorsOf).length_eq

end TraitIndex

theorem flatMap_descriptorsOf (t : Text) (ms : List ImplementorMap) :
    ms.flatMap (·.descriptorsOf t) = (ms.filterMap (·.get? t)).flatten := by
  induction ms with
  | nil => rfl
  | cons m ms ih =>
    rw [List.flatMap_cons, List.filterMap_cons, ih, ImplementorMap.descriptorsOf]
    rcases m.get? t with _ | ds <;> rfl

/-- **An index groups what it takes in by trait.**  A fresh index that has taken in some maps has
    counted them; its traits are those that occur in any map, in the order in which they first
    occur; and under each of them stand the lists that the maps have for it, one after the other,
    which may be none but empty ones.  The summary has every trait once, in order, with the number
    of its descriptors, and these numbers add up to the number of descriptors in all maps. -/
theorem index_groups_deliveries (ms : List ImplementorMap) :
    let ix := ms.foldl TraitIndex.receive .empty
    ix.deliveries = ms.length ∧
    ix.index.keys = (ms.flatMap (·.keys)).eraseDups ∧
    (∀ t, ix.index.get? t =
      if t ∈ ms.flatMap (·.keys) then some (ms.filterMap (·.get? t)).flatten else none) ∧
    (∀ t, ix.implementorsOf t = (ms.filterMap (·.get? t)).flatten) ∧
    (ix.summary.map Prod.fst).Pairwise Text.Before ∧
    (∀ t n, (t, n) ∈ ix.summary ↔
      t ∈ ms.flatMap (·.keys) ∧ n = (ms.filterMap (·.get? t)).flatten.length) ∧
    ix.summary.foldl (fun n e => n + e.2) 0 = (ms.flatMap (·.descriptors)).length := by
  intro ix
  have hkeys : ix.index.keys = (ms.flatMap (·.keys)).eraseDups :=
    @TraitIndex.keys_foldl_receive ms .empty [] rfl
  have hmem : ∀ t, t ∈ ix.index.keys ↔ t ∈ ms.flatMap (·.keys) := by
    intro t
    rw [hkeys, List.mem_eraseDups]
  have hlists : ∀ t, ix.implementorsOf t = (ms.filterMap (·.get? t)).flatten := by
    intro t
    rw [← flatMap_descriptorsOf]
    exact TraitIndex.implementorsOf_foldl_receive t ms .empty
  refine ⟨?_, hkeys, fun t => ?_, hlists, ix.pairwise_summary, fun t n => ?_, ?_⟩
  · exact (TraitIndex.deliveries_foldl_receive ms .empty).trans (Nat.zero_add _)
  · rw [TraitIndex.get?_index, hlists]
    simp only [hmem]
  · rw [TraitIndex.mem_summary, hmem, hlists]
  · rw [TraitIndex.sum_summary]
    exact (TraitIndex.descriptors_foldl_receive ms .empty).length_eq

end TraitCatalog
