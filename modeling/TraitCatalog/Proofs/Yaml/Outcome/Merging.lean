/-
  What merging does to the nodes of a text, and what ends it.

  A mapping is resolved when none of its keys is a merge key or `=`.  Resolving one may resolve others
  on the way, and itself, since nodes may contain themselves.  But it always takes a pair with a merge
  key out before it looks at what the key brings in, and it never adds such a pair.

  * `Graph.Derives`: nodes that come from others on the way; each pair is plain or was there before;
  * `Graph.Settles`: nodes that come from others in the end; the pairs that have changed are plain;
  * `takeOut_yields`, `flattenFrom_yields`: one merge key, and all merge keys of a mapping;
  * `flatten_yields`: a mapping is resolved, or it is the first of a long path of merges.
-/
import Mathlib.Algebra.Order.BigOperators.Group.List
import Mathlib.Algebra.Order.Group.Nat
import TraitCatalog.Proofs.Yaml.Outcome.Basic
import TraitCatalog.Yaml.Value

namespace TraitCatalog.Yaml

namespace Graph

/-- The nodes with another at a cell. -/
abbrev put (g : Graph) (i : Nat) (c : Cell) : Graph :=
  g.setIfInBounds i c

/-- The tag of the node at a cell. -/
def tag? (g : Graph) (i : Nat) : Option Tag :=
  g[i]?.map (·.tag)

/-- A pair whose key is neither a merge key nor `=`. -/
def IsPlain (g : Graph) (p : Nat × Nat) : Prop :=
  g.tag? p.1 ≠ some .merge ∧ g.tag? p.1 ≠ some .default

/-- The pairs of the mapping `i` take those of `j` in. -/
def Merges (g : Graph) (i j : Nat) : Prop :=
  ∃ p ∈ g.pairs i, g.tag? p.1 = some .merge ∧
    (j = p.2 ∨ ∃ c items, g[p.2]? = some c ∧ c.content = .sequence items ∧ j ∈ items)

end Graph

/-- What a node holds, apart from the pairs of a mapping. -/
def Content.outline : Content → Content
  | .mapping _ => .mapping []
  | content => content

/-- Nodes from which others come, in that `=` may become an ordinary text and pairs of mappings
    change. -/
structure Graph.Alters (g g' : Graph) : Prop where
  outlines : g'.map (·.content.outline) = g.map (·.content.outline)
  tags : ∀ i, g'.tag? i = g.tag? i ∨ g.tag? i = some .default ∧ g'.tag? i = some .text

/-- All pairs that have been added are plain. -/
structure Graph.Derives (g g' : Graph) : Prop extends g.Alters g' where
  pairs : ∀ i, ∀ p ∈ g'.pairs i, g'.IsPlain p ∨ p ∈ g.pairs i
  count : g'.mergeCount ≤ g.mergeCount

/-- All pairs of a mapping are plain, if they have changed. -/
structure Graph.Settles (g g' : Graph) : Prop extends g.Alters g' where
  pairs : ∀ i, g'.pairs i = g.pairs i ∨ ∀ p ∈ g'.pairs i, g'.IsPlain p

namespace Graph

variable {g g' g'' : Graph} {i j k : Nat} {c d : Cell} {p : Nat × Nat} {ps : List (Nat × Nat)}

/-! ## Nodes from which others come -/

theorem Alters.refl (g : Graph) : g.Alters g :=
  ⟨rfl, fun _ => .inl rfl⟩

theorem Alters.trans (h : g.Alters g') (h' : g'.Alters g'') : g.Alters g'' := by
  refine ⟨h'.outlines.trans h.outlines, fun i => ?_⟩
  rcases h'.tags i with htag | ⟨hdefault, htext⟩
  · rw [htag]
    exact h.tags i
  · rcases h.tags i with htag | ⟨-, htext'⟩
    · exact .inr ⟨htag ▸ hdefault, htext⟩
    · rw [htext'] at hdefault
      cases hdefault

theorem Alters.size (h : g.Alters g') : g'.size = g.size := by
  simpa using congrArg Array.size h.outlines

/-- The node that another comes from. -/
theorem Alters.source (h : g.Alters g') (hc : g'[i]? = some c) : ∃ d, g[i]? = some d ∧
    c.content.outline = d.content.outline ∧ (c.tag = d.tag ∨ d.tag = .default ∧ c.tag = .text) := by
  have houtline := congrArg (·[i]?) h.outlines
  have htag := h.tags i
  rw [Array.getElem?_map, Array.getElem?_map, hc] at houtline
  rw [tag?, tag?, hc] at htag
  cases hd : g[i]? with
  | none =>
    rw [hd] at houtline
    cases houtline
  | some d =>
    rw [hd] at houtline htag
    simp only [Option.map_some, Option.some.injEq] at houtline htag
    exact ⟨d, rfl, houtline, htag⟩

theorem outline_eq {a b : Content} (h : a.outline = b.outline) :
    a = b ∨ (∃ ps, a = .mapping ps) ∧ ∃ ps, b = .mapping ps := by
  cases a <;> cases b <;> simp_all [Content.outline]

theorem Alters.plain (h : g.Alters g') (hp : g.IsPlain p) : g'.IsPlain p := by
  rcases h.tags p.1 with htag | ⟨hdefault, -⟩
  · rwa [IsPlain, htag]
  · exact absurd hdefault hp.2

theorem Alters.tag_merge (h : g.Alters g') (hi : g'.tag? i = some .merge) :
    g.tag? i = some .merge := by
  rcases h.tags i with htag | ⟨-, htext⟩
  · rwa [← htag]
  · rw [htext] at hi
    cases hi

theorem Alters.tag_default (h : g.Alters g') (hi : g'.tag? i = some .default) :
    g.tag? i = some .default := by
  rcases h.tags i with htag | ⟨-, htext⟩
  · rwa [← htag]
  · rw [htext] at hi
    cases hi

theorem isMerge_iff : g.isMerge p = true ↔ g.tag? p.1 = some .merge := by
  rw [isMerge, tag?]
  cases g[p.1]? <;> simp

theorem countP_isMerge_eq_zero (h : ∀ p ∈ ps, g.IsPlain p) : ps.countP g.isMerge = 0 :=
  List.countP_eq_zero.2 fun p hp hmerge => (h p hp).1 (isMerge_iff.1 hmerge)

theorem mergeCount_le (hsize : g'.size = g.size)
    (h : ∀ i, (g'.pairs i).countP g'.isMerge ≤ (g.pairs i).countP g.isMerge) :
    g'.mergeCount ≤ g.mergeCount := by
  simp only [mergeCount, hsize, List.length_flatMap, ← List.countP_eq_length_filter]
  exact List.sum_le_sum fun i _ => h i

theorem Settles.refl (g : Graph) : g.Settles g :=
  ⟨.refl g, fun _ => .inl rfl⟩

theorem Settles.trans (h : g.Settles g') (h' : g'.Settles g'') : g.Settles g'' := by
  refine ⟨h.toAlters.trans h'.toAlters, fun i => ?_⟩
  rcases h'.pairs i with hsame | hplain
  · rcases h.pairs i with hsame' | hplain
    · exact .inl (hsame.trans hsame')
    · exact .inr fun p hp => h'.toAlters.plain (hplain p (hsame ▸ hp))
  · exact .inr hplain

theorem Settles.derives (h : g.Settles g') : g.Derives g' := by
  refine ⟨h.toAlters, fun i p hp => ?_, mergeCount_le h.size fun i => ?_⟩
  · rcases h.pairs i with hsame | hplain
    · exact .inr (hsame ▸ hp)
    · exact .inl (hplain p hp)
  · rcases h.pairs i with hsame | hplain
    · rw [hsame]
      exact List.countP_mono_left fun p _ hp => isMerge_iff.2 (h.tag_merge (isMerge_iff.1 hp))
    · rw [countP_isMerge_eq_zero hplain]
      exact Nat.zero_le _

theorem Derives.trans (h : g.Derives g') (h' : g'.Derives g'') : g.Derives g'' := by
  refine ⟨h.toAlters.trans h'.toAlters, fun i p hp => ?_, Nat.le_trans h'.count h.count⟩
  rcases h'.pairs i p hp with hplain | hp
  · exact .inl hplain
  · exact (h.pairs i p hp).imp_left h'.toAlters.plain

/-! ## Changes of one node -/

theorem pairs_eq (h : g[i]? = some c) (hc : c.content = .mapping ps) : g.pairs i = ps := by
  obtain ⟨tag, content⟩ := c
  subst hc
  rw [pairs, h]

theorem set_getElem? (h : g[i]? = some c) :
    (g.put i d)[j]? = if j = i then some d else g[j]? := by
  have hi : i < g.size := (Array.getElem?_eq_some_iff.1 h).1
  rw [put, Array.getElem?_setIfInBounds]
  split_ifs with hij hji hji
  · rfl
  · exact absurd hij.symm hji
  · exact absurd hji.symm hij
  · rfl

theorem content_eq (h : g[i]? = some c) (hp : p ∈ g.pairs i) : c.content = .mapping (g.pairs i) := by
  rw [pairs, h] at hp ⊢
  rcases c with ⟨tag, _ | _ | _⟩
  · cases hp
  · cases hp
  · rfl

theorem tag?_set (h : g[i]? = some c) :
    (g.put i d).tag? j = if j = i then some d.tag else g.tag? j := by
  rw [tag?, set_getElem? h]
  split_ifs <;> rfl

theorem pairs_set (h : g[i]? = some c) (hd : d.content = .mapping ps) :
    (g.put i d).pairs j = if j = i then ps else g.pairs j := by
  split_ifs with hj
  · exact pairs_eq (by rw [set_getElem? h, if_pos hj]) hd
  · rw [pairs, set_getElem? h, if_neg hj]
    rfl

theorem outlines_set (h : g[i]? = some c) (hd : d.content.outline = c.content.outline) :
    (g.put i d).map (·.content.outline) = g.map (·.content.outline) := by
  refine Array.ext_getElem? fun j => ?_
  rw [Array.getElem?_map, Array.getElem?_map, set_getElem? h]
  split_ifs with hj
  · rw [hj, h, Option.map_some, Option.map_some, hd]
  · rfl

/-- The key `=` becomes an ordinary text. -/
theorem soften_settles (h : g[i]? = some c) (hc : c.tag = .default) :
    g.Settles (g.put i { c with tag := .text }) ∧
      ∀ j, (g.put i { c with tag := .text }).pairs j = g.pairs j := by
  have hpairs : ∀ j, (g.put i { c with tag := .text }).pairs j = g.pairs j := by
    intro j
    rw [pairs, pairs, set_getElem? h]
    split_ifs with hj
    · rw [hj, h]
      rcases c with ⟨tag, _ | _ | _⟩ <;> rfl
    · rfl
  refine ⟨⟨⟨outlines_set h rfl, fun j => ?_⟩, fun j => .inl (hpairs j)⟩, hpairs⟩
  rw [tag?_set h]
  split_ifs with hj
  · refine .inr ⟨?_, rfl⟩
    rw [hj, tag?, h, Option.map_some, hc]
  · exact .inl rfl

/-- A mapping takes other pairs. -/
theorem setPairs_alters (h : g[i]? = some c) (hc : c.content = .mapping ps) (qs : List (Nat × Nat)) :
    g.Alters (g.put i { c with content := .mapping qs }) ∧
      (∀ j, (g.put i { c with content := .mapping qs }).tag? j = g.tag? j) ∧
      ∀ j, (g.put i { c with content := .mapping qs }).pairs j =
        if j = i then qs else g.pairs j := by
  have htags : ∀ j, (g.put i { c with content := .mapping qs }).tag? j = g.tag? j := by
    intro j
    rw [tag?_set h]
    split_ifs with hj
    · rw [hj, tag?, h]
      rfl
    · rfl
  refine ⟨⟨outlines_set h ?_, fun j => .inl (htags j)⟩, htags, fun j => pairs_set h rfl⟩
  simp only [Content.outline, hc]

/-- A mapping takes plain pairs only. -/
theorem setPairs_settles (h : g[i]? = some c) (hc : c.content = .mapping ps) {qs : List (Nat × Nat)}
    (hqs : ∀ p ∈ qs, g.IsPlain p) :
    g.Settles (g.put i { c with content := .mapping qs }) := by
  obtain ⟨halters, -, hpairs⟩ := setPairs_alters h hc qs
  refine ⟨halters, fun j => ?_⟩
  rw [hpairs]
  split_ifs with hj
  · exact .inr fun p hp => halters.plain (hqs p hp)
  · exact .inl rfl

/-- A mapping loses a pair with a merge key. -/
theorem erase_derives {n : Nat} (h : g[i]? = some c) (hc : c.content = .mapping ps)
    (hp : ps[n]? = some p) (hmerge : g.tag? p.1 = some .merge) :
    g.Derives (g.put i { c with content := .mapping (ps.eraseIdx n) }) ∧
      (g.put i { c with content := .mapping (ps.eraseIdx n) }).mergeCount < g.mergeCount := by
  obtain ⟨halters, htags, hpairs⟩ := setPairs_alters h hc (ps.eraseIdx n)
  generalize hg' : g.put i { c with content := .mapping (ps.eraseIdx n) } = g' at *
  have hi : g.pairs i = ps := pairs_eq h hc
  have hmerges : g'.isMerge = g.isMerge := by
    funext q
    rw [Bool.eq_iff_iff, isMerge_iff, isMerge_iff, htags]
  have hless : ∀ j, (g'.pairs j).countP g'.isMerge ≤ (g.pairs j).countP g.isMerge := by
    intro j
    rw [hmerges, hpairs]
    split_ifs with hj
    · rw [hj, hi]
      exact (List.eraseIdx_sublist ps n).countP_le
    · exact Nat.le_refl _
  have hlost : (g'.pairs i).countP g'.isMerge < (g.pairs i).countP g.isMerge := by
    obtain ⟨hn, hpn⟩ := List.getElem?_eq_some_iff.1 hp
    have hsplit : ps = ps.take n ++ p :: ps.drop (n + 1) := by
      rw [← hpn, List.cons_getElem_drop_succ, List.take_append_drop]
    have hcount : ps.countP g.isMerge = (ps.eraseIdx n).countP g.isMerge + 1 := by
      conv_lhs => rw [hsplit]
      rw [List.eraseIdx_eq_take_drop_succ, List.countP_append, List.countP_append,
        List.countP_cons_of_pos (isMerge_iff.2 hmerge), Nat.add_assoc]
    rw [hmerges, hpairs, if_pos rfl, hi, hcount]
    exact Nat.lt_succ_self _
  refine ⟨⟨halters, fun j q hq => .inr ?_, mergeCount_le halters.size hless⟩, ?_⟩
  · rw [hpairs] at hq
    split_ifs at hq with hj
    · rw [hj, hi]
      exact List.mem_of_mem_eraseIdx hq
    · exact hq
  · simp only [mergeCount, halters.size, List.length_flatMap, ← List.countP_eq_length_filter]
    refine List.sum_lt_sum _ _ (fun j _ => hless j) ⟨i, ?_, hlost⟩
    exact List.mem_range.2 (Array.getElem?_eq_some_iff.1 h).1

/-- What becomes of nodes after a mapping has changed is what becomes of those before, if the mapping
    has plain pairs in the end. -/
theorem Settles.of_changed {qs : List (Nat × Nat)} (h : g[i]? = some c) (hc : c.content = .mapping ps)
    (hsettles : (g.put i { c with content := .mapping qs }).Settles g')
    (hplain : ∀ p ∈ g'.pairs i, g'.IsPlain p) : g.Settles g' := by
  obtain ⟨halters, -, hpairs⟩ := setPairs_alters h hc qs
  refine ⟨halters.trans hsettles.toAlters, fun j => ?_⟩
  by_cases hj : j = i
  · exact .inr (hj ▸ hplain)
  · have := hsettles.pairs j
    rwa [hpairs, if_neg hj] at this

end Graph

namespace Build

open TraitCatalog.Yaml.Graph

variable {E : Fault → Prop} {g : Graph} {s : Builder} {i n : Nat}

/-! ## Single nodes -/

theorem cell_yields (hE : E .invalid) :
    Yields E (fun r => r.2 = s ∧ s.cells[i]? = some r.1) ((cell i).run s) := by
  rw [cell]
  refine .getState ?_
  split
  · rename_i c hc
    exact .ok ⟨rfl, hc⟩
  · exact .error hE

theorem pairsAt_yields (hE : E .invalid) : Yields E (fun r => r.2 = s ∧
    ∃ c, s.cells[i]? = some c ∧ c.content = .mapping r.1) ((pairsAt i).run s) := by
  refine (cell_yields hE).bindState fun c s' hc => ?_
  obtain ⟨rfl, hc⟩ := hc
  split
  · rename_i ps hps
    exact .ok ⟨rfl, c, hc, hps⟩
  · exact .error hE

/-- The pairs that are read are those of the cell. -/
theorem pairsAt_pairs (hE : E .invalid) :
    Yields E (fun r => r.2 = s ∧ s.cells.pairs i = r.1) ((pairsAt i).run s) :=
  (pairsAt_yields hE).weaken fun _ ⟨hs, _, hc, hps⟩ => ⟨hs, pairs_eq hc hps⟩

theorem setPairs_yields (hE : E .invalid) {ps : List (Nat × Nat)} : Yields E
    (fun r => ∃ c, s.cells[i]? = some c ∧ r.2.cells = s.cells.put i { c with content := .mapping ps })
    ((setPairs i ps).run s) := by
  refine (cell_yields hE).bindState fun c s' hc => ?_
  obtain ⟨rfl, hc⟩ := hc
  exact .ok ⟨c, hc, rfl⟩

/-! ## The merge keys of a mapping -/

/-- The place of the first merge key and what it stands before, among pairs of which the first stands
    at `index`; those in front of it are plain. -/
inductive Found (g : Graph) (index : Nat) (pairs : List (Nat × Nat)) : Option (Nat × Nat) → Prop
  | none : (∀ p ∈ pairs, g.IsPlain p) → Found g index pairs none
  | some {n : Nat} {p : Nat × Nat} : pairs[n]? = some p → g.tag? p.1 = some .merge →
      (∀ q ∈ pairs.take n, g.IsPlain q) → Found g index pairs (some (index + n, p.2))

theorem Found.cons {index : Nat} {p : Nat × Nat} {pairs : List (Nat × Nat)} {r : Option (Nat × Nat)}
    (hp : g.IsPlain p) (h : Found g (index + 1) pairs r) : Found g index (p :: pairs) r := by
  cases h with
  | none hpairs => exact .none (List.forall_mem_cons.2 ⟨hp, hpairs⟩)
  | @some n q hn hmerge htake =>
    rw [Nat.add_assoc, Nat.add_comm 1]
    exact .some (n := n + 1) hn hmerge (List.forall_mem_cons.2 ⟨hp, htake⟩)

/-- What lies in front of the first merge key becomes plain. -/
theorem nextMerge_yields (hE : E .invalid) (pairs : List (Nat × Nat)) (index : Nat) (s : Builder) :
    Yields E (fun r => s.cells.Settles r.2.cells ∧ (∀ j, r.2.cells.pairs j = s.cells.pairs j) ∧
      Found r.2.cells index pairs r.1) ((nextMerge index pairs).run s) := by
  induction pairs generalizing index s with
  | nil => exact .ok ⟨.refl _, fun _ => rfl, .none (by simp)⟩
  | cons p pairs ih =>
    obtain ⟨k, v⟩ := p
    refine (cell_yields hE).bindState fun key s' hkey => ?_
    obtain ⟨rfl, hkey⟩ := hkey
    have htag : s'.cells.tag? k = some key.tag := by rw [tag?, hkey]; rfl
    refine .iteState (fun hmerge => ?_) fun hmerge => ?_
    · have hfirst : s'.cells.tag? k = some .merge := htag.trans (congrArg some hmerge)
      exact .ok ⟨.refl _, fun _ => rfl, .some (n := 0) (p := (k, v)) rfl hfirst (by simp)⟩
    refine .iteState (fun hdefault => ?_) fun hdefault => ?_
    · obtain ⟨hsettles, hpairs⟩ := soften_settles hkey hdefault
      have hplain : (s'.cells.put k { key with tag := .text }).IsPlain (k, v) := by
        rw [IsPlain, tag?_set hkey, if_pos rfl]
        exact ⟨by simp, by simp⟩
      refine (ih (index + 1) { s' with cells := s'.cells.put k { key with tag := .text } }).weaken ?_
      rintro r ⟨hsettles', hpairs', hfound⟩
      exact ⟨hsettles.trans hsettles', fun j => (hpairs' j).trans (hpairs j),
        hfound.cons (hsettles'.plain hplain)⟩
    · have hplain : s'.cells.IsPlain (k, v) := by
        rw [IsPlain, htag]
        exact ⟨fun h => hmerge (Option.some.inj h), fun h => hdefault (Option.some.inj h)⟩
      refine (ih (index + 1) s').weaken ?_
      rintro r ⟨hsettles, hpairs, hfound⟩
      exact ⟨hsettles, hpairs, hfound.cons (hsettles.plain hplain)⟩

/-! ## Flattening -/

/-- A fault of resolving the merge keys of `i`, where `n` mappings more may be taken in, one through
    the other, and `count` pairs have a merge key. -/
def MergeFault (g : Graph) (n count i : Nat) (f : Fault) : Prop :=
  f.isForeseen = true ∨
    f = .tooDeep ∧ n ≤ count ∧ ∃ path, List.IsChain g.Merges (i :: path) ∧ path.length = n

/-- A mapping all of whose pairs are plain. -/
def Resolved (g : Graph) (i : Nat) : Prop :=
  ∀ p ∈ g.pairs i, g.IsPlain p

/-- Resolving the merge keys of a mapping leaves plain pairs; the fault is that of the nodes `g`, from
    which all nodes come. -/
def Flattens (g : Graph) (n : Nat) (flatten : Nat → Build Unit) : Prop :=
  ∀ i (s : Builder), g.Derives s.cells → Yields (MergeFault g n s.cells.mergeCount i)
    (fun r => s.cells.Settles r.2.cells ∧ Resolved r.2.cells i) ((flatten i).run s)

variable {flatten : Nat → Build Unit}

theorem mergeFault_invalid {count : Nat} : MergeFault g n count i .invalid :=
  .inl rfl

/-- One link more, and one pair. -/
theorem MergeFault.link {count count' j : Nat} {f : Fault} (hj : g.Merges i j)
    (hcount : count < count') (h : MergeFault g n count j f) : MergeFault g (n + 1) count' i f := by
  rcases h with h | ⟨rfl, hn, path, hpath, hlength⟩
  · exact .inl h
  · refine .inr ⟨rfl, by omega, j :: path, .cons_cons hj hpath, ?_⟩
    rw [List.length_cons, hlength]

theorem MergeFault.mono {count count' : Nat} {f : Fault} (hcount : count ≤ count')
    (h : MergeFault g n count i f) : MergeFault g n count' i f :=
  h.imp_right fun ⟨hf, hn, hpath⟩ => ⟨hf, hn.trans hcount, hpath⟩

/-- A mapping that is taken in has been resolved. -/
theorem Flattens.taken {count v : Nat} (hflatten : Flattens g n flatten) (hs : g.Derives s.cells)
    (hv : g.Merges i v) (hcount : s.cells.mergeCount < count) :
    Yields (MergeFault g (n + 1) count i)
      (fun r => s.cells.Settles r.2.cells ∧ ∀ p ∈ r.1, r.2.cells.IsPlain p)
      ((do flatten v; pairsAt v : Build (List (Nat × Nat))).run s) := by
  refine ((hflatten v s hs).imp (fun _ => .link hv hcount) fun _ h => h).bindState fun _ s' h => ?_
  refine (pairsAt_pairs mergeFault_invalid).weaken ?_
  rintro ⟨ps, s'⟩ ⟨rfl, hps⟩
  exact ⟨h.1, hps ▸ h.2⟩

/-- What a merge key brings in is plain. -/
theorem mergedPairs_yields {count : Nat} {p : Nat × Nat} (hflatten : Flattens g n flatten)
    (hs : g.Derives s.cells) (hp : p ∈ g.pairs i) (hmerge : g.tag? p.1 = some .merge)
    (hcount : s.cells.mergeCount < count) :
    Yields (MergeFault g (n + 1) count i)
      (fun r => s.cells.Settles r.2.cells ∧ ∀ q ∈ r.1, r.2.cells.IsPlain q)
      ((mergedPairs flatten p.2).run s) := by
  refine (cell_yields mergeFault_invalid).bindState fun c s' hc => ?_
  obtain ⟨rfl, hc⟩ := hc
  split
  · exact hflatten.taken hs ⟨p, hp, hmerge, .inl rfl⟩ hcount
  · rename_i items hitems
    obtain ⟨d, hd, houtline, -⟩ := hs.source hc
    have hd' : d.content = .sequence items := by
      rcases outline_eq houtline with h | ⟨⟨ps, h⟩, -⟩
      · rw [← h, hitems]
      · rw [h] at hitems
        cases hitems
    have hlink : ∀ j ∈ items, g.Merges i j := fun j hj =>
      ⟨p, hp, hmerge, .inr ⟨d, items, hd, hd', hj⟩⟩
    refine (Yields.mapMState (R := fun s => s'.cells.Settles s.cells)
      (P := fun ps s => ∀ q ∈ ps, s.cells.IsPlain q) (fun j hj s hsettles => ?_) s'
      (.refl _)).bindState ?_
    · refine (pairsAt_yields mergeFault_invalid).bindState fun _ s₁ hs₁ => ?_
      obtain ⟨rfl, -⟩ := hs₁
      have hderives := hs.trans hsettles.derives
      refine (hflatten.taken hderives (hlink j hj) (hsettles.derives.count.trans_lt hcount)).weaken ?_
      rintro r ⟨hsettles', hplain⟩
      exact ⟨hsettles.trans hsettles', hplain, fun ps hps q hq => hsettles'.plain (hps q hq)⟩
    · rintro lists s'' ⟨hsettles, hplain, -⟩
      refine .ok ⟨hsettles, fun q hq => ?_⟩
      obtain ⟨ps, hps, hq⟩ := List.mem_flatten.1 hq
      exact hplain ps (List.mem_reverse.1 hps) q hq
  · exact .error mergeFault_invalid

/-- One round: a merge key is taken out and what it brings in is collected.  In front of its place all
    pairs stay plain, and what becomes of the nodes after it is what becomes of those before. -/
theorem takeOut_yields {place count : Nat} {pairs : List (Nat × Nat)} {p : Nat × Nat}
    (hflatten : Flattens g n flatten) (hs : g.Derives s.cells) (hcount : s.cells.mergeCount ≤ count)
    (hpairs : s.cells.pairs i = pairs) (hp : pairs[place]? = some p)
    (hmerge : s.cells.tag? p.1 = some .merge) (hfront : ∀ q ∈ pairs.take place, s.cells.IsPlain q) :
    Yields (MergeFault g (n + 1) count i)
      (fun r => s.cells.Derives r.2.cells ∧
        (∀ q ∈ (r.2.cells.pairs i).take place, r.2.cells.IsPlain q) ∧
        (∀ q ∈ r.1, r.2.cells.IsPlain q) ∧
        ∀ g' : Graph, r.2.cells.Settles g' → Resolved g' i → s.cells.Settles g')
      ((do setPairs i (pairs.eraseIdx place); mergedPairs flatten p.2 : Build _).run s) := by
  have hmem : p ∈ s.cells.pairs i := hpairs ▸ List.mem_of_getElem? hp
  have hin : p ∈ g.pairs i := (hs.pairs i p hmem).resolve_left fun hplain => hplain.1 hmerge
  refine (setPairs_yields mergeFault_invalid).bindState fun _ s₁ hs₁ => ?_
  obtain ⟨c, hc, hs₁⟩ := hs₁
  have hcontent : c.content = .mapping pairs := hpairs ▸ content_eq hc hmem
  obtain ⟨herase, hless⟩ := erase_derives hc hcontent hp hmerge
  have hafter : ∀ g', s₁.cells.Settles g' → Resolved g' i → s.cells.Settles g' :=
    fun g' hsettles hresolved => .of_changed hc hcontent (hs₁ ▸ hsettles) hresolved
  have hfront₁ : ∀ q ∈ (s₁.cells.pairs i).take place, s₁.cells.IsPlain q := by
    rw [hs₁, (setPairs_alters hc hcontent _).2.2, if_pos rfl,
      List.take_eraseIdx_eq_take_of_le _ _ _ (Nat.le_refl _)]
    exact fun q hq => herase.plain (hfront q hq)
  rw [← hs₁] at herase hless
  refine (mergedPairs_yields hflatten (hs.trans herase) hin (hs.tag_merge hmerge)
    (hless.trans_le hcount)).weaken ?_
  rintro r ⟨hsettles, hmore⟩
  refine ⟨herase.trans hsettles.derives, ?_, hmore, fun g' hg' => hafter g' (hsettles.trans hg')⟩
  rcases hsettles.pairs i with hsame | hplain
  · rw [hsame]
    exact fun q hq => hsettles.plain (hfront₁ q hq)
  · exact fun q hq => hplain q (List.mem_of_mem_take hq)

/-- The merge keys of a mapping, from the pair at `index` on. -/
theorem flattenFrom_yields (hflatten : Flattens g n flatten) (rounds index : Nat)
    (merged : List (Nat × Nat)) (s : Builder) (hs : g.Derives s.cells)
    (hfront : ∀ p ∈ (s.cells.pairs i).take index, s.cells.IsPlain p)
    (hmerged : ∀ p ∈ merged, s.cells.IsPlain p) :
    Yields (MergeFault g (n + 1) s.cells.mergeCount i)
      (fun r => s.cells.Settles r.2.cells ∧ Resolved r.2.cells i ∧ ∀ p ∈ r.1, r.2.cells.IsPlain p)
      ((flattenFrom flatten i rounds index merged).run s) := by
  induction rounds generalizing index merged s with
  | zero => exact .error mergeFault_invalid
  | succ rounds ih =>
    refine (pairsAt_pairs mergeFault_invalid).bindState fun pairs s₀ hpairs => ?_
    obtain ⟨rfl, hpairs⟩ := hpairs
    rw [hpairs] at hfront
    refine (nextMerge_yields mergeFault_invalid _ _ _).bindState fun found s₁ hs₁ => ?_
    obtain ⟨hsettles, hsame, hfound⟩ := hs₁
    have hpairs₁ : s₁.cells.pairs i = pairs := (hsame i).trans hpairs
    cases hfound with
    | none hrest =>
      refine .ok ⟨hsettles, fun p hp => ?_, fun p hp => hsettles.plain (hmerged p hp)⟩
      rw [hpairs₁, ← List.take_append_drop index pairs] at hp
      rcases List.mem_append.1 hp with hp | hp
      · exact hsettles.plain (hfront p hp)
      · exact hrest p hp
    | @some k p hk hmerge htake =>
      rw [List.getElem?_drop] at hk
      have hfront₁ : ∀ q ∈ pairs.take (index + k), s₁.cells.IsPlain q := by
        rw [List.take_add]
        intro q hq
        rcases List.mem_append.1 hq with hq | hq
        · exact hsettles.plain (hfront q hq)
        · exact htake q hq
      have hs₁ := hs.trans hsettles.derives
      dsimp only
      rw [← bind_assoc]
      have htaken := takeOut_yields hflatten hs₁ hsettles.derives.count hpairs₁ hk hmerge hfront₁
      refine htaken.bindState ?_
      rintro more s₂ ⟨hs₂, hfront₂, hmore, hafter⟩
      have hmerged₂ : ∀ q ∈ merged ++ more, s₂.cells.IsPlain q := by
        intro q hq
        rcases List.mem_append.1 hq with hq | hq
        · exact hs₂.plain (hsettles.plain (hmerged q hq))
        · exact hmore q hq
      refine (ih _ _ s₂ (hs₁.trans hs₂) hfront₂ hmerged₂).imp
        (fun _ => .mono (hs₂.count.trans hsettles.derives.count)) fun r hr => ?_
      obtain ⟨hsettles', hresolved, hplain⟩ := hr
      exact ⟨hsettles.trans (hafter _ hsettles' hresolved), hresolved, hplain⟩

/-- A mapping is resolved, or more merges lie in each other than are possible. -/
theorem flatten_yields (g : Graph) (n : Nat) : Flattens g n (Build.flatten n) := by
  induction n with
  | zero => exact fun i s _ => .error (.inr ⟨rfl, Nat.zero_le _, [], .singleton _, rfl⟩)
  | succ n ih =>
    intro i s hs
    refine .getState ?_
    refine (flattenFrom_yields ih _ 0 [] s hs (by simp) (by simp)).bindState fun merged s' h => ?_
    obtain ⟨hsettles, hresolved, hmerged⟩ := h
    refine .iteState (fun _ => .ok ⟨hsettles, hresolved⟩) fun _ => ?_
    refine (pairsAt_yields mergeFault_invalid).bindState fun pairs s₁ hs₁ => ?_
    obtain ⟨rfl, c, hc, hcontent⟩ := hs₁
    refine (setPairs_yields mergeFault_invalid).weaken ?_
    rintro r ⟨d, hd, hr⟩
    obtain rfl : c = d := Option.some.inj (hc.symm.trans hd)
    have hall : ∀ p ∈ merged ++ pairs, s₁.cells.IsPlain p := by
      intro p hp
      rcases List.mem_append.1 hp with hp | hp
      · exact hmerged p hp
      · exact hresolved p (pairs_eq hc hcontent ▸ hp)
    rw [hr]
    refine ⟨hsettles.trans (setPairs_settles hc hcontent hall), fun p hp => ?_⟩
    rw [(setPairs_alters hc hcontent _).2.2, if_pos rfl] at hp
    exact (setPairs_settles hc hcontent hall).plain (hall p hp)

end Build

end TraitCatalog.Yaml
