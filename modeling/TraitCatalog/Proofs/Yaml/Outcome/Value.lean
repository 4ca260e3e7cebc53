/-
  What ends the search for the value of a text.

  The value of a node is found from its tag and its text.  The text of a mapping stands at its key
  `=`, and merge keys make mappings take pairs of others in; both may lead on from node to node.  All
  that is said here is said of the nodes as they were composed, before any were merged.

  * `Graph.Denotes`: the text of a node;
  * `Graph.Offends`: nodes that end the search with a fault which is not foreseen;
  * `scalarText_yields`, `part_yields`, `keeps_filling`: texts, values and collections;
  * `load_yields`: how the search for the value of a text ends;
  * `Offence.of_untagged`: which faults are left in a text without tags.
-/
import TraitCatalog.Proofs.Yaml.Outcome.Graph
import TraitCatalog.Proofs.Yaml.Outcome.Merging
import TraitCatalog.Proofs.Yaml.Outcome.Scalar

namespace TraitCatalog.Yaml

open Text (lit)

namespace Graph

/-- The text of the mapping `i` is that of `j`, which stands at its key `=`. -/
def Defers (g : Graph) (i j : Nat) : Prop :=
  ∃ p ∈ g.pairs i, g.tag? p.1 = some .default ∧ j = p.2

/-- The text of the node at a cell. -/
inductive Denotes (g : Graph) : Nat → Text → Prop
  | scalar {i : Nat} {c : Cell} {t : Text} : g[i]? = some c → c.content = .scalar t → Denotes g i t
  | deferred {i j : Nat} {t : Text} : g.Defers i j → Denotes g j t → Denotes g i t

/-- The nodes hold something whose value cannot be found, and the unforeseen fault that this is: the
    text of a node that has no value of its kind, or one node that leads to the next too often. -/
inductive Offends (g : Graph) : Fault → Prop
  | scalar {i : Nat} {c : Cell} {t : Text} {f : Fault} : g[i]? = some c → g.Denotes i t →
      Unreadable c.tag c.content t f → Offends g f
  | deferring {path : List Nat} : List.IsChain g.Defers path →
      path.length = Build.chainLimit + 1 → Offends g .tooDeep
  | merging {path : List Nat} : List.IsChain g.Merges path →
      path.length = Build.chainLimit + 1 → Build.chainLimit ≤ g.mergeCount → Offends g .tooDeep

end Graph

/-- A fault of finding the values of nodes. -/
def ValueFault (g : Graph) (f : Fault) : Prop :=
  f.isForeseen = true ∨ g.Offends f

theorem Unreadable.of_outline {tag : Tag} {a b : Content} {t : Text} {f : Fault}
    (h : Unreadable tag a t f) (hab : a.outline = b.outline) : Unreadable tag b t f := by
  rcases Graph.outline_eq hab with rfl | ⟨⟨ps, rfl⟩, qs, rfl⟩
  · exact h
  · cases h with
    | truth hword => exact .truth hword
    | integer hnone => exact .integer hnone
    | real hnone => exact .real hnone
    | sixtieths hu hparts hlong => exact .sixtieths hu hparts hlong
    | collection _ => exact .collection fun u => by simp

namespace Build

open TraitCatalog.Yaml.Graph

variable {E : Fault → Prop} {g : Graph} {s : Builder} {i n : Nat}

/-! ## Texts -/

theorem isDefault_yields (hE : E .invalid) : Yields E
    (fun r => r.2 = s ∧ (r.1 = true → s.cells.tag? i = some .default))
    ((do return (← cell i).tag = .default : Build Bool).run s) := by
  refine (cell_yields hE).bindState fun c s' hc => ?_
  obtain ⟨rfl, hc⟩ := hc
  refine .ok ⟨rfl, fun hdefault => ?_⟩
  rw [tag?, hc, Option.map_some, of_decide_eq_true hdefault]

/-- The pair at the key `=`. -/
theorem findDefault_yields (hE : E .invalid) (pairs : List (Nat × Nat)) : Yields E
    (fun r => r.2 = s ∧ ∀ p ∈ r.1, p ∈ pairs ∧ s.cells.tag? p.1 = some .default)
    ((pairs.findM? fun p => (do return (← cell p.1).tag = .default : Build Bool)).run s) := by
  induction pairs with
  | nil => exact .ok ⟨rfl, by simp⟩
  | cons p pairs ih =>
    rw [List.findM?]
    refine (isDefault_yields hE).bindState fun found s' hfound => ?_
    obtain ⟨rfl, hfound⟩ := hfound
    cases found with
    | true =>
      refine .ok ⟨rfl, ?_⟩
      rintro _ ⟨⟩
      exact ⟨List.mem_cons_self .., hfound rfl⟩
    | false =>
      refine ih.weaken fun r hr => ⟨hr.1, fun q hq => ?_⟩
      exact (hr.2 q hq).imp_left (List.mem_cons_of_mem _)

/-- The text of a node, or the first of a long path of mappings with the key `=`. -/
theorem scalarText_yields (n i : Nat) (s : Builder) (hs : g.Derives s.cells) :
    Yields (fun f => f.isForeseen = true ∨ f = .tooDeep ∧
        ∃ path, List.IsChain g.Defers (i :: path) ∧ path.length = n)
      (fun r => r.2 = s ∧ g.Denotes i r.1) ((scalarText n i).run s) := by
  induction n generalizing i with
  | zero => exact .error (.inr ⟨rfl, [], .singleton _, rfl⟩)
  | succ n ih =>
    refine (cell_yields (.inl rfl)).bindState fun c s' hc => ?_
    obtain ⟨rfl, hc⟩ := hc
    obtain ⟨d, hd, houtline, -⟩ := hs.source hc
    split
    · rename_i t ht
      refine .ok ⟨rfl, .scalar hd ?_⟩
      rcases outline_eq houtline with h | ⟨⟨ps, h⟩, -⟩
      · rw [← h, ht]
      · rw [h] at ht
        cases ht
    · exact .error (.inl rfl)
    · rename_i pairs hpairs
      refine (findDefault_yields (.inl rfl) pairs).bindState fun found s'' hfound => ?_
      obtain ⟨rfl, hfound⟩ := hfound
      cases found with
      | none => exact .error (.inl rfl)
      | some p =>
        obtain ⟨hp, hdefault⟩ := hfound p rfl
        rw [← pairs_eq hc hpairs] at hp
        have hdefers : g.Defers i p.2 :=
          ⟨p, (hs.pairs i p hp).resolve_left fun h => h.2 hdefault, hs.tag_default hdefault, rfl⟩
        refine (ih p.2).imp ?_ fun r hr => ⟨hr.1, .deferred hdefers hr.2⟩
        rintro f (hf | ⟨rfl, path, hpath, hlength⟩)
        · exact .inl hf
        · refine .inr ⟨rfl, p.2 :: path, .cons_cons hdefers hpath, ?_⟩
          rw [List.length_cons, hlength]

/-! ## Values -/

/-- The value of a scalar. -/
theorem leaf_yields {c : Cell} (hs : g.Derives s.cells) (hc : s.cells[i]? = some c) :
    Yields (ValueFault g) (fun r => r.2.cells = s.cells)
      ((do return .leaf (← scalarValue c.tag c.content (← scalarText chainLimit i)) :
        Build Part).run s) := by
  refine ((scalarText_yields chainLimit i s hs).imp ?_ fun r hr => hr).bindState fun t s' h => ?_
  · rintro f (hf | ⟨rfl, path, hpath, hlength⟩)
    · exact .inl hf
    · refine .inr (.deferring hpath ?_)
      rw [List.length_cons, hlength]
  obtain ⟨rfl, ht⟩ := h
  have hvalue : Yields (ValueFault g) (fun _ => True) (scalarValue c.tag c.content t) := by
    refine (scalarValue_yields c.tag c.content t).imp ?_ fun _ h => h
    rintro f (hf | hf)
    · exact .inl hf
    · obtain ⟨d, hd, houtline, htag | ⟨-, htext⟩⟩ := hs.source hc
      · exact .inr (.scalar hd ht (htag ▸ hf.of_outline houtline))
      · rw [htext] at hf
        cases hf
  refine (Yields.liftState hvalue).bindState ?_
  rintro v s'' ⟨rfl, -⟩
  exact .ok rfl

/-- A value that is met: the nodes stay what they are. -/
theorem part_yields (i : Nat) (s : Builder) (hs : g.Derives s.cells) :
    Yields (ValueFault g) (fun r => r.2.cells = s.cells) ((part i).run s) := by
  have hnode : Yields (ValueFault g) (fun r => r.2.cells = s.cells) ((do
      modify fun s =>
        if s.met.contains i then s else { s with met := i :: s.met, waiting := s.waiting ++ [i] }
      return .node i : Build Part).run s) := by
    refine .ok ?_
    dsimp only
    split <;> rfl
  have hinvalid : Yields (ValueFault g) (fun r => r.2.cells = s.cells)
      ((throw .invalid : Build Part).run s) := .error (.inl rfl)
  refine (cell_yields (.inl rfl)).bindState fun c s' hc => ?_
  obtain ⟨rfl, hc⟩ := hc
  have hleaf := leaf_yields hs hc
  obtain ⟨tag, content⟩ := c
  cases tag with
  | sequence | mapping | set | orderedMapping | pairs => exact hnode
  | merge | default | unknown => exact hinvalid
  | null | truth | integer | real | text | bytes | moment => exact hleaf

/-! ## Collections -/

/-- Work that only ever changes nodes into such as come from them, and may end with a fault of
    theirs. -/
def Keeps {α : Type} (g : Graph) (m : Build α) : Prop :=
  ∀ s : Builder, g.Derives s.cells →
    Yields (ValueFault g) (fun r => g.Derives r.2.cells) (m.run s)

namespace Keeps

variable {α β : Type} {m : Build α}

theorem bind {f : α → Build β} (h : Keeps g m) (hf : ∀ a, Keeps g (f a)) : Keeps g (m >>= f) :=
  fun s hs => (h s hs).bindState fun a s' hs' => hf a s' hs'

theorem pure (a : α) : Keeps g (Pure.pure a) :=
  fun _ hs => .ok hs

theorem invalid : Keeps g (throw .invalid : Build α) :=
  fun _ _ => .error (.inl rfl)

theorem mapM {f : β → Build α} {as : List β} (h : ∀ a, Keeps g (f a)) : Keeps g (as.mapM f) := by
  intro s hs
  refine (Yields.mapMState (R := fun s => g.Derives s.cells) (P := fun _ _ => True) ?_ s hs).weaken ?_
  · exact fun a _ s hs => (h a s hs).weaken fun r hr => ⟨hr, trivial, fun _ h => h⟩
  · exact fun r hr => hr.1

end Keeps

theorem keeps_modify {change : Builder → Builder} (h : ∀ s, (change s).cells = s.cells) :
    Keeps g (modify change) :=
  fun s hs => .ok (by rwa [h])

theorem keeps_cell (i : Nat) : Keeps g (cell i) :=
  fun _ hs => (cell_yields (.inl rfl)).weaken fun _ hr => hr.1 ▸ hs

theorem keeps_pairsAt (i : Nat) : Keeps g (pairsAt i) :=
  fun _ hs => (pairsAt_yields (.inl rfl)).weaken fun _ hr => hr.1 ▸ hs

theorem keeps_part (i : Nat) : Keeps g (part i) :=
  fun s hs => (part_yields i s hs).weaken fun r hr => by rwa [hr]

theorem keeps_flatten (i : Nat) : Keeps g (flatten chainLimit i) := by
  refine fun s hs => (flatten_yields g chainLimit i s hs).imp ?_ fun r hr => hs.trans hr.1.derives
  rintro f (hf | ⟨rfl, hcount, path, hpath, hlength⟩)
  · exact .inl hf
  · refine .inr (.merging hpath ?_ (hcount.trans hs.count))
    rw [List.length_cons, hlength]

theorem keeps_mappingPair (p : Nat × Nat) : Keeps g (mappingPair p) := by
  refine (keeps_part p.1).bind fun key => ?_
  cases key with
  | node i => exact .invalid
  | leaf v => exact (keeps_part p.2).bind fun _ => .pure _

theorem keeps_singlePair (i : Nat) : Keeps g (singlePair i) := by
  refine (keeps_pairsAt i).bind fun pairs => ?_
  split
  · exact (keeps_part _).bind fun _ => (keeps_part _).bind fun _ => .pure _
  · exact .invalid

theorem keeps_itemsAt (i : Nat) : Keeps g (itemsAt i) := by
  refine (keeps_cell i).bind fun c => ?_
  split
  · exact .pure _
  · exact .invalid

theorem keeps_filling (i : Nat) : Keeps g (filling i) := by
  refine (keeps_cell i).bind fun c => ?_
  split
  · exact (keeps_itemsAt i).bind fun _ => (Keeps.mapM keeps_part).bind fun _ => .pure _
  · exact (keeps_itemsAt i).bind fun _ => (Keeps.mapM keeps_singlePair).bind fun _ => .pure _
  · exact (keeps_itemsAt i).bind fun _ => (Keeps.mapM keeps_singlePair).bind fun _ => .pure _
  · exact (keeps_pairsAt i).bind fun _ => (keeps_flatten i).bind fun _ =>
      (keeps_pairsAt i).bind fun _ => (Keeps.mapM keeps_mappingPair).bind fun _ => .pure _

theorem keeps_all (n : Nat) : Keeps g (all n) := by
  induction n with
  | zero => exact .pure ()
  | succ n ih =>
    intro s hs
    refine .getState ?_
    split
    · exact .ok hs
    · rename_i i is _
      refine Keeps.bind (keeps_modify ?_) (fun _ => (keeps_filling i).bind fun _ =>
        Keeps.bind (keeps_modify ?_) fun _ => ih) s hs
      · exact fun _ => rfl
      · exact fun _ => rfl

end Build

/-! ## Texts -/

/-- A fault of finding the value of a text. -/
inductive Offence (y : Text) : Fault → Prop
  | escape : HugeEscape y → Offence y .pointOverflow
  | nesting : NestedDeeply y → Offence y .tooDeep
  | nodes {g : Graph} {root : Nat} {f : Fault} : Graph.ofText y = .ok (g, some root) → g.Offends f →
      Offence y f

/-- **What ends the search for the value of a text.** -/
theorem load_yields (depth : Nat) (y : Text) :
    Yields (fun f => f.isForeseen = true ∨ Offence y f) (fun _ => True) (load depth y) := by
  rw [load]
  cases hgraph : Graph.ofText y with
  | error f =>
    refine .error ?_
    rcases (composed_within y).of_error hgraph with (hf | ⟨rfl, hhuge⟩) | ⟨rfl, hnested⟩
    · exact .inl hf
    · exact .inr (.escape hhuge)
    · exact .inr (.nesting hnested)
  | ok r =>
    obtain ⟨g, root?⟩ := r
    cases root? with
    | none => exact .ok trivial
    | some root =>
      have hwork : Build.Keeps g (do
          let p ← Build.part root
          Build.all (g.size + 1)
          return p) :=
        (Build.keeps_part root).bind fun _ => (Build.keeps_all _).bind fun _ => .pure _
      refine ((hwork _ (Graph.Settles.refl g).derives).imp (fun f hf => ?_) fun _ h => h).bind
        fun _ _ => .ok trivial
      exact hf.imp_right (.nodes hgraph)

/-! ## Texts without tags -/

theorem Graph.Denotes.eq_of_scalar {g : Graph} {i : Nat} {c : Cell} {t u : Text} (h : g.Denotes i t)
    (hc : g[i]? = some c) (hu : c.content = .scalar u) : t = u := by
  cases h with
  | scalar hd ht =>
    obtain rfl := Option.some.inj (hc.symm.trans hd)
    exact Content.scalar.inj (ht.symm.trans hu)
  | deferred hdefers _ =>
    obtain ⟨p, hp, -⟩ := hdefers
    rw [content_eq hc hp] at hu
    cases hu

/-- A node that was not given a tag has a value, but for a real in base sixty with too many digits. -/
theorem Unreadable.eq_hugePower {g : Graph} {i : Nat} {c : Cell} {t : Text} {f : Fault}
    (h : Unreadable c.tag c.content t f) (hc : g[i]? = some c) (ht : g.Denotes i t)
    (huntagged : c.Untagged) : f = .hugePower := by
  obtain ⟨tag, content⟩ := c
  cases content with
  | scalar u =>
    obtain rfl := ht.eq_of_scalar hc rfl
    rcases huntagged with htext | ⟨hplain, hend⟩
    · dsimp only at h htext
      rw [htext] at h
      cases h
    · dsimp only at h hplain
      rw [hplain] at h
      exact eq_hugePower_of_plain hend rfl h
  | sequence items =>
    rcases huntagged with htag | htag <;> dsimp only at h htag <;> rw [htag] at h <;> cases h
  | mapping pairs =>
    rcases huntagged with htag | htag <;> dsimp only at h htag <;> rw [htag] at h <;> cases h

/-- Without an exclamation mark a text has no tags, and three faults are left. -/
theorem Offence.of_untagged {y : Text} {f : Fault} (h : Offence y f) (hsign : .scalar '!' ∉ y) :
    f = .pointOverflow ∨ f = .tooDeep ∨ f = .hugePower := by
  cases h with
  | escape _ => exact .inl rfl
  | nesting _ => exact .inr (.inl rfl)
  | nodes hgraph hoffends =>
    have huntagged := (composed_within y).of_ok hgraph hsign
    cases hoffends with
    | scalar hc ht h =>
      exact .inr (.inr (h.eq_hugePower hc ht (huntagged _ (Array.mem_of_getElem? hc))))
    | deferring _ _ => exact .inr (.inl rfl)
    | merging _ _ _ => exact .inr (.inl rfl)

end TraitCatalog.Yaml
