/-
  What composing the nodes of a text leaves, and what ends it.

  The tokens that are left tell how many collections are open, but for a sequence at the indentation
  of its mapping, which no token announces.  Such a sequence stands right inside a block mapping, so
  half of the collections around a node are announced at least (`Fits`).

  * `NestedDeeply`: a text with so many collections open at once;
  * `Composer.At`: the place of a composer in the tokens, and what its nodes have shown so far;
  * `nodeWith_fits`, `node_fits`: a node, by the depth that is left to it;
  * `composed_within`: the nodes of a text, and the fault that ended them.
-/
import TraitCatalog.Proofs.Yaml.Outcome.TokenStream
import TraitCatalog.Yaml.Graph

namespace TraitCatalog.Yaml

open Text (lit)

/-! ## Open collections -/

/-- By how much a token changes the number of open collections. -/
def Token.rise : Token → Int
  | .blockSequence | .blockMapping | .openSequence | .openMapping => 1
  | .blockEnd | .closeSequence | .closeMapping => -1
  | _ => 0

/-- The number of collections that are open after some tokens. -/
def level : List Token → Int
  | [] => 0
  | x :: xs => x.rise + level xs

/-- Somewhere in the text more collections are open at once than half of those that a node may
    lie in. -/
def NestedDeeply (y : Text) : Prop :=
  ∃ before, before <+: (tokenize y).1 ∧ depthLimit ≤ 2 * level before

/-- A fault that composing the nodes of a text may end with. -/
def CompositionFault (y : Text) (f : Fault) : Prop :=
  LexemeFault y f ∨ f = .tooDeep ∧ NestedDeeply y

/-- A node that was not given a tag. -/
def Cell.Untagged (c : Cell) : Prop :=
  match c.content with
  | .scalar t => c.tag = .text ∨ c.tag = .ofPlain t ∧ t.getLast? ≠ some (.scalar '\n')
  | .sequence _ | .mapping _ => c.tag = .sequence ∨ c.tag = .mapping

/-- The composer stands in the tokens of the text `y` where `h` collections are open, and only a text
    with an exclamation mark has given it nodes with tags. -/
structure Composer.At (y : Text) (h : Int) (s : Composer) : Prop where
  tokens : ∃ before, before ++ s.tokens = (tokenize y).1 ∧ level before = h
  fault : s.fault = (tokenize y).2.getD .invalid
  untagged : .scalar '!' ∉ y → ∀ c ∈ s.cells, c.Untagged

/-- The same, where `x` is the next token. -/
structure Composer.Sees (y : Text) (h : Int) (x : Token) (s : Composer) : Prop extends s.At y h where
  next : s.tokens.head? = some x

/-- Work that starts where `P` holds ends where `Q` holds of its result. -/
def Leads {α : Type} (y : Text) (P : Composer → Prop) (Q : α → Composer → Prop) (m : Compose α) :
    Prop :=
  ∀ s, P s → Yields (CompositionFault y) (fun r => Q r.1 r.2) (m.run s)

variable {α β : Type} {y : Text} {h h' : Int} {x : Token} {P P' : Composer → Prop}
  {Q Q' : α → Composer → Prop} {R : β → Composer → Prop} {m : Compose α}

theorem level_append (xs zs : List Token) : level (xs ++ zs) = level xs + level zs := by
  induction xs with
  | nil => simp [level]
  | cons x xs ih => rw [List.cons_append, level, level, ih, Int.add_assoc]

theorem compositionFault_invalid : CompositionFault y .invalid :=
  .inl lexemeFault_invalid

namespace Leads

theorem pure {a : α} (h : ∀ s, P s → Q a s) : Leads y P Q (Pure.pure a) :=
  fun s hs => .ok (h s hs)

theorem invalid : Leads y P Q (throw .invalid) :=
  fun _ _ => .error compositionFault_invalid

theorem bind {g : α → Compose β} (h : Leads y P Q m) (hg : ∀ a, Leads y (Q a) R (g a)) :
    Leads y P R (m >>= g) :=
  fun s hs => (h s hs).bindState fun a s' => hg a s'

theorem imp (h : Leads y P Q m) (hP : ∀ s, P' s → P s) (hQ : ∀ a s, Q a s → Q' a s) :
    Leads y P' Q' m :=
  fun s hs => (h s (hP s hs)).weaken fun r => hQ r.1 r.2

theorem ite {b : Prop} [Decidable b] {m' : Compose α} (h : b → Leads y P Q m)
    (h' : ¬b → Leads y P Q m') : Leads y P Q (if b then m else m') := by
  by_cases hb : b
  · rw [if_pos hb]
    exact h hb
  · rw [if_neg hb]
    exact h' hb

/-- What does not depend on the state can be taken out of it. -/
theorem of_and {b : Prop} (h : b → Leads y P Q m) : Leads y (fun s => b ∧ P s) Q m :=
  fun s hs => h hs.1 s hs.2

end Leads

namespace Compose

/-! ## Tokens -/

theorem sees_at (h : Leads y (Composer.At y h') Q m) : Leads y (Composer.Sees y h' x) Q m :=
  h.imp (fun _ hs => hs.toAt) fun _ _ hq => hq

/-- The next token, which says what it should about the text. -/
theorem peek_leads :
    Leads y (Composer.At y h) (fun x s => x.Written y ∧ s.Sees y h x) peek := by
  intro s hs
  obtain ⟨before, htokens, -⟩ := hs.tokens
  have hwritten := tokenize_within y
  rw [peek]
  refine .getState ?_
  cases hnext : s.tokens with
  | nil =>
    refine .error (.inl ?_)
    rw [hs.fault]
    cases hf : (tokenize y).2 with
    | none => exact lexemeFault_invalid
    | some f => exact hwritten.2 f (hf ▸ rfl)
  | cons x xs =>
    refine .ok ⟨hwritten.1 x ?_, ⟨hs, by rw [hnext]; rfl⟩⟩
    rw [← htokens, hnext]
    exact List.mem_append_right _ (List.mem_cons_self ..)

theorem advance_leads :
    Leads y (Composer.Sees y h x) (fun _ => Composer.At y (h + x.rise)) advance := by
  rintro s ⟨⟨⟨before, htokens, hlevel⟩, hfault, huntagged⟩, hnext⟩
  refine .ok ⟨⟨before ++ [x], ?_, ?_⟩, hfault, huntagged⟩
  · rw [← htokens, List.append_assoc, List.singleton_append, ← List.cons_head?_tail hnext]
  · rw [level_append, hlevel, level, level, Int.add_zero]

theorem advance_flat (hx : x.rise = 0) :
    Leads y (Composer.Sees y h x) (fun _ => Composer.At y h) advance := by
  have hmove := advance_leads (y := y) (h := h) (x := x)
  rwa [hx, Int.add_zero] at hmove

theorem accept_leads : Leads y (Composer.At y h)
    (fun b => Composer.At y (if b then h + x.rise else h)) (accept x) := by
  refine peek_leads.bind fun z => .of_and fun _ => .ite (fun hz => ?_) fun _ => ?_
  · subst hz
    exact advance_leads.bind fun _ => .pure fun _ hs => hs
  · exact .pure fun _ hs => hs.toAt

theorem expect_leads :
    Leads y (Composer.At y h) (fun _ => Composer.At y (h + x.rise)) (expect x) := by
  refine accept_leads.bind fun b => ?_
  cases b with
  | true => exact .pure fun _ hs => hs
  | false => exact .invalid

/-- The two ways on after a token that may come next. -/
theorem accept_bind {g : Bool → Compose β} (hyes : Leads y (Composer.At y (h + x.rise)) R (g true))
    (hno : Leads y (Composer.At y h) R (g false)) : Leads y (Composer.At y h) R (accept x >>= g) := by
  refine accept_leads.bind fun b => ?_
  cases b with
  | true => exact hyes
  | false => exact hno


/-! ## Cells and anchors -/

theorem addCell_leads {c : Cell} (hc : .scalar '!' ∉ y → c.Untagged) :
    Leads y (Composer.At y h) (fun _ => Composer.At y h) (addCell c) := by
  rintro s ⟨htokens, hfault, huntagged⟩
  refine .ok ⟨htokens, hfault, fun hsign d hd => ?_⟩
  rcases Array.mem_push.1 hd with hd | rfl
  · exact huntagged hsign d hd
  · exact hc hsign

theorem setCell_leads {i : Nat} {c : Cell} (hc : .scalar '!' ∉ y → c.Untagged) :
    Leads y (Composer.At y h) (fun _ => Composer.At y h)
      (modify fun s => { s with cells := s.cells.setIfInBounds i c }) := by
  rintro s ⟨htokens, hfault, huntagged⟩
  refine .ok ⟨htokens, hfault, fun hsign d hd => ?_⟩
  rcases Array.mem_or_eq_of_mem_setIfInBounds hd with hd | rfl
  · exact huntagged hsign d hd
  · exact hc hsign

theorem bindAnchor_leads {anchor? : Option Text} {i : Nat} :
    Leads y (Composer.At y h) (fun _ => Composer.At y h) (bindAnchor anchor? i) := by
  intro s hs
  cases anchor? with
  | none => exact .ok hs
  | some name =>
    rw [bindAnchor]
    refine .getState (.iteState (fun _ => .error compositionFault_invalid) fun _ => .ok ?_)
    exact ⟨hs.tokens, hs.fault, hs.untagged⟩

theorem findAnchor_leads {name : Text} :
    Leads y (Composer.At y h) (fun _ => Composer.At y h) (findAnchor name) := by
  intro s hs
  rw [findAnchor]
  refine .getState ?_
  split
  · exact .ok hs
  · exact .error compositionFault_invalid

/-- A node without content shows that it is null. -/
theorem untagged_empty : Cell.Untagged ⟨.null, .scalar []⟩ :=
  .inr (by decide)

theorem emptyScalar_leads :
    Leads y (Composer.At y h) (fun _ => Composer.At y h) emptyScalar :=
  addCell_leads fun _ => untagged_empty

theorem scalar_leads {anchor? : Option Text} {tag : Tag} {t : Text}
    (hc : .scalar '!' ∉ y → Cell.Untagged ⟨tag, .scalar t⟩) :
    Leads y (Composer.At y h) (fun _ => Composer.At y h) (scalar anchor? tag t) :=
  (addCell_leads hc).bind fun _ => bindAnchor_leads.bind fun _ => .pure fun _ hs => hs

theorem collection_leads {anchor? : Option Text} {tag : Tag} {children : Compose Content}
    (htag : .scalar '!' ∉ y → tag = .sequence ∨ tag = .mapping)
    (hchildren : Leads y (Composer.At y h)
      (fun content s => (∀ t, content ≠ .scalar t) ∧ s.At y h') children) :
    Leads y (Composer.At y h) (fun _ => Composer.At y h') (collection anchor? tag children) := by
  refine (addCell_leads htag).bind fun i => bindAnchor_leads.bind fun _ => ?_
  refine hchildren.bind fun content => ?_
  refine .of_and fun hcontent => (setCell_leads fun hsign => ?_).bind fun _ => .pure fun _ hs => hs
  cases content with
  | scalar t => exact absurd rfl (hcontent t)
  | sequence items => exact htag hsign
  | mapping pairs => exact htag hsign

/-! ## Properties -/

theorem givenTag_leads {handle? : Option Text} {suffix : Text} :
    Leads y (Composer.At y h) (fun _ => Composer.At y h) (givenTag handle? suffix) := by
  intro s hs
  cases handle? with
  | none => exact .ok hs
  | some handle =>
    rw [givenTag]
    refine .getState ?_
    split
    · exact .ok hs
    · exact .error compositionFault_invalid

/-- A node is given a tag only in a text with an exclamation mark. -/
theorem properties_leads : Leads y (Composer.At y h)
    (fun r s => (r.2 = .none ∨ .scalar '!' ∈ y) ∧ s.At y h) properties := by
  refine peek_leads.bind fun x => .of_and fun hx => ?_
  split
  · rename_i name
    refine (advance_flat rfl).bind fun _ => ?_
    refine peek_leads.bind fun x => .of_and fun hx => ?_
    split
    · rename_i handle? suffix
      refine (advance_flat rfl).bind fun _ => ?_
      exact givenTag_leads.bind fun _ => .pure fun _ hs => ⟨.inr hx, hs⟩
    · exact .pure fun _ hs => ⟨.inl rfl, hs.toAt⟩
  · rename_i handle? suffix
    refine (advance_flat rfl).bind fun _ => ?_
    refine peek_leads.bind fun z => .of_and fun _ => ?_
    split
    · rename_i name
      refine (advance_flat rfl).bind fun _ => ?_
      exact givenTag_leads.bind fun _ => .pure fun _ hs => ⟨.inr hx, hs⟩
    · exact sees_at (givenTag_leads.bind fun _ => .pure fun _ hs => ⟨.inr hx, hs⟩)
  · exact .pure fun _ hs => ⟨.inl rfl, hs.toAt⟩


/-! ## The grammar -/

/-- Work that ends where as many collections are open as where it starts. -/
abbrev Stays (y : Text) (h : Int) (m : Compose α) : Prop :=
  Leads y (Composer.At y h) (fun _ => Composer.At y h) m

/-- Children that are read where `room` collections more may be nested: so many that the limit is
    reached only with half of the collections announced.  Around a key or value of a block mapping the
    mapping itself is. -/
def Fits (y : Text) (room : Int) (child : Child) : Prop :=
  ∀ position h, depthLimit + (if position = .entry then 1 else 0) ≤ room + 2 * h →
    Stays y h (child position)

variable {child grandchild : Child} {stops : List Token} {position : Position} {n : Nat} {room : Int}

/-- What comes after a token that opens and closes nothing. -/
theorem accept_flat {g : Bool → Compose β} (hx : x.rise = 0)
    (hyes : Leads y (Composer.At y h) R (g true)) (hno : Leads y (Composer.At y h) R (g false)) :
    Leads y (Composer.At y h) R (accept x >>= g) :=
  accept_bind (by rwa [hx, Int.add_zero]) hno

theorem childBefore_leads (hchild : Stays y h (child position)) :
    Stays y h (childBefore child stops position) :=
  peek_leads.bind fun _ => .of_and fun _ =>
    sees_at (.ite (fun _ => emptyScalar_leads) fun _ => hchild)

theorem pairValue_leads (hchild : Stays y h (child position)) :
    Stays y h (pairValue child stops position) :=
  accept_flat rfl (childBefore_leads hchild) emptyScalar_leads

theorem expect_flat (hx : x.rise = 0) : Stays y h (expect x) := by
  have hmove := expect_leads (y := y) (h := h) (x := x)
  rwa [hx, Int.add_zero] at hmove

/-- What comes after a token that closes a collection. -/
theorem accept_close {g : Bool → Compose β} (hx : x.rise = -1)
    (hyes : Leads y (Composer.At y h) R (g true))
    (hno : Leads y (Composer.At y (h + 1)) R (g false)) :
    Leads y (Composer.At y (h + 1)) R (accept x >>= g) :=
  accept_bind (by rwa [hx, Int.add_neg_cancel_right]) hno

theorem expect_close (hx : x.rise = -1) :
    Leads y (Composer.At y (h + 1)) (fun _ => Composer.At y h) (expect x) := by
  have hmove := expect_leads (y := y) (h := h + 1) (x := x)
  rwa [hx, Int.add_neg_cancel_right] at hmove

theorem blockItems_leads (hchild : Stays y (h + 1) (child .block)) :
    Leads y (Composer.At y (h + 1)) (fun _ => Composer.At y h) (blockItems child n) := by
  induction n with
  | zero => exact .invalid
  | succ n ih =>
    refine accept_flat rfl ?_ ((expect_close rfl).bind fun _ => .pure fun _ hs => hs)
    exact (childBefore_leads hchild).bind fun _ => ih.bind fun _ => .pure fun _ hs => hs

theorem flushItems_leads (hchild : Stays y h (child .block)) : Stays y h (flushItems child n) := by
  induction n with
  | zero => exact .invalid
  | succ n ih =>
    refine accept_flat rfl ?_ (.pure fun _ hs => hs)
    exact (childBefore_leads hchild).bind fun _ => ih.bind fun _ => .pure fun _ hs => hs

theorem blockPairs_leads (hchild : Stays y (h + 1) (child .entry)) :
    Leads y (Composer.At y (h + 1)) (fun _ => Composer.At y h) (blockPairs child n) := by
  induction n with
  | zero => exact .invalid
  | succ n ih =>
    refine accept_flat rfl ?_ ((expect_close rfl).bind fun _ => .pure fun _ hs => hs)
    exact (childBefore_leads hchild).bind fun _ => (pairValue_leads hchild).bind fun _ =>
      ih.bind fun _ => .pure fun _ hs => hs

theorem flowItem_leads (hchild : Stays y h (child .flow))
    (hgrandchild : Stays y h (grandchild .flow)) : Stays y h (flowItem child grandchild) := by
  refine accept_flat rfl (collection_leads (fun _ => .inr rfl) ?_) hchild
  exact (childBefore_leads hgrandchild).bind fun _ => (pairValue_leads hgrandchild).bind fun _ =>
    .pure fun _ hs => ⟨fun _ => Content.noConfusion, hs⟩

theorem flowItems_leads {first : Bool} (hchild : Stays y (h + 1) (child .flow))
    (hgrandchild : Stays y (h + 1) (grandchild .flow)) :
    Leads y (Composer.At y (h + 1)) (fun _ => Composer.At y h)
      (flowItems child grandchild first n) := by
  induction n generalizing first with
  | zero => exact .invalid
  | succ n ih =>
    have hrest : Leads y (Composer.At y (h + 1)) (fun _ => Composer.At y h) (do
        if ← accept .closeSequence then return []
        let i ← flowItem child grandchild
        return i :: (← flowItems child grandchild false n)) := by
      refine accept_close rfl (.pure fun _ hs => hs) ?_
      exact (flowItem_leads hchild hgrandchild).bind fun _ => ih.bind fun _ => .pure fun _ hs => hs
    refine accept_close rfl (.pure fun _ hs => hs) ?_
    cases first with
    | true => exact hrest
    | false => exact (expect_flat rfl).bind fun _ => hrest

theorem flowPair_leads (hchild : Stays y h (child .flow)) : Stays y h (flowPair child) := by
  refine accept_flat rfl ?_ ?_
  · exact (childBefore_leads hchild).bind fun _ => (pairValue_leads hchild).bind fun _ =>
      .pure fun _ hs => hs
  · exact hchild.bind fun _ => emptyScalar_leads.bind fun _ => .pure fun _ hs => hs

theorem flowPairs_leads {first : Bool} (hchild : Stays y (h + 1) (child .flow)) :
    Leads y (Composer.At y (h + 1)) (fun _ => Composer.At y h) (flowPairs child first n) := by
  induction n generalizing first with
  | zero => exact .invalid
  | succ n ih =>
    have hrest : Leads y (Composer.At y (h + 1)) (fun _ => Composer.At y h) (do
        if ← accept .closeMapping then return []
        let p ← flowPair child
        return p :: (← flowPairs child false n)) := by
      refine accept_close rfl (.pure fun _ hs => hs) ?_
      exact (flowPair_leads hchild).bind fun _ => ih.bind fun _ => .pure fun _ hs => hs
    refine accept_close rfl (.pure fun _ hs => hs) ?_
    cases first with
    | true => exact hrest
    | false => exact (expect_flat rfl).bind fun _ => hrest

theorem get_leads {g : Composer → Compose β} (hg : ∀ s, Leads y P R (g s)) :
    Leads y P R (get >>= g) :=
  fun s hs => .getState (hg s s hs)

theorem scalarTag_untagged {given : GivenTag} {plain : Bool} {t : Text}
    (hgiven : given = .none ∨ .scalar '!' ∈ y)
    (ht : plain = true → t.getLast? ≠ some (.scalar '\n')) (hsign : .scalar '!' ∉ y) :
    Cell.Untagged ⟨scalarTag given plain t, .scalar t⟩ := by
  rw [hgiven.resolve_right hsign]
  cases plain with
  | true => exact .inr ⟨rfl, ht rfl⟩
  | false => exact .inl rfl

theorem collectionTag_untagged {given : GivenTag} {usual : Tag}
    (hgiven : given = .none ∨ .scalar '!' ∈ y) (husual : usual = .sequence ∨ usual = .mapping)
    (hsign : .scalar '!' ∉ y) :
    collectionTag given usual = .sequence ∨ collectionTag given usual = .mapping := by
  rw [hgiven.resolve_right hsign]
  exact husual

theorem givenCollection_leads {anchor? : Option Text} {given : GivenTag} {usual : Tag}
    {make : α → Content} {children : Compose α} (hgiven : given = .none ∨ .scalar '!' ∈ y)
    (husual : usual = .sequence ∨ usual = .mapping) (hmake : ∀ a t, make a ≠ .scalar t)
    (hchildren : Leads y (Composer.At y h) (fun _ => Composer.At y h') children) :
    Leads y (Composer.At y h) (fun _ => Composer.At y h')
      (collection anchor? (collectionTag given usual) (do return make (← children))) :=
  collection_leads (collectionTag_untagged hgiven husual)
    (hchildren.bind fun a => .pure fun _ hs => ⟨hmake a, hs⟩)

/-- A node fits where its children do, one level deeper, and its grandchildren, two levels deeper. -/
theorem nodeWith_fits (hchild : Fits y (room - 1) child)
    (hgrandchild : Fits y (room - 2) grandchild) : Fits y room (nodeWith child grandchild) := by
  intro position h hroom
  have hlimit : depthLimit ≤ room + 2 * h := by
    split at hroom <;> omega
  -- behind a token that announces the node as a collection
  have hchildren : ∀ p, Stays y (h + 1) (child p) := fun p => hchild p (h + 1) (by split <;> omega)
  have hflow : Stays y (h + 1) (grandchild .flow) := hgrandchild .flow (h + 1) (by
    rw [if_neg (by decide)]
    omega)
  refine peek_leads.bind fun x => .of_and fun _ => ?_
  split
  · exact (advance_flat rfl).bind fun _ => findAnchor_leads
  refine sees_at (properties_leads.bind fun (anchor?, given) => .of_and fun hgiven => ?_)
  have hsequence : ∀ {items : Compose (List Nat)} {k : Int},
      Leads y (Composer.At y k) (fun _ => Composer.At y h) items →
      Leads y (Composer.At y k) (fun _ => Composer.At y h)
        (collection anchor? (collectionTag given .sequence) (do return .sequence (← items))) :=
    givenCollection_leads hgiven (.inl rfl) fun _ _ => Content.noConfusion
  have hmapping : ∀ {pairs : Compose (List (Nat × Nat))} {k : Int},
      Leads y (Composer.At y k) (fun _ => Composer.At y h) pairs →
      Leads y (Composer.At y k) (fun _ => Composer.At y h)
        (collection anchor? (collectionTag given .mapping) (do return .mapping (← pairs))) :=
    givenCollection_leads hgiven (.inr rfl) fun _ _ => Content.noConfusion
  refine get_leads fun s => peek_leads.bind fun x => .of_and fun hx => ?_
  split
  · rename_i plain t
    refine (advance_flat rfl).bind fun _ => scalar_leads (scalarTag_untagged hgiven ?_)
    rintro rfl
    exact hx
  · exact advance_leads.bind fun _ => hsequence (flowItems_leads (hchildren .flow) hflow)
  · exact advance_leads.bind fun _ => hmapping (flowPairs_leads (hchildren .flow))
  refine .ite (fun hflush => ?_) fun _ => ?_
  · -- no token announces this one, but the mapping around it was
    simp only [Bool.and_eq_true, decide_eq_true_eq] at hflush
    rw [if_pos hflush.1] at hroom
    refine sees_at (hsequence (flushItems_leads (hchild .block h ?_)))
    rw [if_neg (by decide)]
    omega
  refine .ite (fun hblock => ?_) fun _ => ?_
  · simp only [Bool.and_eq_true, decide_eq_true_eq] at hblock
    rw [hblock.2]
    exact advance_leads.bind fun _ => hsequence (blockItems_leads (hchildren .block))
  refine .ite (fun hblock => ?_) fun _ => ?_
  · simp only [Bool.and_eq_true, decide_eq_true_eq] at hblock
    rw [hblock.2]
    exact advance_leads.bind fun _ => hmapping (blockPairs_leads (hchildren .entry))
  refine sees_at (.ite (fun _ => ?_) fun _ => .invalid)
  exact scalar_leads (scalarTag_untagged hgiven fun _ => by simp)

/-- Where no collection may be nested, so many are open that the limit is reached. -/
theorem tooDeep_fits (hroom : room ≤ 0) : Fits y room fun _ => throw .tooDeep := by
  rintro position h hlimit s ⟨⟨before, htokens, hlevel⟩, -, -⟩
  refine .error (.inr ⟨rfl, before, ⟨s.tokens, htokens⟩, ?_⟩)
  split at hlimit <;> omega

theorem node_fits (n : Nat) : Fits y n (node n) := by
  match n with
  | 0 => exact tooDeep_fits (Int.le_refl 0)
  | 1 => exact nodeWith_fits (tooDeep_fits (by decide)) (tooDeep_fits (by decide))
  | n + 2 =>
    refine nodeWith_fits ?_ ?_
    · simpa [Int.add_sub_assoc] using node_fits (n + 1)
    · simpa using node_fits n

/-! ## Documents -/

theorem directives_leads {versioned : Bool} {handles : List (Text × Text)} :
    Stays y h (directives versioned handles n) := by
  induction n generalizing versioned handles with
  | zero => exact .invalid
  | succ n ih =>
    refine peek_leads.bind fun x => .of_and fun _ => ?_
    split
    · refine (advance_flat rfl).bind fun _ => ?_
      exact .ite (fun _ => Leads.invalid.bind fun _ => ih) fun _ => ih
    · refine (advance_flat rfl).bind fun _ => ?_
      exact .ite (fun _ => Leads.invalid.bind fun _ => ih) fun _ => ih
    · exact (advance_flat rfl).bind fun _ => ih
    · exact .pure fun _ hs => hs.toAt

theorem documentStart_leads : Stays y h (documentStart n) :=
  directives_leads.bind fun _ => (expect_flat rfl).bind fun _ _ hs =>
    .ok ⟨hs.tokens, hs.fault, hs.untagged⟩

theorem documentEnds_leads : Stays y h (documentEnds n) := by
  induction n with
  | zero => exact .invalid
  | succ n ih => exact accept_flat rfl ih (.pure fun _ hs => hs)

theorem document_leads : Stays y 0 (document n) := by
  have hnode : Stays y 0 (node depthLimit .block) :=
    node_fits depthLimit .block 0 (by rw [if_neg (by decide)]; omega)
  have hrest : ∀ root : Nat, Stays y 0 (do
      documentEnds n
      unless (← peek) = .streamEnd do
        documentStart n
        throw .invalid
      return some root : Compose (Option Nat)) := by
    intro root
    refine documentEnds_leads.bind fun _ => peek_leads.bind fun _ => .of_and fun _ => sees_at ?_
    refine .ite (fun _ => .pure fun _ hs => hs) fun _ => ?_
    exact documentStart_leads.bind fun _ => Leads.invalid.bind fun _ => .pure fun _ hs => hs
  refine peek_leads.bind fun _ => .of_and fun _ => sees_at ?_
  refine .ite (fun _ => .pure fun _ hs => hs) fun _ => ?_
  refine peek_leads.bind fun _ => .of_and fun _ => sees_at ?_
  refine .ite (fun _ => ?_) fun _ => hnode.bind hrest
  refine documentStart_leads.bind fun _ => peek_leads.bind fun _ => .of_and fun _ => sees_at ?_
  exact .ite (fun _ => emptyScalar_leads.bind hrest) fun _ => hnode.bind hrest

end Compose

/-- **The nodes of a text, and the fault that ends them**: without an exclamation mark no node has a
    tag but one that it shows, and the only faults that are not foreseen are that of an escape with a
    number which is too large by far, and that of too many collections open at once. -/
theorem composed_within (y : Text) : Yields (CompositionFault y)
    (fun r => .scalar '!' ∉ y → ∀ c ∈ r.1, c.Untagged) (Graph.ofText y) := by
  have hstart : ∀ s : Composer, s.tokens = (tokenize y).1 → s.fault = (tokenize y).2.getD .invalid →
      s.cells = #[] → s.At y 0 := fun s htokens hfault hcells =>
    ⟨⟨[], htokens, rfl⟩, hfault, by simp [hcells]⟩
  exact (Compose.document_leads _ (hstart _ rfl rfl rfl)).bind fun _ hs => .ok hs.untagged


end TraitCatalog.Yaml
