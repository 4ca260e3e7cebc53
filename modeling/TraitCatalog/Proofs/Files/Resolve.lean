/-
  Walking and resolving agree.

  `Walks t via here parts l` says that the path `parts` leads from `here` to `l` through the links
  `via`.  A path leads to at most one location, through fixed links (`Walks.unique`), and a path in
  two pieces leads on from where the first piece leads (`Walks.split`).

  * `walk_eq_ok_iff`: walking from the top ends exactly for the paths that lead somewhere;
  * `Genuine`: a tree as a file system holds it;
  * `resolve_eq_of_walk`: a path that leads somewhere resolves to where it leads, if none of the links
    on its way is too far away to be read.  A link that is met while its own target is resolved would
    need more links than it needs;
  * `Walks.sound`: what a path leads to is there, by its own names and without links;
  * `locate_root`: the location of a root folder does not change when files are added.
-/
import TraitCatalog.Files.Store
import TraitCatalog.Proofs.Files.Change

namespace TraitCatalog.FileTree

open Text (lit)

variable {t : FileTree}

/-! ## Paths that lead somewhere -/

/-- The path `parts` leads from `here` to `l`, through the links `via`. -/
inductive Walks (t : FileTree) : (via : List Location) → (here : Location) → (parts : List Text) →
    (l : Location) → Prop
  | stop {here : Location} : Walks t [] here [] here
  | stay {via : List Location} {here l : Location} {part : Text} {rest : List Text} :
      t.lookup here = some .folder → (part.isEmpty || part == lit ".") = true →
      Walks t via here rest l → Walks t via here (part :: rest) l
  | up {via : List Location} {here l : Location} {rest : List Text} : t.lookup here = some .folder →
      Walks t via here.dropLast rest l → Walks t via here (lit ".." :: rest) l
  | enter {via : List Location} {here l : Location} {part : Text} {rest : List Text} {e : Entry} :
      t.lookup here = some .folder → PlainName part → nameLength part ≤ nameLimit →
      t.lookup (here ++ [part]) = some e → t.NoLink (here ++ [part]) →
      Walks t via (here ++ [part]) rest l → Walks t via here (part :: rest) l
  | follow {via : List Location} {here l : Location} {part target : Text} {rest : List Text} :
      t.lookup here = some .folder → PlainName part → nameLength part ≤ nameLimit →
      t.lookup (here ++ [part]) = some (.link target) →
      Walks t via (linkStart here target) (Text.splitOn (.scalar '/') target ++ rest) l →
      Walks t ((here ++ [part]) :: via) here (part :: rest) l

/-- A walk that ends is a path that leads somewhere, through as many links as may be followed. -/
theorem walks_of_walkWith {follow : Location → List Text → Except WalkFault Location} {l : Location}
    {links : Nat}
    (hfollow : ∀ here parts, follow here parts = .ok l →
      ∃ via, via.length < links ∧ Walks t via here parts l) :
    ∀ {here : Location} {parts : List Text}, walkWith t false follow here parts = .ok l →
      ∃ via, via.length ≤ links ∧ Walks t via here parts l
  | here, [], h => by
    rw [walkWith, Except.ok.injEq] at h
    subst h
    exact ⟨[], Nat.zero_le _, .stop⟩
  | here, part :: rest, h => by
    rw [walkWith] at h
    rcases hf : t.lookup here with _ | ⟨_ | _ | _⟩ <;> rw [hf] at h
    · cases h
    · cases h
    · dsimp only at h
      by_cases hstay : (part.isEmpty || part == lit ".") = true
      · rw [if_pos hstay] at h
        obtain ⟨via, hvia, hw⟩ := walks_of_walkWith hfollow h
        exact ⟨via, hvia, .stay hf hstay hw⟩
      rw [if_neg hstay] at h
      by_cases hup : (part == lit "..") = true
      · rw [if_pos hup] at h
        obtain ⟨via, hvia, hw⟩ := walks_of_walkWith hfollow h
        rw [beq_iff_eq.1 hup]
        exact ⟨via, hvia, .up hf hw⟩
      rw [if_neg hup] at h
      have hp : PlainName part := by
        simp only [Bool.or_eq_true, List.isEmpty_iff, beq_iff_eq, not_or] at hstay hup
        exact ⟨hstay.1, hstay.2, hup⟩
      by_cases hs : nameLimit < nameLength part
      · rw [if_pos hs] at h
        cases h
      rw [if_neg hs] at h
      rcases he : t.lookup (here ++ [part]) with _ | ⟨_ | _ | target⟩ <;> rw [he] at h
      · cases h
      · obtain ⟨via, hvia, hw⟩ := walks_of_walkWith hfollow h
        exact ⟨via, hvia, .enter hf hp (by omega) he (fun target => by simp [he]) hw⟩
      · obtain ⟨via, hvia, hw⟩ := walks_of_walkWith hfollow h
        exact ⟨via, hvia, .enter hf hp (by omega) he (fun target => by simp [he]) hw⟩
      · obtain ⟨via, hvia, hw⟩ := hfollow _ _ h
        exact ⟨_ :: via, hvia, .follow hf hp (by omega) he hw⟩
    · cases h

/-- A path that leads somewhere can be walked, if its links may be followed. -/
theorem walkWith_of_walks {follow : Location → List Text → Except WalkFault Location} {links : Nat}
    (hfollow : ∀ {via here parts l}, via.length < links → Walks t via here parts l →
      follow here parts = .ok l)
    {via : List Location} {here l : Location} {parts : List Text} (h : Walks t via here parts l) :
    via.length ≤ links → walkWith t false follow here parts = .ok l := by
  induction h with
  | stop => exact fun _ => rfl
  | stay hf hp _ ih =>
    intro hle
    simp only [walkWith, hf, hp, if_true]
    exact ih hle
  | up hf _ ih =>
    intro hle
    rw [walkWith, hf]
    exact ih hle
  | @enter _ _ _ _ _ e hf hp hs he hl _ ih =>
    intro hle
    have hs' : ¬ nameLimit < nameLength _ := Nat.not_lt.2 hs
    simp only [walkWith, hf, hp.not_stay, hp.not_up, if_neg hs', he, Bool.false_eq_true, if_false]
    cases e with
    | file content => exact ih hle
    | folder => exact ih hle
    | link target => exact absurd he (hl target)
  | follow hf hp hs he h =>
    intro hle
    have hs' : ¬ nameLimit < nameLength _ := Nat.not_lt.2 hs
    simp only [walkWith, hf, hp.not_stay, hp.not_up, if_neg hs', he, Bool.false_eq_true, if_false]
    exact hfollow hle h

theorem walkFrom_iff : ∀ {links : Nat} {here l : Location} {parts : List Text},
    t.walkFrom false links here parts = .ok l ↔
      ∃ via, via.length ≤ links ∧ Walks t via here parts l := by
  intro links
  induction links with
  | zero =>
    intro here l parts
    constructor
    · exact walks_of_walkWith fun _ _ h => by cases h
    · rintro ⟨via, hvia, h⟩
      exact walkWith_of_walks (fun hlt => absurd hlt (Nat.not_lt_zero _)) h hvia
  | succ links ih =>
    intro here l parts
    constructor
    · refine walks_of_walkWith fun here parts h => ?_
      obtain ⟨via, hvia, hw⟩ := ih.1 h
      exact ⟨via, Nat.lt_succ_of_le hvia, hw⟩
    · rintro ⟨via, hvia, h⟩
      exact walkWith_of_walks (fun hlt hw => ih.2 ⟨_, Nat.le_of_lt_succ hlt, hw⟩) h hvia

/-- **A walk from the top ends exactly for the paths that lead somewhere**: those that files can
    have and that are short enough, with no more links on the way than are followed. -/
theorem walk_eq_ok_iff {parts : List Text} {l : Location} : t.walk parts = .ok l ↔
    (parts.all (·.all CodePoint.isNameable) = true ∧ pathLength parts ≤ pathLimit) ∧
      ∃ via, via.length ≤ linkLimit ∧ Walks t via [] parts l := by
  rw [walk, walkPath]
  by_cases hn : parts.all (·.all CodePoint.isNameable) = true
  · by_cases hs : pathLimit < pathLength parts
    · have hs' : ¬ pathLength parts ≤ pathLimit := Nat.not_le.2 hs
      simp [hn, hs, hs']
    · have hs' : pathLength parts ≤ pathLimit := Nat.not_lt.1 hs
      simp only [hn, hs, hs', Bool.not_true, Bool.false_eq_true, if_false, and_self, true_and]
      exact walkFrom_iff
  · simp [hn]

theorem walks_of_walk {parts : List Text} {l : Location} (h : t.walk parts = .ok l) :
    ∃ via, Walks t via [] parts l := by
  obtain ⟨-, via, -, hw⟩ := walk_eq_ok_iff.1 h
  exact ⟨via, hw⟩

namespace Walks

variable {via : List Location} {here l : Location} {parts : List Text}

/-- A path leads to one location at most, through fixed links. -/
theorem unique (h : Walks t via here parts l) :
    ∀ {via' l'}, Walks t via' here parts l' → via = via' ∧ l = l' := by
  induction h with
  | stop =>
    intro via' l' h'
    cases h'
    exact ⟨rfl, rfl⟩
  | stay _ hp _ ih =>
    intro via' l' h'
    cases h' with
    | stay _ _ h' => exact ih h'
    | up => cases hp
    | enter _ hn => rw [hn.not_stay] at hp; cases hp
    | follow _ hn => rw [hn.not_stay] at hp; cases hp
  | up _ _ ih =>
    intro via' l' h'
    cases h' with
    | stay _ hp => cases hp
    | up _ h' => exact ih h'
    | enter _ hn => exact absurd rfl hn.ne_up
    | follow _ hn => exact absurd rfl hn.ne_up
  | enter _ hn _ he hl _ ih =>
    intro via' l' h'
    cases h' with
    | stay _ hp => rw [hn.not_stay] at hp; cases hp
    | up => exact absurd rfl hn.ne_up
    | enter _ _ _ _ _ h' => exact ih h'
    | follow _ _ _ he' => exact absurd he' (hl _)
  | follow _ hn _ he _ ih =>
    intro via' l' h'
    cases h' with
    | stay _ hp => rw [hn.not_stay] at hp; cases hp
    | up => exact absurd rfl hn.ne_up
    | enter _ _ _ _ hl => exact absurd he (hl _)
    | follow _ _ _ he' h' =>
      rw [he, Option.some.injEq, Entry.link.injEq] at he'
      subst he'
      obtain ⟨hvia, hl⟩ := ih h'
      exact ⟨by rw [hvia], hl⟩

/-- A path in two pieces leads on from where the first leads. -/
theorem split (h : Walks t via here parts l) : ∀ {a b}, parts = a ++ b →
    ∃ via₁ via₂ m, via = via₁ ++ via₂ ∧ Walks t via₁ here a m ∧ Walks t via₂ m b l := by
  induction h with
  | stop =>
    intro a b he
    obtain ⟨rfl, rfl⟩ := List.nil_eq_append_iff.1 he
    exact ⟨[], [], _, rfl, .stop, .stop⟩
  | stay hf hp h ih =>
    intro a b he
    rcases List.cons_eq_append_iff.1 he with ⟨rfl, rfl⟩ | ⟨a', rfl, rfl⟩
    · exact ⟨[], _, _, rfl, .stop, .stay hf hp h⟩
    · obtain ⟨via₁, via₂, m, hvia, h₁, h₂⟩ := ih rfl
      exact ⟨via₁, via₂, m, hvia, .stay hf hp h₁, h₂⟩
  | up hf h ih =>
    intro a b he
    rcases List.cons_eq_append_iff.1 he with ⟨rfl, rfl⟩ | ⟨a', rfl, rfl⟩
    · exact ⟨[], _, _, rfl, .stop, .up hf h⟩
    · obtain ⟨via₁, via₂, m, hvia, h₁, h₂⟩ := ih rfl
      exact ⟨via₁, via₂, m, hvia, .up hf h₁, h₂⟩
  | enter hf hp hs hx hl h ih =>
    intro a b he
    rcases List.cons_eq_append_iff.1 he with ⟨rfl, rfl⟩ | ⟨a', rfl, rfl⟩
    · exact ⟨[], _, _, rfl, .stop, .enter hf hp hs hx hl h⟩
    · obtain ⟨via₁, via₂, m, hvia, h₁, h₂⟩ := ih rfl
      exact ⟨via₁, via₂, m, hvia, .enter hf hp hs hx hl h₁, h₂⟩
  | follow hf hp hs hx h ih =>
    intro a b he
    rcases List.cons_eq_append_iff.1 he with ⟨rfl, rfl⟩ | ⟨a', rfl, rfl⟩
    · exact ⟨[], _, _, rfl, .stop, .follow hf hp hs hx h⟩
    · obtain ⟨via₁, via₂, m, hvia, h₁, h₂⟩ := ih (List.append_assoc _ _ _).symm
      exact ⟨_ :: via₁, via₂, m, congrArg _ hvia, .follow hf hp hs hx h₁, h₂⟩

/-- Where a path leads, another one leads on. -/
theorem append {via₁ via₂ : List Location} {here m l : Location} {a b : List Text}
    (h : Walks t via₁ here a m) : Walks t via₂ m b l → Walks t (via₁ ++ via₂) here (a ++ b) l := by
  induction h with
  | stop => exact id
  | stay hf hp _ ih => exact fun hb => .stay hf hp (ih hb)
  | up hf _ ih => exact fun hb => .up hf (ih hb)
  | enter hf hp hs hx hl _ ih => exact fun hb => .enter hf hp hs hx hl (ih hb)
  | follow hf hp hs hx _ ih =>
    intro hb
    have hrest := ih hb
    rw [List.append_assoc] at hrest
    exact .follow hf hp hs hx hrest

/-- A path through folders leads to what stands at its end, if that is no link. -/
theorem down : ∀ {ms : List Text} {here : Location}, (∀ m ∈ ms, FitName m) →
    (∀ p, p <+: ms → p ≠ ms → t.lookup (here ++ p) = some .folder) →
    (∃ e, t.lookup (here ++ ms) = some e) → t.NoLink (here ++ ms) →
    Walks t [] here ms (here ++ ms)
  | [], here, _, _, _, _ => by
    rw [List.append_nil]
    exact .stop
  | m :: ms, here, hn, hf, he, hl => by
    have hm := hn m (List.mem_cons_self ..)
    have h₀ : t.lookup here = some .folder := by
      have := hf [] List.nil_prefix (List.cons_ne_nil m ms).symm
      rwa [List.append_nil] at this
    have hstep : here ++ m :: ms = here ++ [m] ++ ms := by simp
    rw [hstep] at he hl ⊢
    have hrest : Walks t [] (here ++ [m]) ms (here ++ [m] ++ ms) := by
      refine down (fun q hq => hn q (List.mem_cons_of_mem m hq)) (fun p hp hne => ?_) he hl
      rw [List.append_assoc]
      refine hf (m :: p) (List.cons_prefix_cons.2 ⟨rfl, hp⟩) fun heq => hne (List.cons.inj heq).2
    -- The next name is a folder, or the end of the path.
    by_cases hend : ms = []
    · subst hend
      rw [List.append_nil] at he hl
      obtain ⟨e, he⟩ := he
      exact .enter h₀ hm.toPlainName hm.short he hl hrest
    · have h₁ : t.lookup (here ++ [m]) = some .folder := by
        refine hf [m] ⟨ms, rfl⟩ fun heq => hend (List.cons.inj heq).2.symm
      refine .enter h₀ hm.toPlainName hm.short h₁ (fun target ht => ?_) hrest
      rw [h₁] at ht
      cases ht

end Walks

/-! ## Trees of a file system -/

/-- A tree as a file system holds it: what is listed at a location is there, under a name that
    files can have, and in a folder. -/
structure Genuine (t : FileTree) : Prop where
  there : ∀ x ∈ t.entries, t.lookup x.1 = some x.2
  names : ∀ x ∈ t.entries, ∀ n ∈ x.1, FitName n ∧ .scalar '/' ∉ n
  inFolder : ∀ x ∈ t.entries, t.lookup x.1.dropLast = some .folder

instance (t : FileTree) : Decidable t.Genuine :=
  decidable_of_iff
    ((∀ x ∈ t.entries, t.lookup x.1 = some x.2) ∧
      (∀ x ∈ t.entries, ∀ n ∈ x.1, FitName n ∧ .scalar '/' ∉ n) ∧
      ∀ x ∈ t.entries, t.lookup x.1.dropLast = some .folder)
    ⟨fun ⟨h₁, h₂, h₃⟩ => ⟨h₁, h₂, h₃⟩, fun h => ⟨h.there, h.names, h.inFolder⟩⟩

theorem Genuine.name (ht : t.Genuine) {l : Location} {e : Entry} (h : t.lookup l = some e) :
    ∀ n ∈ l, FitName n ∧ .scalar '/' ∉ n := by
  intro n hn
  have hl : l ≠ [] := List.ne_nil_of_mem hn
  exact ht.names _ (mem_of_lookup hl h) n hn

theorem Genuine.nameable (ht : t.Genuine) {here : Location} {part : Text} {e : Entry}
    (h : t.lookup (here ++ [part]) = some e) : part.all CodePoint.isNameable = true :=
  (ht.name h part (by simp)).1.nameable

/-! ## Resolving -/

/-- The links are near enough to be read: their own paths are not too long. -/
def Near (via : List Location) : Prop :=
  ∀ a ∈ via, pathLength a ≤ pathLimit

/-- The path leads somewhere, through a link whose own path is too long for the system. -/
def MeetsFarLink (t : FileTree) (parts : List Text) : Prop :=
  ∃ via l, Walks t via [] parts l ∧ ∃ a ∈ via, pathLimit < pathLength a

theorem Walks.near {via : List Location} {parts : List Text} {l : Location}
    (h : Walks t via [] parts l) (hfar : ¬ t.MeetsFarLink parts) : Near via :=
  fun a ha => Nat.not_lt.1 fun hlong => hfar ⟨via, l, h, a, ha, hlong⟩

/-- The links on the way of a path are there. -/
theorem Walks.link_of_mem {via : List Location} {here l a : Location} {parts : List Text}
    (h : Walks t via here parts l) (ha : a ∈ via) : ∃ target, t.lookup a = some (.link target) := by
  induction h with
  | stop => cases ha
  | stay _ _ _ ih => exact ih ha
  | up _ _ ih => exact ih ha
  | enter _ _ _ _ _ _ ih => exact ih ha
  | follow _ _ _ he _ ih =>
    rcases List.mem_cons.1 ha with rfl | ha
    · exact ⟨_, he⟩
    · exact ih ha

/-- In a tree in which no path is too long, no link is too far away. -/
theorem not_meetsFarLink (h : ∀ x ∈ t.entries, pathLength x.1 ≤ pathLimit) (parts : List Text) :
    ¬ t.MeetsFarLink parts := by
  rintro ⟨via, l, hw, a, ha, hlong⟩
  obtain ⟨target, he⟩ := hw.link_of_mem ha
  have hne : a ≠ [] := by
    rintro rfl
    cases he
  exact absurd (h _ (mem_of_lookup hne he)) (Nat.not_le.2 hlong)

/-- Following the link at `a` takes `c` more links. -/
def LinkCost (t : FileTree) (a : Location) (c : Nat) : Prop :=
  ∃ target via m, t.lookup a = some (.link target) ∧
    Walks t via (linkStart a.dropLast target) (Text.splitOn (.scalar '/') target) m ∧ via.length = c

theorem LinkCost.unique {a : Location} {c c' : Nat} (h : LinkCost t a c) (h' : LinkCost t a c') :
    c = c' := by
  obtain ⟨target, via, m, he, hw, rfl⟩ := h
  obtain ⟨target', via', m', he', hw', rfl⟩ := h'
  rw [he, Option.some.injEq, Entry.link.injEq] at he'
  subst he'
  rw [(hw.unique hw').1]

/-- A resolution of a path that needs at most `n` links may go on: each of the links under way needs
    at least `n` more, and there is room for as many. -/
structure Resolving (t : FileTree) (depth : Nat) (active : List Location) (n : Nat) : Prop where
  cost : ∀ a ∈ active, ∃ c, LinkCost t a c ∧ n ≤ c
  deep : n ≤ depth

section
variable {t' : FileTree} (ht : t.Genuine) (hkept : ∀ l e, t.lookup l = some e → t'.lookup l = some e)
include ht hkept

/-- A resolution follows a path that leads somewhere, if it can resolve the links on it.  More may be
    there by then. -/
theorem resolveWith_walks {active : List Location}
    {descend : Location → Location → List Text → Resolution} {bound : Nat}
    (hd : ∀ here part target via m, t.lookup (here ++ [part]) = some (.link target) →
      Walks t via (linkStart here target) (Text.splitOn (.scalar '/') target) m → Near via →
      via.length < bound → active.contains (here ++ [part]) = false ∧
        descend (here ++ [part]) (linkStart here target) (Text.splitOn (.scalar '/') target) = .done m) :
    ∀ {parts : List Text} {here l : Location} {via : List Location}, Walks t via here parts l →
      Near via → via.length ≤ bound → resolveWith t' active descend here parts = .done l
  | [], _, _, _, .stop, _, _ => by rw [resolveWith]
  | part :: rest, here, l, via, h, hnear, hle => by
    rw [resolveWith]
    cases h with
    | stay _ hp h =>
      rw [if_pos hp]
      exact resolveWith_walks hd h hnear hle
    | up _ h =>
      rw [if_neg (by decide), if_pos (by decide)]
      exact resolveWith_walks hd h hnear hle
    | @enter _ _ _ _ _ e _ hp _ he hl h =>
      have hno : t'.NoLink (here ++ [part]) := by
        intro target he'
        rw [hkept _ _ he] at he'
        rw [he'] at he
        exact hl target he
      simp only [hp.not_stay, hp.not_up, ht.nameable he, hno.readableLink?, Bool.not_true,
        Bool.false_eq_true, if_false]
      exact resolveWith_walks hd h hnear hle
    | @follow via _ _ _ target _ _ hp hshort he h =>
      obtain ⟨hfirst, hlater⟩ := List.forall_mem_cons.1 hnear
      obtain ⟨via₁, via₂, m, rfl, h₁, h₂⟩ := h.split rfl
      obtain ⟨hnear₁, hnear₂⟩ := List.forall_mem_append.1 hlater
      rw [List.length_cons, List.length_append] at hle
      have hread := readableLink?_eq (hkept _ _ he) hshort hfirst
      obtain ⟨hc, hdone⟩ := hd here part target via₁ m he h₁ hnear₁ (by omega)
      simp only [hp.not_stay, hp.not_up, ht.nameable he, hread, hc, hdone, Bool.not_true,
        Bool.false_eq_true, if_false]
      exact resolveWith_walks hd h₂ hnear₂ (by omega)

omit ht hkept in
/-- A link on the way is not under way, and its target can be resolved. -/
theorem Resolving.descend {depth : Nat} {active : List Location} {n : Nat}
    (hr : Resolving t depth active n) {a : Location} {c : Nat} (hc : LinkCost t a c) (hlt : c < n) :
    a ∉ active ∧ ∃ d, depth = d + 1 ∧ Resolving t d (a :: active) c := by
  have hdeep := hr.deep
  refine ⟨fun ha => ?_, depth - 1, by omega, List.forall_mem_cons.2 ⟨?_, fun b hb => ?_⟩, by omega⟩
  · obtain ⟨c', hc', hle⟩ := hr.cost a ha
    have := hc.unique hc'
    omega
  · exact ⟨c, hc, Nat.le_refl c⟩
  · obtain ⟨c', hc', hle⟩ := hr.cost b hb
    exact ⟨c', hc', by omega⟩

theorem resolveFrom_walks : ∀ {depth : Nat} {active : List Location} {via : List Location},
    Resolving t depth active via.length → Near via → ∀ {here l : Location} {parts : List Text},
    Walks t via here parts l → t'.resolveFrom depth active here parts = .done l := by
  intro depth
  induction depth with
  | zero =>
    intro active via hr hnear here l parts h
    refine resolveWith_walks ht hkept ?_ h hnear (Nat.le_refl _)
    intro here part target via₁ m he hw _ hlt
    have hc : LinkCost t (here ++ [part]) via₁.length :=
      ⟨target, via₁, m, he, by rwa [List.dropLast_concat], rfl⟩
    obtain ⟨-, d, hd, -⟩ := hr.descend hc hlt
    omega
  | succ depth ih =>
    intro active via hr hnear here l parts h
    refine resolveWith_walks ht hkept ?_ h hnear (Nat.le_refl _)
    intro here part target via₁ m he hw hnear₁ hlt
    have hc : LinkCost t (here ++ [part]) via₁.length :=
      ⟨target, via₁, m, he, by rwa [List.dropLast_concat], rfl⟩
    obtain ⟨hfresh, d, hd, hr'⟩ := hr.descend hc hlt
    obtain rfl : d = depth := by omega
    exact ⟨by simpa using hfresh, ih hr' hnear₁ hw⟩

/-- **A path that leads somewhere resolves to where it leads**, through whatever links that are near
    enough to be read, also after more has been put there. -/
theorem resolve_eq_of_walk {parts : List Text} {l : Location} (h : t.walk parts = .ok l)
    (hfar : ¬ t.MeetsFarLink parts) : t'.resolve parts = .ok ⟨.top, l⟩ := by
  obtain ⟨-, via, hvia, hw⟩ := walk_eq_ok_iff.1 h
  have hlimits : linkLimit ≤ folderLimit := by decide
  have hr : Resolving t folderLimit [] via.length := ⟨by simp, Nat.le_trans hvia hlimits⟩
  rw [resolve, resolveFrom_walks ht hkept hr (hw.near hfar) hw]

end

/-! ## What a path leads to -/

/-- A location that is there, below folders, under plain names and not as a link. -/
structure Sound (t : FileTree) (l : Location) : Prop where
  above : ∀ p, p <+: l → p ≠ l → t.lookup p = some .folder
  there : ∃ e, t.lookup l = some e
  noLink : t.NoLink l
  names : ∀ p ∈ l, PlainName p ∧ nameLength p ≤ nameLimit

theorem Sound.top : Sound t [] := by
  refine ⟨fun p hp hne => absurd (List.prefix_nil.1 hp) hne, ⟨.folder, rfl⟩, ?_, by simp⟩
  intro target h
  cases h

theorem Sound.higher {l p : Location} (h : Sound t l) (hp : p <+: l) : Sound t p := by
  by_cases he : p = l
  · rw [he]
    exact h
  · have hf := h.above p hp he
    refine ⟨fun q hq hne => h.above q (hq.trans hp) ?_, ⟨_, hf⟩, ?_, fun q hq => h.names q (hp.subset hq)⟩
    · rintro rfl
      exact hne (hq.eq_of_length (Nat.le_antisymm hq.length_le hp.length_le))
    · intro target ht
      rw [hf] at ht
      cases ht

/-- What a path leads to is sound. -/
theorem Walks.sound {via : List Location} {here l : Location} {parts : List Text}
    (h : Walks t via here parts l) :
    Sound t here → Sound t l := by
  induction h with
  | stop => exact id
  | stay _ _ _ ih => exact ih
  | up _ _ ih => exact fun hs => ih (hs.higher (List.dropLast_prefix _))
  | @enter _ here _ part _ e hf hp hlen he hl _ ih =>
    intro hs
    refine ih ⟨fun p hpre hne => ?_, ⟨e, he⟩, hl, fun p hm => ?_⟩
    · rcases List.prefix_concat_iff.1 hpre with rfl | hpre
      · exact absurd rfl hne
      · by_cases hph : p = here
        · rw [hph]
          exact hf
        · exact hs.above p hpre hph
    · rcases List.mem_append.1 hm with hm | hm
      · exact hs.names p hm
      · rw [List.mem_singleton.1 hm]
        exact ⟨hp, hlen⟩
  | @follow _ here _ _ target _ _ _ _ _ _ ih =>
    intro hs
    refine ih ?_
    rw [linkStart]
    split
    · exact hs
    · exact Sound.top

/-! ## Roots -/

theorem nameable_of_walk {parts : List Text} {l : Location} (h : t.walk parts = .ok l) :
    parts.all (·.all CodePoint.isNameable) = true ∧ pathLength parts ≤ pathLimit := by
  exact (walk_eq_ok_iff.1 h).1

theorem find_of_isFolder {parts : List Text} (h : t.isFolder parts = .ok true) :
    t.find parts = .ok (some .folder) := by
  rw [isFolder] at h
  rcases hx : t.find parts with f | e <;> rw [hx] at h
  · cases h
  · have he : (e == some .folder) = true := Except.ok.inj h
    rw [beq_iff_eq.1 he]

theorem walk_of_find {parts : List Text} {e : Entry} (h : t.find parts = .ok (some e)) :
    ∃ l, t.walk parts = .ok l := by
  rcases hx : t.walk parts with f | l
  · rw [find, hx] at h
    cases f <;> cases h
  · exact ⟨l, rfl⟩

theorem fileAt?_eq_some {parts : List Text} {content : List UInt8} :
    t.fileAt? parts = .ok (some content) ↔
      ∃ place, t.walk parts = .ok place ∧ t.lookup place = some (.file content) := by
  constructor
  · intro h
    have hfind : t.find parts = .ok (some (.file content)) := by
      rw [fileAt?] at h
      rcases hx : t.find parts with f | _ | ⟨c | _ | _⟩ <;> rw [hx] at h <;> cases h
      rfl
    obtain ⟨place, hw⟩ := walk_of_find hfind
    rw [find, hw] at hfind
    exact ⟨place, hw, Except.ok.inj hfind⟩
  · rintro ⟨place, hw, he⟩
    rw [fileAt?, find, hw]
    dsimp only
    rw [he]
    rfl

/-- Whether a path leads to a file cannot be told if the path is too long, and only then. -/
theorem fileAt?_eq_error {parts : List Text} {f : WalkFault} :
    t.fileAt? parts = .error f ↔ f = .tooLong ∧ t.walk parts = .error .tooLong := by
  rcases hw : t.walk parts with g | l
  · cases g <;> simp [fileAt?, find, hw, bind, Except.bind, pure, Except.pure, eq_comm]
  · rcases he : t.lookup l with _ | ⟨_ | _ | _⟩ <;>
      simp [fileAt?, find, hw, he, bind, Except.bind, pure, Except.pure]

/-- A folder that a path leads to, and that can be reached by its own names. -/
theorem folders_of_walk {parts : List Text} {base : Location} (hw : t.walk parts = .ok base)
    (hf : t.isFolder base = .ok true) : t.Folders base ∧ FitPath base := by
  obtain ⟨via, hwalks⟩ := walks_of_walk hw
  have hs := hwalks.sound Sound.top
  have hfind := find_of_isFolder hf
  have hfit : FitPath base := by
    obtain ⟨l, hl⟩ := walk_of_find hfind
    obtain ⟨hn, hlen⟩ := nameable_of_walk hl
    refine ⟨fun p hp => ?_, hlen⟩
    obtain ⟨hplain, hshort⟩ := hs.names p hp
    exact ⟨hplain, List.all_eq_true.1 hn p hp, hshort⟩
  refine ⟨fun p hp => ?_, hfit⟩
  by_cases hne : p = base
  · subst hne
    rcases List.eq_nil_or_concat' p with rfl | ⟨up, m, rfl⟩
    · rfl
    · obtain ⟨e, he⟩ := hs.there
      have hup : t.Folders up := by
        intro q hq
        refine hs.above q (hq.trans (List.prefix_append up [m])) ?_
        rintro rfl
        have := hq.length_le
        rw [List.length_append, List.length_singleton] at this
        omega
      rw [find, walk, walkPath_entry hfit hup he hs.noLink] at hfind
      exact Except.ok.inj hfind
  · exact hs.above p hp hne

/-- A path that leads to a folder still stands for it when more is there. -/
theorem locate_root {t' : FileTree} {here base : Location} {root : Text} (ht : t.Genuine)
    (hw : t.walk ((PathName.parse root).partsFrom here) = .ok base)
    (hfar : ¬ t.MeetsFarLink ((PathName.parse root).partsFrom here))
    (hkept : ∀ l e, t.lookup l = some e → t'.lookup l = some e) (hf : t'.Folders base)
    (hl : FitPath base) : t'.locate here root = .ok ⟨.top, base⟩ := by
  rw [locate, resolve_eq_of_walk ht hkept hw hfar]
  dsimp only
  rw [walk_folders hl hf]

end TraitCatalog.FileTree
