/-
  Paths without links.

  A path whose parts are plain names (`FitPath`), and on which there are no links, is walked
  one name at a time.  There is one lemma for each way in which such a walk can go: through
  folders (`walkWith_folders`), to something that is there (`walkPath_entry`), to something that
  is missing (`walkPath_create`).  Resolving such a path gives the path itself
  (`resolve_eq`), whether or not it leads anywhere.
-/
import Mathlib.Data.List.Infix
import TraitCatalog.Files.Store

namespace TraitCatalog

open Text (lit)

/-! ## Names and paths -/

/-- A name that is not a step to where one is or up. -/
structure PlainName (p : Text) : Prop where
  ne_nil : p ≠ []
  ne_dot : p ≠ lit "."
  ne_up : p ≠ lit ".."

/-- A plain name that a file can have. -/
structure FitName (p : Text) : Prop extends PlainName p where
  nameable : p.all CodePoint.isNameable = true
  short : nameLength p ≤ nameLimit

instance : DecidablePred FitName := fun p =>
  decidable_of_iff
    ((p ≠ [] ∧ p ≠ lit "." ∧ p ≠ lit "..") ∧ p.all CodePoint.isNameable = true ∧
      nameLength p ≤ nameLimit)
    ⟨fun ⟨⟨h₁, h₂, h₃⟩, h₄, h₅⟩ => ⟨⟨h₁, h₂, h₃⟩, h₄, h₅⟩,
      fun h => ⟨⟨h.ne_nil, h.ne_dot, h.ne_up⟩, h.nameable, h.short⟩⟩

/-- A path of such names that is not too long. -/
structure FitPath (l : Location) : Prop where
  names : ∀ p ∈ l, FitName p
  short : pathLength l ≤ pathLimit

theorem PlainName.not_stay {p : Text} (h : PlainName p) : (p.isEmpty || p == lit ".") = false := by
  simp [h.ne_nil, h.ne_dot]

theorem PlainName.not_up {p : Text} (h : PlainName p) : (p == lit "..") = false := by
  simp [h.ne_up]

theorem pathLength_append (l m : List Text) : pathLength (l ++ m) = pathLength l + pathLength m := by
  have add : ∀ (m : List Text) (k : Nat),
      m.foldl (fun n part => n + nameLength part + 1) k = k + pathLength m := by
    intro m
    induction m with
    | nil => exact fun k => rfl
    | cons p m ih =>
      intro k
      rw [pathLength, List.foldl_cons, List.foldl_cons, ih, ih (0 + nameLength p + 1)]
      omega
  rw [pathLength, List.foldl_append, add, ← pathLength]

theorem FitPath.left {l m : Location} (h : FitPath (l ++ m)) : FitPath l := by
  refine ⟨fun p hp => h.names p (List.mem_append_left m hp), ?_⟩
  have := h.short
  rw [pathLength_append] at this
  omega

theorem FitPath.nameable {l : Location} (h : FitPath l) :
    l.all (·.all CodePoint.isNameable) = true :=
  List.all_eq_true.2 fun p hp => (h.names p hp).nameable

namespace FileTree

variable {t : FileTree}

/-- There is no link at a location. -/
def NoLink (t : FileTree) (l : Location) : Prop :=
  ∀ target, t.lookup l ≠ some (.link target)

/-- A location and all above it are folders. -/
def Folders (t : FileTree) (l : Location) : Prop :=
  ∀ p, p <+: l → t.lookup p = some .folder

theorem Folders.self {l : Location} (h : t.Folders l) : t.lookup l = some .folder :=
  h l List.prefix_rfl

theorem Folders.higher {l m : Location} (h : t.Folders m) (hl : l <+: m) : t.Folders l :=
  fun p hp => h p (hp.trans hl)

theorem Folders.snoc {l : Location} (h : t.Folders l) {n : Text}
    (hn : t.lookup (l ++ [n]) = some .folder) : t.Folders (l ++ [n]) := by
  intro p hp
  rcases List.prefix_concat_iff.1 hp with rfl | hp
  · exact hn
  · exact h p hp

/-! ## Walking -/

section
variable {create : Bool} {follow : Location → List Text → Except WalkFault Location}
  {here : Location} {n : Text} {rest : List Text}

theorem walkWith_enter (hf : t.lookup here = some .folder) (hn : FitName n) {e : Entry}
    (he : t.lookup (here ++ [n]) = some e) (hl : t.NoLink (here ++ [n])) :
    walkWith t create follow here (n :: rest) = walkWith t create follow (here ++ [n]) rest := by
  have hs : ¬ nameLimit < nameLength n := by have := hn.short; omega
  simp only [walkWith, hf, hn.not_stay, hn.not_up, if_neg hs, he, Bool.false_eq_true, if_false]
  cases e with
  | file content => rfl
  | folder => rfl
  | link target => exact absurd he (hl target)

theorem walkWith_absent (hf : t.lookup here = some .folder) (hn : FitName n)
    (he : t.lookup (here ++ [n]) = none) : walkWith t create follow here (n :: rest) =
      if create && rest.isEmpty then .ok (here ++ [n]) else .error .missing := by
  have hs : ¬ nameLimit < nameLength n := by have := hn.short; omega
  simp only [walkWith, hf, hn.not_stay, hn.not_up, if_neg hs, he, Bool.false_eq_true, if_false]

/-- A walk goes through folders. -/
theorem walkWith_folders : ∀ {here : Location} {ms : List Text}, (∀ m ∈ ms, FitName m) →
    (∀ p, p <+: ms → t.lookup (here ++ p) = some .folder) →
    walkWith t create follow here (ms ++ rest) = walkWith t create follow (here ++ ms) rest
  | here, [], _, _ => by rw [List.nil_append, List.append_nil]
  | here, m :: ms, hn, hf => by
    have h₀ : t.lookup here = some .folder := by
      have := hf [] List.nil_prefix
      rwa [List.append_nil] at this
    have h₁ : t.lookup (here ++ [m]) = some .folder := hf [m] ⟨ms, rfl⟩
    have hl : t.NoLink (here ++ [m]) := fun target => by simp [h₁]
    rw [List.cons_append, walkWith_enter h₀ (hn m (List.mem_cons_self ..)) h₁ hl,
      walkWith_folders (fun q hq => hn q (List.mem_cons_of_mem _ hq)) fun p hp => ?_,
      List.append_assoc, List.singleton_append]
    rw [List.append_assoc, List.singleton_append]
    exact hf (m :: p) (List.cons_prefix_cons.2 ⟨rfl, hp⟩)

/-- A walk along plain names without links can only fail because of what is there, or because a name
    is too long. -/
theorem walkWith_error {f : WalkFault} : ∀ {here : Location} {ms : List Text},
    (∀ m ∈ ms, PlainName m) → (∀ p, p <+: ms → t.NoLink (here ++ p)) →
    walkWith t create follow here ms = .error f → f = .missing ∨ f = .notFolder ∨ f = .tooLong
  | here, [], _, _, h => by
    rw [walkWith] at h
    cases h
  | here, m :: ms, hn, hl, h => by
    have hm := hn m (List.mem_cons_self ..)
    have hlm : t.NoLink (here ++ [m]) := hl [m] ⟨ms, rfl⟩
    have ih : walkWith t create follow (here ++ [m]) ms = .error f →
        f = .missing ∨ f = .notFolder ∨ f = .tooLong := by
      refine walkWith_error (fun q hq => hn q (List.mem_cons_of_mem _ hq)) fun p hp => ?_
      rw [List.append_assoc, List.singleton_append]
      exact hl (m :: p) (List.cons_prefix_cons.2 ⟨rfl, hp⟩)
    simp only [walkWith, hm.not_stay, hm.not_up, Bool.false_eq_true, if_false] at h
    rcases hf : t.lookup here with _ | ⟨_ | _ | _⟩ <;> rw [hf] at h
    · exact .inl (Except.error.inj h).symm
    · exact .inr (.inl (Except.error.inj h).symm)
    · dsimp only at h
      by_cases hs : nameLimit < nameLength m
      · rw [if_pos hs] at h
        exact .inr (.inr (Except.error.inj h).symm)
      rw [if_neg hs] at h
      rcases he : t.lookup (here ++ [m]) with _ | ⟨_ | _ | target⟩ <;> rw [he] at h
      · dsimp only at h
        split at h
        · cases h
        · exact .inl (Except.error.inj h).symm
      · exact ih h
      · exact ih h
      · exact absurd he (hlm target)
    · exact .inr (.inl (Except.error.inj h).symm)

end

/-! ## Walks from the top -/

theorem walkPath_fit {create : Bool} {l : Location} (hl : FitPath l) :
    t.walkPath create l = t.walkFrom create linkLimit [] l := by
  have hs : ¬ pathLimit < pathLength l := by have := hl.short; omega
  rw [walkPath, hl.nameable, if_neg hs]
  rfl

theorem walk_error {l : Location} (hn : ∀ m ∈ l, PlainName m)
    (hc : l.all (·.all CodePoint.isNameable) = true) (hl : ∀ p, p <+: l → t.NoLink p) {f : WalkFault}
    (h : t.walk l = .error f) : f = .missing ∨ f = .notFolder ∨ f = .tooLong := by
  rw [walk, walkPath, hc] at h
  split at h
  · cases ‹(!true) = true›
  · split at h
    · exact .inr (.inr (Except.error.inj h).symm)
    · exact walkWith_error hn (fun p hp => hl p hp) h

theorem walkPath_folders {create : Bool} {l : Location} {rest : List Text} (hl : FitPath (l ++ rest))
    (hf : t.Folders l) : t.walkPath create (l ++ rest) =
      walkWith t create (walkFrom t create 39) l rest := by
  rw [walkPath_fit hl]
  change walkWith t create _ [] (l ++ rest) = _
  rw [walkWith_folders (fun m hm => hl.left.names m hm) fun p hp => hf p hp, List.nil_append]

theorem walk_folders {l : Location} (hl : FitPath l) (hf : t.Folders l) : t.walk l = .ok l := by
  have h : FitPath (l ++ []) := by rw [List.append_nil]; exact hl
  have hw : t.walk (l ++ []) = .ok (l ++ []) := by
    rw [walk, walkPath_folders h hf, walkWith, List.append_nil]
  rw [List.append_nil] at hw
  exact hw

variable {l : Location} {n : Text}

theorem walkPath_entry {create : Bool} (hl : FitPath (l ++ [n])) (hf : t.Folders l) {e : Entry}
    (he : t.lookup (l ++ [n]) = some e) (hn : t.NoLink (l ++ [n])) :
    t.walkPath create (l ++ [n]) = .ok (l ++ [n]) := by
  rw [walkPath_folders hl hf, walkWith_enter hf.self (hl.names n (by simp)) he hn, walkWith]

theorem walkPath_create (hl : FitPath (l ++ [n])) (hf : t.Folders l)
    (he : t.lookup (l ++ [n]) = none) : t.walkPath true (l ++ [n]) = .ok (l ++ [n]) := by
  rw [walkPath_folders hl hf, walkWith_absent hf.self (hl.names n (by simp)) he]
  rfl

theorem find_folders (hl : FitPath l) (hf : t.Folders l) : t.find l = .ok (some .folder) := by
  rw [find, walk_folders hl hf]
  dsimp only
  rw [hf.self]

theorem isFolder_folders (hl : FitPath l) (hf : t.Folders l) : t.isFolder l = .ok true := by
  rw [isFolder, find_folders hl hf]
  rfl

theorem fileAt?_eq (hl : FitPath (l ++ [n])) (hf : t.Folders l) {content : List UInt8}
    (he : t.lookup (l ++ [n]) = some (.file content)) : t.fileAt? (l ++ [n]) = .ok (some content) := by
  have hn : t.NoLink (l ++ [n]) := fun target => by simp [he]
  rw [fileAt?, find, walk, walkPath_entry hl hf he hn]
  simp only [he]
  rfl

/-! ## Resolving -/

/-- Where there is no link, none is read. -/
theorem NoLink.readableLink? (h : t.NoLink l) : t.readableLink? l = none := by
  rw [FileTree.readableLink?]
  rcases he : t.lookup l with _ | ⟨_ | _ | target⟩
  · rfl
  · rfl
  · rfl
  · exact absurd he (h target)

/-- A link is read if its name and its path are not too long. -/
theorem readableLink?_eq {l : Location} {n target : Text}
    (he : t.lookup (l ++ [n]) = some (.link target)) (hn : nameLength n ≤ nameLimit)
    (hl : pathLength (l ++ [n]) ≤ pathLimit) : t.readableLink? (l ++ [n]) = some target := by
  rw [readableLink?, he]
  simp [hn, hl]

/-- Along plain names that files can have, where no link can be read, a resolution takes every name
    as it is. -/
theorem resolveWith_eq {active : List Location}
    {descend : Location → Location → List Text → Resolution} : ∀ {here : Location} {ms : List Text},
    (∀ m ∈ ms, PlainName m) → (∀ m ∈ ms, m.all CodePoint.isNameable = true) →
    (∀ p, p <+: ms → t.readableLink? (here ++ p) = none) →
    resolveWith t active descend here ms = .done (here ++ ms)
  | here, [], _, _, _ => by rw [resolveWith, List.append_nil]
  | here, m :: ms, hn, hc, hl => by
    have hm := hn m (List.mem_cons_self ..)
    have ih : resolveWith t active descend (here ++ [m]) ms = .done (here ++ [m] ++ ms) := by
      refine resolveWith_eq (fun q hq => hn q (List.mem_cons_of_mem _ hq))
        (fun q hq => hc q (List.mem_cons_of_mem _ hq)) fun p hp => ?_
      rw [List.append_assoc, List.singleton_append]
      exact hl (m :: p) (List.cons_prefix_cons.2 ⟨rfl, hp⟩)
    rw [List.append_assoc, List.singleton_append] at ih
    simp only [resolveWith, hm.not_stay, hm.not_up, hc m (List.mem_cons_self ..), hl [m] ⟨ms, rfl⟩,
      Bool.not_true, Bool.false_eq_true, if_false]
    exact ih

theorem resolve_eq {l : Location} (hn : ∀ m ∈ l, PlainName m)
    (hc : ∀ m ∈ l, m.all CodePoint.isNameable = true) (hl : ∀ p, p <+: l → t.NoLink p) :
    t.resolve l = .ok ⟨.top, l⟩ := by
  have h : ∀ depth, t.resolveFrom depth [] [] l = .done l := by
    intro depth
    cases depth with
    | zero => exact resolveWith_eq hn hc fun p hp => (hl p hp).readableLink?
    | succ depth => exact resolveWith_eq hn hc fun p hp => (hl p hp).readableLink?
  rw [resolve, h]

/-- A path that resolves to a location without links is located there. -/
theorem locate_eq {here : Location} {path : Text} {p : PathName}
    (h : t.resolve ((PathName.parse path).partsFrom here) = .ok p) (hn : ∀ m ∈ p.parts, PlainName m)
    (hc : p.parts.all (·.all CodePoint.isNameable) = true)
    (hl : ∀ q, q <+: p.parts → t.NoLink q) : t.locate here path = .ok p := by
  rw [locate, h]
  dsimp only
  split
  · next hw => rcases walk_error hn hc hl hw with hf | hf | hf <;> cases hf
  · next hw => rcases walk_error hn hc hl hw with hf | hf | hf <;> cases hf
  · rfl

end FileTree

end TraitCatalog
