/-
  Listing a shelf of data files.

  The default pattern enters every folder below the base and takes the names
  `trait.<anything>.js` there (`select_default`).  On a shelf these are the names of the data
  files and no others, so listing gives the places of the data files, each once, in the order of
  their texts: `Shelf.list_places`.
-/
import TraitCatalog.Proofs.Files.Shelf
import TraitCatalog.Proofs.Text.Order

namespace TraitCatalog

open Text (lit)

/-! ## Work that does not fail -/

section
variable {α β ε : Type}

theorem ok_bind (a : α) (f : α → Except ε β) : (Except.ok a >>= f) = f a := rfl

theorem mapM_ok {f : α → Except ε β} {g : α → β} : ∀ {xs : List α},
    (∀ x ∈ xs, f x = .ok (g x)) → xs.mapM f = .ok (xs.map g)
  | [], _ => rfl
  | x :: xs, h => by
    rw [List.mapM_cons, h x (List.mem_cons_self ..),
      mapM_ok fun y hy => h y (List.mem_cons_of_mem _ hy)]
    rfl

theorem gather_ok {f : α → Except ε (List β)} {g : α → List β} {xs : List α}
    (h : ∀ x ∈ xs, f x = .ok (g x)) : Pattern.gather f xs = .ok (xs.flatMap g) := by
  rw [Pattern.gather, mapM_ok h]
  simp only [bind, Except.bind, pure, Except.pure, List.flatMap_def]

theorem filterM_ok {p : α → Except ε Bool} {q : α → Bool} {xs : List α}
    (h : ∀ x ∈ xs, p x = .ok (q x)) : xs.filterM p = .ok (xs.filter q) := by
  have aux : ∀ (xs acc : List α), (∀ x ∈ xs, p x = .ok (q x)) →
      xs.filterAuxM p acc = .ok ((xs.filter q).reverse ++ acc) := by
    intro xs
    induction xs with
    | nil => exact fun acc _ => rfl
    | cons x xs ih =>
      intro acc h
      rw [List.filterAuxM, h x (List.mem_cons_self ..)]
      simp only [bind, Except.bind]
      rw [ih _ fun y hy => h y (List.mem_cons_of_mem _ hy)]
      cases hq : q x <;> simp [hq]
  rw [List.filterM, aux xs [] h]
  simp only [bind, Except.bind, pure, Except.pure, List.append_nil, List.reverse_reverse]

end

theorem nodup_eraseDups {α : Type} [BEq α] [LawfulBEq α] : ∀ xs : List α, xs.eraseDups.Nodup
  | [] => by simp
  | x :: xs => by
    have : (xs.filter fun y => !y == x).length < xs.length + 1 :=
      Nat.lt_succ_of_le (List.length_filter_le _ xs)
    rw [List.eraseDups_cons, List.nodup_cons, List.mem_eraseDups]
    exact ⟨by simp, nodup_eraseDups _⟩
termination_by xs => xs.length

/-! ## Wildcards -/

namespace Wildcard

theorem mem_suffixes {s : Text} : ∀ {t : Text}, s ∈ suffixes t ↔ ∃ p, t = p ++ s
  | [] => by
    rw [suffixes, List.mem_singleton]
    constructor
    · rintro rfl
      exact ⟨[], rfl⟩
    · rintro ⟨p, h⟩
      exact (List.append_eq_nil_iff.1 h.symm).2
  | c :: t => by
    rw [suffixes, List.mem_cons, mem_suffixes]
    constructor
    · rintro (rfl | ⟨p, rfl⟩)
      · exact ⟨[], rfl⟩
      · exact ⟨c :: p, rfl⟩
    · rintro ⟨p, h⟩
      rcases p with _ | ⟨d, p⟩
      · exact .inl h.symm
      · exact .inr ⟨p, (List.cons.inj h).2⟩

theorem isMatch_anyRun {gs : Wildcard} {t : Text} :
    isMatch (.anyRun :: gs) t = true ↔ ∃ p s, t = p ++ s ∧ isMatch gs s = true := by
  rw [isMatch, List.any_eq_true]
  constructor
  · rintro ⟨s, hs, hm⟩
    obtain ⟨p, hp⟩ := mem_suffixes.1 hs
    exact ⟨p, s, hp, hm⟩
  · rintro ⟨p, s, hp, hm⟩
    exact ⟨s, mem_suffixes.2 ⟨p, hp⟩, hm⟩

theorem isMatch_exactly {gs : Wildcard} : ∀ {lead t : Text},
    isMatch (lead.map .exactly ++ gs) t = true ↔ ∃ r, t = lead ++ r ∧ isMatch gs r = true
  | [], t => by simp
  | c :: lead, [] => by simp [isMatch]
  | c :: lead, d :: t => by
    have ih := @isMatch_exactly gs lead t
    rw [List.map_cons, List.cons_append, isMatch, Bool.and_eq_true, ih]
    · simp only [admits, beq_iff_eq, List.cons_append, List.cons.injEq]
      constructor
      · rintro ⟨rfl, r, rfl, hm⟩
        exact ⟨r, ⟨rfl, rfl⟩, hm⟩
      · rintro ⟨r, ⟨rfl, rfl⟩, hm⟩
        exact ⟨rfl, r, rfl, hm⟩
    · exact nofun

/-- The wildcard for the names of data files. -/
def dataFile : Wildcard :=
  (lit "trait.").map .exactly ++ .anyRun :: (lit ".js").map .exactly

/-- The names of data files: `trait.` at the front, `.js` at the end, and anything between them. -/
theorem isMatch_dataFile {n : Text} :
    dataFile.isMatch n = true ↔ ∃ middle, n = lit "trait." ++ middle ++ lit ".js" := by
  have hend : ∀ s, isMatch ((lit ".js").map .exactly) s = true ↔ s = lit ".js" := by
    intro s
    have := @isMatch_exactly [] (lit ".js") s
    rw [List.append_nil] at this
    rw [this]
    simp [isMatch]
  simp only [dataFile, isMatch_exactly, isMatch_anyRun, hend]
  constructor
  · rintro ⟨r, rfl, middle, s, rfl, rfl⟩
    exact ⟨middle, (List.append_assoc _ _ _).symm⟩
  · rintro ⟨middle, rfl⟩
    exact ⟨middle ++ lit ".js", List.append_assoc _ _ _, middle, _, rfl, rfl⟩

end Wildcard

/-- The default pattern: data files in any folder. -/
theorem parse_defaultPattern : Pattern.parse Store.defaultPattern =
    .ok ⟨[.anyDepth, .wild Wildcard.dataFile], false⟩ := by
  rfl

/-! ## Selecting -/

namespace FileTree

variable {t : FileTree} {base : Location}

theorem mem_children {l : Location} {n : Text} {e : Entry} :
    (n, e) ∈ t.children l ↔ (l ++ [n], e) ∈ t.entries := by
  rw [children, List.mem_filterMap]
  constructor
  · rintro ⟨⟨p, e'⟩, hm, h⟩
    rcases List.eq_nil_or_concat' p with rfl | ⟨up, m, rfl⟩
    · simp at h
    · dsimp only at h
      rw [List.getLast?_concat, List.dropLast_concat] at h
      simp only [beq_iff_eq, Option.ite_none_right_eq_some, Option.some.injEq, Prod.mk.injEq] at h
      obtain ⟨rfl, rfl, rfl⟩ := h
      exact hm
  · intro hm
    refine ⟨_, hm, ?_⟩
    simp

theorem mem_foldersBelow {down : List Text} : down ∈ t.foldersBelow base ↔
    down = [] ∨ down ≠ [] ∧ (base ++ down, .folder) ∈ t.entries := by
  rw [foldersBelow, List.mem_cons, List.mem_filterMap]
  refine or_congr_right ?_
  constructor
  · rintro ⟨⟨p, e⟩, hm, h⟩
    simp only [List.isPrefixOf_iff_prefix, Option.ite_none_right_eq_some, Option.some.injEq] at h
    obtain ⟨⟨rfl, ⟨q, rfl⟩, hne⟩, rfl⟩ := h
    rw [List.drop_left]
    refine ⟨?_, hm⟩
    rintro rfl
    exact hne (List.append_nil base).symm
  · rintro ⟨hne, hm⟩
    refine ⟨_, hm, ?_⟩
    simp [hne]

/-- The paths of the entries in the folder at `l` that have the name of a data file, if `down` is the
    path of the folder. -/
def namedIn (t : FileTree) (down : List Text) (l : Location) : List (List Text) :=
  (t.children l).flatMap fun c => if Wildcard.dataFile.isMatch c.1 then [down ++ [c.1]] else []

theorem mem_namedIn {down path : List Text} {l : Location} : path ∈ t.namedIn down l ↔
    ∃ n e, (l ++ [n], e) ∈ t.entries ∧ Wildcard.dataFile.isMatch n = true ∧ path = down ++ [n] := by
  rw [namedIn, List.mem_flatMap]
  constructor
  · rintro ⟨⟨n, e⟩, hm, hp⟩
    dsimp only at hp
    split at hp
    · next hw => exact ⟨n, e, mem_children.1 hm, hw, List.mem_singleton.1 hp⟩
    · cases hp
  · rintro ⟨n, e, hm, hw, rfl⟩
    refine ⟨(n, e), mem_children.2 hm, ?_⟩
    simp [hw]

/-- Only names are looked at in a folder, so that looking into it does not fail. -/
theorem selectFrom_wild {down : List Text} {l? : Option Location}
    (h : Pattern.folderAt? t (base ++ down) = .ok l?) :
    Pattern.selectFrom t base true [.wild Wildcard.dataFile] down =
      .ok ((l?.map (t.namedIn down)).getD []) := by
  simp only [Pattern.selectFrom, h, ok_bind]
  cases l? with
  | none => rfl
  | some l =>
    refine gather_ok fun c _ => ?_
    cases Wildcard.dataFile.isMatch c.1 <;> rfl

/-- A path that the default pattern selects below a folder: one name of a data file, in a folder at
    any depth. -/
def Selected (t : FileTree) (root : Location) (path : List Text) : Prop :=
  ∃ down ∈ t.foldersBelow root, ∃ n e, (root ++ (down ++ [n]), e) ∈ t.entries ∧
    Wildcard.dataFile.isMatch n = true ∧ path = down ++ [n]

/-- What the default pattern selects in a folder that it comes to. -/
def searchIn (t : FileTree) (base down : List Text) : Except Refusal (List (List Text)) := do
  Pattern.enterDown t base down
  Pattern.selectFrom t base true [.wild Wildcard.dataFile] down

theorem searchIn_ok {base down : List Text} {l? : Option Location}
    (h : Pattern.folderAt? t (base ++ down) = .ok l?) (hdepth : down.length ≤ folderLimit) :
    t.searchIn base down = .ok ((l?.map (t.namedIn down)).getD []) := by
  have henter : Pattern.enterDown t base down = .ok () := by
    rw [Pattern.enterDown, List.take_of_length_le hdepth, h, ok_bind, if_neg (Nat.not_lt.2 hdepth)]
    rfl
  rw [searchIn, henter, ok_bind, selectFrom_wild h]

/-- The default pattern searches the folders below a path one after the other. -/
theorem select_eq {base : List Text} {root : Location} (hw : t.walk base = .ok root) :
    Pattern.select t base ⟨[.anyDepth, .wild Wildcard.dataFile], false⟩ =
      (Pattern.gather (t.searchIn base) (t.foldersBelow root)).map List.eraseDups := by
  have hroot : Pattern.folderAt? t (base ++ []) = .ok (some root) := by
    rw [List.append_nil, Pattern.folderAt?, hw]
  have hany : Pattern.selectFrom t base true [.anyDepth, .wild Wildcard.dataFile] [] =
      Pattern.gather (t.searchIn base) (t.foldersBelow root) := by
    rw [Pattern.selectFrom, hroot, List.append_nil]
    rfl
  change (Pattern.selectFrom t base true [.anyDepth, .wild Wildcard.dataFile] [] >>= _) = _
  rw [hany]
  cases Pattern.gather (t.searchIn base) (t.foldersBelow root) <;> rfl

/-- What the default pattern selects below a path that leads to the folder `root`, where every
    folder can be entered. -/
theorem select_default {base : List Text} {root : Location} (hw : t.walk base = .ok root)
    (h : ∀ down ∈ t.foldersBelow root,
      t.walk (base ++ down) = .ok (root ++ down) ∧ down.length ≤ folderLimit) :
    ∃ paths : List (List Text), paths.Nodup ∧
      Pattern.select t base ⟨[.anyDepth, .wild Wildcard.dataFile], false⟩ = .ok paths ∧
      ∀ path, path ∈ paths ↔ Selected t root path := by
  let files := fun down => t.namedIn down (root ++ down)
  have hall : Pattern.gather (t.searchIn base) (t.foldersBelow root) =
      .ok ((t.foldersBelow root).flatMap files) := by
    refine gather_ok fun down hd => ?_
    obtain ⟨hwalk, hdepth⟩ := h down hd
    have hfolder : Pattern.folderAt? t (base ++ down) = .ok (some (root ++ down)) := by
      rw [Pattern.folderAt?, hwalk]
    exact searchIn_ok hfolder hdepth
  refine ⟨((t.foldersBelow root).flatMap files).eraseDups, nodup_eraseDups _, ?_, fun path => ?_⟩
  · rw [select_eq hw, hall]
    rfl
  · rw [List.mem_eraseDups, List.mem_flatMap]
    refine exists_congr fun down => and_congr_right fun _ => ?_
    simp only [files, mem_namedIn, List.append_assoc]

end FileTree

/-- Below a folder, the files that a pattern selects are listed. -/
theorem Store.list_parsed {s : Store} {t : FileTree} {p : Pattern}
    (hp : Pattern.parse s.pattern = .ok p) (hb : t.isFolder s.base = .ok true) :
    s.list t = (do
      let paths ← (p.select t s.base).mapError .system
      let found ← FileFault.ofWalk
        (paths.filterM fun path => do return (← t.fileAt? (s.base ++ path)).isSome)
      return Text.sort (found.map (Text.join (lit "/")))) := by
  simp only [Store.list, hb, hp]
  rfl

/-! ## Shelves -/

namespace Shelf

open FileTree

variable {base : Location} {t₀ t : FileTree} {items : List Item} (hs : Shelf base t₀ t items)
  (hb : t₀.Folders base) (hbase : FitPath base) (hfit : ∀ x ∈ items, FitPath (base ++ x.1.parts))
include hs

theorem mem_entries {rel : List Text} {e : Entry} (hr : rel ≠ []) :
    (base ++ rel, e) ∈ t.entries ↔ Shelved items rel e := by
  rw [hs.tidy.mem_iff ⟨rel, hr, rfl⟩, hs.below rel e hr]

include hb hbase hfit in
/-- Every folder below the base can be entered. -/
theorem folders_below {down : List Text} (hd : down ∈ t.foldersBelow base) :
    t.Folders (base ++ down) ∧ FitPath (base ++ down) := by
  rcases mem_foldersBelow.1 hd with rfl | ⟨hne, hm⟩
  · rw [List.append_nil]
    exact ⟨hs.foldersBase hb, hbase⟩
  · cases (hs.mem_entries hne).1 hm with
    | @folder x hx hpre =>
      refine ⟨(hs.folders_modules hb hx).higher ((List.prefix_append_right_inj base).2 hpre), ?_⟩
      obtain ⟨r, hr⟩ := hpre
      have := hfit x hx
      rw [TraitName.parts, ← hr, List.append_assoc, ← List.append_assoc] at this
      exact this.left

/-- There is a file at a location. -/
def isFileAt (t : FileTree) (l : Location) : Bool :=
  match t.lookup l with
  | some (.file _) => true
  | _ => false

include hb hbase hfit in
theorem fileAt?_selected {path : List Text} (h : Selected t base path) :
    (do return (← t.fileAt? (base ++ path)).isSome : Except WalkFault Bool) =
      .ok (isFileAt t (base ++ path)) := by
  obtain ⟨down, hd, n, e, hm, -, rfl⟩ := h
  obtain ⟨hf, -⟩ := hs.folders_below hb hbase hfit hd
  have hsh := (hs.mem_entries (by simp)).1 hm
  have he := (hs.below _ e (by simp)).2 hsh
  rw [isFileAt, he]
  rw [← List.append_assoc] at he ⊢
  cases hsh with
  | @folder x hx hpre =>
    have hm' : down ++ [n] ∈ t.foldersBelow base := mem_foldersBelow.2 (.inr ⟨by simp, hm⟩)
    obtain ⟨hf', hl'⟩ := hs.folders_below hb hbase hfit hm'
    rw [← List.append_assoc] at hf' hl'
    rw [fileAt?, find_folders hl' hf']
    rfl
  | @file x hx hpre =>
    have hl := hfit x hx
    rw [← hpre, ← List.append_assoc] at hl
    rw [fileAt?_eq hl hf he]
    rfl

/-- The files among the selected paths are the data files. -/
theorem selected_file {path : List Text} :
    Selected t base path ∧ isFileAt t (base ++ path) = true ↔ path ∈ items.map (·.1.parts) := by
  rw [List.mem_map]
  constructor
  · rintro ⟨⟨down, hd, n, e, hm, -, rfl⟩, hfile⟩
    have hsh := (hs.mem_entries (by simp)).1 hm
    rw [isFileAt, (hs.below _ e (by simp)).2 hsh] at hfile
    cases hsh with
    | folder => cases hfile
    | file hx hp => exact ⟨_, hx, hp.symm⟩
  · rintro ⟨x, hx, rfl⟩
    have hsh : Shelved items x.1.parts _ := .file hx rfl
    constructor
    · refine ⟨x.1.modules, mem_foldersBelow.2 ?_, x.1.file, _,
        (hs.mem_entries x.1.parts_ne_nil).2 hsh, Wildcard.isMatch_dataFile.2 ⟨x.1.name, rfl⟩, rfl⟩
      by_cases hne : x.1.modules = []
      · exact .inl hne
      · exact .inr ⟨hne, (hs.mem_entries hne).2 (.folder hx List.prefix_rfl)⟩
    · rw [isFileAt, (hs.below _ _ x.1.parts_ne_nil).2 hsh]

/-- No folder is deeper than those of the data files. -/
theorem length_foldersBelow (hdepth : ∀ x ∈ items, x.1.modules.length ≤ folderLimit)
    {down : List Text} (hd : down ∈ t.foldersBelow base) : down.length ≤ folderLimit := by
  rcases mem_foldersBelow.1 hd with rfl | ⟨hne, hm⟩
  · exact Nat.zero_le _
  · cases (hs.mem_entries hne).1 hm with
    | @folder x hx hpre => exact Nat.le_trans hpre.length_le (hdepth x hx)

include hb hbase hfit in
/-- Listing a shelf gives the places of its data files in order. -/
theorem list_places {encoding : Text} {codecs : Text → Option Codec} {us : List Text}
    (hdepth : ∀ x ∈ items, x.1.modules.length ≤ folderLimit) (hn : (items.map (·.1.parts)).Nodup)
    (hp : (items.map (·.1.place)).Perm us) (hu : us.Pairwise fun a b => Text.le a b = true) :
    Store.list ⟨.top, base, Store.defaultPattern, encoding, codecs⟩ t = .ok us := by
  have hwalk : ∀ down ∈ t.foldersBelow base,
      t.walk (base ++ down) = .ok (base ++ down) ∧ down.length ≤ folderLimit := by
    intro down hd
    obtain ⟨hf, hl⟩ := hs.folders_below hb hbase hfit hd
    exact ⟨walk_folders hl hf, hs.length_foldersBelow hdepth hd⟩
  obtain ⟨paths, hnp, hsel, hmem⟩ := select_default (walk_folders hbase (hs.foldersBase hb)) hwalk
  have hfound : (paths.filterM fun path => do return (← t.fileAt? (base ++ path)).isSome) =
      .ok (paths.filter fun path => isFileAt t (base ++ path)) :=
    filterM_ok fun path h => hs.fileAt?_selected hb hbase hfit ((hmem path).1 h)
  have hperm : (paths.filter fun path => isFileAt t (base ++ path)).Perm (items.map (·.1.parts)) := by
    rw [List.perm_ext_iff_of_nodup (hnp.filter _) hn]
    intro path
    rw [List.mem_filter, hmem, hs.selected_file]
  have hplaces : (items.map (·.1.parts)).map (Text.join (lit "/")) = items.map (·.1.place) := by
    rw [List.map_map]
    rfl
  have hsort := Text.sort_eq ((hplaces ▸ hperm.map (Text.join (lit "/"))).trans hp) hu
  rw [Store.list_parsed parse_defaultPattern (isFolder_folders hbase (hs.foldersBase hb)), hsel]
  simp only [FileFault.ofWalk, Except.mapError, ok_bind, hfound, hsort]
  rfl

end Shelf

end TraitCatalog
