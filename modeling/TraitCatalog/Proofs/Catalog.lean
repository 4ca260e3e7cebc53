/-
  From data files to an index, by way of a folder.

  Data files of different traits, written below an empty root in any order, make a shelf
  (`writeAll_shelf`); a catalog over that root lists them, reads each of them as it was, and its
  index has one key for each: `written_catalog_loads`.  That takes names and paths that are not too
  long (`WithinLengths`) and folders that are not nested too deeply (`WithinLimits`); the second is
  more than the first (`deep_file_refused`).
-/
import Mathlib.Data.List.Nodup
import Mathlib.Data.List.Permutation
import TraitCatalog.Command.Run
import TraitCatalog.Proofs.DataFile.RoundTrip
import TraitCatalog.Proofs.Files.Listing
import TraitCatalog.Proofs.Files.Resolve
import TraitCatalog.Proofs.Loader

namespace TraitCatalog

open Text (lit)
open scoped List

/-- The place of a data file. -/
def DataFile.place (d : DataFile) : Text :=
  placeOf d.traitPath

/-- Writes data files one after the other, each at its place.  Gives the tree after that, and how
    each of the writes ended. -/
def Store.writeAll (s : Store) : FileTree → List DataFile → FileTree × List (Except FileFault Text)
  | t, [] => (t, [])
  | t, d :: ds =>
    let written := s.write t d.place d.write
    let more := s.writeAll written.1 ds
    (more.1, written.2 :: more.2)

/-- The names on a path from `base`, and the whole path, are not too long. -/
structure WithinLengths (base : Location) (path : Text) : Prop where
  names : ∀ p ∈ PathName.partsOf path, nameLength p ≤ nameLimit
  whole : pathLength (base ++ PathName.partsOf path) ≤ pathLimit

/-- Nor are the folders on the path too many. -/
structure WithinLimits (base : Location) (path : Text) : Prop extends WithinLengths base path where
  folders : (PathName.partsOf path).dropLast.length ≤ folderLimit

/-! ## Data files with their names -/

/-- A data file, with its trait path in its parts. -/
structure NamedFile where
  name : TraitName
  file : DataFile
  path_eq : name.path = file.traitPath

namespace NamedFile

theorem exists_of_paths : ∀ {ds : List DataFile}, (∀ d ∈ ds, IsTraitPath d.traitPath) →
    ∃ fs : List NamedFile, fs.map file = ds
  | [], _ => ⟨[], rfl⟩
  | d :: ds, h => by
    obtain ⟨n, hn⟩ := TraitName.exists_path (h d (List.mem_cons_self ..))
    obtain ⟨fs, hfs⟩ := exists_of_paths fun e he => h e (List.mem_cons_of_mem _ he)
    exact ⟨⟨n, d, hn⟩ :: fs, by rw [List.map_cons, hfs]⟩

variable (f : NamedFile)

/-- What is written for a data file. -/
def item : Item :=
  (f.name, f.file.write)

theorem place_eq : f.file.place = f.name.place := by
  rw [DataFile.place, ← f.path_eq, TraitName.placeOf_path]

/-- What was written at its place is read as the data file that it was written for. -/
theorem readAt_write : DataFile.readAt f.file.write f.name.place = .ok (.ok f.file) := by
  rw [DataFile.readAt, TraitName.traitPathAt_place, f.path_eq]
  exact DataFile.read_eq_ok_iff.2 ⟨rfl, DataFile.spelled_write f.file⟩

theorem partsOf_place : PathName.partsOf f.file.place = f.name.parts := by
  rw [place_eq]
  exact congrArg PathName.parts f.name.parse_place

theorem fitPath {base : Location} (hb : FitPath base) (h : WithinLengths base f.file.place) :
    FitPath (base ++ f.name.parts) := by
  obtain ⟨hn, hp⟩ := h
  rw [partsOf_place] at hn hp
  refine ⟨fun p hm => ?_, hp⟩
  rcases List.mem_append.1 hm with hm | hm
  · exact hb.names p hm
  · have hpart := f.name.partName_parts p hm
    exact ⟨hpart.plainName, hpart.nameable, hn p hm⟩

theorem length_modules {base : Location} (h : WithinLimits base f.file.place) :
    f.name.modules.length ≤ folderLimit := by
  have hfolders := h.folders
  rwa [partsOf_place, TraitName.parts, List.dropLast_concat] at hfolders

/-- Data files of different traits are at different places. -/
theorem nodup_parts {fs : List NamedFile} (h : ((fs.map file).map DataFile.traitPath).Nodup) :
    ((fs.map item).map (·.1.parts)).Nodup := by
  -- The trait path comes back from the parts of the place.
  have hback : ((fs.map item).map (·.1.parts)).map (fun ps => traitPathAt (Text.join (lit "/") ps)) =
      ((fs.map file).map DataFile.traitPath).map .ok := by
    simp only [List.map_map]
    refine List.map_congr_left fun f _ => ?_
    change traitPathAt f.name.place = .ok f.file.traitPath
    rw [TraitName.traitPathAt_place, f.path_eq]
  refine List.Nodup.of_map (fun ps => traitPathAt (Text.join (lit "/") ps)) ?_
  rw [hback]
  exact h.map fun a b he => Except.ok.inj he

end NamedFile

/-! ## Writing -/

section
variable {base : Location} {t₀ : FileTree} (hb : t₀.Folders base) (pattern : Text)
  (codecs : Text → Option Codec)
include hb

/-- Data files of different traits can all be written, and then are on the shelf. -/
theorem writeAll_shelf : ∀ {fs : List NamedFile} {t : FileTree} {items : List Item},
    Shelf base t₀ t items → (∀ f ∈ fs, FitPath (base ++ f.name.parts)) →
    (∀ f ∈ fs, f.name.modules.length ≤ folderLimit) → (∀ f ∈ fs, f.file.Scalar) →
    ((items ++ fs.map NamedFile.item).map (·.1.parts)).Nodup →
    ∃ t', Store.writeAll ⟨.top, base, pattern, Store.defaultEncoding, codecs⟩ t
          (fs.map NamedFile.file) =
        (t', (fs.map NamedFile.file).map fun d => .ok d.place) ∧
      Shelf base t₀ t' (items ++ fs.map NamedFile.item)
  | [], t, items, hs, _, _, _, _ => ⟨t, rfl, by rw [List.map_nil, List.append_nil]; exact hs⟩
  | f :: fs, t, items, hs, hfit, hdepth, hsc, hn => by
    have hnew : ∀ x ∈ items, x.1.parts ≠ f.name.parts := by
      intro x hx he
      rw [List.map_append, List.nodup_append] at hn
      refine hn.2.2 _ (List.mem_map_of_mem hx) _ ?_ he
      exact List.mem_map_of_mem (List.mem_map_of_mem (List.mem_cons_self ..))
    obtain ⟨t₁, hw, hs₁⟩ := hs.write_new hb pattern codecs (hfit f (List.mem_cons_self ..))
      (hdepth f (List.mem_cons_self ..)) (hsc f (List.mem_cons_self ..)).write hnew
    have hcons : items ++ (f :: fs).map NamedFile.item =
        items ++ [(f.name, f.file.write)] ++ fs.map NamedFile.item := by
      rw [List.map_cons, List.append_assoc]
      rfl
    rw [hcons] at hn ⊢
    obtain ⟨t', hw', hs'⟩ := writeAll_shelf hs₁ (fun g hg => hfit g (List.mem_cons_of_mem _ hg))
      (fun g hg => hdepth g (List.mem_cons_of_mem _ hg)) (fun g hg => hsc g (List.mem_cons_of_mem _ hg))
      hn
    refine ⟨t', ?_, hs'⟩
    rw [List.map_cons, Store.writeAll, f.place_eq, hw]
    dsimp only
    rw [hw', List.map_cons, f.place_eq]

end

/-! ## Loading -/

section
variable {base : Location} {t₀ t : FileTree} {fs : List NamedFile} {codecs : Text → Option Codec}

/-- The source over a shelf lists and reads the data files on it. -/
theorem source_shelf (hs : Shelf base t₀ t (fs.map NamedFile.item)) (hb : t₀.Folders base)
    (hbase : FitPath base) (hfit : ∀ f ∈ fs, FitPath (base ++ f.name.parts))
    (hdepth : ∀ f ∈ fs, f.name.modules.length ≤ folderLimit)
    (hsc : ∀ f ∈ fs, f.file.Scalar) (hn : ((fs.map NamedFile.item).map (·.1.parts)).Nodup)
    {order : List NamedFile} (hp : order.Perm fs)
    (ho : order.Pairwise fun a b => Text.le a.name.place b.name.place = true) :
    let source := Store.source ⟨.top, base, Store.defaultPattern, Store.defaultEncoding, codecs⟩ t
    let files := order.map fun f => (f.name.place, f.file)
    (∃ events, source.list = .ok (files.map Prod.fst, events)) ∧
      ∀ x ∈ files, source.Reads x.1 x.2 := by
  intro source files
  have hplaces : files.map Prod.fst = order.map (·.name.place) := by
    rw [List.map_map]
    rfl
  constructor
  · have hl : Store.list ⟨.top, base, Store.defaultPattern, Store.defaultEncoding, codecs⟩ t =
        .ok (files.map Prod.fst) := by
      refine hs.list_places hb hbase (fun x hx => ?_) (fun x hx => ?_) hn ?_ ?_
      · obtain ⟨f, hf, rfl⟩ := List.mem_map.1 hx
        exact hfit f hf
      · obtain ⟨f, hf, rfl⟩ := List.mem_map.1 hx
        exact hdepth f hf
      · rw [hplaces, List.map_map]
        exact (hp.map _).symm
      · rw [hplaces, List.pairwise_map]
        exact ho
    refine ⟨[.found (files.map Prod.fst).length (PathName.render ⟨.top, base⟩)], ?_⟩
    change (Store.list _ t >>= _) = _
    rw [hl]
    rfl
  · intro x hx
    obtain ⟨f, hf, rfl⟩ := List.mem_map.1 hx
    have hf' := hp.mem_iff.1 hf
    refine ⟨f.file.write, ?_, f.readAt_write⟩
    have hitem : f.item ∈ fs.map NamedFile.item := List.mem_map_of_mem hf'
    exact hs.read_item hb Store.defaultPattern codecs (x := f.item) hitem (hfit f hf')
      (hsc f hf').write f.file.notMem_write

/-- A catalog over a shelf loads all its data files, in the order of their places. -/
theorem loadFresh_shelf (hs : Shelf base t₀ t (fs.map NamedFile.item)) (hb : t₀.Folders base)
    (hbase : FitPath base) (hfit : ∀ f ∈ fs, FitPath (base ++ f.name.parts))
    (hdepth : ∀ f ∈ fs, f.name.modules.length ≤ folderLimit)
    (hsc : ∀ f ∈ fs, f.file.Scalar) (hn : ((fs.map NamedFile.file).map DataFile.traitPath).Nodup)
    {order : List NamedFile} (hp : order.Perm fs)
    (ho : order.Pairwise fun a b => Text.le a.name.place b.name.place = true) (rules : Rules)
    (strict : Bool) :
    let s : Store := ⟨.top, base, Store.defaultPattern, Store.defaultEncoding, codecs⟩
    let loaded := Catalog.loadFresh ⟨s, rules⟩ t strict
    loaded.1 = .ok ⟨order.map (·.name.place), []⟩ ∧
      loaded.2.world.index.entries = order.map fun f => (f.file.traitPath, f.file.descriptors) := by
  intro s loaded
  obtain ⟨⟨events, hl⟩, hr⟩ := source_shelf hs hb hbase hfit hdepth hsc (NamedFile.nodup_parts hn) hp ho
  obtain ⟨stage, he, hw⟩ := exec_loadThenInstall (strict || rules.files.strict)
    rules.registry.logDeliveries hl hr
  have hloaded : loaded = (.ok ⟨_, []⟩, stage) := he
  have hkeys : ((order.map NamedFile.file).map DataFile.traitPath).Nodup :=
    ((hp.map NamedFile.file).map DataFile.traitPath).nodup_iff.2 hn
  rw [hloaded]
  constructor
  · simp only [List.map_map]
    rfl
  · have hmaps : (order.map fun f => (f.name.place, f.file)).map (·.2.toMap) =
        (order.map NamedFile.file).map DataFile.toMap := by
      simp only [List.map_map]
      rfl
    have hempty : (TraitIndex.empty.index.keys ++
        (order.map NamedFile.file).map DataFile.traitPath).Nodup := hkeys
    rw [hw, hmaps, entries_foldl_receive hempty, List.map_map]
    rfl

end

theorem atRoot_eq {here base : Location} {t : FileTree} {codecs : Text → Option Codec} {root : Text}
    {rules : Rules} (hpattern : rules.files.pattern = Store.defaultPattern)
    (hencoding : rules.files.encoding = Store.defaultEncoding)
    (h : t.locate here root = .ok ⟨.top, base⟩) : Catalog.atRoot t here codecs root rules =
      .ok ⟨⟨.top, base, Store.defaultPattern, Store.defaultEncoding, codecs⟩, rules⟩ := by
  rw [Catalog.atRoot, Store.atRoot, h, hpattern, hencoding]
  rfl

/-- **Data files that are written below an empty root are loaded again.**  The root is any path
    to an empty folder, the data files are of different traits, and names and texts are such that
    they can be written; the order of writing does not matter.  Every write succeeds.  A catalog
    over the root then registers all files, in the order of their places, whether or not it is
    strict, and its index has one key for each of them, with all descriptors of the file. -/
theorem written_catalog_loads (tree : FileTree) (here base : Location)
    (codecs : Text → Option Codec) (root : Text) (rules : Rules) (strict : Bool) (ds : List DataFile)
    (htree : tree.Genuine)
    (hroot : tree.walk ((PathName.parse root).partsFrom here) = .ok base)
    (hfar : ¬ tree.MeetsFarLink ((PathName.parse root).partsFrom here))
    (hfolder : tree.isFolder base = .ok true)
    (hempty : ∀ e ∈ tree.entries, ¬ FileTree.Below base e.1)
    (hpattern : rules.files.pattern = Store.defaultPattern)
    (hencoding : rules.files.encoding = Store.defaultEncoding)
    (hpaths : ∀ d ∈ ds, IsTraitPath d.traitPath) (hdistinct : (ds.map DataFile.traitPath).Nodup)
    (htexts : ∀ d ∈ ds, d.Scalar) (hlimits : ∀ d ∈ ds, WithinLimits base d.place) :
    ∃ c, Catalog.atRoot tree here codecs root rules = .ok c ∧
      (c.store.writeAll tree ds).2 = ds.map (fun d => .ok d.place) ∧
      Catalog.atRoot (c.store.writeAll tree ds).1 here codecs root rules = .ok c ∧
      ∃ order, order ~ ds ∧ (order.Pairwise fun a b => Text.le a.place b.place = true) ∧
        (c.loadFresh (c.store.writeAll tree ds).1 strict).1 = .ok ⟨order.map DataFile.place, []⟩ ∧
        (c.loadFresh (c.store.writeAll tree ds).1 strict).2.world.index.entries =
          order.map fun d => (d.traitPath, d.descriptors) := by
  obtain ⟨hb, hbase⟩ := FileTree.folders_of_walk hroot hfolder
  obtain ⟨fs, rfl⟩ := NamedFile.exists_of_paths hpaths
  have hfit : ∀ f ∈ fs, FitPath (base ++ f.name.parts) :=
    fun f hf => f.fitPath hbase (hlimits _ (List.mem_map_of_mem hf)).toWithinLengths
  have hdepth : ∀ f ∈ fs, f.name.modules.length ≤ folderLimit :=
    fun f hf => f.length_modules (hlimits _ (List.mem_map_of_mem hf))
  have hsc : ∀ f ∈ fs, f.file.Scalar := fun f hf => htexts _ (List.mem_map_of_mem hf)
  obtain ⟨t, hw, hs⟩ := writeAll_shelf hb Store.defaultPattern codecs (Shelf.empty hempty) hfit hdepth
    hsc (NamedFile.nodup_parts hdistinct)
  rw [List.nil_append] at hs
  refine ⟨⟨⟨.top, base, Store.defaultPattern, Store.defaultEncoding, codecs⟩, rules⟩, ?_, ?_, ?_, ?_⟩
  · refine atRoot_eq hpattern hencoding ?_
    exact FileTree.locate_root htree hroot hfar (fun _ _ h => h) hb hbase
  · rw [hw]
  · rw [hw]
    refine atRoot_eq hpattern hencoding ?_
    exact FileTree.locate_root htree hroot hfar (hs.mono hempty) (hs.foldersBase hb) hbase
  · let sorted := fs.mergeSort fun a b => Text.le a.name.place b.name.place
    have hp : sorted ~ fs := List.mergeSort_perm fs _
    have ho : sorted.Pairwise fun a b => Text.le a.name.place b.name.place = true :=
      List.pairwise_mergeSort (fun a b c => Text.le_trans a.name.place b.name.place c.name.place)
        (fun a b => Text.le_total a.name.place b.name.place) fs
    obtain ⟨hreport, hindex⟩ :=
      loadFresh_shelf hs hb hbase hfit hdepth hsc hdistinct hp ho rules strict
    rw [hw]
    refine ⟨sorted.map NamedFile.file, hp.map _, ?_, ?_, ?_⟩
    · rw [List.pairwise_map]
      refine ho.imp fun {a b} h => ?_
      rw [a.place_eq, b.place_eq]
      exact h
    · rw [hreport, List.map_map]
      have hplaces : (DataFile.place ∘ NamedFile.file) = fun f => f.name.place :=
        funext NamedFile.place_eq
      rw [hplaces]
    · rw [hindex, List.map_map]
      rfl

/-- A tree with one empty folder. -/
def sampleTree : FileTree :=
  ⟨[([lit "docs"], .folder)]⟩

theorem sampleTree_empty : ∀ e ∈ sampleTree.entries, ¬ FileTree.Below [lit "docs"] e.1 := by
  intro e he
  rw [List.mem_singleton.1 he]
  rintro ⟨rel, hr, h⟩
  exact hr (List.append_right_eq_self.1 h.symm)

/-- Rules with their defaults. -/
def sampleRules : Rules :=
  { project := ⟨lit "docs", lit "1"⟩ }

/-- Two data files; one holds a line break and a text that looks like the end of an entry. -/
def sampleFiles : List DataFile :=
  [⟨lit "Zero", .single (lit "a") []⟩,
    ⟨lit "core::Mul", .single (lit "num") [lit "impl\r\n", lit "\"];"]⟩]

theorem written_catalog_loads_sample :
    ∃ c, Catalog.atRoot sampleTree [] (fun _ => none) (lit "/docs") sampleRules = .ok c ∧
      (c.loadFresh (c.store.writeAll sampleTree sampleFiles).1 true).1 =
        .ok ⟨[lit "core/trait.Mul.js", lit "trait.Zero.js"], []⟩ ∧
      (c.loadFresh (c.store.writeAll sampleTree sampleFiles).1 true).2.world.index.entries =
        [(lit "core::Mul", [lit "impl\r\n", lit "\"];"]), (lit "Zero", [])] := by
  have hpaths : ∀ d ∈ sampleFiles, IsTraitPath d.traitPath := by
    refine List.forall_mem_cons.2 ⟨?_, List.forall_mem_singleton.2 ?_⟩
    · exact ⟨[lit "Zero"], by decide, by decide, rfl⟩
    · exact ⟨[lit "core", lit "Mul"], by decide, by decide, rfl⟩
  have htexts : ∀ d ∈ sampleFiles, d.Scalar := by
    refine List.forall_mem_cons.2 ⟨?_, List.forall_mem_singleton.2 ?_⟩
    · refine List.forall_mem_singleton.2 ⟨.lit _, ?_⟩
      exact List.forall_mem_nil _
    · refine List.forall_mem_singleton.2 ⟨.lit _, ?_⟩
      exact List.forall_mem_cons.2 ⟨.lit _, List.forall_mem_singleton.2 (.lit _)⟩
  have hlimits : ∀ d ∈ sampleFiles, WithinLimits [lit "docs"] d.place := by
    refine List.forall_mem_cons.2 ⟨?_, List.forall_mem_singleton.2 ?_⟩
    · exact ⟨⟨by decide +kernel, by decide +kernel⟩, by decide +kernel⟩
    · exact ⟨⟨by decide +kernel, by decide +kernel⟩, by decide +kernel⟩
  obtain ⟨c, hc, -, -, order, hp, ho, hreport, hindex⟩ :=
    written_catalog_loads sampleTree [] [lit "docs"] (fun _ => none) (lit "/docs") sampleRules true
      sampleFiles (by decide +kernel) rfl (FileTree.not_meetsFarLink (by decide +kernel) _) rfl
      sampleTree_empty rfl rfl hpaths (by decide) htexts hlimits
  -- Only one of the two orders is that of the places.
  rcases List.perm_pair.1 hp with rfl | rfl
  · exact absurd ho (by decide +kernel)
  · exact ⟨c, hc, hreport, hindex⟩

/-- A trait in one module too many. -/
def deepName : TraitName where
  modules := List.replicate (folderLimit + 1) (lit "a")
  name := lit "a"
  modules_ok m hm := by
    rw [List.eq_of_mem_replicate hm]
    decide
  name_ok := by decide

/-- Its data file has a short path, but cannot be written. -/
theorem deep_file_refused :
    let d : DataFile := ⟨deepName.path, .single (lit "a") []⟩
    IsTraitPath d.traitPath ∧ d.Scalar ∧ WithinLengths [lit "docs"] d.place ∧
      ∃ c, Catalog.atRoot sampleTree [] (fun _ => none) (lit "/docs") sampleRules = .ok c ∧
        c.store.writeAll sampleTree [d] = (sampleTree, [.error (.system .tooDeep)]) := by
  intro d
  let f : NamedFile := ⟨deepName, d, rfl⟩
  have hlengths : WithinLengths [lit "docs"] d.place := by
    have hparts : PathName.partsOf d.place = deepName.parts := f.partsOf_place
    constructor
    · rw [hparts]
      decide +kernel
    · rw [hparts]
      decide +kernel
  have hwalk : sampleTree.walk [lit "docs"] = .ok [lit "docs"] := by decide +kernel
  have hb := FileTree.folders_of_walk hwalk (by decide +kernel)
  have hloc : sampleTree.locate [] (lit "/docs") = .ok ⟨.top, [lit "docs"]⟩ := by decide +kernel
  have hwrite := (Shelf.empty sampleTree_empty).write_tooDeep hb.1 rfl Store.defaultPattern
    Store.defaultEncoding d.write (fun _ => none) (f.fitPath hb.2 hlengths) (by decide +kernel)
  refine ⟨⟨List.replicate (folderLimit + 1) (lit "a") ++ [lit "a"], by simp, ?_, rfl⟩, ?_, hlengths, _,
    atRoot_eq rfl rfl hloc, ?_⟩
  · intro n hn
    rcases List.mem_append.1 hn with hn | hn
    · exact deepName.modules_ok n hn
    · rw [List.mem_singleton.1 hn]
      exact deepName.name_ok
  · exact List.forall_mem_singleton.2 ⟨.lit _, List.forall_mem_nil _⟩
  · rw [Store.writeAll, f.place_eq, hwrite]
    rfl

end TraitCatalog
