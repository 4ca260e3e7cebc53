/-
  Data files in an empty folder.

  `Shelf base t₀ t items` describes the tree `t` after the data files `items`, each a trait and a
  text, have been written below the folder `base`, which was empty in `t₀`: the files are there,
  so are the folders that they are in, and nothing else is.

  * `write_new`: writing one more file succeeds, and gives the tree with one more item;
  * `write_tooDeep`: the first file is refused if its folders are too many;
  * `read_item`: the text of an item is read back;
  * `readText_utf8`: the text of a file comes back from its content.
-/
import TraitCatalog.Files.Store
import TraitCatalog.Proofs.Files.Change
import TraitCatalog.Proofs.Text.Codec
import TraitCatalog.Proofs.TraitPath

namespace TraitCatalog

open Text (lit)

/-! ## Content of files -/

theorem findCodec_default (codecs : Text → Option Codec) :
    findCodec codecs Store.defaultEncoding = .ok (.of .utf8) := by
  have h : Encoding.ofName? Store.defaultEncoding = some .utf8 := by decide +kernel
  rw [findCodec, h]

theorem encode_codec_utf8 {t : Text} (h : t.Scalar) :
    (Codec.of .utf8).encode t = .ok (t.flatMap Utf8.bytes) := by
  change (Encoding.utf8.encode t).mapError _ = _
  rw [Encoding.encode_utf8 h]
  rfl

theorem decode_codec_utf8 {t : Text} (h : t.Scalar) :
    (Codec.of .utf8).decode (t.flatMap Utf8.bytes) = .ok t := by
  change (Encoding.utf8.decode (t.flatMap Utf8.bytes)).mapError _ = _
  rw [Encoding.decode_utf8 h]
  rfl

theorem checkEncodingName_default : checkEncodingName Store.defaultEncoding = .ok () := by
  have h : Store.defaultEncoding.contains (.scalar '\x00') = false := by decide
  have hs : Store.defaultEncoding.Scalar := Text.Scalar.lit _
  rw [checkEncodingName, Encoding.encode_utf8 hs, h]
  rfl

/-- The text of a file comes back from its content. -/
theorem readText_utf8 (codecs : Text → Option Codec) {t : Text} (h : t.Scalar)
    (hr : .scalar '\r' ∉ t) :
    readText codecs Store.defaultEncoding (t.flatMap Utf8.bytes) = .ok t := by
  rw [readText, checkEncodingName_default]
  simp only [bind, Except.bind, findCodec_default, decode_codec_utf8 h]
  rw [Text.unifyBreaks_eq hr]
  rfl

/-! ## Names of data files -/

theorem PartName.plainName {p : Text} (h : PartName p) : PlainName p :=
  ⟨h.ne_nil, h.ne_cons (by decide) _, h.ne_cons (by decide) _⟩

theorem PartName.nameable {p : Text} (h : PartName p) : p.all CodePoint.isNameable = true := by
  have hn : .scalar '\x00' ∉ p := h.notMem (by decide) (by decide)
  obtain ⟨c, t, rfl, hc, ht⟩ := h
  rw [List.all_eq_true]
  intro d hd
  cases d with
  | scalar ch =>
    refine bne_iff_ne.2 ?_
    rintro rfl
    exact hn hd
  | surrogate k =>
    rcases List.mem_cons.1 hd with rfl | hd
    · cases hc
    · rcases ht _ hd with h | h <;> cases h

namespace TraitName

variable (n : TraitName)

/-- The file of a trait is no folder of another. -/
theorem not_prefix_modules (m : TraitName) : ¬ n.parts <+: m.modules := by
  intro h
  have hf : n.file ∈ m.modules := h.subset (List.mem_append_right _ (List.mem_singleton_self _))
  exact n.file_ne (m.modules_ok _ hf) rfl

end TraitName

/-! ## Shelves -/

/-- A data file: its trait and its text. -/
abbrev Item := TraitName × Text

/-- What is at a path from the base when some data files are there. -/
inductive Shelved (items : List Item) (rel : List Text) : Entry → Prop
  | folder {x : Item} : x ∈ items → rel <+: x.1.modules → Shelved items rel .folder
  | file {x : Item} : x ∈ items → rel = x.1.parts → Shelved items rel (.file (x.2.flatMap Utf8.bytes))

/-- What is at a path when there is one more data file. -/
theorem shelved_concat {items : List Item} {n : TraitName} {text : Text} {rel : List Text}
    {e : Entry} :
    Shelved (items ++ [(n, text)]) rel e ↔ Shelved items rel e ∨
      rel <+: n.modules ∧ e = .folder ∨ rel = n.parts ∧ e = .file (text.flatMap Utf8.bytes) := by
  constructor
  · rintro (⟨hx, hr⟩ | ⟨hx, hr⟩)
    · rcases List.mem_append.1 hx with hx | hx
      · exact .inl (.folder hx hr)
      · rw [List.mem_singleton.1 hx] at hr
        exact .inr (.inl ⟨hr, rfl⟩)
    · rcases List.mem_append.1 hx with hx | hx
      · exact .inl (.file hx hr)
      · rw [List.mem_singleton.1 hx] at hr ⊢
        exact .inr (.inr ⟨hr, rfl⟩)
  · have hlast : (n, text) ∈ items ++ [(n, text)] :=
      List.mem_append_right _ (List.mem_singleton_self _)
    rintro ((⟨hx, hr⟩ | ⟨hx, hr⟩) | ⟨hr, rfl⟩ | ⟨hr, rfl⟩)
    · exact .folder (List.mem_append_left _ hx) hr
    · exact .file (List.mem_append_left _ hx) hr
    · exact .folder hlast hr
    · exact .file hlast hr

/-- The tree `t` is the tree `t₀` with some data files below `base`, and nothing else there. -/
structure Shelf (base : Location) (t₀ t : FileTree) (items : List Item) : Prop where
  outside : ∀ l, ¬ FileTree.Below base l → t.lookup l = t₀.lookup l
  tidy : t.Tidy base
  below : ∀ rel e, rel ≠ [] → (t.lookup (base ++ rel) = some e ↔ Shelved items rel e)

namespace Shelf

open FileTree

variable {base : Location} {t₀ t : FileTree} {items : List Item}

/-- An empty folder is a shelf without data files. -/
theorem empty (h : ∀ e ∈ t₀.entries, ¬ Below base e.1) : Shelf base t₀ t₀ [] := by
  refine ⟨fun _ _ => rfl, fun l e hb hm => absurd hb (h _ hm), fun rel e hr => ?_⟩
  constructor
  · intro he
    have hb : Below base (base ++ rel) := ⟨rel, hr, rfl⟩
    exact absurd hb (h _ (mem_of_lookup hb.ne_nil he))
  · rintro (⟨hx, -⟩ | ⟨hx, -⟩) <;> cases hx

/-- Nothing that was there before is lost. -/
theorem mono (hs : Shelf base t₀ t items) (h : ∀ e ∈ t₀.entries, ¬ Below base e.1) (l : Location)
    (e : Entry) (he : t₀.lookup l = some e) : t.lookup l = some e := by
  rw [hs.outside l ?_]
  · exact he
  · intro hb
    exact h _ (mem_of_lookup hb.ne_nil he) hb

variable (hs : Shelf base t₀ t items) (hb : t₀.Folders base)
include hs

include hb in
/-- The base and the folders above it are as they were. -/
theorem foldersBase : t.Folders base := by
  intro p hp
  rw [hs.outside p ?_]
  · exact hb p hp
  · rintro ⟨rel, hr, rfl⟩
    have := hp.length_le
    rw [List.length_append] at this
    exact hr (List.length_eq_zero_iff.1 (by omega))

include hb in
/-- There are no links at or below the base, nor above it. -/
theorem noLink (rel : List Text) : ∀ p, p <+: base ++ rel → t.NoLink p := by
  intro p hp target he
  rcases prefix_append_cases hp with ⟨hp, -⟩ | ⟨q, rfl, -⟩
  · rw [hs.foldersBase hb p hp] at he
    cases he
  · by_cases hq : q = []
    · rw [hq, List.append_nil, (hs.foldersBase hb).self] at he
      cases he
    · cases (hs.below q _ hq).1 he

include hb in
/-- The path of a data file stands for the location that it spells. -/
theorem target_place (pattern encoding : Text) (codecs : Text → Option Codec) {n : TraitName}
    (hl : FitPath (base ++ n.parts)) :
    Store.target ⟨.top, base, pattern, encoding, codecs⟩ t n.place = .ok (base ++ n.parts) := by
  have hloc : t.locate base n.place = .ok ⟨.top, base ++ n.parts⟩ := by
    have hplain : ∀ p ∈ base ++ n.parts, PlainName p := fun p hp => (hl.names p hp).toPlainName
    refine locate_eq ?_ hplain hl.nameable (hs.noLink hb n.parts)
    rw [n.parse_place, PathName.partsFrom]
    exact resolve_eq hplain (fun p hp => (hl.names p hp).nameable) (hs.noLink hb n.parts)
  have hpre : base.isPrefixOf (base ++ n.parts) = true := by
    rw [List.isPrefixOf_iff_prefix]
    exact List.prefix_append base n.parts
  rw [Store.target, hloc]
  simp only [bind, Except.bind, hpre, and_self, if_true]
  rfl

/-! ## Writing -/

include hb in
/-- Nothing stands in the way of the folders of a data file. -/
theorem clear_modules (n : TraitName) : t.Clear base n.modules := by
  intro p hp
  by_cases hne : p = []
  · rw [hne, List.append_nil]
    exact .inr (hs.foldersBase hb).self
  · rcases he : t.lookup (base ++ p) with _ | e
    · exact .inl rfl
    · cases (hs.below p e hne).1 he with
      | folder => exact .inr rfl
      | @file x _ hx =>
        rw [hx] at hp
        exact absurd hp (x.1.not_prefix_modules n)

/-- The place of a data file is free until it is written. -/
theorem lookup_new {n : TraitName} (hnew : ∀ x ∈ items, x.1.parts ≠ n.parts) :
    t.lookup (base ++ n.parts) = none := by
  rcases he : t.lookup (base ++ n.parts) with _ | e
  · rfl
  · cases (hs.below _ e n.parts_ne_nil).1 he with
    | @folder x _ hx => exact absurd hx (n.not_prefix_modules x.1)
    | @file x hx hp => exact absurd hp.symm (hnew x hx)

section
variable {n : TraitName} {text : Text} {t' : FileTree} (hm : Made base n.modules t t')
include hm

include hb in
/-- A new file and its folders change nothing outside. -/
theorem lookup_outside {l : Location} (hl : ¬ Below base l) (e : Entry) :
    (t'.put (base ++ n.parts) e).lookup l = t₀.lookup l := by
  have hbelow : Below base (base ++ n.parts) := ⟨_, n.parts_ne_nil, rfl⟩
  have hne : l ≠ base ++ n.parts := by
    rintro rfl
    exact hl hbelow
  rw [lookup_put t' hbelow.ne_nil, if_neg hne]
  by_cases hlb : l = base
  · have := hm.folders [] List.nil_prefix
    rw [List.append_nil] at this
    rw [hlb, this, hb.self]
  · rw [hm.others l ?_, hs.outside l hl]
    rintro p - rfl
    refine hl ⟨p, ?_, rfl⟩
    rintro rfl
    exact hlb (List.append_nil base)

/-- What is below the base once the folders of a data file have been made. -/
theorem lookup_made {rel : List Text} (hr : rel ≠ []) (e : Entry) :
    t'.lookup (base ++ rel) = some e ↔ Shelved items rel e ∨ rel <+: n.modules ∧ e = .folder := by
  by_cases hmod : rel <+: n.modules
  · -- A folder that is on the way: it may have been there before.
    rw [hm.folders rel hmod, Option.some.injEq]
    constructor
    · intro he
      exact .inr ⟨hmod, he.symm⟩
    · rintro (h | ⟨-, h⟩)
      · cases h with
        | folder => rfl
        | @file x _ hx =>
          rw [hx] at hmod
          exact absurd hmod (x.1.not_prefix_modules n)
      · exact h.symm
  · have hother : ∀ p, p <+: n.modules → base ++ rel ≠ base ++ p := by
      intro p hpre he
      rw [← List.append_cancel_left he] at hpre
      exact hmod hpre
    rw [hm.others _ hother, hs.below rel e hr]
    constructor
    · exact .inl
    · rintro (h | ⟨h, -⟩)
      · exact h
      · exact absurd h hmod

include hb in
/-- With its folders made, a new file completes a shelf with one more data file. -/
theorem put_file (hnew : ∀ x ∈ items, x.1.parts ≠ n.parts) :
    Shelf base t₀ (t'.put (base ++ n.parts) (.file (text.flatMap Utf8.bytes)))
      (items ++ [(n, text)]) := by
  have hne : base ++ n.parts ≠ [] := Below.ne_nil ⟨_, n.parts_ne_nil, rfl⟩
  refine ⟨fun l hl => hs.lookup_outside hb hm hl _, (hm.tidy hs.tidy).put hne, fun rel e hr => ?_⟩
  rw [lookup_put t' hne, shelved_concat]
  by_cases hp : rel = n.parts
  · subst hp
    have hold : ¬ Shelved items n.parts e := by
      intro h
      have := (hs.below _ e hr).2 h
      rw [hs.lookup_new hnew] at this
      cases this
    rw [if_pos rfl, Option.some.injEq]
    constructor
    · intro he
      exact .inr (.inr ⟨rfl, he.symm⟩)
    · rintro (h | ⟨h, -⟩ | ⟨-, h⟩)
      · exact absurd h hold
      · exact absurd h (n.not_prefix_modules n)
      · exact h.symm
  · have hother : ¬ base ++ rel = base ++ n.parts := fun he => hp (List.append_cancel_left he)
    rw [if_neg hother, hs.lookup_made hm hr]
    refine or_congr_right ⟨.inl, ?_⟩
    rintro (h | ⟨h, -⟩)
    · exact h
    · exact absurd h hp

end

include hb in
/-- Writing one more data file puts it on the shelf, unless its folders are too many. -/
theorem write_new (pattern : Text) (codecs : Text → Option Codec) {n : TraitName} {text : Text}
    (hl : FitPath (base ++ n.parts)) (hdepth : n.modules.length ≤ folderLimit) (ht : text.Scalar)
    (hnew : ∀ x ∈ items, x.1.parts ≠ n.parts) :
    ∃ t', Store.write ⟨.top, base, pattern, Store.defaultEncoding, codecs⟩ t n.place text =
        (t', .ok n.place) ∧ Shelf base t₀ t' (items ++ [(n, text)]) := by
  have hparts : base ++ n.parts = base ++ n.modules ++ [n.file] := by
    rw [TraitName.parts, List.append_assoc]
  have hlm := hl
  rw [hparts] at hlm
  obtain ⟨t', ht', hm⟩ := makeFolders_made (hs.foldersBase hb) hlm.left (hs.clear_modules hb n) hdepth
  have hfree : t'.lookup (base ++ n.parts) = none := by
    rw [hm.others _ ?_]
    · exact hs.lookup_new hnew
    · intro p hp he
      rw [← List.append_cancel_left he] at hp
      exact n.not_prefix_modules n hp
  have hw : t'.writeLocation (base ++ n.parts) = .ok (base ++ n.parts) := by
    rw [hparts] at hfree ⊢
    exact writeLocation_new hlm (hm.foldersAt (hs.foldersBase hb)) hfree
  refine ⟨t'.put (base ++ n.parts) (.file (text.flatMap Utf8.bytes)), ?_, ?_⟩
  · have hd : (base ++ n.parts).dropLast = base ++ n.modules := by
      rw [hparts, List.dropLast_concat]
    have hp : Store.pathFromBase ⟨.top, base, pattern, Store.defaultEncoding, codecs⟩
        (base ++ n.parts) = n.place := by
      have : n.parts.isEmpty = false := by simpa using n.parts_ne_nil
      simp [Store.pathFromBase, PathName.render, this, TraitName.place]
    simp only [Store.write, hs.target_place hb pattern _ codecs hl, hd, ht', checkEncodingName_default,
      Store.fill, hw, Store.codec, findCodec_default, encode_codec_utf8 ht, hp]
  · exact hs.put_file hb hm hnew

include hb in
/-- Where there are no data files yet, one with too many folders is refused. -/
theorem write_tooDeep (hnone : items = []) (pattern encoding text : Text)
    (codecs : Text → Option Codec) {n : TraitName} (hl : FitPath (base ++ n.parts))
    (hdepth : folderLimit < n.modules.length) :
    Store.write ⟨.top, base, pattern, encoding, codecs⟩ t n.place text =
      (t, .error (.system .tooDeep)) := by
  have hparts : base ++ n.parts = base ++ n.modules ++ [n.file] := by
    rw [TraitName.parts, List.append_assoc]
  have hlm := hl
  rw [hparts] at hlm
  obtain ⟨m, ms, hms⟩ : ∃ m ms, n.modules = m :: ms :=
    List.exists_cons_of_length_pos (Nat.zero_lt_of_lt hdepth)
  have hfit := hlm.left
  rw [hms] at hfit hdepth
  have hfirst : t.lookup (base ++ [m]) = none := by
    rcases he : t.lookup (base ++ [m]) with _ | e
    · rfl
    · subst hnone
      cases (hs.below [m] e (by simp)).1 he with
      | folder hx => cases hx
      | file hx => cases hx
  have hmake : t.makeFolders (base ++ n.modules) = (t, .error .tooDeep) := by
    rw [makeFolders, hms]
    exact makeFoldersUp_tooDeep (hs.foldersBase hb) hfirst hfit (Nat.le_of_lt_succ hdepth)
  have hd : (base ++ n.parts).dropLast = base ++ n.modules := by
    rw [hparts, List.dropLast_concat]
  simp only [Store.write, hs.target_place hb pattern encoding codecs hl, hd, hmake]

/-! ## Reading -/

include hb in
/-- The folders of a data file that is there are there. -/
theorem folders_modules {x : Item} (hx : x ∈ items) : t.Folders (base ++ x.1.modules) := by
  refine (hs.foldersBase hb).append fun p hp => ?_
  by_cases hne : p = []
  · rw [hne, List.append_nil]
    exact (hs.foldersBase hb).self
  · exact (hs.below p _ hne).2 (.folder hx hp)

include hb in
/-- The text of a data file that is there is read back. -/
theorem read_item (pattern : Text) (codecs : Text → Option Codec) {x : Item} (hx : x ∈ items)
    (hl : FitPath (base ++ x.1.parts)) (ht : x.2.Scalar) (hr : .scalar '\r' ∉ x.2) :
    Store.read ⟨.top, base, pattern, Store.defaultEncoding, codecs⟩ t x.1.place = .ok x.2 := by
  have he := (hs.below _ _ x.1.parts_ne_nil).2 (.file hx rfl)
  have hf : t.fileAt? (base ++ x.1.parts) = .ok (some (x.2.flatMap Utf8.bytes)) := by
    rw [TraitName.parts, ← List.append_assoc] at hl he ⊢
    exact fileAt?_eq hl (hs.folders_modules hb hx) he
  rw [Store.read, hs.target_place hb pattern _ codecs hl]
  simp only [bind, Except.bind, hf, FileFault.ofWalk, Except.mapError]
  exact readText_utf8 codecs ht hr

end Shelf

end TraitCatalog
