/-
  What writing a file changes.

  A write that resolves its path to a location without links touches nothing but the file at that
  location and the folders above it that were missing, however it ends.

  * `Confined l t t'`: the trees `t` and `t'` differ at most in that;
  * `walkPath_linkFree`: a walk along a location without links ends there, also when it is about to
    create a file;
  * `confined_makeFolders`, `Store.confined_fill`: the two steps of a write;
  * `Store.write_frame`: the whole of it.
-/
import TraitCatalog.Proofs.Files.Containment

namespace TraitCatalog

open Text (lit)

namespace FileTree

variable {t t' t'' : FileTree} {l : Location}

/-! ## Confined changes -/

/-- The trees differ at most in the file at `l`, which may be new, and in folders above `l` that are
    missing in `t`. -/
structure Confined (l : Location) (t t' : FileTree) : Prop where
  others : ∀ x, ¬ x <+: l → t'.lookup x = t.lookup x
  entries : ∀ x e, ¬ x <+: l → ((x, e) ∈ t'.entries ↔ (x, e) ∈ t.entries)
  above : ∀ x, x <+: l → x ≠ l →
    t'.lookup x = t.lookup x ∨ t.lookup x = none ∧ t'.lookup x = some .folder
  file : t'.lookup l = t.lookup l ∨
    (t.lookup l = none ∨ ∃ old, t.lookup l = some (.file old)) ∧ ∃ new, t'.lookup l = some (.file new)

namespace Confined

theorem refl : Confined l t t :=
  ⟨fun _ _ => rfl, fun _ _ _ => Iff.rfl, fun _ _ _ => .inl rfl, .inl rfl⟩

theorem trans (h : Confined l t t') (h' : Confined l t' t'') : Confined l t t'' := by
  refine ⟨fun x hx => (h'.others x hx).trans (h.others x hx),
    fun x e hx => (h'.entries x e hx).trans (h.entries x e hx), fun x hx hne => ?_, ?_⟩
  · rcases h'.above x hx hne with he' | ⟨hn', hf'⟩
    · rw [he']
      exact h.above x hx hne
    · rcases h.above x hx hne with he | ⟨-, hf⟩
      · exact .inr ⟨he.symm.trans hn', hf'⟩
      · rw [hn'] at hf
        cases hf
  · rcases h'.file with he' | ⟨hold', hnew'⟩
    · rw [he']
      exact h.file
    · rcases h.file with he | ⟨hold, -⟩
      · rw [he] at hold'
        exact .inr ⟨hold', hnew'⟩
      · exact .inr ⟨hold, hnew'⟩

/-- A missing folder above `l` is made. -/
theorem put_folder {x : Location} (hx : x <+: l) (hne : x ≠ l) (hn : t.lookup x = none) :
    Confined l t (t.put x .folder) := by
  have hx₀ : x ≠ [] := by
    rintro rfl
    cases hn
  refine ⟨fun y hy => ?_, fun y e hy => ?_, fun y _ _ => ?_, .inl ?_⟩
  · rw [lookup_put t hx₀, if_neg]
    rintro rfl
    exact hy hx
  · have hyx : y ≠ x := by
      rintro rfl
      exact hy hx
    simp [mem_entries_put, hyx]
  · rw [lookup_put t hx₀]
    by_cases hyx : y = x
    · rw [hyx, if_pos rfl]
      exact .inr ⟨hn, rfl⟩
    · rw [if_neg hyx]
      exact .inl rfl
  · rw [lookup_put t hx₀, if_neg hne.symm]

/-- The file at `l` is made or written. -/
theorem put_file (hold : t.lookup l = none ∨ ∃ old, t.lookup l = some (.file old))
    (new : List UInt8) : Confined l t (t.put l (.file new)) := by
  have hl : l ≠ [] := by
    rintro rfl
    rcases hold with h | ⟨old, h⟩ <;> cases h
  refine ⟨fun y hy => ?_, fun y e hy => ?_, fun y _ hne => .inl ?_, .inr ⟨hold, new, ?_⟩⟩
  · rw [lookup_put t hl, if_neg]
    rintro rfl
    exact hy List.prefix_rfl
  · have hyl : y ≠ l := by
      rintro rfl
      exact hy List.prefix_rfl
    simp [mem_entries_put, hyl]
  · rw [lookup_put t hl, if_neg hne]
  · rw [lookup_put t hl, if_pos rfl]

/-- No link comes onto the way to `l`. -/
theorem linkFree (h : Confined l t t') (hl : t.LinkFree l) : t'.LinkFree l := by
  refine ⟨hl.names, fun x hx target he => ?_⟩
  by_cases hne : x = l
  · subst hne
    rcases h.file with hs | ⟨-, new, hf⟩
    · exact hl.each x hx target (hs.symm.trans he)
    · rw [hf] at he
      cases he
  · rcases h.above x hx hne with hs | ⟨-, hf⟩
    · exact hl.each x hx target (hs.symm.trans he)
    · rw [hf] at he
      cases he

end Confined

/-! ## Walks that may create -/

theorem walkWith_noLink {create : Bool} {follow : Location → List Text → Except WalkFault Location} :
    ∀ {here place : Location} {parts : List Text}, (∀ p ∈ parts, PlainName p) →
    (∀ p, p <+: parts → t.NoLink (here ++ p)) →
    walkWith t create follow here parts = .ok place → place = here ++ parts
  | here, place, [], _, _, h => by
    rw [walkWith, Except.ok.injEq] at h
    rw [← h, List.append_nil]
  | here, place, part :: rest, hn, hl, h => by
    have hp := hn part (List.mem_cons_self ..)
    have hlp : t.NoLink (here ++ [part]) := hl [part] ⟨rest, rfl⟩
    have ih : walkWith t create follow (here ++ [part]) rest = .ok place →
        place = here ++ part :: rest := by
      intro hw
      rw [walkWith_noLink (fun p hm => hn p (List.mem_cons_of_mem _ hm)) (fun p hpre => ?_) hw,
        List.append_assoc, List.singleton_append]
      rw [List.append_assoc, List.singleton_append]
      exact hl (part :: p) (List.cons_prefix_cons.2 ⟨rfl, hpre⟩)
    simp only [walkWith, hp.not_stay, hp.not_up, Bool.false_eq_true, if_false] at h
    rcases hf : t.lookup here with _ | ⟨_ | _ | _⟩ <;> rw [hf] at h
    · cases h
    · cases h
    · dsimp only at h
      split at h
      · cases h
      rcases he : t.lookup (here ++ [part]) with _ | ⟨_ | _ | target⟩ <;> rw [he] at h
      · dsimp only at h
        split_ifs at h with hlast
        have hrest : rest = [] := by
          rw [Bool.and_eq_true] at hlast
          exact List.isEmpty_iff.1 hlast.2
        rw [hrest]
        exact (Except.ok.inj h).symm
      · exact ih h
      · exact ih h
      · exact absurd he (hlp target)
    · cases h

/-- A walk along a location without links ends there, if it ends. -/
theorem walkPath_linkFree {create : Bool} {place : Location} (hl : t.LinkFree l)
    (h : t.walkPath create l = .ok place) : place = l := by
  rw [walkPath] at h
  split_ifs at h
  exact walkWith_noLink hl.names hl.each h

/-! ## Making folders -/

theorem makeFolder_eq_ok {n : Text} (h : t.makeFolder (l ++ [n]) = .ok t') :
    ∃ above, t.walk l = .ok above ∧ t.lookup above = some .folder ∧
      t.lookup (above ++ [n]) = none ∧ t' = t.put (above ++ [n]) .folder := by
  simp only [makeFolder, List.getLast?_concat, List.dropLast_concat] at h
  split at h
  · cases h
  split at h
  · cases h
  rcases hw : t.walk l with f | above <;> rw [hw] at h
  · cases h
  · dsimp only at h
    split at h
    · next hf =>
      split at h
      · cases h
      split at h
      · next hn => exact ⟨above, rfl, hf, hn, (Except.ok.inj h).symm⟩
      · cases h
    · cases h

theorem makeFolder_linkFree {n : Text} (hl : t.LinkFree l) (h : t.makeFolder (l ++ [n]) = .ok t') :
    t.lookup (l ++ [n]) = none ∧ t' = t.put (l ++ [n]) .folder := by
  obtain ⟨above, hw, -, hn, ht⟩ := makeFolder_eq_ok h
  rw [walkPath_linkFree hl hw] at hn ht
  exact ⟨hn, ht⟩

/-- What holds of a tree and is kept when a folder is made holds after the folders on a path have
    been made, also when that fails. -/
theorem makeFoldersUp_keeps {P : FileTree → Prop} {room : Nat} {parts : List Text} (h : P t)
    (hstep : ∀ {up n t₁ t₂}, up ++ [n] <+: parts → P t₁ → t₁.makeFolder (up ++ [n]) = .ok t₂ → P t₂) :
    P (t.makeFoldersUp room parts.reverse).1 := by
  induction parts using List.reverseRecOn generalizing room with
  | nil => cases room <;> exact h
  | append_singleton up n ih =>
    cases room with
    | zero =>
      rw [makeFoldersUp_zero]
      exact h
    | succ room =>
      have hlast : ∀ {t₁ t₂}, P t₁ → t₁.makeFolder (up ++ [n]) = .ok t₂ → P t₂ := hstep List.prefix_rfl
      have ih' := @ih room fun hpre => hstep (hpre.trans (List.prefix_append up [n]))
      rw [makeFoldersUp_snoc]
      -- The folder can be made at once, or after those above it, or not at all.
      split
      · next hm => exact hlast h hm
      · rcases hx : t.makeFoldersUp room up.reverse with ⟨t₁, f | _⟩ <;> rw [hx] at ih'
        · exact ih'
        · dsimp only
          split
          · next hm => exact hlast ih' hm
          · exact ih'
      · exact h

theorem makeFolders_keeps {P : FileTree → Prop} {parts : List Text} (h : P t)
    (hstep : ∀ {up n t₁ t₂}, up ++ [n] <+: parts → P t₁ → t₁.makeFolder (up ++ [n]) = .ok t₂ → P t₂) :
    P (t.makeFolders parts).1 :=
  makeFoldersUp_keeps h hstep

/-- Making the folders above a location without links is confined, also when it fails. -/
theorem confined_makeFolders {up : Location} (hl : t.LinkFree l) (hup : up <+: l) (hne : up ≠ l) :
    Confined l t (t.makeFolders up).1 := by
  refine makeFolders_keeps .refl fun {up' n t₁ t₂} hpre hc hm => ?_
  have hpre' : up' ++ [n] <+: l := hpre.trans hup
  have hl₁ := (hc.linkFree hl).higher ((List.prefix_append up' [n]).trans hpre')
  obtain ⟨hn, rfl⟩ := makeFolder_linkFree hl₁ hm
  refine hc.trans (.put_folder hpre' (fun heq => ?_) hn)
  rw [heq] at hpre
  exact hne (hup.eq_of_length_le hpre.length_le)

theorem confined_makeFolders_above (hl : t.LinkFree l) :
    Confined l t (t.makeFolders l.dropLast).1 := by
  rcases List.eq_nil_or_concat' l with rfl | ⟨up, n, rfl⟩
  · exact .refl
  · rw [List.dropLast_concat]
    exact confined_makeFolders hl (List.prefix_append up [n]) (by simp)

end FileTree

/-! ## Writing -/

namespace Store

open FileTree

variable {s : Store} {t : FileTree} {l : Location} {path text : Text}

theorem writeLocation_linkFree {place : Location} (hl : t.LinkFree l)
    (h : t.writeLocation l = .ok place) :
    place = l ∧ (t.lookup l = none ∨ ∃ old, t.lookup l = some (.file old)) := by
  rw [writeLocation] at h
  rcases hw : t.walkPath true l with f | place' <;> rw [hw] at h
  · cases h
  · obtain rfl := walkPath_linkFree hl hw
    rcases he : t.lookup place' with _ | ⟨old | _ | target⟩ <;> simp only [he] at h
    · exact ⟨(Except.ok.inj h).symm, .inl rfl⟩
    · exact ⟨(Except.ok.inj h).symm, .inr ⟨old, rfl⟩⟩
    · cases h
    · exact absurd he (hl.each place' List.prefix_rfl target)

theorem confined_fill (hl : t.LinkFree l) : Confined l t (s.fill t l text).1 := by
  rw [fill]
  rcases hw : t.writeLocation l with f | place
  · exact .refl
  · obtain ⟨rfl, hold⟩ := writeLocation_linkFree hl hw
    dsimp only
    rcases s.codec with f | c
    · exact .put_file hold []
    · dsimp only
      rcases c.encode text with f | content
      · exact .put_file hold []
      · exact .put_file hold content

theorem fill_ok (hl : t.LinkFree l) (h : (s.fill t l text).2 = .ok ()) :
    ∃ c content, s.codec = .ok c ∧ c.encode text = .ok content ∧
      (s.fill t l text).1.lookup l = some (.file content) := by
  rw [fill] at h ⊢
  rcases hw : t.writeLocation l with f | place <;> rw [hw] at h
  · cases h
  · obtain ⟨rfl, hold⟩ := writeLocation_linkFree hl hw
    have hne : place ≠ [] := by
      rintro rfl
      rcases hold with he | ⟨old, he⟩ <;> cases he
    dsimp only at h ⊢
    rcases hf : s.codec with f | c <;> rw [hf] at h
    · cases h
    · dsimp only at h ⊢
      rcases he : c.encode text with f | content <;> rw [he] at h
      · cases h
      · exact ⟨c, content, rfl, he, by rw [lookup_put t hne, if_pos rfl]⟩

/-- What a path resolves to for a store. -/
def resolved (s : Store) (t : FileTree) (path : Text) : Except ResolveFault PathName :=
  t.resolve ((PathName.parse path).partsFrom s.base)

/-- Why a path that resolves to `p` is refused. -/
def refusal (path : Text) (p : PathName) : FileFault :=
  if p.parts.all (·.all CodePoint.isNameable) then .escapes path else .ofPath p.render

/-- A path without links that files can have is the target of a write, unless it leads out of the
    base; any other is refused. -/
theorem target_linkFree {p : PathName} (hp : s.resolved t path = .ok p) (hl : t.LinkFree p.parts) :
    (p.parts.all (·.all CodePoint.isNameable) = true → s.Holds p → s.target t path = .ok p.parts) ∧
    (¬ (p.parts.all (·.all CodePoint.isNameable) = true ∧ s.Holds p) →
      s.target t path = .error (refusal path p)) := by
  by_cases hc : p.parts.all (·.all CodePoint.isNameable) = true
  · have hloc := locate_eq hp hl.names hc hl.each
    constructor
    · exact fun _ hin => target_eq_ok.2 ⟨p, hloc, hin, rfl⟩
    · intro hout
      rw [refusal, if_pos hc]
      exact target_escapes hloc fun hin => hout ⟨hc, hin⟩
  · refine ⟨fun h => absurd h hc, fun _ => ?_⟩
    have hw : t.walk p.parts = .error .unnameable := by
      rw [Bool.not_eq_true] at hc
      rw [walk, walkPath, hc]
      rfl
    have hres : t.resolve ((PathName.parse path).partsFrom s.base) = .ok p := hp
    rw [target, locate, hres, refusal, if_neg hc]
    dsimp only
    rw [hw]
    rfl

/-- What a write may do to a tree when its path resolves to `p`. -/
structure WriteFrame (s : Store) (t : FileTree) (path text : Text) (p : PathName)
    (w : FileTree × Except FileFault Text) : Prop where
  /-- Outside the base nothing changes but that folders above the location may be new. -/
  outside : ∀ x, ¬ s.base <+: x → w.1.lookup x = t.lookup x ∨
    (x <+: p.parts ∧ x ≠ p.parts) ∧ t.lookup x = none ∧ w.1.lookup x = some .folder
  /-- Neither does anything change below the base but the location and folders above it. -/
  confined : Confined p.parts t w.1
  /-- A path that resolves to the outside is refused, and nothing is changed. -/
  refused : ¬ s.Holds p → w.1 = t ∧ w.2 = .error (refusal path p)
  /-- After a write that returns the file at the location holds the text. -/
  written : ∀ rel, w.2 = .ok rel → s.Holds p ∧ ∃ c content, s.codec = .ok c ∧
    c.encode text = .ok content ∧ w.1.lookup p.parts = some (.file content)

/-- For a path that resolves to a location at or below the base, the frame comes down to that
    location. -/
theorem WriteFrame.of_confined {p : PathName} {w : FileTree × Except FileFault Text}
    (hin : s.Holds p) (hc : Confined p.parts t w.1)
    (hw : ∀ rel, w.2 = .ok rel → ∃ c content, s.codec = .ok c ∧ c.encode text = .ok content ∧
      w.1.lookup p.parts = some (.file content)) :
    WriteFrame s t path text p w := by
  refine ⟨fun x hx => ?_, hc, fun h => absurd hin h, fun rel hr => ⟨hin, hw rel hr⟩⟩
  by_cases hpre : x <+: p.parts
  · have hne : x ≠ p.parts := by
      rintro rfl
      exact hx hin.2
    exact (hc.above x hpre hne).imp_right fun h => ⟨⟨hpre, hne⟩, h⟩
  · exact .inl (hc.others x hpre)

/-- A write fails before it comes to the file, or ends as the filling of the file does. -/
theorem write_cases (ht : s.target t path = .ok l) :
    (s.write t path text).1 = (t.makeFolders l.dropLast).1 ∧ (∃ f, (s.write t path text).2 = .error f) ∨
    s.write t path text = ((s.fill (t.makeFolders l.dropLast).1 l text).1,
      (s.fill (t.makeFolders l.dropLast).1 l text).2.map fun _ => s.pathFromBase l) := by
  rw [write, ht]
  dsimp only
  rcases t.makeFolders l.dropLast with ⟨t₁, f | _⟩
  · exact .inl ⟨rfl, _, rfl⟩
  · dsimp only
    rcases checkEncodingName s.encoding with f | _
    · exact .inl ⟨rfl, f, rfl⟩
    · dsimp only
      rcases s.fill t₁ l text with ⟨t₂, f | _⟩
      · exact .inr rfl
      · exact .inr rfl

section
variable (hl : t.LinkFree l) (ht : s.target t path = .ok l)
include hl ht

theorem confined_write : Confined l t (s.write t path text).1 := by
  have hm := confined_makeFolders_above hl
  rcases @write_cases s t l path text ht with ⟨hw, -⟩ | hw
  · rw [hw]
    exact hm
  · rw [hw]
    exact hm.trans (confined_fill (hm.linkFree hl))

theorem write_ok {rel : Text} (h : (s.write t path text).2 = .ok rel) : ∃ c content,
    s.codec = .ok c ∧ c.encode text = .ok content ∧
    (s.write t path text).1.lookup l = some (.file content) := by
  have hm := confined_makeFolders_above hl
  rcases @write_cases s t l path text ht with ⟨-, f, hw⟩ | hw
  · rw [hw] at h
    cases h
  · rw [hw] at h ⊢
    rcases hf : (s.fill (t.makeFolders l.dropLast).1 l text).2 with f | _ <;> rw [hf] at h
    · cases h
    · exact fill_ok (hm.linkFree hl) hf

end

/-- **A write changes nothing but the file that its path resolves to and missing folders above
    it**, whether it returns or fails, if the path resolves to a location without links.  A path
    that resolves to the outside of the base is refused and changes nothing. -/
theorem write_frame (s : Store) (t : FileTree) (path text : Text) (p : PathName)
    (hp : s.resolved t path = .ok p) (hl : t.LinkFree p.parts) :
    WriteFrame s t path text p (s.write t path text) := by
  obtain ⟨haccepted, hrefused⟩ := target_linkFree hp hl
  by_cases hin : p.parts.all (·.all CodePoint.isNameable) = true ∧ s.Holds p
  · have ht := haccepted hin.1 hin.2
    exact .of_confined hin.2 (confined_write hl ht) fun _ h => write_ok hl ht h
  · -- The path is refused before anything is changed.
    have hw : s.write t path text = (t, .error (refusal path p)) := by rw [write, hrefused hin]
    rw [hw]
    exact ⟨fun _ _ => .inl rfl, .refl, fun _ => ⟨rfl, rfl⟩, fun _ h => by cases h⟩

/-- A root with a folder, and a link to that folder. -/
def aliasTree : FileTree :=
  ⟨[([lit "outside.js"], .file [0x6F]), ([lit "root"], .folder), ([lit "root", lit "core"], .folder),
    ([lit "root", lit "alias"], .link (lit "core"))]⟩

theorem write_frame_alias :
    let s : Store := ⟨.top, [lit "root"], Store.defaultPattern, Store.defaultEncoding, fun _ => none⟩
    let path := lit "alias/ops/trait.Mul.js"
    let p : PathName := ⟨.top, [lit "root", lit "core", lit "ops", lit "trait.Mul.js"]⟩
    s.resolved aliasTree path = .ok p ∧ aliasTree.LinkFree p.parts ∧
      Confined p.parts aliasTree (s.write aliasTree path (lit "x")).1 ∧
      (s.write aliasTree path (lit "x")).2 = .ok (lit "core/ops/trait.Mul.js") ∧
      (s.write aliasTree path (lit "x")).1.lookup p.parts = some (.file [0x78]) := by
  intro s path p
  have hdone : aliasTree.resolveFrom folderLimit [] [] ((PathName.parse path).partsFrom s.base) =
      .done p.parts := by rfl
  have hres : s.resolved aliasTree path = .ok p := by rw [resolved, resolve, hdone]
  have hfit : FitPath p.parts := ⟨by decide +kernel, by decide +kernel⟩
  have hl : aliasTree.LinkFree p.parts :=
    (resolveFrom_settled (Along.top noLink_top.readableLink?) hdone).linkFree hfit
  have hw := write_frame s aliasTree path (lit "x") p hres hl
  exact ⟨hres, hl, hw.confined, by decide +kernel, by decide +kernel⟩

end Store

end TraitCatalog
