/-
  What a write that fails leaves behind.

  A write makes the missing folders above a file, opens the file, and only then looks for the
  encoding of the store and writes the text in it.  If it fails before the file is opened, all that
  was there is there still.  If it fails afterwards, the file has been emptied.

  * `FoldersAdded t t'`: `t'` has all that `t` has, and nothing new but folders;
  * `walkPath_ends`: a walk ends at a location without links, also when it is about to create a
    file, so that what is opened is a file or is missing (`writeLocation_ok`);
  * `Store.OpensToWrite`: the write comes as far as opening a file;
  * `Store.failed_write_keeps`: what is kept, whatever the tree, the path and the text.
-/
import TraitCatalog.Proofs.Files.WriteFrame

namespace TraitCatalog

open Text (lit)

namespace FileTree

variable {t t' t'' : FileTree} {l : Location}

/-! ## Folders that are made -/

/-- All that is in `t` is in `t'`, and what is new in `t'` are folders. -/
def FoldersAdded (t t' : FileTree) : Prop :=
  ∀ x, t'.lookup x = t.lookup x ∨ t.lookup x = none ∧ t'.lookup x = some .folder

namespace FoldersAdded

theorem refl : FoldersAdded t t := fun _ => .inl rfl

theorem trans (h : FoldersAdded t t') (h' : FoldersAdded t' t'') : FoldersAdded t t'' := by
  intro x
  rcases h' x with he' | ⟨hn', hf'⟩
  · rw [he']
    exact h x
  · rcases h x with he | ⟨-, hf⟩
    · exact .inr ⟨he.symm.trans hn', hf'⟩
    · rw [hn'] at hf
      cases hf

theorem put {x : Location} (hn : t.lookup x = none) : FoldersAdded t (t.put x .folder) := by
  have hx : x ≠ [] := by
    rintro rfl
    cases hn
  intro y
  rw [lookup_put t hx]
  by_cases hy : y = x
  · rw [hy, if_pos rfl]
    exact .inr ⟨hn, rfl⟩
  · rw [if_neg hy]
    exact .inl rfl

theorem file_or_missing {x : Location} (h : FoldersAdded t t')
    (hx : t'.lookup x = none ∨ ∃ old, t'.lookup x = some (.file old)) :
    t.lookup x = none ∨ ∃ old, t.lookup x = some (.file old) := by
  rcases h x with hs | ⟨hn, -⟩
  · rwa [hs] at hx
  · exact .inl hn

end FoldersAdded

/-- Making folders takes nothing away, also when it fails. -/
theorem foldersAdded_makeFolders (t : FileTree) (parts : List Text) :
    FoldersAdded t (t.makeFolders parts).1 := by
  refine makeFolders_keeps .refl fun _ hadded hm => ?_
  obtain ⟨above, -, -, hn, rfl⟩ := makeFolder_eq_ok hm
  exact hadded.trans (.put hn)

/-! ## The file that is opened -/

/-- A walk that ends has followed every link, if it does so for the targets of links. -/
theorem walkWith_ends {create : Bool} {follow : Location → List Text → Except WalkFault Location}
    (hfollow : ∀ start parts l, t.LinkFree start → follow start parts = .ok l → t.LinkFree l) :
    ∀ {parts : List Text} {here l : Location}, t.LinkFree here →
    walkWith t create follow here parts = .ok l → t.LinkFree l
  | [], here, l, hh, h => by
    rw [walkWith, Except.ok.injEq] at h
    rw [← h]
    exact hh
  | part :: rest, here, l, hh, h => by
    rw [walkWith] at h
    rcases hf : t.lookup here with _ | ⟨_ | _ | _⟩ <;> rw [hf] at h
    · cases h
    · cases h
    · dsimp only at h
      by_cases hstay : (part.isEmpty || part == lit ".") = true
      · rw [if_pos hstay] at h
        exact walkWith_ends hfollow hh h
      rw [if_neg hstay] at h
      by_cases hup : (part == lit "..") = true
      · rw [if_pos hup] at h
        exact walkWith_ends hfollow (hh.higher (List.dropLast_prefix here)) h
      rw [if_neg hup] at h
      have hn : PlainName part := plainName_of_tests hstay hup
      split at h
      · cases h
      rcases he : t.lookup (here ++ [part]) with _ | ⟨_ | _ | target⟩ <;> simp only [he] at h
      · split at h
        · rw [← Except.ok.inj h]
          exact hh.snoc hn fun target => by simp [he]
        · cases h
      · exact walkWith_ends hfollow (hh.snoc hn fun target => by simp [he]) h
      · exact walkWith_ends hfollow (hh.snoc hn fun target => by simp [he]) h
      · exact hfollow _ _ _ (hh.linkStart target) h
    · cases h

theorem walkFrom_ends {create : Bool} : ∀ {links : Nat} {here l : Location} {parts : List Text},
    t.LinkFree here → t.walkFrom create links here parts = .ok l → t.LinkFree l := by
  intro links
  induction links with
  | zero =>
    intro here l parts hh h
    exact walkWith_ends (fun _ _ _ _ h => by cases h) hh h
  | succ links ih =>
    intro here l parts hh h
    exact walkWith_ends (fun _ _ _ hs h => ih hs h) hh h

theorem walkPath_ends {create : Bool} {parts : List Text} (h : t.walkPath create parts = .ok l) :
    t.LinkFree l := by
  rw [walkPath] at h
  split_ifs at h
  exact walkFrom_ends (Along.top noLink_top) h

theorem writeLocation_ok {parts : List Text} {place : Location}
    (h : t.writeLocation parts = .ok place) :
    t.lookup place = none ∨ ∃ old, t.lookup place = some (.file old) := by
  rw [writeLocation] at h
  rcases hw : t.walkPath true parts with f | place' <;> rw [hw] at h
  · cases h
  · rcases he : t.lookup place' with _ | ⟨old | _ | target⟩ <;> simp only [he] at h
    · rw [← Except.ok.inj h]
      exact .inl he
    · rw [← Except.ok.inj h]
      exact .inr ⟨old, he⟩
    · cases h
    · exact absurd he ((walkPath_ends hw).each place' List.prefix_rfl target)

/-- The file at `place`, which may be new, is empty in `t'`; all else that is in `t` is there still,
    and what is new are folders. -/
structure Emptied (place : Location) (t t' : FileTree) : Prop where
  before : t.lookup place = none ∨ ∃ old, t.lookup place = some (.file old)
  after : t'.lookup place = some (.file [])
  others : ∀ x, x ≠ place →
    t'.lookup x = t.lookup x ∨ t.lookup x = none ∧ t'.lookup x = some .folder

theorem FoldersAdded.emptied {place : Location} (h : FoldersAdded t t')
    (hp : t'.lookup place = none ∨ ∃ old, t'.lookup place = some (.file old)) :
    Emptied place t (t'.put place (.file [])) := by
  have hne : place ≠ [] := by
    rintro rfl
    rcases hp with he | ⟨old, he⟩ <;> cases he
  refine ⟨h.file_or_missing hp, ?_, fun x hx => ?_⟩
  · rw [lookup_put t' hne, if_pos rfl]
  · rw [lookup_put t' hne, if_neg hx]
    exact h x

end FileTree

/-! ## Writing -/

/-- A text cannot be written in the encoding of a store: nothing has its name, or the encoding does
    not have all of the text. -/
inductive CannotEncode (s : Store) (text : Text) : FileFault → Prop
  | unknown {f : FileFault} : s.codec = .error f → CannotEncode s text f
  | unfit {c : Codec} {f : FileFault} : s.codec = .ok c → c.encode text = .error f →
      CannotEncode s text f

namespace Store

open FileTree

variable {s : Store} {t made : FileTree} {path text : Text} {l place : Location}

/-- A write by the path, which stands for `l`, comes as far as opening the file at `place`.  The
    folders above it have been made, which gives the tree `made`. -/
structure OpensToWrite (s : Store) (t : FileTree) (path : Text) (l : Location) (made : FileTree)
    (place : Location) : Prop where
  target : s.target t path = .ok l
  folders : t.makeFolders l.dropLast = (made, .ok ())
  name : checkEncodingName s.encoding = .ok ()
  opens : made.writeLocation l = .ok place

theorem OpensToWrite.unique {l' : Location} {made' : FileTree} {place' : Location}
    (h : s.OpensToWrite t path l made place) (h' : s.OpensToWrite t path l' made' place') :
    place = place' := by
  obtain rfl : l = l' := Except.ok.inj (h.target.symm.trans h'.target)
  obtain rfl : made = made' := congrArg Prod.fst (h.folders.symm.trans h'.folders)
  exact Except.ok.inj (h.opens.symm.trans h'.opens)

/-- Before the file is open, nothing is done but that folders are made. -/
theorem write_unopened (text : Text) (h : ∀ l made place, ¬ s.OpensToWrite t path l made place) :
    FoldersAdded t (s.write t path text).1 ∧ ∃ f, (s.write t path text).2 = .error f := by
  rw [write]
  rcases hl : s.target t path with f | l
  · exact ⟨.refl, f, rfl⟩
  dsimp only
  have hmade := foldersAdded_makeFolders t l.dropLast
  rcases hm : t.makeFolders l.dropLast with ⟨made, f | _⟩ <;> rw [hm] at hmade
  · exact ⟨hmade, _, rfl⟩
  dsimp only
  rcases hc : checkEncodingName s.encoding with f | _
  · exact ⟨hmade, f, rfl⟩
  dsimp only
  rw [fill]
  rcases hw : made.writeLocation l with f | place
  · exact ⟨hmade, _, rfl⟩
  · exact absurd ⟨hl, hm, hc, hw⟩ (h l made place)

/-- Once the file is open, the text is written to it, or the file is left empty. -/
theorem write_opened (h : s.OpensToWrite t path l made place) (text : Text) :
    (∃ c content, s.codec = .ok c ∧ c.encode text = .ok content ∧
      s.write t path text = (made.put place (.file content), .ok (s.pathFromBase l))) ∨
    ∃ f, CannotEncode s text f ∧
      s.write t path text = (made.put place (.file []), .error f) := by
  rw [write, h.target]
  dsimp only
  rw [h.folders]
  dsimp only
  rw [h.name]
  dsimp only
  rw [fill, h.opens]
  dsimp only
  rcases hf : s.codec with f | c
  · exact .inr ⟨f, .unknown hf, rfl⟩
  · dsimp only
    rcases he : c.encode text with f | content
    · exact .inr ⟨f, .unfit hf he, rfl⟩
    · exact .inl ⟨c, content, rfl, he, rfl⟩

/-- **A write that fails takes nothing away but the content of the file that it has opened.**  If
    it fails before that, all that was there is there still, and what is new are folders.  It fails
    after that only if the text cannot be written in the encoding of the store, and then the file is
    left empty and all else is kept. -/
theorem failed_write_keeps (s : Store) (t : FileTree) (path text : Text) (f : FileFault)
    (h : (s.write t path text).2 = .error f) :
    (∀ l made place, ¬ s.OpensToWrite t path l made place) ∧
      FoldersAdded t (s.write t path text).1 ∨
    ∃ l made place, s.OpensToWrite t path l made place ∧ CannotEncode s text f ∧
      Emptied place t (s.write t path text).1 := by
  by_cases hopen : ∃ l made place, s.OpensToWrite t path l made place
  · right
    obtain ⟨l, made, place, hopen⟩ := hopen
    rcases write_opened hopen text with ⟨c, content, -, -, hw⟩ | ⟨f', hf, hw⟩
    · rw [hw] at h
      cases h
    · rw [hw] at h ⊢
      obtain rfl := Except.error.inj h
      have hmade := foldersAdded_makeFolders t l.dropLast
      rw [hopen.folders] at hmade
      exact ⟨l, made, place, hopen, hf, hmade.emptied (writeLocation_ok hopen.opens)⟩
  · left
    have hno : ∀ l made place, ¬ s.OpensToWrite t path l made place :=
      fun l made place ho => hopen ⟨l, made, place, ho⟩
    exact ⟨hno, (write_unopened text hno).1⟩

/-- A root with a data file. -/
def oneFileTree : FileTree :=
  ⟨[([lit "root"], .folder), ([lit "root", lit "trait.A.js"], .file [0x6F, 0x6C, 0x64])]⟩

/-- A store that writes ASCII. -/
def asciiStore : Store :=
  ⟨.top, [lit "root"], defaultPattern, lit "ascii", fun _ => none⟩

/-- A file in place of a folder is found before a file is opened, a letter outside of ASCII after
    that. -/
theorem failed_write_keeps_ascii :
    let below := asciiStore.write oneFileTree (lit "trait.A.js/trait.B.js") (lit "x")
    let accented := asciiStore.write oneFileTree (lit "new/trait.B.js") [.scalar 'é']
    below.2 = .error (.system .alreadyThere) ∧ FoldersAdded oneFileTree below.1 ∧
      accented.2.isOk = false ∧
      Emptied [lit "root", lit "new", lit "trait.B.js"] oneFileTree accented.1 := by
  intro below accented
  have hbelow : below.2 = .error (.system .alreadyThere) := by decide +kernel
  have haccented : accented.2 = .error (.unencodable
      ⟨lit "ascii", .scalar 'é', 0, 1, lit "ordinal not in range(128)"⟩ [.scalar 'é']) := by
    decide +kernel
  let made := oneFileTree.put [lit "root", lit "new"] .folder
  let place := [lit "root", lit "new", lit "trait.B.js"]
  have hopens : asciiStore.OpensToWrite oneFileTree (lit "new/trait.B.js") place made place :=
    ⟨by decide +kernel, by decide +kernel, by decide +kernel, by decide +kernel⟩
  refine ⟨hbelow, ?_, by rw [haccented]; rfl, ?_⟩
  · rcases failed_write_keeps asciiStore oneFileTree _ _ _ hbelow with ⟨-, h⟩ | ⟨-, -, -, -, hf, -⟩
    · exact h
    · obtain ⟨c, hc, hx⟩ : ∃ c, asciiStore.codec = .ok c ∧ c.encode (lit "x") = .ok [0x78] :=
        ⟨.of .ascii, rfl, rfl⟩
      cases hf with
      | unknown hf =>
        rw [hc] at hf
        cases hf
      | unfit hc' hf =>
        rw [← Except.ok.inj (hc.symm.trans hc'), hx] at hf
        cases hf
  · rcases failed_write_keeps asciiStore oneFileTree _ _ _ haccented with
      ⟨h, -⟩ | ⟨l', made', place', h, -, he⟩
    · exact absurd hopens (h place made place)
    · rw [h.unique hopens] at he
      exact he

/-- The text of a data file is gone after it could not be replaced. -/
theorem failed_write_empties :
    let w := asciiStore.write oneFileTree (lit "trait.A.js") [.scalar 'é']
    w.2 = .error (.unencodable
        ⟨lit "ascii", .scalar 'é', 0, 1, lit "ordinal not in range(128)"⟩ [.scalar 'é']) ∧
      w.1.lookup [lit "root", lit "trait.A.js"] = some (.file []) ∧
      ¬ ∀ x content, oneFileTree.lookup x = some (.file content) →
        w.1.lookup x = some (.file content) := by
  intro w
  have hafter : w.1.lookup [lit "root", lit "trait.A.js"] = some (.file []) := by decide +kernel
  refine ⟨by decide +kernel, hafter, fun hkept => ?_⟩
  have hold := hkept [lit "root", lit "trait.A.js"] [0x6F, 0x6C, 0x64] rfl
  rw [hafter] at hold
  cases hold

end Store

end TraitCatalog
