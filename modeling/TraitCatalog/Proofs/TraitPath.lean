/-
  Trait paths made of identifiers, and the places of their data files.

  A `TraitName` has module names and a name, all of them identifiers.  Identifiers hold
  neither colons nor slashes nor dots (`WordText.notMem`), so whatever is joined from them can be
  taken apart again.

  * `TraitName.placeOf_path` and `TraitName.traitPathAt_place`: `placeOf` and `traitPathAt`
    are inverse to each other on such paths;
  * `PathName.parse_join` and `TraitName.parse_place`: the parts of a place, seen as a path name.
-/
import TraitCatalog.Files.PathName
import TraitCatalog.Proofs.Text.Cuts
import TraitCatalog.TraitPath

namespace TraitCatalog

open Text (lit)

/-! ## Words -/

/-- A text of ASCII letters, digits and underscores. -/
def WordText (t : Text) : Prop :=
  ∀ c ∈ t, c.isWord = true

theorem word_of_isIdentifier {t : Text} (h : isIdentifier t = true) : t ≠ [] ∧ WordText t := by
  cases t with
  | nil => cases h
  | cons c t =>
    simp only [isIdentifier, Bool.and_eq_true, List.all_eq_true] at h
    refine ⟨List.cons_ne_nil _ _, ?_⟩
    intro d hd
    rcases List.mem_cons.1 hd with rfl | hd
    · exact h.1.1
    · exact h.2 d hd

theorem WordText.notMem {t : Text} (h : WordText t) {c : CodePoint} (hc : c.isWord = false) : c ∉ t := by
  intro hm
  rw [h c hm] at hc
  cases hc

theorem dropFinalNewline_eq {t : Text} (h : .scalar '\n' ∉ t) : dropFinalNewline t = t := by
  rw [dropFinalNewline]
  rcases hd : Text.dropTail? (lit "\n") t with _ | r
  · rfl
  · rw [Text.dropTail?_eq_some.1 hd] at h
    exact absurd (List.mem_append_right r (List.mem_singleton_self _)) h

theorem isModuleSegment_of_isIdentifier {t : Text} (h : isIdentifier t = true) :
    isModuleSegment t = true := by
  rw [isModuleSegment, dropFinalNewline_eq ((word_of_isIdentifier h).2.notMem (by decide))]
  exact h

/-- A name on the path of a data file: it begins with a letter, a digit or an underscore, and
    holds nothing but these and dots. -/
def PartName (p : Text) : Prop :=
  ∃ c t, p = c :: t ∧ c.isWord = true ∧ ∀ d ∈ t, d.isWord = true ∨ d = .scalar '.'

namespace PartName

variable {p : Text}

theorem of_isIdentifier (h : isIdentifier p = true) : PartName p := by
  obtain ⟨hne, hw⟩ := word_of_isIdentifier h
  cases p with
  | nil => exact absurd rfl hne
  | cons c t =>
    exact ⟨c, t, rfl, hw c (List.mem_cons_self ..), fun d hd => .inl (hw d (List.mem_cons_of_mem _ hd))⟩

theorem notMem (h : PartName p) {c : CodePoint} (hw : c.isWord = false) (hd : c ≠ .scalar '.') :
    c ∉ p := by
  obtain ⟨d, t, rfl, hdw, ht⟩ := h
  intro hc
  rcases List.mem_cons.1 hc with rfl | hc
  · rw [hdw] at hw
    cases hw
  · rcases ht c hc with h | h
    · rw [h] at hw
      cases hw
    · exact hd h

theorem ne_nil (h : PartName p) : p ≠ [] := by
  obtain ⟨c, t, rfl, -, -⟩ := h
  exact List.cons_ne_nil c t

theorem ne_cons (h : PartName p) {c : CodePoint} (hc : c.isWord = false) (t : Text) : p ≠ c :: t := by
  obtain ⟨d, u, rfl, hd, -⟩ := h
  rintro he
  rw [List.cons.injEq] at he
  rw [he.1, hc] at hd
  cases hd

end PartName

/-! ## Pieces between colons -/

namespace Text

theorem splitPath_of_notMem : ∀ {t : Text}, .scalar ':' ∉ t → splitPath t = [t]
  | [], _ => rfl
  | [_], _ => rfl
  | c :: d :: t, h => by
    have hc : ¬ (c = .scalar ':' ∧ d = .scalar ':') := fun he => h (by simp [he.1])
    rw [splitPath, if_neg hc, splitPath_of_notMem fun hm => h (List.mem_cons_of_mem _ hm)]
    rfl

theorem splitPath_append : ∀ {p : Text} (r : Text), .scalar ':' ∉ p →
    splitPath (p ++ lit "::" ++ r) = p :: splitPath r
  | [], r, _ => by
    change splitPath (.scalar ':' :: .scalar ':' :: r) = _
    rw [splitPath, if_pos ⟨rfl, rfl⟩]
  | [c], r, h => by
    have hc : ¬ (c = .scalar ':' ∧ CodePoint.scalar ':' = .scalar ':') :=
      fun he => h (by simp [he.1])
    have := splitPath_append r (p := []) (by simp)
    change splitPath (c :: .scalar ':' :: .scalar ':' :: r) = _
    change splitPath (.scalar ':' :: .scalar ':' :: r) = _ at this
    rw [splitPath, if_neg hc, this]
    rfl
  | c :: d :: p, r, h => by
    have hc : ¬ (c = .scalar ':' ∧ d = .scalar ':') := fun he => h (by simp [he.1])
    have := splitPath_append r (p := d :: p) fun hm => h (List.mem_cons_of_mem _ hm)
    change splitPath (c :: d :: (p ++ lit "::" ++ r)) = _
    change splitPath (d :: (p ++ lit "::" ++ r)) = _ at this
    rw [splitPath, if_neg hc, this]
    rfl

/-- Pieces without colons come back from their join. -/
theorem splitPath_join : ∀ {ps : List Text}, ps ≠ [] → (∀ p ∈ ps, .scalar ':' ∉ p) →
    splitPath (join (lit "::") ps) = ps
  | [], hne, _ => absurd rfl hne
  | [p], _, h => by
    have hj : join (lit "::") [p] = p := by simp [join]
    rw [hj, splitPath_of_notMem (h p (List.mem_singleton_self p))]
  | p :: q :: ps, _, h => by
    have hj : join (lit "::") (p :: q :: ps) = p ++ lit "::" ++ join (lit "::") (q :: ps) := by
      simp [join, List.intercalate_cons_of_ne_nil]
    rw [hj, splitPath_append _ (h p (List.mem_cons_self ..)),
      splitPath_join (List.cons_ne_nil q ps) fun r hr => h r (List.mem_cons_of_mem _ hr)]

theorem splitPath_ne_nil : ∀ t : Text, splitPath t ≠ []
  | [] => by simp [splitPath]
  | [_] => by simp [splitPath]
  | c :: d :: t => by
    rw [splitPath]
    split_ifs
    · simp
    · cases splitPath (d :: t) <;> simp [consHead]

theorem join_splitPath : ∀ t : Text, join (lit "::") (splitPath t) = t
  | [] => rfl
  | [_] => rfl
  | c :: d :: t => by
    rw [splitPath]
    split_ifs with h
    · have ih := join_splitPath t
      rw [join] at ih
      rw [join, List.intercalate_cons_of_ne_nil (splitPath_ne_nil t), ih, h.1, h.2]
      rfl
    · have ih := join_splitPath (d :: t)
      rcases hs : splitPath (d :: t) with _ | ⟨p, ps⟩
      · exact absurd hs (splitPath_ne_nil _)
      rw [hs, join] at ih
      rw [consHead, join, List.intercalate_cons_cons_left, ih]

end Text

/-! ## Parts of places -/

/-- Parts without slashes and backslashes come back from their join. -/
theorem placeParts_join {ps : List Text} (hne : ps ≠ [])
    (h : ∀ p ∈ ps, p ≠ [] ∧ .scalar '/' ∉ p ∧ .scalar '\\' ∉ p) :
    placeParts (Text.join (lit "/") ps) = ps := by
  have hb : .scalar '\\' ∉ Text.join (lit "/") ps := by
    intro hc
    rcases Text.mem_join hc with hc | ⟨p, hp, hc⟩
    · exact absurd hc (by decide)
    · exact (h p hp).2.2 hc
  have hm : (Text.join (lit "/") ps).map (fun c => if c = .scalar '\\' then .scalar '/' else c) =
      Text.join (lit "/") ps := by
    have hid : ∀ c ∈ Text.join (lit "/") ps, (if c = .scalar '\\' then .scalar '/' else c) = id c := by
      intro c hc
      refine if_neg ?_
      rintro rfl
      exact hb hc
    rw [List.map_congr_left hid, List.map_id]
  have hf : ps.filter (!·.isEmpty) = ps := by
    rw [List.filter_eq_self]
    intro p hp
    simpa using (h p hp).1
  have hs : Text.splitOn (.scalar '/') (Text.join (lit "/") ps) = ps :=
    Text.splitOn_join hne fun p hp => (h p hp).2.1
  rw [placeParts, hm, hs, hf]

/-- Names without slashes, joined by slashes, are the parts of a relative path name. -/
theorem PathName.parse_join {ps : List Text} (hne : ps ≠ [])
    (h : ∀ p ∈ ps, p ≠ [] ∧ p ≠ lit "." ∧ .scalar '/' ∉ p) :
    PathName.parse (Text.join (lit "/") ps) = ⟨.relative, ps⟩ := by
  have hs : Text.splitOn (.scalar '/') (Text.join (lit "/") ps) = ps :=
    Text.splitOn_join hne fun p hp => (h p hp).2.2
  have hf : ps.filter (fun p => !(p.isEmpty || p == lit ".")) = ps := by
    rw [List.filter_eq_self]
    intro p hp
    simp [(h p hp).1, (h p hp).2.1]
  -- The join begins as its first name does, which is not with a slash.
  have ha : PathName.anchorOf (Text.join (lit "/") ps) = .relative := by
    obtain ⟨p, rest, rfl⟩ := List.exists_cons_of_ne_nil hne
    obtain ⟨hp, -, hslash⟩ := h p (List.mem_cons_self ..)
    obtain ⟨c, p, rfl⟩ := List.exists_cons_of_ne_nil hp
    have hc : (c == .scalar '/') = false := by
      rw [beq_eq_false_iff_ne]
      rintro rfl
      exact hslash (List.mem_cons_self ..)
    cases rest with
    | nil => simp [Text.join, PathName.anchorOf, hc]
    | cons q rest => simp [Text.join, PathName.anchorOf, hc]
  rw [PathName.parse, ha, PathName.partsOf, hs, hf]

/-! ## Traits -/

/-- A trait path in its parts: the names of modules, and the name of the trait. -/
structure TraitName where
  modules : List Text
  name : Text
  modules_ok : ∀ m ∈ modules, isIdentifier m = true
  name_ok : isIdentifier name = true

/-- One or more ASCII identifiers, joined by `::`. -/
def IsTraitPath (t : Text) : Prop :=
  ∃ names : List Text, names ≠ [] ∧ (∀ n ∈ names, isIdentifier n = true) ∧
    t = Text.join (lit "::") names

namespace TraitName

variable (n : TraitName)

/-- The trait path. -/
def path : Text :=
  Text.join (lit "::") (n.modules ++ [n.name])

/-- The name of the data file. -/
def file : Text :=
  lit "trait." ++ n.name ++ lit ".js"

/-- The folders that the data file is in, and its name. -/
def parts : List Text :=
  n.modules ++ [n.file]

/-- The place of the data file. -/
def place : Text :=
  Text.join (lit "/") n.parts

theorem exists_path {t : Text} (h : IsTraitPath t) : ∃ n : TraitName, n.path = t := by
  obtain ⟨names, hne, hid, rfl⟩ := h
  have he : names.dropLast ++ [names.getLast hne] = names := List.dropLast_concat_getLast hne
  refine ⟨⟨names.dropLast, names.getLast hne, ?_, ?_⟩, ?_⟩
  · exact fun m hm => hid m (List.dropLast_subset names hm)
  · exact hid _ (List.getLast_mem hne)
  · rw [path, he]

theorem placeOf_path : placeOf n.path = n.place := by
  have hs : Text.splitPath n.path = n.modules ++ [n.name] := by
    refine Text.splitPath_join (by simp) fun p hp => ?_
    have hid : isIdentifier p = true := by
      rcases List.mem_append.1 hp with hp | hp
      · exact n.modules_ok p hp
      · rw [List.mem_singleton.1 hp]
        exact n.name_ok
    exact (word_of_isIdentifier hid).2.notMem (by decide)
  simp only [placeOf, hs, List.dropLast_concat, List.getLastD_concat]
  rfl

theorem partName_file : PartName n.file := by
  refine ⟨.scalar 't', lit "rait." ++ n.name ++ lit ".js", rfl, by decide, ?_⟩
  intro d hd
  have hlead : ∀ d ∈ lit "rait.", d.isWord = true ∨ d = .scalar '.' := by decide
  have htail : ∀ d ∈ lit ".js", d.isWord = true ∨ d = .scalar '.' := by decide
  rcases List.mem_append.1 hd with hd | hd
  · rcases List.mem_append.1 hd with hd | hd
    · exact hlead d hd
    · exact .inl ((word_of_isIdentifier n.name_ok).2 d hd)
  · exact htail d hd

theorem partName_parts : ∀ p ∈ n.parts, PartName p := by
  intro p hp
  rcases List.mem_append.1 hp with hp | hp
  · exact .of_isIdentifier (n.modules_ok p hp)
  · rw [List.mem_singleton.1 hp]
    exact n.partName_file

theorem parts_ne_nil : n.parts ≠ [] := by
  simp [parts]

/-- A file is not named as a module is. -/
theorem file_ne {m : Text} (hm : isIdentifier m = true) : n.file ≠ m := by
  intro he
  have hdot : .scalar '.' ∈ n.file := by simp [file, lit]
  rw [he] at hdot
  exact (word_of_isIdentifier hm).2.notMem (by decide) hdot

theorem traitNameIn?_file : traitNameIn? n.file = some n.name := by
  have hn : dropFinalNewline n.file = n.file :=
    dropFinalNewline_eq (n.partName_file.notMem (by decide) (by decide))
  rw [traitNameIn?, hn, file, List.append_assoc]
  simp [n.name_ok]

theorem placeParts_place : placeParts n.place = n.parts :=
  placeParts_join n.parts_ne_nil fun p hp =>
    have hpart := n.partName_parts p hp
    ⟨hpart.ne_nil, hpart.notMem (by decide) (by decide), hpart.notMem (by decide) (by decide)⟩

/-- The trait path comes back from the place of its data file. -/
theorem traitPathAt_place : traitPathAt n.place = .ok n.path := by
  have hf : n.modules.find? (!isModuleSegment ·) = none := by
    rw [List.find?_eq_none]
    intro m hm
    simp [isModuleSegment_of_isIdentifier (n.modules_ok m hm)]
  rw [traitPathAt, placeParts_place, parts, List.reverse_append]
  simp only [List.reverse_singleton, List.singleton_append, List.reverse_reverse,
    traitNameIn?_file, hf]
  rfl

/-- The place, as a path name, is relative and has the parts that it was made of. -/
theorem parse_place : PathName.parse n.place = ⟨.relative, n.parts⟩ :=
  PathName.parse_join n.parts_ne_nil fun p hp =>
    have hpart := n.partName_parts p hp
    ⟨hpart.ne_nil, hpart.ne_cons (by decide) [], hpart.notMem (by decide) (by decide)⟩

end TraitName

end TraitCatalog
