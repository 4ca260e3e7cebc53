/-
  Trait paths and places in both directions.

  A file name, and a module segment, may end in one line feed that their shape does not count.  In
  a module segment the line feed is kept, so that trait paths with such segments have places of
  their own.  Behind a file name it is dropped, so that two places can give one trait path.

  * `traitPathAt_eq_ok`: the places that give a trait path, and which path they give;
  * `path_survives_place_iff`: the trait paths that come back from their places;
  * `placeOf_traitPathAt`: a place comes back from its trait path but for a line feed at its end.
-/
import Mathlib.Data.Set.Function
import TraitCatalog.Proofs.TraitPath

namespace TraitCatalog

open Text (lit)

/-! ## A line feed at the end -/

theorem dropFinalNewline_append (t : Text) : dropFinalNewline (t ++ lit "\n") = t := by
  rw [dropFinalNewline, Text.dropTail?_append, Option.getD_some]

theorem dropFinalNewline_concat (t : Text) {c : CodePoint} (hc : c ≠ .scalar '\n') :
    dropFinalNewline (t ++ [c]) = t ++ [c] := by
  rcases hd : Text.dropTail? (lit "\n") (t ++ [c]) with _ | r
  · rw [dropFinalNewline, hd, Option.getD_none]
  · have he := (List.append_inj' (Text.dropTail?_eq_some.1 hd) rfl).2
    exact absurd (List.cons.inj he).1 hc

theorem eq_dropFinalNewline_or (t : Text) :
    t = dropFinalNewline t ∨ t = dropFinalNewline t ++ lit "\n" := by
  rcases hd : Text.dropTail? (lit "\n") t with _ | r
  · left
    rw [dropFinalNewline, hd, Option.getD_none]
  · right
    rw [Text.dropTail?_eq_some.1 hd, dropFinalNewline_append]

/-! ## Segments and file names -/

/-- A module segment is an identifier that one line feed may follow. -/
theorem isModuleSegment_iff {t : Text} : isModuleSegment t = true ↔
    ∃ i, isIdentifier i = true ∧ (t = i ∨ t = i ++ lit "\n") := by
  constructor
  · intro h
    exact ⟨dropFinalNewline t, h, eq_dropFinalNewline_or t⟩
  · rintro ⟨i, hi, rfl | rfl⟩
    · exact isModuleSegment_of_isIdentifier hi
    · rw [isModuleSegment, dropFinalNewline_append]
      exact hi

theorem ne_nil_of_isModuleSegment {t : Text} (h : isModuleSegment t = true) : t ≠ [] := by
  obtain ⟨i, hi, rfl | rfl⟩ := isModuleSegment_iff.1 h
  · exact (word_of_isIdentifier hi).1
  · simp [lit]

theorem notMem_of_isModuleSegment {t : Text} (h : isModuleSegment t = true) {c : CodePoint}
    (hw : c.isWord = false) (hn : c ∉ lit "\n") : c ∉ t := by
  obtain ⟨i, hi, rfl | rfl⟩ := isModuleSegment_iff.1 h
  · exact (word_of_isIdentifier hi).2.notMem hw
  · rw [List.mem_append, not_or]
    exact ⟨(word_of_isIdentifier hi).2.notMem hw, hn⟩

/-- The name of the data file of a trait. -/
def traitFile (name : Text) : Text :=
  lit "trait." ++ name ++ lit ".js"

/-- The name ends in a letter. -/
theorem traitFile_eq_concat (name : Text) :
    traitFile name = (lit "trait." ++ name ++ lit ".j") ++ [.scalar 's'] := by
  simp [traitFile, lit]

theorem traitNameIn?_eq_some {file name : Text} : traitNameIn? file = some name ↔
    isIdentifier name = true ∧ dropFinalNewline file = traitFile name := by
  simp only [traitNameIn?, bind, Option.bind_eq_some_iff, Text.dropLead?_eq_some,
    Text.dropTail?_eq_some, Option.ite_none_right_eq_some, Option.some.injEq]
  constructor
  · rintro ⟨rest, hfile, name, rfl, hi, rfl⟩
    exact ⟨hi, by rw [hfile, traitFile, List.append_assoc]⟩
  · rintro ⟨hi, hfile⟩
    exact ⟨name ++ lit ".js", by rw [hfile, traitFile, List.append_assoc], name, rfl, hi, rfl⟩

/-! ## What a place gives -/

/-- The places that give a trait path: module segments, and then the file of a trait. -/
theorem traitPathAt_eq_ok {place t : Text} : traitPathAt place = .ok t ↔
    ∃ modules file name, placeParts place = modules ++ [file] ∧
      (∀ m ∈ modules, isModuleSegment m = true) ∧ traitNameIn? file = some name ∧
      t = Text.join (lit "::") (modules ++ [name]) := by
  constructor
  · intro h
    unfold traitPathAt at h
    split at h
    · cases h
    next file above hp =>
    have hparts : placeParts place = above.reverse ++ [file] := by
      rw [← List.reverse_reverse (placeParts place), hp, List.reverse_cons]
    split at h
    · cases h
    next name hn =>
    split at h
    · cases h
    next hf =>
    cases h
    rw [List.find?_eq_none] at hf
    exact ⟨above.reverse, file, name, hparts, fun m hm => by simpa using hf m hm, hn, rfl⟩
  · rintro ⟨modules, file, name, hparts, hm, hn, rfl⟩
    have hf : modules.find? (!isModuleSegment ·) = none := by
      rw [List.find?_eq_none]
      intro m hmem
      simp [hm m hmem]
    rw [traitPathAt, hparts, List.reverse_append]
    simp only [List.reverse_singleton, List.singleton_append, List.reverse_reverse, hn, hf]

/-- Module segments and a name come back from the path that they are joined to. -/
theorem splitPath_segments {modules : List Text} {name : Text}
    (hm : ∀ m ∈ modules, isModuleSegment m = true) (hn : isIdentifier name = true) :
    Text.splitPath (Text.join (lit "::") (modules ++ [name])) = modules ++ [name] := by
  refine Text.splitPath_join (by simp) fun p hp => ?_
  rcases List.mem_append.1 hp with hp | hp
  · exact notMem_of_isModuleSegment (hm p hp) (by decide) (by decide)
  · rw [List.mem_singleton.1 hp]
    exact (word_of_isIdentifier hn).2.notMem (by decide)

theorem placeOf_eq {t : Text} {modules : List Text} {name : Text}
    (h : Text.splitPath t = modules ++ [name]) :
    placeOf t = Text.join (lit "/") (modules ++ [traitFile name]) := by
  simp only [placeOf, h, List.dropLast_concat, List.getLastD_concat]
  rfl

/-! ## From trait paths to places -/

/-- Trait paths that are pieced together from module segments and an identifier. -/
def Placed (t : Text) : Prop :=
  ∃ modules name, Text.splitPath t = modules ++ [name] ∧
    (∀ m ∈ modules, ∃ i, isIdentifier i = true ∧ (m = i ∨ m = i ++ lit "\n")) ∧
    isIdentifier name = true

theorem placed_of_traitPathAt {place t : Text} (h : traitPathAt place = .ok t) : Placed t := by
  obtain ⟨modules, file, name, -, hm, hn, rfl⟩ := traitPathAt_eq_ok.1 h
  have hi := (traitNameIn?_eq_some.1 hn).1
  exact ⟨modules, name, splitPath_segments hm hi, fun m hmem => isModuleSegment_iff.1 (hm m hmem), hi⟩

theorem Placed.traitPathAt_placeOf {t : Text} (h : Placed t) : traitPathAt (placeOf t) = .ok t := by
  obtain ⟨modules, name, hs, hm, hi⟩ := h
  have hparts : placeParts (placeOf t) = modules ++ [traitFile name] := by
    rw [placeOf_eq hs]
    refine placeParts_join (by simp) fun p hp => ?_
    rcases List.mem_append.1 hp with hp | hp
    · have hseg := isModuleSegment_iff.2 (hm p hp)
      exact ⟨ne_nil_of_isModuleSegment hseg, notMem_of_isModuleSegment hseg (by decide) (by decide),
        notMem_of_isModuleSegment hseg (by decide) (by decide)⟩
    · obtain rfl := List.mem_singleton.1 hp
      have hfile := TraitName.partName_file ⟨[], name, by simp, hi⟩
      exact ⟨hfile.ne_nil, hfile.notMem (by decide) (by decide), hfile.notMem (by decide) (by decide)⟩
  refine traitPathAt_eq_ok.2 ⟨modules, traitFile name, name, hparts, ?_, ?_, ?_⟩
  · exact fun m hmem => isModuleSegment_iff.2 (hm m hmem)
  · refine traitNameIn?_eq_some.2 ⟨hi, ?_⟩
    rw [traitFile_eq_concat]
    exact dropFinalNewline_concat _ (by decide)
  · rw [← hs, Text.join_splitPath]

theorem placeOf_injOn : Set.InjOn placeOf {t | Placed t} := by
  intro t ht u hu he
  have htu : (Except.ok t : Except Fault Text) = .ok u := by
    rw [← Placed.traitPathAt_placeOf ht, he, Placed.traitPathAt_placeOf hu]
  exact Except.ok.inj htu

/-- **A trait path comes back from its place exactly if it is made of module segments and an
    identifier**; from the place of any other text comes a fault or another trait path.  So no two
    of these trait paths have one place. -/
theorem path_survives_place_iff :
    (∀ t, traitPathAt (placeOf t) = .ok t ↔ Placed t) ∧
      (∀ t, ¬ Placed t → (∃ f, traitPathAt (placeOf t) = .error f) ∨
        ∃ u, u ≠ t ∧ traitPathAt (placeOf t) = .ok u) ∧
      Set.InjOn placeOf {t | Placed t} := by
  refine ⟨fun t => ⟨placed_of_traitPathAt, Placed.traitPathAt_placeOf⟩, fun t ht => ?_,
    placeOf_injOn⟩
  rcases hp : traitPathAt (placeOf t) with f | u
  · exact .inl ⟨f, rfl⟩
  · refine .inr ⟨u, ?_, rfl⟩
    rintro rfl
    exact ht (placed_of_traitPathAt hp)

/-! ## From places to trait paths -/

/-- A place with slashes between its parts and nothing else. -/
def tidyPlace (place : Text) : Text :=
  Text.join (lit "/") (placeParts place)

theorem join_concat_append (sep : Text) (ps : List Text) (p e : Text) :
    Text.join sep (ps ++ [p ++ e]) = Text.join sep (ps ++ [p]) ++ e := by
  rcases ps with _ | ⟨q, ps⟩
  · simp [Text.join]
  · have hsingle : ∀ r : Text, Text.join sep [r] = r := fun r => by simp [Text.join]
    rw [Text.join_append sep (List.cons_ne_nil q ps) (List.cons_ne_nil _ _),
      Text.join_append sep (List.cons_ne_nil q ps) (List.cons_ne_nil _ _), hsingle, hsingle,
      List.append_assoc _ p e]

/-- The place of the trait path of a place is that place, or a line feed stands behind it. -/
theorem tidyPlace_eq_or {place t : Text} (h : traitPathAt place = .ok t) :
    tidyPlace place = placeOf t ∨ tidyPlace place = placeOf t ++ lit "\n" := by
  obtain ⟨modules, file, name, hparts, hm, hn, rfl⟩ := traitPathAt_eq_ok.1 h
  obtain ⟨hi, hfile⟩ := traitNameIn?_eq_some.1 hn
  rw [placeOf_eq (splitPath_segments hm hi), tidyPlace, hparts]
  rcases eq_dropFinalNewline_or file with he | he
  · rw [he, hfile]
    exact .inl rfl
  · rw [he, hfile, join_concat_append]
    exact .inr rfl

theorem dropFinalNewline_tidyPlace {place t : Text} (h : traitPathAt place = .ok t) :
    dropFinalNewline (tidyPlace place) = placeOf t := by
  rcases tidyPlace_eq_or h with he | he
  · obtain ⟨modules, file, name, -, hm, hn, rfl⟩ := traitPathAt_eq_ok.1 h
    rw [he, placeOf_eq (splitPath_segments hm (traitNameIn?_eq_some.1 hn).1), traitFile_eq_concat,
      join_concat_append]
    exact dropFinalNewline_concat _ (by decide)
  · rw [he, dropFinalNewline_append]

/-- **The place of the trait path of a place is that place, tidied, but for one line feed at its
    end.**  It is all of it exactly if no line feed stands there, and two places give one trait path
    exactly if they are one but for such a line feed. -/
theorem placeOf_traitPathAt {place t : Text} (h : traitPathAt place = .ok t) :
    placeOf t = dropFinalNewline (tidyPlace place) ∧
      (placeOf t = tidyPlace place ↔ ¬ lit "\n" <:+ tidyPlace place) ∧
      ∀ other u, traitPathAt other = .ok u →
        (u = t ↔ dropFinalNewline (tidyPlace other) = dropFinalNewline (tidyPlace place)) := by
  have hdrop := dropFinalNewline_tidyPlace h
  refine ⟨hdrop.symm, ?_, fun other u hu => ?_⟩
  · rw [← hdrop]
    constructor
    · rintro he ⟨r, hr⟩
      rw [← hr, dropFinalNewline_append] at he
      have := congrArg List.length he
      simp [lit] at this
    · intro hno
      rcases eq_dropFinalNewline_or (tidyPlace place) with he | he
      · exact he.symm
      · exact absurd ⟨_, he.symm⟩ hno
  · rw [hdrop, dropFinalNewline_tidyPlace hu]
    constructor
    · rintro rfl
      rfl
    · exact fun he => placeOf_injOn (placed_of_traitPathAt hu) (placed_of_traitPathAt h) he

/-- A module segment keeps its line feed, the file name loses its own. -/
theorem placeOf_traitPathAt_linefeeds :
    let place := lit "core\n\\ops//trait.Mul.js\n"
    let t := lit "core\n::ops::Mul"
    traitPathAt place = .ok t ∧ placeOf t = lit "core\n/ops/trait.Mul.js" ∧
      ¬ placeOf t = tidyPlace place ∧ traitPathAt (placeOf t) = .ok t := by
  intro place t
  have ht : traitPathAt place = .ok t := by decide
  obtain ⟨hplace, hwhole, hsame⟩ := placeOf_traitPathAt ht
  have htidy : tidyPlace place = lit "core\n/ops/trait.Mul.js" ++ lit "\n" := by decide
  rw [htidy, dropFinalNewline_append] at hplace
  refine ⟨ht, hplace, ?_, ?_⟩
  · rw [hwhole, htidy]
    exact not_not.2 (List.suffix_append _ _)
  · rw [hplace]
    decide

/-- Two files whose names differ give one trait path, which has the place of one of them only. -/
theorem two_files_of_one_trait :
    let file := lit "trait.Mul.js"
    let other := lit "trait.Mul.js\n"
    traitPathAt file = .ok (lit "Mul") ∧ traitPathAt other = .ok (lit "Mul") ∧
      tidyPlace file = file ∧ tidyPlace other = other ∧ file ≠ other ∧
      placeOf (lit "Mul") ≠ tidyPlace other := by
  decide

end TraitCatalog
