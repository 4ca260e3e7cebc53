/-
  Changes below a folder.

  * `lookup_put` and `mem_entries_put`: what putting an entry does;
  * `Made base ms t t'`: `t'` is `t` with the folders `ms`, one in the other, below `base`, and
    nothing else is different;
  * `makeFolders_made`: making folders does just that, if there is nothing but folders in the
    way, however many of them are there already, and not too many are missing;
  * `makeFoldersUp_tooDeep`: where too many are missing, nothing is made;
  * `writeLocation_new`: where a new file goes.
-/
import TraitCatalog.Proofs.Files.Tree

namespace TraitCatalog.FileTree

variable {t : FileTree} {l : Location} {e : Entry}

/-! ## Entries -/

theorem lookup_filter_ne (l l' : Location) : ∀ es : List (Location × Entry),
    (es.filter fun x => x.1 != l).lookup l' = if l' = l then none else es.lookup l'
  | [] => by simp
  | (k, e) :: es => by
    have ih := lookup_filter_ne l l' es
    by_cases hk : k = l
    · subst hk
      by_cases hl : l' = k
      · simpa [hl] using ih
      · have hb : (l' == k) = false := beq_eq_false_iff_ne.2 hl
        simpa [hl, List.lookup_cons, hb] using ih
    · have hf : (k != l) = true := bne_iff_ne.2 hk
      rw [List.filter_cons, if_pos hf, List.lookup_cons, List.lookup_cons, ih]
      by_cases hl : l' = k
      · subst hl
        simp [hk]
      · have hb : (l' == k) = false := beq_eq_false_iff_ne.2 hl
        simp [hb]

theorem lookup_put (t : FileTree) (hl : l ≠ []) (e : Entry) (l' : Location) :
    (t.put l e).lookup l' = if l' = l then some e else t.lookup l' := by
  by_cases h' : l' = []
  · subst h'
    rw [if_neg (Ne.symm hl)]
    rfl
  · have hne : l'.isEmpty = false := by simpa using h'
    rw [lookup, lookup, hne, put, List.lookup_append, lookup_filter_ne]
    by_cases h : l' = l
    · subst h
      simp
    · have hb : (l' == l) = false := beq_eq_false_iff_ne.2 h
      simp [h, List.lookup_cons, hb]

theorem mem_entries_put {l' : Location} {e' : Entry} : (l', e') ∈ (t.put l e).entries ↔
    l' = l ∧ e' = e ∨ l' ≠ l ∧ (l', e') ∈ t.entries := by
  simp only [put, List.mem_append, List.mem_filter, List.mem_singleton, Prod.mk.injEq, bne_iff_ne]
  constructor
  · rintro (⟨h, hne⟩ | h)
    · exact .inr ⟨hne, h⟩
    · exact .inl h
  · rintro (h | ⟨hne, h⟩)
    · exact .inr h
    · exact .inl ⟨h, hne⟩

theorem mem_of_lookup (hl : l ≠ []) (h : t.lookup l = some e) : (l, e) ∈ t.entries := by
  have hne : l.isEmpty = false := by simpa using hl
  rw [lookup, hne] at h
  obtain ⟨es, fs, he, -⟩ := List.lookup_eq_some_iff.1 h
  rw [he]
  simp

/-- Strictly below a location. -/
def Below (base l : Location) : Prop :=
  ∃ rel, rel ≠ [] ∧ l = base ++ rel

/-- Below a location, nothing is there twice. -/
def Tidy (t : FileTree) (base : Location) : Prop :=
  ∀ l e, Below base l → (l, e) ∈ t.entries → t.lookup l = some e

theorem Below.ne_nil {base : Location} (h : Below base l) : l ≠ [] := by
  obtain ⟨rel, hr, rfl⟩ := h
  simp [hr]

theorem Tidy.mem_iff {base : Location} (h : t.Tidy base) (hl : Below base l) :
    (l, e) ∈ t.entries ↔ t.lookup l = some e :=
  ⟨h l e hl, mem_of_lookup hl.ne_nil⟩

theorem Tidy.put {base : Location} (h : t.Tidy base) (hl : l ≠ []) : (t.put l e).Tidy base := by
  intro l' e' hb hm
  rw [lookup_put t hl]
  rcases mem_entries_put.1 hm with ⟨rfl, rfl⟩ | ⟨hne, hm⟩
  · rw [if_pos rfl]
  · rw [if_neg hne]
    exact h l' e' hb hm

/-! ## Folders -/

/-- A location above a path down from `base` is above `base` or on the path. -/
theorem prefix_append_cases {p base ms : List Text} (h : p <+: base ++ ms) :
    (p <+: base ∧ p ≠ base) ∨ ∃ q, p = base ++ q ∧ q <+: ms := by
  by_cases hp : base <+: p
  · obtain ⟨q, rfl⟩ := hp
    exact .inr ⟨q, rfl, (List.prefix_append_right_inj base).1 h⟩
  · refine .inl ⟨?_, ?_⟩
    · exact (List.prefix_or_prefix_of_prefix h (List.prefix_append base ms)).resolve_right hp
    · rintro rfl
      exact hp List.prefix_rfl

theorem Folders.append {base ms : List Text} (hb : t.Folders base)
    (h : ∀ p, p <+: ms → t.lookup (base ++ p) = some .folder) : t.Folders (base ++ ms) := by
  intro p hp
  rcases prefix_append_cases hp with ⟨hp, -⟩ | ⟨q, rfl, hq⟩
  · exact hb p hp
  · exact h q hq

/-- `t'` has folders at `base` and down from it along `ms`; elsewhere it is `t`. -/
structure Made (base : Location) (ms : List Text) (t t' : FileTree) : Prop where
  folders : ∀ p, p <+: ms → t'.lookup (base ++ p) = some .folder
  others : ∀ l, (∀ p, p <+: ms → l ≠ base ++ p) → t'.lookup l = t.lookup l
  tidy : t.Tidy base → t'.Tidy base

theorem Made.foldersAt {base : Location} {ms : List Text} {t' : FileTree} (h : Made base ms t t')
    (hb : t.Folders base) : t'.Folders (base ++ ms) := by
  refine Folders.append (fun p hp => ?_) h.folders
  by_cases hne : p = base
  · have := h.folders [] List.nil_prefix
    rw [List.append_nil] at this
    rw [hne]
    exact this
  · rw [h.others p ?_]
    · exact hb p hp
    · rintro q - rfl
      have hlen := hp.length_le
      rw [List.length_append] at hlen
      have hq : q = [] := List.length_eq_zero_iff.1 (by omega)
      rw [hq, List.append_nil] at hne
      exact hne rfl

theorem Made.refl {base : Location} {ms : List Text} (h : t.Folders (base ++ ms)) :
    Made base ms t t :=
  ⟨fun _ hp => h _ ((List.prefix_append_right_inj base).2 hp), fun _ _ => rfl, id⟩

theorem Made.there {base : Location} {ms : List Text} {n : Text} {t' : FileTree}
    (h : Made base ms t t') (he : t'.lookup (base ++ (ms ++ [n])) = some .folder) :
    Made base (ms ++ [n]) t t' := by
  refine ⟨fun p hp => ?_, fun l hl => ?_, h.tidy⟩
  · rcases List.prefix_concat_iff.1 hp with rfl | hp'
    · exact he
    · exact h.folders p hp'
  · exact h.others l fun p hp => hl p (hp.trans (List.prefix_append ms [n]))

theorem Made.put {base : Location} {ms : List Text} {n : Text} {t' : FileTree}
    (h : Made base ms t t') : Made base (ms ++ [n]) t (t'.put (base ++ (ms ++ [n])) .folder) := by
  have hne : base ++ (ms ++ [n]) ≠ [] := by simp
  refine ⟨fun p hp => ?_, fun l hl => ?_, fun ht => (h.tidy ht).put hne⟩
  · rw [lookup_put t' hne]
    rcases List.prefix_concat_iff.1 hp with rfl | hp
    · rw [if_pos rfl]
    · by_cases he : base ++ p = base ++ (ms ++ [n])
      · rw [if_pos he]
      · rw [if_neg he]
        exact h.folders p hp
  · rw [lookup_put t' hne, if_neg (hl _ List.prefix_rfl)]
    exact h.others l fun p hp => hl p (hp.trans (List.prefix_append ms [n]))

/-- There is nothing but folders on the way down from `here`, if anything. -/
def Clear (t : FileTree) (here : Location) (ms : List Text) : Prop :=
  ∀ p, p <+: ms → t.lookup (here ++ p) = none ∨ t.lookup (here ++ p) = some .folder

/-- On a clear way all folders are there, or the walk ends at the first that is missing. -/
theorem walkWith_clear {follow : Location → List Text → Except WalkFault Location} :
    ∀ {here : Location} {ms : List Text}, (∀ m ∈ ms, FitName m) → t.lookup here = some .folder →
    t.Clear here ms → (∀ p, p <+: ms → t.lookup (here ++ p) = some .folder) ∨
      walkWith t false follow here ms = .error .missing
  | here, [], _, hf, _ => by
    refine .inl fun p hp => ?_
    rw [List.prefix_nil.1 hp, List.append_nil]
    exact hf
  | here, m :: ms, hn, hf, hc => by
    have hm := hn m (List.mem_cons_self ..)
    rcases hc [m] ⟨ms, rfl⟩ with he | he
    · refine .inr ?_
      rw [walkWith_absent hf hm he]
      rfl
    · have hl : t.NoLink (here ++ [m]) := fun target => by simp [he]
      have hc' : t.Clear (here ++ [m]) ms := by
        intro p hp
        rw [List.append_assoc, List.singleton_append]
        exact hc (m :: p) (List.cons_prefix_cons.2 ⟨rfl, hp⟩)
      rcases walkWith_clear (fun q hq => hn q (List.mem_cons_of_mem _ hq)) he hc' with h | h
      · refine .inl fun p hp => ?_
        rcases List.prefix_cons_iff.1 hp with rfl | ⟨q, rfl, hq⟩
        · rw [List.append_nil]
          exact hf
        · have := h q hq
          rw [List.append_assoc, List.singleton_append] at this
          exact this
      · refine .inr ?_
        rw [walkWith_enter hf hm he hl]
        exact h

/-- A folder is made, or is there. -/
theorem makeFolder_last {n : Text} (hl : FitPath (l ++ [n])) (hf : t.Folders l) :
    (t.lookup (l ++ [n]) = none → t.makeFolder (l ++ [n]) = .ok (t.put (l ++ [n]) .folder)) ∧
    (t.lookup (l ++ [n]) = some .folder → t.makeFolder (l ++ [n]) = .error .alreadyThere) := by
  have hs : ¬ pathLimit < pathLength (l ++ [n]) := by have := hl.short; omega
  have hn : ¬ nameLimit < nameLength n := by have := (hl.names n (by simp)).short; omega
  constructor
  · intro he
    simp only [makeFolder, List.getLast?_concat, List.dropLast_concat, walk_folders hl.left hf,
      hf.self, hl.nameable, Bool.not_true, Bool.false_eq_true, if_false, if_neg hs, if_neg hn, he]
  · intro he
    simp only [makeFolder, List.getLast?_concat, List.dropLast_concat, walk_folders hl.left hf,
      hf.self, hl.nameable, Bool.not_true, Bool.false_eq_true, if_false, if_neg hs, if_neg hn, he]

theorem makeFolder_missing {n : Text} (hl : FitPath (l ++ [n])) (hw : t.walk l = .error .missing) :
    t.makeFolder (l ++ [n]) = .error (.walk .missing) := by
  have hs : ¬ pathLimit < pathLength (l ++ [n]) := by have := hl.short; omega
  simp only [makeFolder, List.getLast?_concat, List.dropLast_concat, hw, hl.nameable, Bool.not_true,
    Bool.false_eq_true, if_false, if_neg hs]

/-- What becomes of a folder that could not be made. -/
def keepIfFolder (t : FileTree) (parts : List Text) (f : Refusal) : FileTree × Except Refusal Unit :=
  (t, match t.isFolder parts with
    | .ok true => .ok ()
    | .ok false => .error f
    | .error g => .error (.walk g))

theorem makeFoldersUp_zero (t : FileTree) (l : Location) (n : Text) :
    t.makeFoldersUp 0 (l ++ [n]).reverse = (t, .error .tooDeep) := by
  rw [List.reverse_concat, makeFoldersUp]

theorem makeFoldersUp_snoc (t : FileTree) (room : Nat) (l : Location) (n : Text) :
    t.makeFoldersUp (room + 1) (l ++ [n]).reverse =
      match t.makeFolder (l ++ [n]) with
      | .ok t => (t, .ok ())
      | .error (.walk .missing) =>
        match t.makeFoldersUp room l.reverse with
        | (t, .ok ()) =>
          match t.makeFolder (l ++ [n]) with
          | .ok t => (t, .ok ())
          | .error f => t.keepIfFolder (l ++ [n]) f
        | (t, .error f) => (t, .error f)
      | .error f => t.keepIfFolder (l ++ [n]) f := by
  have hr : (n :: l.reverse).reverse = l ++ [n] := by simp
  rw [List.reverse_concat, makeFoldersUp, hr]
  rfl

theorem keepIfFolder_folders (hl : FitPath l) (hf : t.Folders l) (f : Refusal) :
    t.keepIfFolder l f = (t, .ok ()) := by
  rw [keepIfFolder, isFolder_folders hl hf]

/-- Folders that are there are left alone. -/
theorem makeFoldersUp_there (hl : FitPath l) (hf : t.Folders l) {room : Nat} (hr : 0 < room) :
    t.makeFoldersUp room l.reverse = (t, .ok ()) := by
  obtain ⟨room, rfl⟩ := Nat.exists_eq_add_of_lt hr
  rw [Nat.zero_add]
  rcases List.eq_nil_or_concat' l with rfl | ⟨up, n, rfl⟩
  · rfl
  · have hup : t.Folders up := hf.higher (List.prefix_append up [n])
    rw [makeFoldersUp_snoc, (makeFolder_last hl hup).2 hf.self]
    exact keepIfFolder_folders hl hf _

/-- Folders are made where they are missing, the outer ones first. -/
theorem makeFoldersUp_made {base : Location} (hb : t.Folders base) {ms : List Text}
    (hl : FitPath (base ++ ms)) (hc : t.Clear base ms) {room : Nat} (hr : 0 < room)
    (hlen : ms.length ≤ room) :
    ∃ t', t.makeFoldersUp room (base ++ ms).reverse = (t', .ok ()) ∧ Made base ms t t' := by
  induction ms using List.reverseRecOn generalizing room with
  | nil =>
    rw [List.append_nil] at hl ⊢
    refine ⟨t, makeFoldersUp_there hl hb hr, Made.refl ?_⟩
    rw [List.append_nil]
    exact hb
  | append_singleton ms n ih =>
    rw [List.length_append, List.length_singleton] at hlen
    obtain ⟨room, rfl⟩ := Nat.exists_eq_add_of_lt hr
    rw [Nat.zero_add] at hlen ⊢
    rw [← List.append_assoc] at hl ⊢
    have hcl : t.Clear base ms := fun p hp => hc p (hp.trans (List.prefix_append ms [n]))
    have hcn := hc (ms ++ [n]) List.prefix_rfl
    rw [← List.append_assoc] at hcn
    by_cases hf : t.Folders (base ++ ms)
    · rcases hcn with hn | hn
      · refine ⟨_, ?_, (Made.refl hf).put⟩
        rw [makeFoldersUp_snoc, (makeFolder_last hl hf).1 hn, ← List.append_assoc]
      · refine ⟨t, makeFoldersUp_there hl (hf.snoc hn) (Nat.succ_pos room), (Made.refl hf).there ?_⟩
        rw [← List.append_assoc]
        exact hn
    · -- Something is missing, so that there is a folder above the last one to make.
      have hms : 0 < ms.length := by
        refine List.length_pos_iff.2 ?_
        rintro rfl
        rw [List.append_nil] at hf
        exact hf hb
      obtain ⟨t', ht', hm⟩ := @ih hl.left hcl room (by omega) (by omega)
      have hw : t.walk (base ++ ms) = .error .missing := by
        rw [walk, walkPath_folders hl.left hb]
        refine (walkWith_clear ?_ hb.self hcl).resolve_left fun hall => hf (hb.append hall)
        exact fun m hm => hl.names m (List.mem_append_left _ (List.mem_append_right _ hm))
      have hf' := hm.foldersAt hb
      rw [makeFoldersUp_snoc, makeFolder_missing hl hw, ht']
      dsimp only
      have hsame : t'.lookup (base ++ ms ++ [n]) = t.lookup (base ++ ms ++ [n]) := by
        refine hm.others _ fun p hp he => ?_
        rw [List.append_assoc] at he
        have hlen := hp.length_le
        rw [← List.append_cancel_left he, List.length_append, List.length_singleton] at hlen
        omega
      rcases hcn with hn | hn
      · refine ⟨_, ?_, hm.put⟩
        rw [(makeFolder_last hl hf').1 (hsame.trans hn), ← List.append_assoc]
      · have hn' := hsame.trans hn
        refine ⟨t', ?_, hm.there ?_⟩
        · rw [(makeFolder_last hl hf').2 hn']
          exact keepIfFolder_folders hl (hf'.snoc hn') _
        · rw [← List.append_assoc]
          exact hn'

theorem makeFolders_made {base : Location} (hb : t.Folders base) {ms : List Text}
    (hl : FitPath (base ++ ms)) (hc : t.Clear base ms) (hlen : ms.length ≤ folderLimit) :
    ∃ t', t.makeFolders (base ++ ms) = (t', .ok ()) ∧ Made base ms t t' :=
  makeFoldersUp_made hb hl hc (by decide) hlen

/-- Where more folders are missing than there is room for, none of them is made. -/
theorem makeFoldersUp_tooDeep {base : Location} {m : Text} (hb : t.Folders base)
    (he : t.lookup (base ++ [m]) = none) : ∀ {room : Nat} {ms : List Text},
    FitPath (base ++ m :: ms) → room ≤ ms.length →
    t.makeFoldersUp room (base ++ m :: ms).reverse = (t, .error .tooDeep)
  | 0, ms, _, _ => by
    obtain ⟨l, n, hl⟩ := (List.eq_nil_or_concat' (base ++ m :: ms)).resolve_left (by simp)
    rw [hl, makeFoldersUp_zero]
  | room + 1, ms, hl, hlen => by
    obtain ⟨above, n, rfl⟩ : ∃ above n, ms = above ++ [n] := by
      refine (List.eq_nil_or_concat' ms).resolve_left ?_
      rintro rfl
      exact Nat.not_succ_le_zero room hlen
    have hsplit : base ++ m :: (above ++ [n]) = base ++ m :: above ++ [n] := by simp
    rw [hsplit] at hl ⊢
    have hw : t.walk (base ++ m :: above) = .error .missing := by
      rw [walk, walkPath_folders hl.left hb, walkWith_absent hb.self _ he]
      · rfl
      · exact hl.left.names m (by simp)
    have hlen' : room ≤ above.length := by simpa using hlen
    rw [makeFoldersUp_snoc, makeFolder_missing hl hw, makeFoldersUp_tooDeep hb he hl.left hlen']

/-! ## Files -/

/-- A new file goes where its path says. -/
theorem writeLocation_new {n : Text} (hl : FitPath (l ++ [n])) (hf : t.Folders l)
    (he : t.lookup (l ++ [n]) = none) : t.writeLocation (l ++ [n]) = .ok (l ++ [n]) := by
  rw [writeLocation, walkPath_create hl hf he]
  dsimp only
  rw [he]

end TraitCatalog.FileTree
