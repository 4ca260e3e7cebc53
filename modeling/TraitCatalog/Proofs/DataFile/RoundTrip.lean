/-
  Writing a data file and reading it again.

  What is written belongs to the grammar: a literal holds no control, so every entry stays
  on a line of its own (`lines_write`), and the other lines are not entry lines.  With the
  grammar, `read_written` says that the data file comes back.

  A data file without surrogates is written without any (`Scalar.write`), and never with a
  carriage return (`notMem_write`), so what is written can go through a file in UTF-8.
-/
import TraitCatalog.Proofs.DataFile.Grammar
import TraitCatalog.Proofs.Text.Codec

namespace TraitCatalog

open Text (lit Printable)

namespace DataFile

theorem printable_writeItems (ds : List Text) : Printable (writeItems ds) := by
  have hcomma : Printable (lit ",") := by unfold Printable; decide
  intro c hc
  obtain ⟨d, -, hd⟩ := List.mem_flatMap.1 hc
  exact (Json.literal_quote d).printable.append hcomma c hd

theorem printable_writeEntry (crate : Text) (ds : List Text) : Printable (writeEntry crate ds) := by
  have hlead : Printable entryLead := by unfold Printable; decide
  have hmid : Printable (lit "] = [") := by unfold Printable; decide
  have hend : Printable (lit "];") := by unfold Printable; decide
  exact (((hlead.append (Json.literal_quote crate).printable).append hmid).append
    (printable_writeItems ds)).append hend

/-! ## Entries -/

theorem items_writeItems : ∀ {ds : List Text}, ds ≠ [] →
    ∃ t, Json.Items t ds ∧ writeItems ds = t ++ lit ","
  | [], h => absurd rfl h
  | [d], _ => ⟨Json.quote d, .one (Json.literal_quote d), by simp [writeItems]⟩
  | d :: e :: ds, _ => by
    obtain ⟨t, ht, he⟩ := items_writeItems (List.cons_ne_nil e ds)
    refine ⟨_, .more (Json.literal_quote d) Json.spaces_nil Json.spaces_nil ht, ?_⟩
    rw [writeItems, List.flatMap_cons, ← writeItems, he]
    simp [lit]

theorem listBody_writeItems (ds : List Text) : ListBody (writeItems ds) ds := by
  have core : ListCore (writeItems ds) ds := by
    by_cases hd : ds = []
    · subst hd
      exact .nothing
    · obtain ⟨t, ht, he⟩ := items_writeItems hd
      have := ListCore.itemsComma ht Json.spaces_nil
      rw [List.append_nil] at this
      rw [he]
      exact this
  have := ListBody.mk Text.blanks_nil core Text.blanks_nil
  simpa using this

theorem entryLine_writeEntry (crate : Text) (ds : List Text) :
    EntryLine (writeEntry crate ds) crate ds := by
  have hb : Text.Blanks (lit " ") := by unfold Text.Blanks; decide
  have := EntryLine.mk (Json.literal_quote crate) hb hb (listBody_writeItems ds) Text.blanks_nil
  have he : writeEntry crate ds = entryLead ++ Json.quote crate ++ lit "]" ++ lit " " ++ lit "=" ++
      lit " " ++ lit "[" ++ writeItems ds ++ lit "];" ++ [] := by
    simp [writeEntry, lit]
  rw [he]
  exact this

/-! ## Files -/

/-- The lines of the entries of a data file. -/
def entryTexts (d : DataFile) : List Text :=
  d.crates.entries.map fun e => writeEntry e.1 e.2

theorem write_eq (d : DataFile) :
    write d = Text.join (lit "\n") (preamble :: d.entryTexts ++ Text.lines registration) := by
  have hr : Text.join (lit "\n") (Text.lines registration) = registration :=
    Text.join_splitOn Text.newline registration
  have hne : Text.lines registration ≠ [] := Text.splitOn_ne_nil Text.newline registration
  rw [Text.join_append _ (by simp) hne, hr]
  rfl

/-- Every entry is written on a line of its own. -/
theorem lines_write (d : DataFile) :
    Text.lines (write d) = preamble :: d.entryTexts ++ Text.lines registration := by
  rw [write_eq]
  refine Text.splitOn_join (by simp) fun l hl => ?_
  rcases List.mem_append.1 hl with hl | hl
  · rcases List.mem_cons.1 hl with rfl | hl
    · decide
    · obtain ⟨e, -, rfl⟩ := List.mem_map.1 hl
      exact (printable_writeEntry e.1 e.2).notMem (by decide)
  · exact Text.notMem_of_mem_splitOn hl

theorem entryLines_write (d : DataFile) : EntryLines (Text.lines (write d)) d.crates.entries := by
  have hp : (preamble.startsWith entryLead) = false := by decide
  have hr : (Text.lines registration).filter (·.startsWith entryLead) = [] := by
    decide +kernel
  have he : d.entryTexts.filter (·.startsWith entryLead) = d.entryTexts := by
    rw [List.filter_eq_self]
    intro l hl
    obtain ⟨e, -, rfl⟩ := List.mem_map.1 hl
    exact (entryLine_writeEntry e.1 e.2).startsWith
  rw [lines_write, List.cons_append, entryLines_cons_of_not_entry hp, EntryLines,
    List.filter_append, he, hr, List.append_nil, entryTexts, List.forall₂_map_left_iff]
  exact List.forall₂_same.2 fun e _ => entryLine_writeEntry e.1 e.2

theorem Holds.append {t : Text} {p : Phrase} (h : Holds t p) (a z : Text) : Holds (a ++ t ++ z) p := by
  obtain ⟨b, u, y, rfl, hu⟩ := h
  exact ⟨a ++ b, u, y ++ z, by simp, hu⟩

theorem holds_preamble : Holds preamble .declaration :=
  (Phrase.occursIn_iff (by decide)).1 (by decide)

theorem holds_registration : Holds registration .registrationCall :=
  (Phrase.occursIn_iff (by decide)).1 (by decide +kernel)

theorem spelled_write (d : DataFile) : Spelled (write d) d.crates.entries := by
  refine ⟨?_, ?_, entryLines_write d, d.crates.nodup⟩
  · have he : write d = [] ++ preamble ++
        (lit "\n" ++ Text.join (lit "\n") (d.entryTexts ++ Text.lines registration)) := by
      have hne : d.entryTexts ++ Text.lines registration ≠ [] := by
        simp [Text.lines, Text.splitOn_ne_nil]
      rw [write_eq, List.cons_append, Text.join, List.intercalate_cons_of_ne_nil hne]
      simp [Text.join]
    rw [he]
    exact holds_preamble.append _ _
  · have := holds_registration.append (Text.join (lit "\n") (preamble :: d.entryTexts) ++ lit "\n") []
    rw [List.append_nil] at this
    exact this

/-- **A data file that is written and read again comes back unchanged**, whatever its trait
    path, its crate names and its descriptors hold. -/
theorem read_written (d : DataFile) : read (write d) d.traitPath = .ok (.ok d) :=
  read_eq_ok_iff.2 ⟨rfl, spelled_write d⟩

/-! ## Code points of what is written -/

theorem scalar_escape {c : CodePoint} (h : c.IsScalar) : Text.Scalar (Json.escape c) := by
  have hc : Text.Scalar [c] := fun d hd => by rw [List.mem_singleton.1 hd]; exact h
  have hlit : ∀ ch, Text.Scalar [.scalar ch] := fun ch d hd => ⟨ch, List.mem_singleton.1 hd⟩
  unfold Json.escape
  split
  · exact (hlit '\\').append hc
  · split
    · split
      · exact (hlit '\\').append (hlit _)
      · refine (Text.Scalar.lit _).append fun d hd => ?_
        obtain ⟨ch, -, rfl⟩ := List.mem_map.1 hd
        exact ⟨ch, rfl⟩
    · exact hc

theorem scalar_quote {t : Text} (h : t.Scalar) : (Json.quote t).Scalar := by
  have hq : Text.Scalar [.scalar '"'] := fun d hd => ⟨'"', List.mem_singleton.1 hd⟩
  have hb : Text.Scalar (t.flatMap Json.escape) := .flatMap fun c hc => scalar_escape (h c hc)
  exact (hq.append hb).append hq

/-- Crate names and descriptors without surrogates. -/
def Scalar (d : DataFile) : Prop :=
  ∀ e ∈ d.crates.entries, e.1.Scalar ∧ ∀ x ∈ e.2, x.Scalar

/-- A data file without surrogates is written without surrogates. -/
theorem Scalar.write {d : DataFile} (h : d.Scalar) : d.write.Scalar := by
  refine ((Text.Scalar.join (.lit _) fun l hl => ?_).append (.lit _)).append (.join (.lit _) ?_)
  · rcases List.mem_cons.1 hl with rfl | hl
    · exact .lit _
    · obtain ⟨e, he, rfl⟩ := List.mem_map.1 hl
      obtain ⟨hk, hv⟩ := h e he
      refine ((((Text.Scalar.lit _).append (scalar_quote hk)).append (.lit _)).append ?_).append (.lit _)
      exact .flatMap fun x hx => (scalar_quote (hv x hx)).append (.lit _)
  · intro l hl
    obtain ⟨line, -, rfl⟩ := List.mem_map.1 hl
    exact .lit line

/-- What is written holds no carriage return. -/
theorem notMem_write (d : DataFile) : .scalar '\r' ∉ d.write := by
  have hr : .scalar '\r' ∉ registration := by decide +kernel
  intro hc
  rcases List.mem_append.1 hc with hc | hc
  · rcases List.mem_append.1 hc with hc | hc
    · rcases Text.mem_join hc with hc | ⟨l, hl, hc⟩
      · revert hc
        decide
      · rcases List.mem_cons.1 hl with rfl | hl
        · revert hc
          decide +kernel
        · obtain ⟨e, -, rfl⟩ := List.mem_map.1 hl
          exact (printable_writeEntry e.1 e.2).notMem (by decide) hc
    · revert hc
      decide
  · exact hr hc

end DataFile

end TraitCatalog
