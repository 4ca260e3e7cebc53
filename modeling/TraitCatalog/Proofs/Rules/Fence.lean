/-
  The fenced block of a text.

  What is extracted from a text depends on the lines from the first that opens a block to the first
  after it that closes one, and on nothing around them.

  * `FirstBlock`: where the first block of some lines stands, and what is in it;
  * `exists_firstBlock`: there is one as soon as a line opens a block;
  * `extracts_first_block`: what is extracted, for all texts, and what it depends on;
  * `extract_extract`: what is extracted holds no block of its own.
-/
import Mathlib.Data.List.TakeWhile
import TraitCatalog.Proofs.Text.Lines
import TraitCatalog.Rules.Load

namespace TraitCatalog.Fence

open Text (lit)

/-- The line starts with a fence that does not open a block, so that inside a block it closes it. -/
def closes (line : Text) : Bool :=
  isFence line && !opens line

/-- The first block of some lines: those in it, and those that follow them. -/
structure FirstBlock (ls before : List Text) (opening : Text) (content after : List Text) : Prop where
  split : ls = before ++ opening :: (content ++ after)
  unopened : ∀ l ∈ before, opens l = false
  opened : opens opening = true
  unclosed : ∀ l ∈ content, closes l = false
  /-- The block ends at a line that closes it, or with the text. -/
  closed : ∀ l ∈ after.head?, closes l = true

variable {ls before content after : List Text} {opening : Text}

/-! ## Where the block is found -/

theorem inside_append (hc : ∀ l ∈ content, closes l = false) (ha : ∀ l ∈ after.head?, closes l = true) :
    inside (content ++ after) = content.filter (!opens ·) := by
  induction content with
  | nil =>
    cases after with
    | nil => rfl
    | cons l ls =>
      have hl : isFence l = true ∧ opens l = false := by simpa [closes] using ha l rfl
      simp [inside, hl]
  | cons l ls ih =>
    obtain ⟨hl, hls⟩ := List.forall_mem_cons.1 hc
    rw [List.cons_append, inside, ih hls]
    cases ho : opens l with
    | true => simp [ho]
    | false =>
      have hf : isFence l = false := by simpa [closes, ho] using hl
      simp [ho, hf]

theorem block?_append (hb : ∀ l ∈ before, opens l = false) (ls : List Text) :
    block? (before ++ ls) = block? ls := by
  induction before with
  | nil => rfl
  | cons l before ih =>
    obtain ⟨hl, hbefore⟩ := List.forall_mem_cons.1 hb
    rw [List.cons_append, block?, hl, ih hbefore]
    simp

theorem FirstBlock.block?_eq (h : FirstBlock ls before opening content after) :
    block? ls = some (content.filter (!opens ·)) := by
  rw [h.split, block?_append h.unopened, block?, if_pos h.opened, inside_append h.unclosed h.closed]

theorem block?_eq_none (h : ∀ l ∈ ls, opens l = false) : block? ls = none := by
  rw [← List.append_nil ls, block?_append h, block?]

/-- Lines of which one opens a block have a first block. -/
theorem exists_firstBlock (h : ∃ l ∈ ls, opens l = true) :
    ∃ before opening content after, FirstBlock ls before opening content after := by
  induction ls with
  | nil => simp at h
  | cons l ls ih =>
    cases ho : opens l with
    | true =>
      refine ⟨[], l, ls.takeWhile (!closes ·), ls.dropWhile (!closes ·), ?_, by simp, ho, ?_, ?_⟩
      · rw [List.takeWhile_append_dropWhile, List.nil_append]
      · intro l' hl'
        simpa using List.mem_takeWhile_imp hl'
      · intro l' hl'
        have hd := List.head?_dropWhile_not (!closes ·) ls
        rw [Option.mem_def.1 hl'] at hd
        simpa using hd
    | false =>
      have hrest : ∃ l' ∈ ls, opens l' = true := by simpa [ho] using h
      obtain ⟨before, opening, content, after, hb⟩ := ih hrest
      refine ⟨l :: before, opening, content, after, ?_, ?_, hb.opened, hb.unclosed, hb.closed⟩
      · rw [hb.split, List.cons_append]
      · exact List.forall_mem_cons.2 ⟨ho, hb.unopened⟩

/-! ## What is extracted -/

theorem FirstBlock.extract_eq {t : Text} (h : FirstBlock t.splitLines before opening content after) :
    extract t = Text.join (lit "\n") (content.filter (!opens ·)) := by
  rw [extract, h.block?_eq]

theorem extract_unfenced {t : Text} (h : ∀ l ∈ t.splitLines, opens l = false) : extract t = t := by
  rw [extract, block?_eq_none h]

/-- **Only the first fenced block of a text is seen.**  A text is taken as it is if none of its lines
    opens a block.  Otherwise it has a first block, and what is extracted are the lines in it, joined
    by line feeds, but for those that open a block once more.  Two texts whose first blocks have the
    same lines give the same extract and so the same rules, whatever stands before and after. -/
theorem extracts_first_block (t : Text) :
    ((∀ l ∈ t.splitLines, opens l = false) → extract t = t) ∧
    ((∃ l ∈ t.splitLines, opens l = true) →
      ∃ before opening content after, FirstBlock t.splitLines before opening content after) ∧
    ∀ before opening content after, FirstBlock t.splitLines before opening content after →
      extract t = Text.join (lit "\n") (content.filter (!opens ·)) ∧
      ∀ u before' opening' after', FirstBlock (Text.splitLines u) before' opening' content after' →
        extract u = extract t ∧ Rules.parse u = Rules.parse t := by
  refine ⟨extract_unfenced, exists_firstBlock, fun before opening content after ht => ?_⟩
  refine ⟨ht.extract_eq, fun u before' opening' after' hu => ?_⟩
  have hextract : extract u = extract t := by rw [hu.extract_eq, ht.extract_eq]
  exact ⟨hextract, by rw [Rules.parse, Rules.parse, hextract]⟩

/-- A block that is closed and holds a line which opens it once more. -/
def closedSample : Text :=
  lit "```\n ```yaml\na: 1\r```yaml b\n  c: 2\n```\n```yaml\nd"

/-- The same block without an end. -/
def openSample : Text :=
  lit "# Rules\n```yaml\na: 1\u2028```yaml b\x0b  c: 2"

theorem extracts_first_block_samples :
    extract closedSample = lit "a: 1\n  c: 2" ∧ extract openSample = extract closedSample ∧
      Rules.parse openSample = Rules.parse closedSample := by
  have hclosed : FirstBlock closedSample.splitLines [lit "```"] (lit " ```yaml")
      [lit "a: 1", lit "```yaml b", lit "  c: 2"] [lit "```", lit "```yaml", lit "d"] :=
    ⟨by decide, by decide, by decide, by decide, by decide⟩
  have hopen : FirstBlock openSample.splitLines [lit "# Rules"] (lit "```yaml")
      [lit "a: 1", lit "```yaml b", lit "  c: 2"] [] :=
    ⟨by decide, by decide, by decide, by decide, by decide⟩
  obtain ⟨hextract, hsame⟩ := (extracts_first_block closedSample).2.2 _ _ _ _ hclosed
  obtain ⟨hext, hparse⟩ := hsame openSample _ _ _ hopen
  exact ⟨hextract, hext, hparse⟩

/-! ## What is extracted from an extract -/

theorem FirstBlock.mem (h : FirstBlock ls before opening content after) : ∀ l ∈ content, l ∈ ls := by
  intro l hl
  rw [h.split]
  exact List.mem_append_right _ (List.mem_cons_of_mem _ (List.mem_append_left _ hl))

/-- **Extracting is done once.**  The lines that are extracted from a text are split again as they
    were, so none of them opens a block, and an extract is taken as it is. -/
theorem extract_extract (t : Text) : extract (extract t) = extract t := by
  by_cases h : ∃ l ∈ t.splitLines, opens l = true
  · obtain ⟨before, opening, content, after, hb⟩ := exists_firstBlock h
    rw [hb.extract_eq]
    refine extract_unfenced fun l hl => ?_
    have hunbroken : ∀ m ∈ content.filter (!opens ·), Text.Unbroken m := fun m hm =>
      Text.unbroken_of_mem_splitLines t m (hb.mem m (List.mem_filter.1 hm).1)
    have hkept := (List.mem_filter.1 (Text.mem_splitLines_join hunbroken hl)).2
    rwa [Bool.not_eq_true'] at hkept
  · have hnone : ∀ l ∈ t.splitLines, opens l = false := by simpa using h
    rw [extract_unfenced hnone, extract_unfenced hnone]

end TraitCatalog.Fence
