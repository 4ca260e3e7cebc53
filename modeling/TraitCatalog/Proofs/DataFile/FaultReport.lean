/-
  The faults that reading reports.

  What is wrong with a line is said line by line, without following the reader (`LineFault`): it
  assigns no list of strings, or its key spells no crate, or an earlier line assigns the crate
  already.  That earlier line may itself be one of several, but the first of them is in order
  (`duplicate_iff`), so that only lines without a fault keep their crates.

  * `LineFault.unique`: a line has one fault at most;
  * `Covers.step` and `Covers.run`: what the reader has found after some lines;
  * `reports_exactly`: the faults of a file are those of its missing parts, or else those of its
    lines, in order.
-/
import Mathlib.Data.List.Sort
import TraitCatalog.Proofs.DataFile.Grammar

namespace TraitCatalog.DataFile

open Text (lit)

/-! ## Lines with their numbers -/

/-- Line number `n`, counted from 1, begins as an entry line does. -/
def EntryAt (ls : List Text) (n : Nat) (line : Text) : Prop :=
  (∃ i, n = i + 1 ∧ ls[i]? = some line) ∧ line.startsWith entryLead = true

/-- Line number `n` assigns a list of descriptors to a crate. -/
def Assigns (ls : List Text) (n : Nat) (crate : Text) : Prop :=
  ∃ line ds, EntryAt ls n line ∧ EntryLine line crate ds

/-- What is wrong with line number `n`. -/
inductive LineFault (ls : List Text) (n : Nat) : Fault → Prop
  /-- It does not assign a list of strings, whatever its key. -/
  | notStringList {line} : EntryAt ls n line → (∀ key, ¬ ListsUnder line key) →
      LineFault ls n (.notStringList n)
  /-- It assigns a list to a key that is no literal. -/
  | crateName {line key} : EntryAt ls n line → ListsUnder line key →
      (∀ crate, ¬ Json.Literal (.scalar '"' :: key ++ [.scalar '"']) crate) →
      LineFault ls n (.crateName n)
  /-- It assigns a list to a crate that an earlier line assigns one to. -/
  | duplicateCrate {crate k} : Assigns ls n crate → k < n → Assigns ls k crate →
      LineFault ls n (.duplicateCrate crate n)

section
variable {ls : List Text} {n i : Nat} {line line' crate crate' : Text} {f g : Fault}

theorem EntryAt.of_getElem? (hl : ls[i]? = some line) (hs : line.startsWith entryLead = true) :
    EntryAt ls (i + 1) line :=
  ⟨⟨i, rfl, hl⟩, hs⟩

theorem EntryAt.getElem? (h : EntryAt ls (i + 1) line) : ls[i]? = some line := by
  obtain ⟨⟨j, hj, hl⟩, -⟩ := h
  obtain rfl : i = j := by omega
  exact hl

theorem EntryAt.unique (h : EntryAt ls n line) (h' : EntryAt ls n line') : line = line' := by
  obtain ⟨⟨i, rfl, hl⟩, -⟩ := h
  exact Option.some.inj (hl.symm.trans h'.getElem?)

theorem EntryAt.le_length (h : EntryAt ls n line) : n ≤ ls.length := by
  obtain ⟨⟨i, rfl, hl⟩, -⟩ := h
  exact (List.getElem?_eq_some_iff.1 hl).1

theorem ListsUnder.unique {key key' : Text} (h : ListsUnder line key) (h' : ListsUnder line key') :
    key = key' := by
  obtain ⟨body, ds, hs, -⟩ := h
  obtain ⟨body', ds', hs', -⟩ := h'
  have he := (splitEntry?_iff.2 hs).symm.trans (splitEntry?_iff.2 hs')
  cases he
  rfl

theorem EntryLine.crate_unique {ds ds' : List Text} (h : EntryLine line crate ds)
    (h' : EntryLine line crate' ds') : crate = crate' := by
  obtain ⟨key, body, hs, -, hk⟩ := entryLine_iff.1 h
  obtain ⟨key', body', hs', -, hk'⟩ := entryLine_iff.1 h'
  rw [hs] at hs'
  cases hs'
  exact Option.some.inj (hk.symm.trans hk')

theorem EntryLine.assigns {ds : List Text} (h : EntryLine line crate ds) (hl : ls[i]? = some line) :
    Assigns ls (i + 1) crate :=
  ⟨line, ds, .of_getElem? hl h.startsWith, h⟩

theorem Assigns.unique (h : Assigns ls n crate) (h' : Assigns ls n crate') : crate = crate' := by
  obtain ⟨line, ds, ha, he⟩ := h
  obtain ⟨line', ds', ha', he'⟩ := h'
  rw [ha.unique ha'] at he
  exact he.crate_unique he'

/-- A line that assigns no list to any key does not assign one to a crate. -/
theorem Assigns.listsUnder (h : Assigns ls n crate) (ha : EntryAt ls n line) :
    ∃ key, ListsUnder line key ∧ Json.Literal (.scalar '"' :: key ++ [.scalar '"']) crate := by
  obtain ⟨line', ds, ha', he⟩ := h
  rw [ha.unique ha']
  exact he.listsUnder

/-! ## One fault at most -/

theorem LineFault.entryAt (h : LineFault ls n f) : ∃ line, EntryAt ls n line := by
  cases h with
  | notStringList ha | crateName ha => exact ⟨_, ha⟩
  | duplicateCrate ha =>
    obtain ⟨line, ds, ha, -⟩ := ha
    exact ⟨line, ha⟩

/-- What is wrong with a line that assigns a list to a crate can only be that the crate has one. -/
theorem LineFault.of_assigns (h : LineFault ls n f) (ha : Assigns ls n crate) :
    f = .duplicateCrate crate n ∧ ∃ k < n, Assigns ls k crate := by
  cases h with
  | notStringList hline hno =>
    obtain ⟨key, hkey, -⟩ := ha.listsUnder hline
    exact absurd hkey (hno key)
  | crateName hline hkey hno =>
    obtain ⟨key, hkey', hcrate⟩ := ha.listsUnder hline
    rw [hkey'.unique hkey] at hcrate
    exact absurd hcrate (hno crate)
  | duplicateCrate ha' hk hearlier =>
    rw [ha.unique ha']
    exact ⟨rfl, _, hk, hearlier⟩

theorem LineFault.unique (hf : LineFault ls n f) (hg : LineFault ls n g) : f = g := by
  cases hf with
  | duplicateCrate ha => exact (hg.of_assigns ha).1.symm
  | notStringList hline hno =>
    cases hg with
    | notStringList => rfl
    | crateName hline' hkey =>
      rw [hline'.unique hline] at hkey
      exact absurd hkey (hno _)
    | duplicateCrate ha =>
      obtain ⟨key, hkey, -⟩ := ha.listsUnder hline
      exact absurd hkey (hno key)
  | crateName hline hkey hno =>
    cases hg with
    | notStringList hline' hno' =>
      rw [hline.unique hline'] at hkey
      exact absurd hkey (hno' _)
    | crateName => rfl
    | duplicateCrate ha =>
      obtain ⟨key, hkey', hcrate⟩ := ha.listsUnder hline
      rw [hkey'.unique hkey] at hcrate
      exact absurd hcrate (hno _)

/-- A fault points at its line. -/
theorem LineFault.field? (h : LineFault ls n f) : f.field? = some (lit "line:" ++ Text.ofNat n) := by
  cases h <;> rfl

/-- The first line that assigns a list to a crate has no fault. -/
theorem exists_faultless (ha : Assigns ls n crate) :
    ∃ k ≤ n, Assigns ls k crate ∧ ¬ ∃ f, LineFault ls k f := by
  induction n using Nat.strong_induction_on with
  | _ n ih =>
    by_cases hearlier : ∃ k < n, Assigns ls k crate
    · obtain ⟨k, hk, hak⟩ := hearlier
      obtain ⟨j, hj, hfirst⟩ := ih k hk hak
      exact ⟨j, by omega, hfirst⟩
    · refine ⟨n, le_rfl, ha, ?_⟩
      rintro ⟨f, hf⟩
      exact hearlier (hf.of_assigns ha).2

/-- **Only a line without a fault keeps its crate.** -/
theorem duplicate_iff : LineFault ls n (.duplicateCrate crate n) ↔
    Assigns ls n crate ∧ ∃ k < n, Assigns ls k crate ∧ ¬ ∃ f, LineFault ls k f := by
  constructor
  · rintro (- | - | @⟨_, k, ha, hk, hearlier⟩)
    obtain ⟨j, hj, hfirst⟩ := exists_faultless hearlier
    exact ⟨ha, j, by omega, hfirst⟩
  · rintro ⟨ha, k, hk, hearlier, -⟩
    exact .duplicateCrate ha hk hearlier

/-! ## What has been found after some lines -/

/-- The faults of the lines up to number `i`, one for each line that has one, in order. -/
def FaultsUpTo (ls : List Text) (i : Nat) (faults : List Fault) : Prop :=
  ∃ ns : List Nat, ns.Pairwise (· < ·) ∧ (∀ n, n ∈ ns ↔ n ≤ i ∧ ∃ f, LineFault ls n f) ∧
    List.Forall₂ (LineFault ls) ns faults

theorem FaultsUpTo.skip {fs : List Fault} (h : FaultsUpTo ls i fs)
    (hno : ∀ f, ¬ LineFault ls (i + 1) f) : FaultsUpTo ls (i + 1) fs := by
  obtain ⟨ns, hinc, hmem, hfs⟩ := h
  refine ⟨ns, hinc, fun n => ?_, hfs⟩
  rw [hmem n, Nat.le_succ_iff]
  constructor
  · rintro ⟨hn, hf⟩
    exact ⟨.inl hn, hf⟩
  · rintro ⟨hn | rfl, f, hf⟩
    · exact ⟨hn, f, hf⟩
    · exact absurd hf (hno f)

theorem FaultsUpTo.add {fs : List Fault} (h : FaultsUpTo ls i fs) (hf : LineFault ls (i + 1) f) :
    FaultsUpTo ls (i + 1) (fs ++ [f]) := by
  obtain ⟨ns, hinc, hmem, hfs⟩ := h
  refine ⟨ns ++ [i + 1], ?_, fun n => ?_, List.rel_append hfs (.cons hf .nil)⟩
  · rw [List.pairwise_append]
    refine ⟨hinc, List.pairwise_singleton _ _, fun k hk m hm => ?_⟩
    rw [List.mem_singleton.1 hm]
    have := ((hmem k).1 hk).1
    omega
  · rw [List.mem_append, List.mem_singleton, hmem n, Nat.le_succ_iff]
    constructor
    · rintro (⟨hn, hg⟩ | rfl)
      · exact ⟨.inl hn, hg⟩
      · exact ⟨.inr rfl, f, hf⟩
    · rintro ⟨hn | rfl, hg⟩
      · exact .inl ⟨hn, hg⟩
      · exact .inr rfl

/-- What the reader has found after `i` lines: the crates of the lines that assign a list to one, and
    the faults. -/
structure Covers (ls : List Text) (i : Nat) (found : Found) : Prop where
  keys : ∀ crate, crate ∈ found.crates.keys ↔ ∃ k ≤ i, Assigns ls k crate
  faults : FaultsUpTo ls i found.faults

theorem exists_assigns_succ :
    (∃ k ≤ i + 1, Assigns ls k crate) ↔ (∃ k ≤ i, Assigns ls k crate) ∨ Assigns ls (i + 1) crate := by
  constructor
  · rintro ⟨k, hk, ha⟩
    rcases Nat.le_succ_iff.1 hk with hk | rfl
    · exact .inl ⟨k, hk, ha⟩
    · exact .inr ha
  · rintro (⟨k, hk, ha⟩ | ha)
    · exact ⟨k, by omega, ha⟩
    · exact ⟨i + 1, le_rfl, ha⟩

theorem Covers.step {found found' : Found} (h : Covers ls i found) (hl : ls[i]? = some line)
    (hr : LineReading found (i + 1) line found') : Covers ls (i + 1) found' := by
  -- The crates stay as they are where the line assigns nothing new.
  have hkeys : (∀ crate, Assigns ls (i + 1) crate → crate ∈ found.crates.keys) →
      ∀ crate, crate ∈ found.crates.keys ↔ ∃ k ≤ i + 1, Assigns ls k crate := by
    intro hold crate
    rw [exists_assigns_succ, ← h.keys]
    exact ⟨.inl, fun hc => hc.elim id (hold crate)⟩
  cases hr with
  | skipped hs =>
    have hno : ¬ ∃ line, EntryAt ls (i + 1) line := by
      rintro ⟨line', ha⟩
      have hlead := ha.2
      rw [← Option.some.inj (hl.symm.trans ha.getElem?), hs] at hlead
      cases hlead
    refine ⟨hkeys fun crate ha => ?_, h.faults.skip fun f hf => hno hf.entryAt⟩
    obtain ⟨line', ds, ha, -⟩ := ha
    exact absurd ⟨line', ha⟩ hno
  | notStringList hs hno =>
    have hline := EntryAt.of_getElem? hl hs
    refine ⟨hkeys fun crate ha => ?_, h.faults.add (.notStringList hline hno)⟩
    obtain ⟨key, hkey, -⟩ := ha.listsUnder hline
    exact absurd hkey (hno key)
  | crateName hs hkey hno =>
    have hline := EntryAt.of_getElem? hl hs
    refine ⟨hkeys fun crate ha => ?_, h.faults.add (.crateName hline hkey hno)⟩
    obtain ⟨key, hkey', hcrate⟩ := ha.listsUnder hline
    rw [hkey'.unique hkey] at hcrate
    exact absurd hcrate (hno crate)
  | @duplicateCrate crate ds he hc =>
    have ha := he.assigns hl
    obtain ⟨k, hk, hearlier⟩ := (h.keys crate).1 hc
    refine ⟨hkeys fun crate' ha' => ?_, h.faults.add (.duplicateCrate ha (by omega) hearlier)⟩
    rw [← ha.unique ha']
    exact hc
  | @entry crate ds he hc =>
    have ha := he.assigns hl
    refine ⟨fun crate' => ?_, h.faults.skip fun f hf => ?_⟩
    · rw [exists_assigns_succ, ← h.keys, OrderedMap.keys_put, if_neg hc, List.mem_append,
        List.mem_singleton]
      refine or_congr_right ⟨?_, fun ha' => ha'.unique ha⟩
      rintro rfl
      exact ha
    · obtain ⟨-, k, hk, hearlier⟩ := hf.of_assigns ha
      exact hc ((h.keys crate).2 ⟨k, by omega, hearlier⟩)

theorem Covers.run : ∀ {rest before : List Text} {found found' : Found},
    Covers (before ++ rest) before.length found →
    readLines found (before.length + 1) rest = .ok found' →
    Covers (before ++ rest) (before ++ rest).length found'
  | [], before, found, found', h, hr => by
    cases hr
    rw [List.append_nil] at h ⊢
    exact h
  | line :: rest, before, found, found', h, hr => by
    obtain ⟨f, hline, hr⟩ := readLines_cons.1 hr
    have hstep := h.step (by simp) (lineReading_of_readLine hline)
    have happend : before ++ line :: rest = (before ++ [line]) ++ rest := by simp
    have hlength : before.length + 1 = (before ++ [line]).length := by simp
    rw [happend, hlength] at hstep
    rw [hlength] at hr
    rw [happend]
    exact Covers.run hstep hr

theorem covers_readLines {found : Found} (h : readLines ⟨.empty, []⟩ 1 ls = .ok found) :
    Covers ls ls.length found := by
  have hno : ∀ line, ¬ EntryAt ls 0 line := by
    rintro line ⟨⟨i, hi, -⟩, -⟩
    cases hi
  have hstart : Covers ls 0 ⟨.empty, []⟩ := by
    refine ⟨fun crate => ?_, [], List.Pairwise.nil, fun n => ?_, .nil⟩
    · constructor
      · intro hc
        cases hc
      · rintro ⟨k, hk, line, ds, ha, -⟩
        rw [Nat.le_zero.1 hk] at ha
        exact absurd ha (hno line)
    · constructor
      · intro hn
        cases hn
      · rintro ⟨hn, f, hf⟩
        obtain ⟨line, ha⟩ := hf.entryAt
        rw [Nat.le_zero.1 hn] at ha
        exact absurd ha (hno line)
  exact @Covers.run ls [] _ _ hstart h

end

/-! ## Files -/

/-- The faults with which a text is to be reported.  If a part is missing, they say so and nothing
    else; if not, there is one for each line that has one, in the order of the lines. -/
inductive Report (text : Text) : List Fault → Prop
  | preamble : ¬ Holds text .declaration → Holds text .registrationCall →
      Report text [.missingPreamble]
  | registration : Holds text .declaration → ¬ Holds text .registrationCall →
      Report text [.missingRegistration]
  | both : ¬ Holds text .declaration → ¬ Holds text .registrationCall →
      Report text [.missingPreamble, .missingRegistration]
  | lines {ns : List Nat} {faults} : Holds text .declaration → Holds text .registrationCall →
      ns.Pairwise (· < ·) → (∀ n, n ∈ ns ↔ ∃ f, LineFault (Text.lines text) n f) →
      List.Forall₂ (LineFault (Text.lines text)) ns faults → Report text faults

/-- The faults in the outcome of a reading. -/
def reported : Except (List Fault) DataFile → List Fault
  | .ok _ => []
  | .error faults => faults

theorem Report.unique {text : Text} {fs gs : List Fault} (hf : Report text fs) (hg : Report text gs) :
    fs = gs := by
  cases hf with
  | preamble hd hr =>
    cases hg with
    | preamble => rfl
    | registration hd' | lines hd' => exact absurd hd' hd
    | both _ hr' => exact absurd hr hr'
  | registration hd hr =>
    cases hg with
    | registration => rfl
    | preamble hd' | both hd' => exact absurd hd hd'
    | lines _ hr' => exact absurd hr' hr
  | both hd hr =>
    cases hg with
    | both => rfl
    | preamble _ hr' => exact absurd hr' hr
    | registration hd' | lines hd' => exact absurd hd' hd
  | lines hd hr hinc hmem hfs =>
    cases hg with
    | preamble hd' | both hd' => exact absurd hd hd'
    | registration _ hr' => exact absurd hr hr'
    | lines _ _ hinc' hmem' hgs =>
      have hns := hinc.eq_of_mem_iff hinc' fun n => (hmem n).trans (hmem' n).symm
      rw [← hns] at hgs
      exact List.right_unique_forall₂' (fun _ _ _ hf hg => hf.unique hg) hfs hgs

/-- Where a part is missing, reading comes to its end with the faults that say so. -/
theorem read_of_missing {text : Text} (traitPath : Text)
    (h : ¬ (Holds text .declaration ∧ Holds text .registrationCall)) :
    ∃ faults, read text traitPath = .ok (.error faults) ∧ faults ≠ [] ∧ Report text faults := by
  have hm : missingParts text ≠ [] := fun hm => h (missingParts_eq_nil.1 hm)
  refine ⟨missingParts text, ?_, hm, ?_⟩
  · rw [read]
    split
    · next hnil => exact absurd hnil hm
    · rfl
  · rw [missingParts]
    by_cases hd : Phrase.declaration.occursIn text = true <;>
      by_cases hr : Phrase.registrationCall.occursIn text = true
    · exact absurd ⟨holds_declaration_iff.2 hd, holds_registrationCall_iff.2 hr⟩ h
    · rw [if_pos hd, if_neg hr]
      exact .registration (holds_declaration_iff.2 hd) (hr ∘ holds_registrationCall_iff.1)
    · rw [if_neg hd, if_pos hr]
      exact .preamble (hd ∘ holds_declaration_iff.1) (holds_registrationCall_iff.2 hr)
    · rw [if_neg hd, if_neg hr]
      exact .both (hd ∘ holds_declaration_iff.1) (hr ∘ holds_registrationCall_iff.1)

/-- Where no part is missing, the faults in the outcome are those of the lines. -/
theorem report_of_read {text traitPath : Text} {outcome : Except (List Fault) DataFile}
    (hd : Holds text .declaration) (hr : Holds text .registrationCall)
    (h : read text traitPath = .ok outcome) :
    Report text (reported outcome) ∧ ((∃ d, outcome = .ok d) ↔ reported outcome = []) := by
  rw [read, missingParts_eq_nil.2 ⟨hd, hr⟩] at h
  dsimp only at h
  split at h
  · cases h
  next found hfound =>
  have hreport : Report text found.faults := by
    obtain ⟨ns, hinc, hmem, hfs⟩ := (covers_readLines hfound).faults
    refine .lines hd hr hinc (fun n => (hmem n).trans (and_iff_right_of_imp ?_)) hfs
    rintro ⟨f, hf⟩
    obtain ⟨line, ha⟩ := hf.entryAt
    exact ha.le_length
  split_ifs at h with hf
  · cases h
    rw [List.isEmpty_iff] at hf
    rw [hf] at hreport
    exact ⟨hreport, iff_of_true ⟨_, rfl⟩ rfl⟩
  · cases h
    rw [List.isEmpty_iff] at hf
    exact ⟨hreport, iff_of_false (by simp) hf⟩

/-- **The faults that reading gives are all faults of the text, in order, and nothing else.**  A text
    with a missing part is reported as that and no line of it can end the reading.  Any other text
    that is read to its end is reported with one fault for each line that has one, which points at
    the line, in the order of the lines.  A crate counts as assigned before only by a line without
    a fault.  There is a data file exactly if there is no fault. -/
theorem reports_exactly (text traitPath : Text) :
    (¬ (Holds text .declaration ∧ Holds text .registrationCall) →
      ∃ outcome, read text traitPath = .ok outcome) ∧
    (∀ outcome, read text traitPath = .ok outcome →
      (∀ faults, Report text faults ↔ faults = reported outcome) ∧
        ((∃ d, outcome = .ok d) ↔ reported outcome = [])) ∧
    (∀ n f, LineFault (Text.lines text) n f → f.field? = some (lit "line:" ++ Text.ofNat n)) ∧
    (∀ n crate, LineFault (Text.lines text) n (.duplicateCrate crate n) ↔
      Assigns (Text.lines text) n crate ∧
        ∃ k < n, Assigns (Text.lines text) k crate ∧ ¬ ∃ f, LineFault (Text.lines text) k f) := by
  refine ⟨fun hno => ?_, fun outcome h => ?_, fun n f hf => hf.field?, fun n crate => duplicate_iff⟩
  · obtain ⟨faults, hread, -⟩ := read_of_missing traitPath hno
    exact ⟨_, hread⟩
  · have houtcome : Report text (reported outcome) ∧
        ((∃ d, outcome = .ok d) ↔ reported outcome = []) := by
      by_cases hparts : Holds text .declaration ∧ Holds text .registrationCall
      · exact report_of_read hparts.1 hparts.2 h
      · obtain ⟨faults, hread, hne, hreport⟩ := read_of_missing traitPath hparts
        rw [hread] at h
        cases h
        exact ⟨hreport, iff_of_false (by simp) hne⟩
    refine ⟨fun faults => ⟨fun hf => hf.unique houtcome.1, ?_⟩, houtcome.2⟩
    rintro rfl
    exact houtcome.1

/-- A text whose lines 3 to 6 are at fault in all the ways there are; the last of them does not keep
    line 7 from assigning its crate. -/
def mixedText : Text :=
  Text.join (lit "\n")
    [preamble, lit "implementors[\"a\"] = [\"x\"];", lit "implementors[\"a\"] = [1];",
      lit "implementors[\"\\x41\"] = [];", lit "implementors[\"a\"] = [];",
      lit "implementors[\"b\"] = \"y\";", lit "implementors[\"b\"] = [\"y\",];", registration]

theorem reports_exactly_mixed :
    let faults := [.notStringList 3, .crateName 4, .duplicateCrate (lit "a") 5, .notStringList 6]
    read mixedText (lit "X") = .ok (.error faults) ∧ Report mixedText faults ∧
      faults.map Fault.code =
        [lit "invalid_entry", lit "invalid_entry", lit "duplicate_crate", lit "invalid_entry"] ∧
      faults.map Fault.field? = [lit "line:3", lit "line:4", lit "line:5", lit "line:6"].map some := by
  intro faults
  have hread : read mixedText (lit "X") = .ok (.error faults) := by decide +kernel
  obtain ⟨-, hreport, -⟩ := reports_exactly mixedText (lit "X")
  exact ⟨hread, ((hreport _ hread).1 faults).2 rfl, by decide +kernel, by decide +kernel⟩

end TraitCatalog.DataFile
