/-
  Files that are judged, and files that are not.

  Reading a text gives a data file or at least one fault, and gives up on two kinds of text: those
  that declare and register the implementors and have, on an entry line, a list that runs into an
  integer with too many digits or into containers nested too deeply (`Overflows`).

  * `readLines_error_iff`: the first such line decides how the reading gives up;
  * `judged_iff`: every other text is judged, and none of these is;
  * `read_longInteger`: the smallest example, a list of one integer.
-/
import TraitCatalog.Proofs.DataFile.RoundTrip
import TraitCatalog.Proofs.Json.Overflow

namespace TraitCatalog.DataFile

open Text (lit Printable)

/-! ## Lists -/

/-- The fault of an array that ends the reading of a file. -/
def ReadAbort.fault : ReadAbort → Json.ReadFault
  | longInteger n => .longInteger n
  | tooDeep => .tooDeep

/-- The tokens of a list body, with the closing bracket. -/
def bodyTokens (body : Text) : List Json.Token :=
  (Json.Token.all (inside body ++ lit "]")).1

theorem readBody_eq_error {body : Text} {a : ReadAbort} :
    readBody body = .error a ↔ Json.Overflow (bodyTokens body) a.fault := by
  have hf : a.fault ≠ .malformed := by cases a <;> simp [ReadAbort.fault]
  have hover : Json.Overflow (bodyTokens body) a.fault ↔
      Json.readItems (inside body ++ lit "]") = .error a.fault := by
    rw [bodyTokens, ← Json.readItems_overflow_iff]
    exact and_iff_left hf
  rw [hover, readBody, inside]
  rcases Json.readItems ((Text.dropTail? (lit ",") (Text.trim body)).getD (Text.trim body) ++ lit "]")
    with (_ | n | _) | items
  all_goals cases a <;> simp [ReadAbort.fault]

/-! ## Lines -/

/-- An entry line whose list cannot be read. -/
def LineOverflows (line : Text) (a : ReadAbort) : Prop :=
  ∃ key body, splitEntry? line = some (key, body) ∧ Json.Overflow (bodyTokens body) a.fault

theorem startsWith_of_splitEntry? {line key body : Text} (h : splitEntry? line = some (key, body)) :
    line.startsWith entryLead = true := by
  obtain ⟨-, -, -, -⟩ := splitEntry?_iff.1 h
  exact Text.startsWith_iff.2 ⟨_, by simp only [entryText, List.append_assoc]; rfl⟩

theorem readLine_error_iff {found : Found} {n : Nat} {line : Text} {a : ReadAbort} :
    readLine found n line = .error a ↔ LineOverflows line a := by
  constructor
  · intro h
    unfold readLine at h
    split_ifs at h with h₁
    split at h
    · cases h
    · next key body hs =>
      refine ⟨key, body, hs, readBody_eq_error.1 ?_⟩
      split at h
      · next b hb =>
        cases h
        exact hb
      · cases h
      · split at h
        · cases h
        · split_ifs at h
  · rintro ⟨key, body, hs, ho⟩
    simp [readLine, startsWith_of_splitEntry? hs, hs, readBody_eq_error.2 ho]

/-- The first line whose list cannot be read decides. -/
theorem readLines_error_iff {a : ReadAbort} : ∀ {ls : List Text} {found : Found} {n : Nat},
    readLines found n ls = .error a ↔ ∃ pre line post, ls = pre ++ line :: post ∧
      (∀ l ∈ pre, ∀ b, ¬ LineOverflows l b) ∧ LineOverflows line a
  | [], found, n => by
    constructor
    · intro h
      cases h
    · rintro ⟨pre, line, post, h, -⟩
      simp at h
  | line :: ls, found, n => by
    rw [readLines]
    rcases hl : readLine found n line with b | found'
    · have hb := readLine_error_iff.1 hl
      dsimp only
      rw [Except.error.injEq]
      constructor
      · rintro rfl
        exact ⟨[], line, ls, rfl, by simp, hb⟩
      · rintro ⟨pre, line', post, he, hpre, ha⟩
        rcases pre with _ | ⟨l, pre⟩
        · cases he
          have ha' := hl.symm.trans (readLine_error_iff.2 ha)
          exact Except.error.inj ha'
        · cases he
          exact absurd hb (hpre _ (List.mem_cons_self ..) b)
    · have hno : ∀ b, ¬ LineOverflows line b := by
        intro b hb
        rw [readLine_error_iff.2 hb] at hl
        cases hl
      dsimp only
      rw [readLines_error_iff]
      constructor
      · rintro ⟨pre, line', post, rfl, hpre, ha⟩
        exact ⟨line :: pre, line', post, rfl, List.forall_mem_cons.2 ⟨hno, hpre⟩, ha⟩
      · rintro ⟨pre, line', post, he, hpre, ha⟩
        rcases pre with _ | ⟨l, pre⟩
        · cases he
          exact absurd ha (hno a)
        · cases he
          exact ⟨pre, line', post, rfl, fun l hl => hpre l (List.mem_cons_of_mem _ hl), ha⟩

/-! ## Files -/

/-- A text with both phrases and an entry line whose list cannot be read. -/
structure Overflows (text : Text) : Prop where
  declares : Holds text .declaration
  registers : Holds text .registrationCall
  line : ∃ line ∈ Text.lines text, ∃ a, LineOverflows line a

/-- The outcome is a data file, or faults of which there is at least one. -/
def Judged (outcome : Except ReadAbort (Except (List Fault) DataFile)) : Prop :=
  (∃ d, outcome = .ok (.ok d)) ∨ ∃ faults, faults ≠ [] ∧ outcome = .ok (.error faults)

theorem exists_first_overflow : ∀ {ls : List Text}, (∃ line ∈ ls, ∃ a, LineOverflows line a) →
    ∃ pre line post a, ls = pre ++ line :: post ∧ (∀ l ∈ pre, ∀ b, ¬ LineOverflows l b) ∧
      LineOverflows line a
  | [], h => by simp at h
  | line :: ls, h => by
    by_cases hl : ∃ a, LineOverflows line a
    · obtain ⟨a, ha⟩ := hl
      exact ⟨[], line, ls, a, rfl, by simp, ha⟩
    · rw [not_exists] at hl
      have hrest : ∃ line ∈ ls, ∃ a, LineOverflows line a := by
        obtain ⟨l, hm, a, ha⟩ := h
        rcases List.mem_cons.1 hm with rfl | hm
        · exact absurd ha (hl a)
        · exact ⟨l, hm, a, ha⟩
      obtain ⟨pre, line', post, a, rfl, hpre, ha⟩ := exists_first_overflow hrest
      exact ⟨line :: pre, line', post, a, rfl, List.forall_mem_cons.2 ⟨hl, hpre⟩, ha⟩

/-- The reading gives up exactly on the texts that overflow. -/
theorem read_error_iff {text traitPath : Text} :
    (∃ a, read text traitPath = .error a) ↔ Overflows text := by
  constructor
  · rintro ⟨a, h⟩
    unfold read at h
    split at h
    · next hm =>
      obtain ⟨hd, hc⟩ := missingParts_eq_nil.1 hm
      split at h
      · next b hr =>
        obtain ⟨pre, line, post, he, -, hb⟩ := readLines_error_iff.1 hr
        exact ⟨hd, hc, line, by rw [he]; simp, b, hb⟩
      · split_ifs at h
    · cases h
  · rintro ⟨hd, hc, hline⟩
    obtain ⟨pre, line, post, a, he, hpre, ha⟩ := exists_first_overflow hline
    have hr : readLines ⟨.empty, []⟩ 1 (Text.lines text) = .error a :=
      readLines_error_iff.2 ⟨pre, line, post, he, hpre, ha⟩
    refine ⟨a, ?_⟩
    rw [read, missingParts_eq_nil.2 ⟨hd, hc⟩]
    simp [hr]

/-- Where there is no data file, there is a fault. -/
theorem faults_ne_nil {text traitPath : Text} {faults : List Fault}
    (h : read text traitPath = .ok (.error faults)) : faults ≠ [] := by
  unfold read at h
  split at h
  · split at h
    · cases h
    · split_ifs at h with hf
      · cases h
      · cases h
        simpa using hf
  · next hm =>
    cases h
    exact hm

/-- **A text is judged exactly if it does not overflow.** -/
theorem judged_iff {text traitPath : Text} : Judged (read text traitPath) ↔ ¬ Overflows text := by
  rw [← @read_error_iff text traitPath]
  rcases h : read text traitPath with a | faults | d
  · simp [Judged]
  · simp [Judged, faults_ne_nil h]
  · simp [Judged]

/-! ## A list that overflows -/

/-- The line of a crate, with its list. -/
def listLine (body : Text) : Text :=
  entryText (lit "a") (lit " ") (lit " ") body []

/-- A data file with one line for a crate. -/
def listFile (body : Text) : Text :=
  preamble ++ Text.newline :: (listLine body ++ Text.newline :: registration)

theorem splitEntry?_listLine (body : Text) : splitEntry? (listLine body) = some (lit "a", body) := by
  have hk : Json.Inside (lit "a") [.plain (.scalar 'a')] :=
    .plain (by decide) (by decide) (by decide) .nil
  have hs : Text.Blanks (lit " ") := by unfold Text.Blanks; decide
  exact splitEntry?_entryText (.of_inside hk) hs hs Text.blanks_nil

theorem printable_listLine {body : Text} (h : Printable body) : Printable (listLine body) := by
  have hlead : Printable (entryLead ++ lit "\"a\"] = [") := by unfold Printable; decide
  have hend : Printable (lit "];") := by unfold Printable; decide
  have := (hlead.append h).append hend
  simpa [listLine, entryText, lit] using this

theorem lines_listFile {body : Text} (h : Printable body) :
    Text.lines (listFile body) = preamble :: listLine body :: Text.lines registration := by
  have hn : Text.newline ∉ listLine body := (printable_listLine h).notMem (by decide)
  rw [listFile, Text.lines, Text.splitOn_append_cons _ (by decide), Text.splitOn_append_cons _ hn]
  rfl

/-- The reading gives up on the line of the crate. -/
theorem read_listFile {body traitPath : Text} {a : ReadAbort} (hp : Printable body)
    (h : Json.Overflow (bodyTokens body) a.fault) : read (listFile body) traitPath = .error a := by
  have hd : Holds (listFile body) .declaration := holds_preamble.append [] _
  have hc : Holds (listFile body) .registrationCall := by
    have := holds_registration.append (preamble ++ Text.newline :: (listLine body ++ [Text.newline])) []
    simpa [listFile] using this
  have hfirst : ∀ b, ¬ LineOverflows preamble b := by
    rintro b ⟨key, body, hs, -⟩
    have := startsWith_of_splitEntry? hs
    exact absurd this (by decide)
  have hr : readLines ⟨.empty, []⟩ 1 (Text.lines (listFile body)) = .error a := by
    rw [lines_listFile hp]
    refine readLines_error_iff.2 ⟨[preamble], listLine body, Text.lines registration, rfl, ?_, ?_⟩
    · exact List.forall_mem_singleton.2 hfirst
    · exact ⟨lit "a", body, splitEntry?_listLine body, h⟩
  rw [read, missingParts_eq_nil.2 ⟨hd, hc⟩]
  simp [hr]

/-- A numeral of `n` ones. -/
def ones (n : Nat) : Text :=
  List.replicate n (.scalar '1')

theorem eq_of_mem_ones {n : Nat} {c : CodePoint} (h : c ∈ ones n) : c = .scalar '1' :=
  List.eq_of_mem_replicate h

theorem reverse_ones (n : Nat) : (ones n).reverse = ones n :=
  List.reverse_replicate

theorem printable_ones (n : Nat) : Printable (ones n) := by
  intro c hc
  rw [eq_of_mem_ones hc]
  decide

theorem inside_ones (n : Nat) : inside (ones n) = ones n := by
  have hs : Text.Sharp (ones n) := by
    intro c hc
    rw [eq_of_mem_ones (List.mem_of_mem_head? hc)]
    decide
  have hs' : Text.Sharp (ones n).reverse := by
    rw [reverse_ones]
    exact hs
  have ht : Text.trim (ones n) = ones n := by
    have := Text.trim_append Text.blanks_nil hs hs' Text.blanks_nil
    simpa using this
  have hn : Text.dropTail? (lit ",") (ones n) = none := by
    rw [Option.eq_none_iff_forall_ne_some]
    intro r hr
    have hm : .scalar ',' ∈ ones n := by
      rw [Text.dropTail?_eq_some.1 hr]
      simp [lit]
    exact absurd (eq_of_mem_ones hm) (by decide)
  rw [inside, ht, hn]
  rfl

theorem token?_ones (n : Nat) :
    Json.token? (.scalar '1' :: (ones n ++ lit "]")) = some (.integer (n + 1), lit "]") := by
  have htake : (ones n ++ lit "]").takeWhile CodePoint.isDigit = ones n := by
    rw [List.takeWhile_append_of_pos fun c hc => by rw [eq_of_mem_ones hc]; decide]
    exact List.append_nil _
  have hdrop : (ones n ++ lit "]").drop (ones n).length = lit "]" := List.drop_left
  have hnumber : Json.token? (.scalar '1' :: (ones n ++ lit "]")) =
      Json.number? (.scalar '1' :: (ones n ++ lit "]")) := rfl
  have hlength : (ones n).length = n := List.length_replicate
  rw [hnumber, Json.number?, if_pos (by decide), if_neg (by decide), htake]
  dsimp only
  rw [hdrop, hlength]
  rfl

theorem bodyTokens_ones (n : Nat) : bodyTokens (ones (n + 1)) = [.integer (n + 1), .closeArray] := by
  have hcons : inside (ones (n + 1)) ++ lit "]" = .scalar '1' :: (ones n ++ lit "]") := by
    rw [inside_ones]
    rfl
  have hlength : (CodePoint.scalar '1' :: (ones n ++ lit "]")).length + 1 = n + 1 + 1 + 1 := by
    simp [ones, lit]
  have hclose := Json.take_close Json.spaces_nil n
  rw [bodyTokens, hcons, Json.Token.all, hlength, Json.take_token (by decide) (token?_ones n)]
  rw [List.nil_append] at hclose
  exact congrArg (_ :: ·) (congrArg Prod.fst hclose)

/-- A list of one integer with too many digits. -/
theorem read_longInteger {n : Nat} (h : Json.digitLimit < n) (traitPath : Text) :
    read (listFile (ones n)) traitPath = .error (.longInteger n) := by
  obtain ⟨n, rfl⟩ : ∃ k, n = k + 1 := ⟨n - 1, by omega⟩
  refine read_listFile (printable_ones _) ?_
  rw [bodyTokens_ones]
  exact @Json.Overflow.longInteger [.array] [] (n + 1) [.closeArray] .first h

end TraitCatalog.DataFile
