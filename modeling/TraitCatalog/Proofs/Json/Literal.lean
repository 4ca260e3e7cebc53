/-
  The grammar of JSON string literals.

  `Inside t ps` says that `t`, without quotes around it, spells the pieces `ps`:
  a code point that is no quote, no backslash and no control, an escaped letter, or
  the number of four digits.  `Literal t v` says that `t` is a whole literal for the
  text `v`.

  * `scan_iff` and `unquote?_iff`: the scanner finds exactly the literals of the
    grammar;
  * `literal_quote`: what `quote` writes is a literal for the text it was given.
-/
import Mathlib.Tactic.SplitIfs
import TraitCatalog.Json.Quoted
import TraitCatalog.Proofs.Text.Cuts

namespace TraitCatalog.Json

/-! ## Grammar -/

/-- The inside of a literal, piece by piece. -/
inductive Inside : Text → List Piece → Prop
  | nil : Inside [] []
  | plain {c t ps} : c ≠ .scalar '"' → c ≠ .scalar '\\' → 0x20 ≤ c.toNat → Inside t ps →
      Inside (c :: t) (.plain c :: ps)
  | letter {e c t ps} : escapeLetter? e = some c → Inside t ps →
      Inside (.scalar '\\' :: e :: t) (.plain c :: ps)
  | number {a b c d n t ps} : hexNumber? a b c d = some n → Inside t ps →
      Inside (.scalar '\\' :: .scalar 'u' :: a :: b :: c :: d :: t) (.escaped n :: ps)

/-- A literal from its opening to its closing quote, and the text that it spells. -/
inductive Literal : Text → Text → Prop
  | mk {t ps} : Inside t ps → Literal (.scalar '"' :: t ++ [.scalar '"']) (joinPieces ps)

/-! ## The scanner -/

theorem scan_plain {c : CodePoint} (h₁ : c ≠ .scalar '"') (h₂ : c ≠ .scalar '\\')
    (h₃ : 0x20 ≤ c.toNat) (t : Text) :
    scan (c :: t) = (scan t).map fun x => (.plain c :: x.1, x.2) := by
  rw [scan.eq_def]
  simp only [h₁, h₂, Nat.not_lt.2 h₃, if_false]
  rcases scan t with _ | ⟨ps, r⟩ <;> rfl

theorem scan_letter {e c : CodePoint} (h : escapeLetter? e = some c) (t : Text) :
    scan (.scalar '\\' :: e :: t) = (scan t).map fun x => (.plain c :: x.1, x.2) := by
  have hu : e ≠ .scalar 'u' := by rintro rfl; simp [escapeLetter?] at h
  rw [scan, if_neg (by decide), if_pos rfl, h]
  · rcases scan t with _ | ⟨ps, r⟩ <;> rfl
  · intro a b c d u he
    exact absurd he hu

theorem scan_number {a b c d : CodePoint} {n : Nat} (h : hexNumber? a b c d = some n) (t : Text) :
    scan (.scalar '\\' :: .scalar 'u' :: a :: b :: c :: d :: t) =
      (scan t).map fun x => (.escaped n :: x.1, x.2) := by
  rw [scan, if_neg (by decide), if_pos rfl]
  simp only [h]
  rcases scan t with _ | ⟨ps, r⟩ <;> rfl

theorem Inside.scan_append {t : Text} {ps : List Piece} (h : Inside t ps) (r : Text) :
    scan (t ++ .scalar '"' :: r) = some (ps, r) := by
  induction h with
  | nil => rw [scan.eq_def]; rfl
  | plain h₁ h₂ h₃ _ ih => rw [List.cons_append, scan_plain h₁ h₂ h₃, ih]; rfl
  | letter he _ ih => rw [List.cons_append, List.cons_append, scan_letter he, ih]; rfl
  | number hn _ ih => simp only [List.cons_append]; rw [scan_number hn, ih]; rfl

theorem inside_of_scan {t r : Text} {ps : List Piece} (h : scan t = some (ps, r)) :
    ∃ u, Inside u ps ∧ t = u ++ .scalar '"' :: r := by
  fun_induction scan t generalizing ps with
  | case1 => simp at h
  | case2 t =>
    simp only [Option.some.injEq, Prod.mk.injEq] at h
    obtain ⟨rfl, rfl⟩ := h
    exact ⟨[], .nil, rfl⟩
  | case3 p q r' s t h₁ ih =>
    simp only [bind, Option.bind_eq_some_iff] at h
    obtain ⟨n, hn, ⟨qs, rest⟩, hs, he⟩ := h
    cases he
    obtain ⟨u, hu, rfl⟩ := ih hs
    exact ⟨_, .number hn hu, rfl⟩
  | case4 e t h₁ h₂ ih =>
    simp only [bind, Option.bind_eq_some_iff] at h
    obtain ⟨c, hc, ⟨qs, rest⟩, hs, he⟩ := h
    cases he
    obtain ⟨u, hu, rfl⟩ := ih hs
    exact ⟨_, .letter hc hu, rfl⟩
  | case5 => simp at h
  | case6 => simp at h
  | case7 c t h₁ h₂ h₃ ih =>
    simp only [bind, Option.bind_eq_some_iff] at h
    obtain ⟨⟨qs, rest⟩, hs, he⟩ := h
    cases he
    obtain ⟨u, hu, rfl⟩ := ih hs
    exact ⟨_, .plain h₁ h₂ (by omega) hu, rfl⟩

/-- **The scanner reads the inside of a literal up to its closing quote.** -/
theorem scan_iff {t r : Text} {ps : List Piece} :
    scan t = some (ps, r) ↔ ∃ u, Inside u ps ∧ t = u ++ .scalar '"' :: r := by
  constructor
  · exact inside_of_scan
  · rintro ⟨u, hu, rfl⟩
    exact hu.scan_append r

theorem scanText_iff {t v r : Text} :
    scanText t = some (v, r) ↔ ∃ l, Literal l v ∧ .scalar '"' :: t = l ++ r := by
  simp only [scanText, Option.map_eq_some_iff, Prod.exists, Prod.mk.injEq]
  constructor
  · rintro ⟨ps, _, hs, rfl, rfl⟩
    obtain ⟨u, hu, rfl⟩ := scan_iff.1 hs
    exact ⟨_, .mk hu, by simp⟩
  · rintro ⟨_, ⟨hu⟩, h⟩
    simp only [List.cons_append, List.cons.injEq, true_and, List.append_assoc] at h
    exact ⟨_, r, scan_iff.2 ⟨_, hu, h⟩, rfl, rfl⟩

/-- **`unquote?` reads exactly the literals.** -/
theorem unquote?_iff {t v : Text} : unquote? t = some v ↔ Literal t v := by
  constructor
  · intro h
    rw [unquote?.eq_def] at h
    split at h
    · split at h
      · rename_i hs
        obtain ⟨l, hl, he⟩ := scanText_iff.1 hs
        cases h
        rw [he, List.append_nil]
        exact hl
      · simp at h
    · simp at h
  · intro h
    obtain ⟨u, rfl⟩ : ∃ u, t = .scalar '"' :: u := by cases h; exact ⟨_, rfl⟩
    have hs : scanText u = some (v, []) := scanText_iff.2 ⟨_, h, by simp⟩
    rw [unquote?, hs]

/-! ## Shape of a literal -/

theorem Literal.eq_cons {t v : Text} (h : Literal t v) : ∃ u, t = .scalar '"' :: u := by
  cases h
  exact ⟨_, rfl⟩

theorem Literal.eq_concat {t v : Text} (h : Literal t v) : ∃ u, t = u ++ [.scalar '"'] := by
  cases h
  exact ⟨_, rfl⟩

theorem hexDigit?_bounds {c : CodePoint} {n : Nat} (h : c.hexDigit? = some n) :
    0x20 ≤ c.toNat ∧ c ≠ .scalar '"' ∧ c ≠ .scalar '\\' := by
  refine ⟨?_, ?_, ?_⟩
  · simp only [CodePoint.hexDigit?, Bool.and_eq_true, decide_eq_true_eq] at h
    split_ifs at h <;> omega
  all_goals
    rintro rfl
    simp [CodePoint.hexDigit?, CodePoint.toNat] at h

theorem hexNumber?_digits {a b c d : CodePoint} {n : Nat} (h : hexNumber? a b c d = some n) :
    ∀ x ∈ [a, b, c, d], 0x20 ≤ x.toNat ∧ x ≠ .scalar '"' ∧ x ≠ .scalar '\\' := by
  simp only [hexNumber?, bind, Option.bind_eq_some_iff] at h
  obtain ⟨_, ha, _, hb, _, hc, _, hd, -⟩ := h
  simp only [List.forall_mem_cons, List.not_mem_nil, false_imp_iff, implies_true, and_true]
  exact ⟨hexDigit?_bounds ha, hexDigit?_bounds hb, hexDigit?_bounds hc, hexDigit?_bounds hd⟩

theorem escapeLetter?_bound {e c : CodePoint} (h : escapeLetter? e = some c) : 0x20 ≤ e.toNat := by
  unfold escapeLetter? at h
  split at h
  case h_9 => cases h
  all_goals decide

theorem Inside.printable {t : Text} {ps : List Piece} (h : Inside t ps) : t.Printable := by
  induction h with
  | nil => simp [Text.Printable]
  | plain _ _ hc _ ih => exact List.forall_mem_cons.2 ⟨hc, ih⟩
  | letter he _ ih =>
    exact List.forall_mem_cons.2 ⟨by decide, List.forall_mem_cons.2 ⟨escapeLetter?_bound he, ih⟩⟩
  | number hn _ ih =>
    have hd := hexNumber?_digits hn
    simp only [List.forall_mem_cons, List.not_mem_nil, false_imp_iff, implies_true, and_true] at hd
    simp only [Text.Printable, List.forall_mem_cons]
    exact ⟨by decide, by decide, hd.1.1, hd.2.1.1, hd.2.2.1.1, hd.2.2.2.1, ih⟩

/-- A literal holds no controls. -/
theorem Literal.printable {t v : Text} (h : Literal t v) : t.Printable := by
  obtain ⟨hi⟩ := h
  have hq : Text.Printable [.scalar '"'] := by unfold Text.Printable; decide
  exact (hq.append hi.printable).append hq

/-! ## Writing -/

theorem joinPieces_escaped {n : Nat} (h : CodePoint.isHighSurrogate n = false) (ps : List Piece) :
    joinPieces (.escaped n :: ps) = escapedPoint n :: joinPieces ps := by
  rcases ps with _ | ⟨_ | _, ps⟩ <;> simp [joinPieces, h]

/-- The digits of a control in base sixteen are read back. -/
theorem hexNumber?_hex : ∀ n < 0x20, ∃ a b c d,
    Text.hex 4 n = [a, b, c, d] ∧ hexNumber? a b c d = some n := by
  intro n hn
  have key : ∀ n < 0x20, Text.hex 4 n = [.scalar '0', .scalar '0', .scalar (Nat.digitChar (n / 16)),
      .scalar (Nat.digitChar (n % 16))] ∧ hexNumber? (.scalar '0') (.scalar '0')
        (.scalar (Nat.digitChar (n / 16))) (.scalar (Nat.digitChar (n % 16))) = some n := by decide
  exact ⟨_, _, _, _, key n hn⟩

theorem shortEscape?_letter : ∀ n < 0x20, ∀ e, shortEscape? n = some e →
    escapeLetter? (.scalar e) = some (escapedPoint n) := by
  intro n hn e he
  have key : ∀ n < 0x20, (shortEscape? n).all fun e =>
      escapeLetter? (.scalar e) = some (escapedPoint n) := by decide
  have := key n hn
  rw [he] at this
  simpa using this

theorem escapedPoint_toNat (c : CodePoint) : escapedPoint c.toNat = c := by
  rw [escapedPoint, CodePoint.ofNat?_toNat]; rfl

theorem inside_escape (c : CodePoint) {t : Text} {ps : List Piece} (h : Inside t ps) :
    ∃ qs, Inside (escape c ++ t) qs ∧ joinPieces qs = c :: joinPieces ps := by
  unfold escape
  split_ifs with h₁ h₂
  · have he : escapeLetter? c = some c := by rcases h₁ with rfl | rfl <;> rfl
    exact ⟨_, .letter he h, rfl⟩
  · rcases hs : shortEscape? c.toNat with _ | e
    · obtain ⟨a, b, d, e, hx, hn⟩ := hexNumber?_hex c.toNat h₂
      refine ⟨.escaped c.toNat :: ps, ?_, ?_⟩
      · simp only [escapeNumber, hx]
        exact .number hn h
      · have hh : CodePoint.isHighSurrogate c.toNat = false := by
          simp [CodePoint.isHighSurrogate]; omega
        rw [joinPieces_escaped hh, escapedPoint_toNat]
    · have he := shortEscape?_letter c.toNat h₂ e hs
      rw [escapedPoint_toNat] at he
      exact ⟨_, .letter he h, rfl⟩
  · rw [not_or] at h₁
    exact ⟨_, .plain h₁.1 h₁.2 (by omega) h, rfl⟩

/-- **`quote` writes a literal for its text.** -/
theorem literal_quote (t : Text) : Literal (quote t) t := by
  have key : ∃ ps, Inside (t.flatMap escape) ps ∧ joinPieces ps = t := by
    induction t with
    | nil => exact ⟨[], .nil, rfl⟩
    | cons c t ih =>
      obtain ⟨ps, hi, hj⟩ := ih
      obtain ⟨qs, hq, he⟩ := inside_escape c hi
      exact ⟨qs, hq, by rw [he, hj]⟩
  obtain ⟨ps, hi, hj⟩ := key
  have := Literal.mk hi
  rw [hj] at this
  exact this

end TraitCatalog.Json
