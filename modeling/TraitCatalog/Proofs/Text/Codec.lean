/-
  Writing a text in UTF-8 and reading it again.

  A code point of two or more bytes is read by way of a sequence under way
  (`decodeFrom_next`), whose range admits exactly what `Utf8.bytes` writes for scalar
  values; this is where surrogates differ.

  * `Encoding.encode_utf8`, `Encoding.decode_utf8`: a text without surrogates can be written,
    and comes back from its bytes;
  * `Text.unifyBreaks_eq`: a text without carriage returns is not changed by text mode.
-/
import Mathlib.Data.List.TakeWhile
import TraitCatalog.Proofs.Text.Cuts
import TraitCatalog.Text.Codec
import TraitCatalog.Text.Lines

namespace TraitCatalog

namespace CodePoint

/-- A scalar value. -/
def IsScalar (c : CodePoint) : Prop :=
  ∃ ch, c = scalar ch

theorem IsScalar.bound {c : CodePoint} (h : c.IsScalar) :
    c.toNat < 0xD800 ∨ 0xDFFF < c.toNat ∧ c.toNat < 0x110000 := by
  obtain ⟨ch, rfl⟩ := h
  exact ch.valid

end CodePoint

/-- A text without surrogates. -/
def Text.Scalar (t : Text) : Prop :=
  ∀ c ∈ t, c.IsScalar

namespace Text.Scalar

variable {t u : Text}

theorem append (ht : Scalar t) (hu : Scalar u) : Scalar (t ++ u) := by
  intro c hc
  rcases List.mem_append.1 hc with hc | hc
  · exact ht c hc
  · exact hu c hc

theorem lit (s : String) : Scalar (Text.lit s) := by
  intro c hc
  obtain ⟨ch, -, rfl⟩ := List.mem_map.1 hc
  exact ⟨ch, rfl⟩

theorem flatMap {α : Type} {l : List α} {f : α → Text} (h : ∀ a ∈ l, Scalar (f a)) :
    Scalar (l.flatMap f) := by
  intro c hc
  obtain ⟨a, ha, hc⟩ := List.mem_flatMap.1 hc
  exact h a ha c hc

theorem join {sep : Text} {ps : List Text} (hs : Scalar sep) (hp : ∀ p ∈ ps, Scalar p) :
    Scalar (Text.join sep ps) := by
  intro c hc
  rcases mem_join hc with hc | ⟨p, hm, hc⟩
  · exact hs c hc
  · exact hp p hm c hc

end Text.Scalar

/-! ## One code point -/

namespace Utf8

theorem point_toNat (c : CodePoint) : point c.toNat = c := by
  rw [point, CodePoint.ofNat?_toNat]
  rfl

variable {lead : UInt8} {start taken bits lo hi k : Nat}

/-- A byte in the range that a sequence under way expects is taken. -/
theorem decodeFrom_next (hlo : lo ≤ k) (hhi : k ≤ hi) (hk : k < 256) (more pos : Nat)
    (bs : List UInt8) :
    decodeFrom pos (some ⟨lead, start, taken, bits, more + 2, lo, hi⟩) (.ofNat k :: bs) =
      decodeFrom (pos + 1) (some ⟨lead, start, taken + 1, bits * 64 + (k - 0x80), more + 1,
        0x80, 0xBF⟩) bs := by
  have hm : ¬ more + 2 = 1 := by omega
  rw [decodeFrom, UInt8.toNat_ofNat_of_lt' hk, if_pos ⟨hlo, hhi⟩]
  simp only [hm, if_false]
  rfl

/-- The last byte of a sequence completes a code point. -/
theorem decodeFrom_last (hlo : lo ≤ k) (hhi : k ≤ hi) (hk : k < 256) (pos : Nat) (bs : List UInt8) :
    decodeFrom pos (some ⟨lead, start, taken, bits, 1, lo, hi⟩) (.ofNat k :: bs) =
      (decodeFrom (pos + 1) none bs).map (point (bits * 64 + (k - 0x80)) :: ·) := by
  rw [decodeFrom, UInt8.toNat_ofNat_of_lt' hk, if_pos ⟨hlo, hhi⟩]
  rfl

/-- A lead byte opens a sequence. -/
theorem decodeFrom_lead (h : 0x80 ≤ k) (hk : k < 256) {pos : Nat} {p : Pending}
    (hp : begin? pos (.ofNat k) = some p) (bs : List UInt8) :
    decodeFrom pos none (.ofNat k :: bs) = decodeFrom (pos + 1) (some p) bs := by
  rw [decodeFrom, UInt8.toNat_ofNat_of_lt' hk, if_neg (by omega), hp]

theorem begin?_two (hlo : 0xC2 ≤ k) (hhi : k ≤ 0xDF) (pos : Nat) :
    begin? pos (.ofNat k) = some ⟨.ofNat k, pos, 1, k - 0xC0, 1, 0x80, 0xBF⟩ := by
  simp [begin?, UInt8.toNat_ofNat_of_lt' (show k < 256 by omega), hlo, hhi]

theorem begin?_three (hlo : 0xE0 ≤ k) (hhi : k ≤ 0xEF) (pos : Nat) :
    begin? pos (.ofNat k) = some ⟨.ofNat k, pos, 1, k - 0xE0, 2,
      if k = 0xE0 then 0xA0 else 0x80, if k = 0xED then 0x9F else 0xBF⟩ := by
  have h : ¬ k ≤ 0xDF := by omega
  simp [begin?, UInt8.toNat_ofNat_of_lt' (show k < 256 by omega), hlo, hhi, h]

theorem begin?_four (hlo : 0xF0 ≤ k) (hhi : k ≤ 0xF4) (pos : Nat) :
    begin? pos (.ofNat k) = some ⟨.ofNat k, pos, 1, k - 0xF0, 3,
      if k = 0xF0 then 0x90 else 0x80, if k = 0xF4 then 0x8F else 0xBF⟩ := by
  have h : ¬ k ≤ 0xDF := by omega
  have h' : ¬ k ≤ 0xEF := by omega
  simp [begin?, UInt8.toNat_ofNat_of_lt' (show k < 256 by omega), hlo, hhi, h, h']

/-- The bytes of a scalar value are read as that value. -/
theorem decodeFrom_bytes {c : CodePoint} (hc : c.IsScalar) (pos : Nat) (bs : List UInt8) :
    decodeFrom pos none (bytes c ++ bs) =
      (decodeFrom (pos + (bytes c).length) none bs).map (c :: ·) := by
  have hn := hc.bound
  have hpoint := point_toNat c
  unfold bytes
  generalize c.toNat = n at hn hpoint
  dsimp only
  by_cases h1 : n < 0x80
  · have hk : n < 256 := by omega
    rw [if_pos h1, List.singleton_append, decodeFrom, UInt8.toNat_ofNat_of_lt' hk, if_pos h1, hpoint]
    rfl
  by_cases h2 : n < 0x800
  · rw [if_neg h1, if_pos h2, List.cons_append, List.singleton_append,
      decodeFrom_lead (by omega) (by omega) (begin?_two (by omega) (by omega) pos),
      decodeFrom_last (by omega) (by omega) (by omega)]
    have hbits : (0xC0 + n / 0x40 - 0xC0) * 64 + (0x80 + n / 1 % 64 - 0x80) = n := by omega
    rw [hbits, hpoint]
    rfl
  by_cases h3 : n < 0x10000
  -- The first byte after 0xE0 and 0xED has a narrower range: no overlong form, no surrogate.
  · rw [if_neg h1, if_neg h2, if_pos h3, List.cons_append, List.cons_append, List.singleton_append,
      decodeFrom_lead (by omega) (by omega) (begin?_three (by omega) (by omega) pos),
      decodeFrom_next (by split <;> omega) (by split <;> omega) (by omega) 0,
      decodeFrom_last (by omega) (by omega) (by omega)]
    have hbits : ((0xE0 + n / 0x1000 - 0xE0) * 64 + (0x80 + n / 0x40 % 64 - 0x80)) * 64 +
        (0x80 + n / 1 % 64 - 0x80) = n := by omega
    rw [hbits, hpoint]
    rfl
  -- So has the first byte after 0xF0 and 0xF4: nothing is beyond U+10FFFF.
  · rw [if_neg h1, if_neg h2, if_neg h3, List.cons_append, List.cons_append, List.cons_append,
      List.singleton_append,
      decodeFrom_lead (by omega) (by omega) (begin?_four (by omega) (by omega) pos),
      decodeFrom_next (by split <;> omega) (by split <;> omega) (by omega) 1,
      decodeFrom_next (by omega) (by omega) (by omega) 0,
      decodeFrom_last (by omega) (by omega) (by omega)]
    have hbits : (((0xF0 + n / 0x40000 - 0xF0) * 64 + (0x80 + n / 0x1000 % 64 - 0x80)) * 64 +
        (0x80 + n / 0x40 % 64 - 0x80)) * 64 + (0x80 + n / 1 % 64 - 0x80) = n := by omega
    rw [hbits, hpoint]
    rfl

/-! ## Texts -/

theorem decodeFrom_flatMap : ∀ {t : Text}, t.Scalar → ∀ pos,
    decodeFrom pos none (t.flatMap bytes) = .ok t
  | [], _, _ => by rw [List.flatMap_nil, decodeFrom]
  | c :: t, h, pos => by
    have hc : c.IsScalar := h c (List.mem_cons_self ..)
    have ht : Text.Scalar t := fun d hd => h d (List.mem_cons_of_mem _ hd)
    rw [List.flatMap_cons, decodeFrom_bytes hc, decodeFrom_flatMap ht]
    rfl

end Utf8

theorem Encoding.encode_utf8 {t : Text} (h : t.Scalar) :
    Encoding.utf8.encode t = .ok (t.flatMap Utf8.bytes) := by
  have hf : (t.takeWhile fun c => Encoding.utf8.fits c) = t := by
    rw [List.takeWhile_eq_self_iff]
    intro c hc
    obtain ⟨ch, rfl⟩ := h c hc
    rfl
  unfold encode
  rw [hf]
  dsimp only
  rw [List.drop_length]
  rfl

/-- A text without surrogates comes back from its bytes. -/
theorem Encoding.decode_utf8 {t : Text} (h : t.Scalar) :
    Encoding.utf8.decode (t.flatMap Utf8.bytes) = .ok t :=
  Utf8.decodeFrom_flatMap h 0

/-- A text without carriage returns is not changed by text mode. -/
theorem Text.unifyBreaks_eq : ∀ {t : Text}, .scalar '\r' ∉ t → t.unifyBreaks = t
  | [], _ => rfl
  | [c], h => by
    have hc : c ≠ .scalar '\r' := fun he => h (by rw [he]; exact List.mem_singleton_self _)
    rw [unifyBreaks, if_neg hc]
  | c :: d :: t, h => by
    have hc : c ≠ .scalar '\r' := fun he => h (by rw [he]; exact List.mem_cons_self ..)
    rw [unifyBreaks, if_neg hc, unifyBreaks_eq fun hm => h (List.mem_cons_of_mem _ hm)]

end TraitCatalog
