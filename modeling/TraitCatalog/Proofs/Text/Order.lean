/-
  The order of texts.

  `Text.le` is a total order (`le_trans`, `le_total`, `le_antisymm`).  Sorting keeps the texts of a
  list (`sort_perm`), so a sorted list is determined by what is in it (`sort_eq`, `sort_congr`).
  Without repeats its texts strictly ascend: each of them stands before all that follow
  (`Text.Before`, `pairwise_before_sort`).
-/
import Mathlib.Data.List.Basic
import TraitCatalog.Proofs.Text.Cuts

namespace TraitCatalog.Text

theorem toNat_injective {a b : CodePoint} (h : a.toNat = b.toNat) : a = b := by
  have := CodePoint.ofNat?_toNat a
  rw [h, CodePoint.ofNat?_toNat] at this
  exact (Option.some.inj this).symm

theorem le_cons {a b : CodePoint} {s t : Text} :
    le (a :: s) (b :: t) = true ↔ a.toNat < b.toNat ∨ a = b ∧ le s t = true := by
  simp [le]

theorem le_total : ∀ s t : Text, (le s t || le t s) = true
  | [], _ => by simp [le]
  | _ :: _, [] => by simp [le]
  | a :: s, b :: t => by
    rw [Bool.or_eq_true, le_cons, le_cons]
    have ih := le_total s t
    rw [Bool.or_eq_true] at ih
    by_cases h : a = b
    · subst h
      rcases ih with ih | ih
      · exact .inl (.inr ⟨rfl, ih⟩)
      · exact .inr (.inr ⟨rfl, ih⟩)
    · have hne : a.toNat ≠ b.toNat := fun he => h (toNat_injective he)
      rcases Nat.lt_or_gt_of_ne hne with hlt | hlt
      · exact .inl (.inl hlt)
      · exact .inr (.inl hlt)

theorem le_trans : ∀ r s t : Text, le r s = true → le s t = true → le r t = true
  | [], _, _, _, _ => by simp [le]
  | _ :: _, [], _, h, _ => by simp [le] at h
  | _ :: _, _ :: _, [], _, h => by simp [le] at h
  | a :: r, b :: s, c :: t, h₁, h₂ => by
    rw [le_cons] at h₁ h₂ ⊢
    rcases h₁ with h₁ | ⟨rfl, h₁⟩
    · rcases h₂ with h₂ | ⟨rfl, -⟩
      · exact .inl (by omega)
      · exact .inl h₁
    · rcases h₂ with h₂ | ⟨rfl, h₂⟩
      · exact .inl h₂
      · exact .inr ⟨rfl, le_trans r s t h₁ h₂⟩

theorem le_antisymm : ∀ s t : Text, le s t = true → le t s = true → s = t
  | [], [], _, _ => rfl
  | [], _ :: _, _, h => by simp [le] at h
  | _ :: _, [], h, _ => by simp [le] at h
  | a :: s, b :: t, h₁, h₂ => by
    rw [le_cons] at h₁ h₂
    rcases h₁ with h₁ | ⟨rfl, h₁⟩
    · rcases h₂ with h₂ | ⟨rfl, -⟩ <;> omega
    · rcases h₂ with h₂ | ⟨-, h₂⟩
      · omega
      · rw [le_antisymm s t h₁ h₂]

/-! ## Sorting -/

theorem sort_perm (ts : List Text) : (sort ts).Perm ts :=
  List.mergeSort_perm ts le

theorem pairwise_sort (ts : List Text) : (sort ts).Pairwise fun a b => le a b = true :=
  List.pairwise_mergeSort le_trans le_total ts

/-- Sorting gives the one list in order that has the same texts. -/
theorem sort_eq {ts us : List Text} (hp : ts.Perm us) (hu : us.Pairwise fun a b => le a b = true) :
    sort ts = us := by
  have hsame := (sort_perm ts).trans hp
  exact hsame.eq_of_pairwise (fun a b _ _ => le_antisymm a b) (pairwise_sort ts) hu

/-- Sorting does not depend on the order in which the texts are given. -/
theorem sort_congr {ts us : List Text} (hp : ts.Perm us) : sort ts = sort us :=
  sort_eq (hp.trans (sort_perm us).symm) (pairwise_sort us)

/-- The text `s` stands strictly before `t`. -/
def Before (s t : Text) : Prop :=
  le s t = true ∧ s ≠ t

/-- Texts that are in order and all different strictly ascend. -/
theorem pairwise_before_sort {ts : List Text} (hn : ts.Nodup) : (sort ts).Pairwise Before :=
  (pairwise_sort ts).and ((sort_perm ts).nodup_iff.2 hn)

end TraitCatalog.Text
