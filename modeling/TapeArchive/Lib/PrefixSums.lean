/-
  A running total that is added up after every term. It is the plain sum of
  the terms exactly when all terms but the last are zero.
-/
import Mathlib

namespace TapeArchive.Lib

open List

variable {M N : Type} [AddCommMonoid M] [AddCommMonoid N]

/-- The sum of the running totals `w + a₁`, `w + a₁ + a₂`, … of a list. -/
def sumPrefixes (w : M) : List M → M
  | [] => 0
  | a :: l => (w + a) + sumPrefixes (w + a) l

theorem map_sumPrefixes (f : M →+ N) (w : M) (l : List M) :
    f (sumPrefixes w l) = sumPrefixes (f w) (l.map f) := by
  induction l generalizing w with
  | nil => exact map_zero f
  | cons a l ih =>
    rw [sumPrefixes, map_add, ih, map_add]
    rfl

/-- Only the last term counts: the running totals before it are zero. -/
theorem sumPrefixes_of_dropLast_zero {l : List M} (h : ∀ a ∈ l.dropLast, a = 0) :
    sumPrefixes 0 l = l.sum := by
  induction l with
  | nil => rfl
  | cons a l ih =>
    cases l with
    | nil => simp [sumPrefixes]
    | cons b l =>
      have ha : a = 0 := h a mem_cons_self
      have hrest := ih (fun c hc => h c (.tail _ hc))
      rw [sumPrefixes, ha, add_zero, zero_add, hrest, sum_cons (a := (0 : M)), zero_add]

theorem sumPrefixes_nat (w : Nat) (l : List Nat) :
    sumPrefixes w l = l.length * w + sumPrefixes 0 l := by
  induction l generalizing w with
  | nil => simp [sumPrefixes]
  | cons a l ih =>
    rw [sumPrefixes, sumPrefixes, ih, ih (0 + a), length_cons]
    ring

theorem sum_le_sumPrefixes (l : List Nat) : l.sum ≤ sumPrefixes 0 l := by
  induction l with
  | nil => exact Nat.le_refl 0
  | cons a l ih =>
    rw [sumPrefixes, sumPrefixes_nat, sum_cons]
    omega

theorem sumPrefixes_le (l : List Nat) : sumPrefixes 0 l ≤ l.length * l.sum := by
  induction l with
  | nil => exact Nat.le_refl 0
  | cons a l ih =>
    rw [sumPrefixes, sumPrefixes_nat, sum_cons, length_cons, zero_add]
    calc a + (l.length * a + sumPrefixes 0 l)
        ≤ a + (l.length * a + l.length * l.sum) := by omega
      _ ≤ (l.length + 1) * (a + l.sum) := by ring_nf; omega

/-- When the sum of the running totals is the plain sum, nothing precedes the last term. -/
theorem dropLast_zero_of_sumPrefixes_eq {l : List Nat} (h : sumPrefixes 0 l = l.sum) :
    ∀ a ∈ l.dropLast, a = 0 := by
  induction l with
  | nil => simp
  | cons a l ih =>
    rw [sumPrefixes, sumPrefixes_nat, sum_cons, zero_add] at h
    have hle := sum_le_sumPrefixes l
    cases l with
    | nil => simp
    | cons b l =>
      have hm : (b :: l).length * a = 0 := by omega
      have ha : a = 0 := (Nat.mul_eq_zero.mp hm).resolve_left (by simp)
      intro c hc
      rcases List.mem_cons.mp hc with rfl | hc
      · exact ha
      · exact ih (by omega) c hc

end TapeArchive.Lib
