/-
  The linear orders of the 64-bit words, so that the order library applies to
  them, and sums of words that do not wrap. Unsigned words are compared as
  naturals and signed words as integers.
-/
import Mathlib

namespace TapeArchive.Lib

open List
open Int64 (le_iff_toInt_le)
open UInt64 (le_iff_toNat_le toNat_add toNat_inj toNat_ofNat')

instance linearOrderUInt64 : LinearOrder UInt64 where
  le_refl a := UInt64.le_iff_toNat_le.mpr (Nat.le_refl _)
  le_trans a b c hab hbc := by
    rw [le_iff_toNat_le] at *
    exact Nat.le_trans hab hbc
  lt_iff_le_not_ge a b := by
    rw [le_iff_toNat_le, le_iff_toNat_le, UInt64.lt_iff_toNat_lt]
    omega
  le_antisymm a b hab hba := by
    rw [le_iff_toNat_le] at hab hba
    exact UInt64.toNat_inj.mp (Nat.le_antisymm hab hba)
  le_total a b := by
    rw [le_iff_toNat_le, le_iff_toNat_le]
    exact Nat.le_total _ _
  toDecidableLE := inferInstance
  toDecidableEq := inferInstance
  toDecidableLT := inferInstance

instance linearOrderInt64 : LinearOrder Int64 where
  le_refl a := Int64.le_iff_toInt_le.mpr (Int.le_refl _)
  le_trans a b c hab hbc := by
    rw [le_iff_toInt_le] at *
    exact Int.le_trans hab hbc
  lt_iff_le_not_ge a b := by
    rw [le_iff_toInt_le, le_iff_toInt_le, Int64.lt_iff_toInt_lt]
    omega
  le_antisymm a b hab hba := by
    rw [le_iff_toInt_le] at hab hba
    exact Int64.toInt_inj.mp (Int.le_antisymm hab hba)
  le_total a b := by
    rw [le_iff_toInt_le, le_iff_toInt_le]
    exact Int.le_total _ _
  toDecidableLE := inferInstance
  toDecidableEq := inferInstance
  toDecidableLT := inferInstance

/-- A word that is not negative when it is signed reads the same unsigned. -/
theorem toInt_toInt64_of_nonneg {a : UInt64} (h : 0 ≤ a.toInt64) : a.toInt64.toInt = a.toNat := by
  rw [le_iff_toInt_le, ← Int64.toInt_toBitVec a.toInt64, UInt64.toBitVec_toInt64,
    BitVec.toInt_eq_toNat_cond] at h
  rw [← Int64.toInt_toBitVec, UInt64.toBitVec_toInt64, BitVec.toInt_eq_toNat_cond]
  have hz : (0 : Int64).toInt = 0 := rfl
  split
  · simp
  · rename_i hb
    omega

theorem le_of_toInt64_le {a b : UInt64} (ha : 0 ≤ a.toInt64) (hb : 0 ≤ b.toInt64)
    (h : a.toInt64 ≤ b.toInt64) : a ≤ b := by
  rw [le_iff_toInt_le, toInt_toInt64_of_nonneg ha, toInt_toInt64_of_nonneg hb] at h
  exact_mod_cast h

/-- A sum that stays below the word size is the sum of the numbers. -/
theorem toNat_add_sum {base : UInt64} {l : List UInt64}
    (h : base.toNat + (l.map UInt64.toNat).sum < 2 ^ 64) :
    (base + l.sum).toNat = base.toNat + (l.map UInt64.toNat).sum := by
  induction l generalizing base with
  | nil => simp
  | cons a l ih =>
    rw [map_cons, sum_cons] at h
    have ha : (base + a).toNat = base.toNat + a.toNat := by
      rw [toNat_add]
      omega
    rw [sum_cons, ← UInt64.add_assoc, ih (by omega), ha, map_cons, sum_cons]
    omega

/-- Numbers that are not zero have a sum that is not zero, below the word size. -/
theorem add_sum_ne_zero {base : UInt64} {l : List UInt64} (hl : l ≠ [])
    (hpos : ∀ n ∈ l, n ≠ 0) (h : base.toNat + (l.map UInt64.toNat).sum < 2 ^ 64) :
    base + l.sum ≠ 0 := by
  intro hz
  have hs := toNat_add_sum h
  rw [hz] at hs
  obtain ⟨n, hn⟩ := exists_mem_of_ne_nil l hl
  have hle : n.toNat ≤ (l.map UInt64.toNat).sum :=
    single_le_sum (fun _ _ => Nat.zero_le _) _ (mem_map_of_mem hn)
  have hn0 : n.toNat ≠ 0 := fun h0 => hpos n hn (UInt64.toNat_inj.mp h0)
  have h0 : (0 : UInt64).toNat = 0 := rfl
  omega

/-- A sum that does not wrap is zero only if both terms are. -/
theorem add_ne_zero_of_lt {a n : UInt64} (h : a.toNat + n.toNat < 2 ^ 64) :
    (a + n != 0) = (a != 0 || n != 0) := by
  rw [Bool.eq_iff_iff]
  simp only [bne_iff_ne, ne_eq, Bool.or_eq_true, ← toNat_inj, toNat_add, UInt64.toNat_zero]
  omega

/-- A word that should have grown by `n` and has grown by `d` more is right only if nothing was
added beyond `n` and the sum fits. -/
theorem toNat_add_ofNat_add_eq_iff {a d : UInt64} {n : Nat} :
    (a + UInt64.ofNat n + d).toNat = a.toNat + n ↔ d = 0 ∧ a.toNat + n < 2 ^ 64 := by
  have hlt : (a + UInt64.ofNat n + d).toNat < 2 ^ 64 := UInt64.toNat_lt _
  constructor
  · intro h
    have hf : a.toNat + n < 2 ^ 64 := h ▸ hlt
    have hs : a + UInt64.ofNat n + d = a + UInt64.ofNat n := by
      rw [← toNat_inj, h, toNat_add, toNat_ofNat']
      omega
    exact ⟨UInt64.add_eq_left.mp hs, hf⟩
  · rintro ⟨rfl, hf⟩
    rw [UInt64.add_zero, toNat_add, toNat_ofNat']
    omega

end TapeArchive.Lib
