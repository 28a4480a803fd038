/-
  Numbers as text in fields of a fixed width: a number is printed, the text is cut
  or padded to the field, and the front of the field is parsed back. The type of
  the characters is a parameter; a printed number is a list of digits under a map
  of the characters.
-/
import Mathlib

namespace TapeArchive.Lib

open List

abbrev Text := List Char

/-! ## Fields -/

section Fields

variable {α : Type}

/-- A text in a field of width `n`: what is too long is cut off, the rest is filled with `c`. -/
def padRight (n : Nat) (c : α) (s : List α) : List α := s.take n ++ List.replicate (n - s.length) c

theorem padRight_of_length_le {n : Nat} {c : α} {s : List α} (h : s.length ≤ n) :
    padRight n c s = s ++ List.replicate (n - s.length) c := by
  unfold padRight
  rw [take_of_length_le h]

end Fields

/-! ## Parsing the front of a text -/

section Parse

variable {α : Type} (b : Nat) (value : α → Option Nat)

/-- The number that the front of a text denotes, after the digits in `acc`. -/
def parseFront : Nat → List α → Nat
  | acc, [] => acc
  | acc, c :: rest =>
      match value c with
      | some d => parseFront (b * acc + d) rest
      | none => acc

variable {b value}

theorem parseFront_digit {c : α} {d : Nat} (hc : value c = some d) (rest : List α) (acc : Nat) :
    parseFront b value acc (c :: rest) = parseFront b value (b * acc + d) rest := by
  simp only [parseFront, hc]

/-- Digits, and then a character that is none. -/
theorem parseFront_append {c : α} (hc : value c = none) (rest : List α) :
    ∀ {s : List α} {acc : Nat},
      parseFront b value acc (s ++ c :: rest) = parseFront b value acc s := by
  intro s
  induction s with
  | nil =>
    simp [parseFront, hc]
  | cons d s ih =>
    intro acc
    rw [cons_append]
    unfold parseFront
    cases value d with
    | none => rfl
    | some v => exact ih

/-- Digits, and then more digits. -/
theorem parseFront_append_digits (rest : List α) :
    ∀ {s : List α} {acc : Nat}, (∀ c ∈ s, (value c).isSome = true) →
      parseFront b value acc (s ++ rest) = parseFront b value (parseFront b value acc s) rest := by
  intro s
  induction s with
  | nil =>
    intro acc _
    rfl
  | cons d s ih =>
    intro acc h
    obtain ⟨v, hv⟩ := Option.isSome_iff_exists.mp (h d mem_cons_self)
    rw [cons_append, parseFront_digit hv, parseFront_digit hv]
    exact ih (fun c hc => h c (.tail _ hc))

/-- Filling a field with a character that is no digit does not change its number. -/
theorem parseFront_padRight {n : Nat} {c : α} (hc : value c = none) {s : List α} {acc : Nat}
    (h : s.length ≤ n) : parseFront b value acc (padRight n c s) = parseFront b value acc s := by
  rw [padRight_of_length_le h]
  cases hk : n - s.length with
  | zero => rw [replicate_zero, append_nil]
  | succ k => rw [replicate_succ, parseFront_append hc]

/-- What a text of digits can denote. -/
theorem parseFront_lt : ∀ {s : List α} {acc : Nat}, (∀ c ∈ s, ∃ d < b, value c = some d) →
    parseFront b value acc s < (acc + 1) * b ^ s.length := by
  intro s
  induction s with
  | nil =>
    simp [parseFront]
  | cons c s ih =>
    intro acc h
    obtain ⟨d, hd, hc⟩ := h c mem_cons_self
    rw [parseFront_digit hc]
    refine Nat.lt_of_lt_of_le (ih (fun e he => h e (.tail _ he))) ?_
    have hle : b * acc + d + 1 ≤ (acc + 1) * b := by
      rw [Nat.add_mul, Nat.one_mul, Nat.mul_comm acc b]
      omega
    rw [length_cons, Nat.pow_succ, Nat.mul_comm (b ^ s.length) b, ← Nat.mul_assoc]
    exact Nat.mul_le_mul_right _ hle

end Parse

/-! ## Printed numbers -/

section Print

variable {α : Type} {b : Nat} {value : α → Option Nat} {f : Char → α}

/-- Every character of a printed number is a digit. -/
theorem digits_of_mem_printed (hb : 1 < b) (hf : ∀ d < b, value (f (Nat.digitChar d)) = some d)
    (n : Nat) : ∀ c ∈ (Nat.toDigits b n).map f, ∃ d < b, value c = some d := by
  induction n using Nat.strongRecOn with
  | ind n ih =>
    intro c hc
    by_cases hn : n < b
    · rw [Nat.toDigits_of_lt_base hn, map_singleton, mem_singleton] at hc
      rw [hc]
      exact ⟨n, hn, hf n hn⟩
    · have hle : b ≤ n := Nat.le_of_not_lt hn
      rw [Nat.toDigits_of_base_le hb hle, map_append, mem_append] at hc
      cases hc with
      | inl hc => exact ih (n / b) (Nat.div_lt_self (by omega) hb) c hc
      | inr hc =>
        rw [map_singleton, mem_singleton] at hc
        rw [hc]
        have hlt := Nat.mod_lt n (show 0 < b by omega)
        exact ⟨n % b, hlt, hf _ hlt⟩

/-- **A printed number is parsed back.** -/
theorem parseFront_printed (hb : 1 < b) (hf : ∀ d < b, value (f (Nat.digitChar d)) = some d)
    (n : Nat) : parseFront b value 0 ((Nat.toDigits b n).map f) = n := by
  induction n using Nat.strongRecOn with
  | ind n ih =>
    by_cases hn : n < b
    · rw [Nat.toDigits_of_lt_base hn, map_singleton, parseFront_digit (hf n hn),
        Nat.mul_zero, Nat.zero_add]
      rfl
    · have hle : b ≤ n := Nat.le_of_not_lt hn
      have hdi : ∀ c ∈ (Nat.toDigits b (n / b)).map f, (value c).isSome = true := by
        intro c hc
        obtain ⟨d, _, hd⟩ := digits_of_mem_printed hb hf (n / b) c hc
        rw [hd]
        rfl
      rw [Nat.toDigits_of_base_le hb hle, map_append, map_singleton,
        parseFront_append_digits _ hdi, ih (n / b) (Nat.div_lt_self (by omega) hb)]
      rw [parseFront_digit (hf _ (Nat.mod_lt n (show 0 < b by omega)))]
      exact Nat.div_add_mod n b

end Print

/-! ## Decimal numbers -/

/-- The value of a decimal digit. -/
def decimalDigit (c : Char) : Option Nat := if c.isDigit then some (c.toNat - '0'.toNat) else none

/-- `std::to_string`. -/
def decimal (n : Nat) : Text := Nat.toDigits 10 n

theorem decimalDigit_digitChar : ∀ d < 10, decimalDigit (id (Nat.digitChar d)) = some d := by
  decide

theorem parseFront_decimal (n : Nat) : parseFront 10 decimalDigit 0 (decimal n) = n := by
  have h := parseFront_printed (by decide) decimalDigit_digitChar n
  rwa [map_id] at h

/-- The digits of a number fit into a field exactly when it is small enough. -/
theorem decimal_length_le_iff {n k : Nat} (hk : 0 < k) : (decimal n).length ≤ k ↔ n < 10 ^ k :=
  Nat.length_toDigits_le_iff (by decide) hk

/-- What a field of `k` characters can denote. -/
theorem parseFront_decimal_take_lt {n k : Nat} :
    parseFront 10 decimalDigit 0 ((decimal n).take k) < 10 ^ k := by
  have hd : ∀ c ∈ (decimal n).take k, ∃ d < 10, decimalDigit c = some d := by
    intro c hc
    refine digits_of_mem_printed (by decide) decimalDigit_digitChar n c ?_
    rw [map_id]
    exact mem_of_mem_take hc
  refine Nat.lt_of_lt_of_le (parseFront_lt hd) ?_
  rw [Nat.zero_add, Nat.one_mul]
  exact Nat.pow_le_pow_right (by decide) (length_take_le _ _)

end TapeArchive.Lib
