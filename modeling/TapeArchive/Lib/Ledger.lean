/-
  Entries that count once per key. Of a list of entries those count whose key
  was not seen before, neither at the start nor earlier in the list.
-/
import Mathlib.Data.List.Nodup

namespace TapeArchive.Lib

open List

variable {α κ : Type} [DecidableEq κ] (key : α → κ)

/-- The keys seen after the entries of a list. -/
def mark (seen : κ → Bool) (l : List α) : κ → Bool := fun k => seen k || l.any (key · == k)

/-- The entries whose key was not seen before. -/
def firsts (seen : κ → Bool) : List α → List α
  | [] => []
  | a :: l => if seen (key a) then firsts seen l else a :: firsts (mark key seen [a]) l

variable {key}

@[simp] theorem mark_nil (seen : κ → Bool) : mark key seen [] = seen := by
  funext k
  simp [mark]

theorem mark_cons (seen : κ → Bool) (a : α) (l : List α) :
    mark key seen (a :: l) = mark key (mark key seen [a]) l := by
  funext k
  simp [mark, Bool.or_assoc]

theorem mark_append (seen : κ → Bool) (l l' : List α) :
    mark key seen (l ++ l') = mark key (mark key seen l) l' := by
  funext k
  simp [mark, Bool.or_assoc]

variable {seen : κ → Bool}

/-- A key that was seen is marked already. -/
theorem mark_of_seen {a : α} (h : seen (key a) = true) : mark key seen [a] = seen := by
  funext k
  by_cases hk : key a = k
  · subst hk
    simp [mark, h]
  · simp [mark, hk]

theorem firsts_append (seen : κ → Bool) (l l' : List α) :
    firsts key seen (l ++ l') = firsts key seen l ++ firsts key (mark key seen l) l' := by
  induction l generalizing seen with
  | nil => simp [firsts]
  | cons a l ih =>
    rw [cons_append, firsts, firsts, mark_cons seen a l]
    by_cases h : seen (key a) = true
    · rw [if_pos h, if_pos h, ih, mark_of_seen h]
    · rw [if_neg h, if_neg h, ih, cons_append]

theorem firsts_map {β : Type} [BEq κ] (key : β → κ) (f : α → β) (seen : κ → Bool) (l : List α) :
    firsts key seen (l.map f) = (firsts (key ∘ f) seen l).map f := by
  induction l generalizing seen with
  | nil => rfl
  | cons a l ih =>
    rw [map_cons, firsts, firsts, Function.comp_apply]
    split
    · exact ih seen
    · rw [map_cons, ih]
      rfl

theorem firsts_sublist (seen : κ → Bool) (l : List α) : (firsts key seen l).Sublist l := by
  induction l generalizing seen with
  | nil => exact List.Sublist.slnil
  | cons a l ih =>
    rw [firsts]
    split
    · exact (ih seen).cons a
    · exact (ih _).cons_cons a

/-- No entry that counts has a key seen at the start. -/
theorem not_seen_of_mem_firsts {l : List α} {a : α} (ha : a ∈ firsts key seen l) :
    seen (key a) = false := by
  induction l generalizing seen with
  | nil => cases ha
  | cons b l ih =>
    rw [firsts] at ha
    by_cases h : seen (key b) = true
    · rw [if_pos h] at ha
      exact ih ha
    rw [if_neg h] at ha
    rcases List.mem_cons.mp ha with rfl | ha
    · exact Bool.not_eq_true _ ▸ h
    have hm := ih ha
    simp only [mark, Bool.or_eq_false_iff] at hm
    exact hm.1

/-- **Every key counts at most once.** -/
theorem firsts_keys_nodup (seen : κ → Bool) (l : List α) : ((firsts key seen l).map key).Nodup := by
  induction l generalizing seen with
  | nil => exact nodup_nil
  | cons a l ih =>
    rw [firsts]
    split
    · exact ih seen
    rw [map_cons, nodup_cons]
    refine ⟨fun hme => ?_, ih _⟩
    obtain ⟨b, hb, hk⟩ := List.mem_map.mp hme
    -- the key of `a` is marked, so no later entry with it counts
    have hm := not_seen_of_mem_firsts hb
    simp [mark, hk] at hm

/-- The keys seen after a list are those seen before and those of the entries that count. -/
theorem mark_iff_firsts {l : List α} {k : κ} :
    mark key seen l k = true ↔ seen k = true ∨ k ∈ (firsts key seen l).map key := by
  induction l generalizing seen with
  | nil => simp [firsts]
  | cons a l ih =>
    rw [mark_cons seen a l, ih, firsts]
    by_cases h : seen (key a) = true
    · rw [if_pos h, mark_of_seen h]
    rw [if_neg h, map_cons, mem_cons]
    have hm : mark key seen [a] k = true ↔ seen k = true ∨ k = key a := by
      rw [eq_comm (a := k)]
      simp [mark]
    rw [hm, or_assoc]

/-- An entry with a key of its own counts unless the key was seen. -/
theorem mem_firsts_iff {l : List α} (h : ∀ a ∈ l, ∀ b ∈ l, key a = key b → a = b) {a : α} :
    a ∈ firsts key seen l ↔ a ∈ l ∧ seen (key a) = false := by
  refine ⟨fun ha => ⟨(firsts_sublist seen l).subset ha, not_seen_of_mem_firsts ha⟩, ?_⟩
  rintro ⟨ha, hs⟩
  have hm : mark key seen l (key a) = true := by
    simp only [mark, Bool.or_eq_true, any_eq_true, beq_iff_eq]
    exact .inr ⟨a, ha, rfl⟩
  obtain hs' | hk := mark_iff_firsts.mp hm
  · simp [hs] at hs'
  obtain ⟨b, hb, hk⟩ := mem_map.mp hk
  rwa [h a ha b ((firsts_sublist seen l).subset hb) hk.symm]

/-- **Neither the order of the entries nor their number matters**. -/
theorem firsts_perm {l l' : List α} (h : ∀ a ∈ l, ∀ b ∈ l, key a = key b → a = b)
    (hl : ∀ a, a ∈ l ↔ a ∈ l') : (firsts key seen l).Perm (firsts key seen l') := by
  refine (perm_ext_iff_of_nodup (firsts_keys_nodup seen l).of_map
    (firsts_keys_nodup seen l').of_map).mpr fun a => ?_
  rw [mem_firsts_iff h, mem_firsts_iff (by simpa only [hl] using h), hl]

end TapeArchive.Lib
