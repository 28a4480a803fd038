/-
  Lists that are changed at a position, lists kept in the order of a key, and
  lists cut into batches.

  A position is given by what stands before it, so that the operations by index
  read as concatenations.
-/
import Mathlib

namespace TapeArchive.Lib

open List

/-! ## Positions -/

section Positions

variable {α : Type} (before after : List α) (x : α)

theorem insertIdx_length_append :
    (before ++ after).insertIdx before.length x = before ++ x :: after := by
  induction before with
  | nil => simp
  | cons b before ih => simpa using ih

theorem modify_length_append (f : α → α) :
    (before ++ x :: after).modify before.length f = before ++ f x :: after := by
  induction before with
  | nil => simp
  | cons b before ih => simpa using ih

theorem eraseIdx_length_append :
    (before ++ x :: after).eraseIdx before.length = before ++ after := by
  induction before with
  | nil => simp
  | cons b before ih => simpa using ih

end Positions

/-- What holds at every position of a list, by its first element and the rest. -/
theorem forall_split_cons {α : Type} {P : List α → α → Prop} {a : α} {l : List α} :
    (∀ before x after, a :: l = before ++ x :: after → P before x)
      ↔ P [] a ∧ ∀ before x after, l = before ++ x :: after → P (a :: before) x := by
  constructor
  · exact fun h => ⟨h [] a l rfl, fun before x after he => h (a :: before) x after (by rw [he]; rfl)⟩
  · rintro ⟨ha, hl⟩ before x after he
    cases before with
    | nil =>
      cases he
      exact ha
    | cons b before =>
      cases he
      exact hl before x after rfl

/-! ## Sorted lists -/

/-- The first acceptable element of a sorted list comes before all others. -/
theorem find?_sorted {α : Type} {r : α → α → Prop} {p : α → Bool} {l : List α} (hl : l.Pairwise r)
    {a : α} (h : l.find? p = some a) : ∀ b ∈ l, p b = true → b = a ∨ r a b := by
  induction l with
  | nil => cases h
  | cons c l ih =>
    rw [List.pairwise_cons] at hl
    intro b hb hpb
    rw [List.find?_cons] at h
    cases hc : p c with
    | true =>
      rw [hc] at h
      cases h
      exact (List.mem_cons.mp hb).imp_right (hl.1 b)
    | false =>
      rw [hc] at h
      rcases List.mem_cons.mp hb with rfl | hb
      · rw [hc] at hpb
        cases hpb
      · exact ih hl.2 h b hb hpb

section Sorted

variable {α κ : Type} [LinearOrder κ] {key : α → κ}

/-- The keys do not decrease along the list. -/
def SortedBy (key : α → κ) (l : List α) : Prop := l.Pairwise (fun a b => key a ≤ key b)

@[simp] theorem sortedBy_nil : SortedBy key [] := List.Pairwise.nil

variable {l : List α}

@[simp] theorem sortedBy_cons {a : α} :
    SortedBy key (a :: l) ↔ (∀ b ∈ l, key a ≤ key b) ∧ SortedBy key l :=
  pairwise_cons

theorem SortedBy.filter (h : SortedBy key l) (p : α → Bool) : SortedBy key (l.filter p) :=
  List.Pairwise.filter p h

/-- The first key is the lowest one and the last key the highest. -/
theorem SortedBy.head_le_getLast (h : SortedBy key l) (hne : l ≠ []) :
    key (l.head hne) ≤ key (l.getLast hne) := by
  cases l with
  | nil => exact absurd rfl hne
  | cons a l =>
    rcases List.mem_cons.mp (getLast_mem hne) with heq | hm
    · exact le_of_eq (congrArg key heq.symm)
    · exact (sortedBy_cons.mp h).1 _ hm

/-- Inserting after the equals keeps the order. -/
theorem SortedBy.orderedInsert_lt [DecidableRel (fun a b : α => key a < key b)]
    (h : SortedBy key l) (x : α) :
    SortedBy key (l.orderedInsert (fun a b => key a < key b) x) := by
  induction l with
  | nil => simp [SortedBy]
  | cons b l ih =>
    obtain ⟨hb, hl⟩ := sortedBy_cons.mp h
    rw [orderedInsert_cons]
    split
    · rename_i hx
      refine sortedBy_cons.mpr ⟨?_, h⟩
      intro c hc
      rcases List.mem_cons.mp hc with rfl | hc
      · exact le_of_lt hx
      · exact le_trans (le_of_lt hx) (hb c hc)
    · rename_i hx
      refine sortedBy_cons.mpr ⟨?_, ih hl⟩
      intro c hc
      rcases (mem_orderedInsert _).mp hc with rfl | hc
      · exact not_lt.mp hx
      · exact hb c hc

/-- Elements inserted one after another, each after its equals. -/
theorem foldl_orderedInsert_spec [DecidableRel (fun a b : α => key a < key b)] (xs set : List α) :
    let merged := xs.foldl (fun set x => set.orderedInsert (fun a b => key a < key b) x) set
    merged.Perm (set ++ xs) ∧ (SortedBy key set → SortedBy key merged) := by
  induction xs generalizing set with
  | nil => simp
  | cons x xs ih =>
    obtain ⟨hp, ho⟩ := ih (set.orderedInsert (fun a b => key a < key b) x)
    have hi := (perm_orderedInsert (fun a b : α => key a < key b) x set).trans
      (perm_append_singleton _ _).symm
    refine ⟨?_, fun h => ho (h.orderedInsert_lt x)⟩
    simpa using hp.trans (hi.append_right xs)

/-- Reading the list from its end, inserting after the equals is an ordered insertion
for the reversed order. -/
theorem SortedBy.reverse_orderedInsert [DecidableRel (fun a b : α => key b ≤ key a)]
    (h : SortedBy key l) (x : α) :
    SortedBy key (l.reverse.orderedInsert (fun a b => key b ≤ key a) x).reverse := by
  unfold SortedBy at h ⊢
  rw [pairwise_reverse]
  exact List.Pairwise.orderedInsert x _ (List.pairwise_reverse.mpr h)

/-- Every position between the number of lower keys and the number of keys that are not
higher keeps the order. -/
theorem SortedBy.insertIdx (h : SortedBy key l) {x : α} {n : Nat}
    (hlo : l.countP (fun a => key a < key x) ≤ n)
    (hu : n ≤ l.countP (fun a => key a ≤ key x)) : SortedBy key (l.insertIdx n x) := by
  induction l generalizing n with
  | nil =>
    simp only [countP_nil, Nat.le_zero_eq] at hu
    subst hu
    simp [SortedBy]
  | cons b l ih =>
    obtain ⟨hb, hl⟩ := sortedBy_cons.mp h
    cases n with
    | zero =>
      -- no key is lower than the new one
      rw [Nat.le_zero, countP_eq_zero] at hlo
      refine sortedBy_cons.mpr ⟨fun c hc => ?_, h⟩
      have := hlo c hc
      simpa using this
    | succ n =>
      have hbx : key b ≤ key x := by
        by_contra hlt
        have hz : (b :: l).countP (fun a => key a ≤ key x) = 0 := by
          rw [countP_eq_zero]
          intro c hc
          rcases List.mem_cons.mp hc with rfl | hc
          · simpa using hlt
          · simpa using lt_of_lt_of_le (not_le.mp hlt) (hb c hc)
        omega
      rw [countP_cons] at hlo hu
      refine sortedBy_cons.mpr ⟨?_, ih hl ?_ ?_⟩
      · intro c hc
        rcases eq_or_mem_of_mem_insertIdx hc with rfl | hc
        · exact hbx
        · exact hb c hc
      · by_cases hlt : key b < key x
        · simp only [hlt, decide_true, ↓reduceIte] at hlo
          omega
        · -- an equal key: the rest of the list has no lower one
          have hz : l.countP (fun a => key a < key x) = 0 := by
            rw [countP_eq_zero]
            intro c hc
            simpa using le_trans (not_lt.mp hlt) (hb c hc)
          omega
      · simp only [hbx, decide_true, ↓reduceIte] at hu
        omega

/-- Where the keys of a sorted list pass a limit. -/
theorem SortedBy.countP_above (h : SortedBy key l) {limit : κ} {n : Nat} (hn : n ≤ l.length)
    (hh : ∀ a, l[n]? = some a → limit < key a)
    (hlo : ∀ i a, i + 1 = n → l[i]? = some a → key a ≤ limit) :
    l.countP (fun a => limit < key a) = l.length - n := by
  induction l generalizing n with
  | nil => simp
  | cons b l ih =>
    obtain ⟨hb, hl⟩ := sortedBy_cons.mp h
    cases n with
    | zero =>
      have hli : limit < key b := hh b rfl
      refine countP_eq_length.mpr ?_
      intro a ha
      rcases List.mem_cons.mp ha with rfl | ha
      · simpa using hli
      · simpa using hli.trans_le (hb a ha)
    | succ n =>
      have hrest := ih hl (Nat.le_of_succ_le_succ hn) hh (fun i a hi => hlo (i + 1) a (by omega))
      have hbl : key b ≤ limit := by
        cases n with
        | zero => exact hlo 0 b rfl rfl
        | succ n =>
          have ha := List.getElem?_eq_getElem (Nat.lt_of_succ_lt_succ hn)
          exact (hb _ (mem_of_getElem? ha)).trans (hlo (n + 1) _ rfl ha)
      rw [countP_cons, hrest]
      simp [not_lt.mpr hbl]

end Sorted

/-! ## The least value of a list -/

section Least

variable {α β : Type*} [LinearOrder α]

/-- A loop that keeps the lesser of what it has and what it sees ends with the least. -/
theorem foldl_least_spec (f : β → α) (l : List β) (t : α) :
    l.foldl (fun t x => if f x < t then f x else t) t ≤ t
      ∧ (∀ x ∈ l, l.foldl (fun t x => if f x < t then f x else t) t ≤ f x)
      ∧ (l.foldl (fun t x => if f x < t then f x else t) t = t
        ∨ ∃ x ∈ l, l.foldl (fun t x => if f x < t then f x else t) t = f x) := by
  induction l generalizing t with
  | nil => exact ⟨le_refl _, by simp, .inl rfl⟩
  | cons y l ih =>
    obtain ⟨hle, ha, hm⟩ := ih (if f y < t then f y else t)
    have hmi : (if f y < t then f y else t) = min (f y) t := by
      by_cases h : f y < t
      · rw [if_pos h, min_eq_left h.le]
      · rw [if_neg h, min_eq_right (not_lt.mp h)]
    rw [foldl_cons]
    rw [hmi] at hle hm ha ⊢
    refine ⟨hle.trans (min_le_right _ _), ?_, ?_⟩
    · intro x hx
      rcases List.mem_cons.mp hx with rfl | hx
      · exact hle.trans (min_le_left _ _)
      · exact ha x hx
    · rcases hm with hm | ⟨x, hx, hm⟩
      · rw [hm]
        rcases min_choice (f y) t with h | h
        · exact .inr ⟨y, by simp, h⟩
        · exact .inl h
      · exact .inr ⟨x, .tail _ hx, hm⟩

/-- When the loop starts above all values, the least is one of them. -/
theorem isLeast_foldl (f : β → α) {l : List β} (hne : l ≠ []) {t : α} (ht : ∀ x ∈ l, f x ≤ t) :
    IsLeast {a | ∃ x ∈ l, f x = a} (l.foldl (fun t x => if f x < t then f x else t) t) := by
  obtain ⟨-, hle, hs | ⟨k, hk, heq⟩⟩ := foldl_least_spec f l t
  · obtain ⟨y, hy⟩ := exists_mem_of_ne_nil l hne
    refine ⟨⟨y, hy, le_antisymm ((ht y hy).trans hs.ge) (hle y hy)⟩, ?_⟩
    rintro a ⟨x, hx, rfl⟩
    exact hle x hx
  · refine ⟨⟨k, hk, heq.symm⟩, ?_⟩
    rintro a ⟨x, hx, rfl⟩
    exact hle x hx

theorem isGreatest_foldl (f : β → α) {l : List β} (hne : l ≠ []) {t : α} (ht : ∀ x ∈ l, t ≤ f x) :
    IsGreatest {a | ∃ x ∈ l, f x = a} (l.foldl (fun t x => if t < f x then f x else t) t) :=
  @isLeast_foldl αᵒᵈ β _ f l hne t ht

end Least

/-! ## Batches -/

section Batches

variable {α : Type}

/-- A list cut into batches of `n`; the last one may be shorter. -/
def batches (n : Nat) (l : List α) : List (List α) := go l.length l
where
  /-- At most as many batches as there are elements. -/
  go : Nat → List α → List (List α)
    | 0, _ => []
    | fuel + 1, l => if l.isEmpty then [] else l.take n :: go fuel (l.drop n)

theorem batches_go_flatten {n : Nat} (hn : 0 < n) (fuel : Nat) (l : List α)
    (hf : l.length ≤ fuel) : (batches.go n fuel l).flatten = l := by
  induction fuel generalizing l with
  | zero =>
    have hl : l = [] := eq_nil_of_length_eq_zero (by omega)
    rw [hl]
    rfl
  | succ fuel ih =>
    unfold batches.go
    cases l with
    | nil => rfl
    | cons a l =>
      have hle : ((a :: l).drop n).length ≤ fuel := by
        rw [length_drop]
        omega
      rw [if_neg (by simp), flatten_cons, ih _ hle, take_append_drop]

/-- The batches are the list, in order. -/
theorem batches_flatten {n : Nat} (hn : 0 < n) (l : List α) : (batches n l).flatten = l :=
  batches_go_flatten hn l.length l (Nat.le_refl _)

theorem length_le_of_mem_batches_go {n : Nat} (fuel : Nat) (l : List α) :
    ∀ b ∈ batches.go n fuel l, b.length ≤ n := by
  induction fuel generalizing l with
  | zero => simp [batches.go]
  | succ fuel ih =>
    unfold batches.go
    split
    · simp
    · rw [forall_mem_cons]
      exact ⟨length_take_le .., ih _⟩

theorem batches_go_length_le (n fuel : Nat) (l : List α) : (batches.go n fuel l).length ≤ fuel := by
  induction fuel generalizing l with
  | zero => exact Nat.le_refl 0
  | succ fuel ih =>
    unfold batches.go
    split
    · exact Nat.zero_le _
    · exact Nat.succ_le_succ (ih _)

theorem batches_length_le (n : Nat) (l : List α) : (batches n l).length ≤ l.length :=
  batches_go_length_le n l.length l

end Batches

/-! ## Entries changed at a position -/

/-- An entry that is emptied leaves the other entries. -/
theorem filterMap_set_none_perm {α : Type} {l : List (Option α)} {i : Nat} {a : α}
    (h : l[i]? = some (some a)) : (a :: (l.set i none).filterMap id).Perm (l.filterMap id) := by
  induction l generalizing i with
  | nil => cases h
  | cons x l ih =>
    cases i with
    | zero =>
      cases h
      exact List.Perm.refl _
    | succ i =>
      have hta := ih h
      cases x with
      | none => exact hta
      | some b => exact (List.Perm.swap b a _).trans (hta.cons b)

theorem mem_concat_iff {α : Type} {l : List α} {a b : α} : b ∈ l ++ [a] ↔ b ∈ l ∨ b = a := by
  simp

/-- An entry after a change at a position is an old one, or the changed one. -/
theorem mem_modify {α : Type} {l : List α} {i : Nat} {f : α → α} {b : α}
    (h : b ∈ l.modify i f) : b ∈ l ∨ ∃ a, l[i]? = some a ∧ b = f a := by
  obtain ⟨k, hk⟩ := mem_iff_getElem?.mp h
  rw [List.getElem?_modify] at hk
  cases ha : l[k]? with
  | none =>
    rw [ha] at hk
    cases hk
  | some a =>
    rw [ha] at hk
    by_cases hik : i = k
    · subst hik
      right
      exact ⟨a, ha, by simpa using hk.symm⟩
    · left
      have hab : a = b := by simpa [hik] using hk
      exact hab ▸ mem_iff_getElem?.mpr ⟨k, ha⟩

end TapeArchive.Lib
