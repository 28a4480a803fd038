/-
  The running counters of a queue (`ValueCountMap.hpp`,
  `RetrieveActivityCountMap.cpp`): an array of (value, count) pairs, searched
  linearly, where an entry whose count reaches zero is swapped with the last
  one and trimmed.

  The abstract meaning of such an array is the MULTISET `content m` in which
  every value occurs as often as its count says.
-/
import TapeArchive.Lib.Lists
import TapeArchive.Lib.MachineWord
import TapeArchive.Lib.Run
import TapeArchive.Objectstore.Backend

namespace TapeArchive.Objectstore

open Lib List

/-! ## The counters as the code computes them -/

/-- One counter: `serializers::ValueCountPair`, `StringCountPair` and
`RetrieveActivityCountPair`. A count is bounded by the number of jobs held in
memory, so it is a natural number. -/
structure ValueCountPair (K : Type) where
  value : K
  count : Nat
  deriving DecidableEq

/-- The repeated field the helper class manipulates. -/
abbrev ValueCountMap (K : Type) := List (ValueCountPair K)

namespace ValueCountMap

variable {K : Type}

/-- `Swap` with the last element and `RemoveLast()`; the counter is the head. -/
def swapAndTrim : ValueCountMap K → ValueCountMap K
  | [] => []
  | rest@(_ :: _) => rest.getLast (by simp_all) :: rest.dropLast

section Operations

variable [ToString K]

/-- The exception about an entry of the array. -/
def entryError (text : String) (value : K) (count : Nat) : Exn :=
  .exception (text ++ toString value ++ " count=" ++ toString count)

variable [DecidableEq K]

/-- `incCount`: bump the first entry of the value, or append a new one. -/
def incCount (value : K) : ValueCountMap K → Except Exn (ValueCountMap K)
  | [] => .ok [⟨value, 1⟩]
  | pair :: rest =>
      if pair.value = value then
        if pair.count < 1 then
          .error (entryError "In ValueCountMap::incCount: unexpected count value="
            pair.value pair.count)
        else .ok ({ pair with count := pair.count + 1 } :: rest)
      else (incCount value rest).map (pair :: ·)

/-- The first entry of the value is decremented, and trimmed when it reaches 0. -/
def decFirst (className : String) (value : K) : ValueCountMap K → Except Exn (ValueCountMap K)
  | [] =>
      .error (.exception
        ("In " ++ className ++ "::decCount: no entry found for value=" ++ toString value))
  | pair :: rest =>
      if pair.value = value then
        if pair.count < 1 then
          .error (entryError "In ValueCountMap::decCount: entry with wrong count value="
            value pair.count)
        else if pair.count - 1 = 0 then .ok (swapAndTrim rest)
        else .ok ({ pair with count := pair.count - 1 } :: rest)
      else (decFirst className value rest).map (pair :: ·)

/-- After a trim, the value must not be found again. -/
def decCountIn (className : String) (value : K) (m : ValueCountMap K) :
    Except Exn (ValueCountMap K) := do
  let m' ← decFirst className value m
  match m'.find? (fun pair => pair.value = value) with
  | some counter2 =>
      if m'.length ≠ m.length then
        .error (entryError
          "In ValueCountMap::decCount: still found the value after trimming empty entry. value="
          counter2.value counter2.count)
      else .ok m'
  | none => .ok m'

def decCount (value : K) (m : ValueCountMap K) : Except Exn (ValueCountMap K) :=
  decCountIn "ValueCountMap" value m

end Operations

/-- `total`: the sum of the counts, refusing an entry without a count. -/
def total [ToString K] : ValueCountMap K → Except Exn Nat
  | [] => .ok 0
  | pair :: rest =>
      if pair.count < 1 then
        .error (entryError "In ValueCountMap::total: unexpected count value="
          pair.value pair.count)
      else (total rest).map (pair.count + ·)

/-! ## The multiset a counter array stands for -/

def content (m : ValueCountMap K) : Multiset K :=
  (m.map fun pair => Multiset.replicate pair.count pair.value).sum

@[simp] theorem content_nil : content ([] : ValueCountMap K) = 0 := rfl

@[simp] theorem content_cons (pair : ValueCountPair K) (m : ValueCountMap K) :
    content (pair :: m) = Multiset.replicate pair.count pair.value + content m := by
  simp [content]

variable {m m' : ValueCountMap K}

theorem content_perm (h : m.Perm m') : content m = content m' := (h.map _).sum_eq

/-- Trimming drops the head and permutes the rest. -/
theorem swapAndTrim_perm (rest : ValueCountMap K) : (swapAndTrim rest).Perm rest := by
  cases rest with
  | nil => exact List.Perm.refl _
  | cons p ps =>
    have h := dropLast_append_getLast (l := p :: ps) (by simp)
    calc swapAndTrim (p :: ps)
        = (p :: ps).getLast (by simp) :: (p :: ps).dropLast := rfl
      _ |>.Perm ((p :: ps).dropLast ++ [(p :: ps).getLast (by simp)]) :=
          (perm_append_singleton _ _).symm
      _ |>.Perm (p :: ps) := by rw [h]

section Laws

variable [DecidableEq K] [ToString K] {value : K}

theorem content_incCount (h : incCount value m = .ok m') : content m' = value ::ₘ content m := by
  induction m generalizing m' with
  | nil =>
    simp only [incCount, Except.ok.injEq] at h
    subst h
    simp
  | cons pair rest ih =>
    simp only [incCount] at h
    split at h
    · rename_i hv
      split at h
      · cases h
      simp only [Except.ok.injEq] at h
      subst h hv
      simp [Multiset.replicate_succ]
    · cases hr : incCount value rest with
      | error e => rw [hr] at h; cases h
      | ok r =>
        rw [hr] at h
        simp only [Except.map, Except.ok.injEq] at h
        subst h
        simp [ih hr]

variable {className : String}

theorem content_decFirst (h : decFirst className value m = .ok m') :
    value ::ₘ content m' = content m := by
  induction m generalizing m' with
  | nil => cases h
  | cons pair rest ih =>
    simp only [decFirst] at h
    split at h
    · rename_i hv
      split at h
      · cases h
      rename_i hc
      split at h
      · -- the last occurrence: the entry is trimmed
        rename_i ho
        simp only [Except.ok.injEq] at h
        have hco : pair.count = 1 := by omega
        subst h hv
        rw [content_perm (swapAndTrim_perm rest)]
        simp [hco]
      · simp only [Except.ok.injEq] at h
        subst h hv
        obtain ⟨n, hn⟩ : ∃ n, pair.count = n + 1 := ⟨pair.count - 1, by omega⟩
        simp [hn, Multiset.replicate_succ]
    · cases hr : decFirst className value rest with
      | error e => rw [hr] at h; cases h
      | ok r =>
        rw [hr] at h
        simp only [Except.map, Except.ok.injEq] at h
        subst h
        simp [← ih hr]

/-- A decrement that returns is the decrement of the first entry. -/
theorem decFirst_of_decCountIn (h : decCountIn className value m = .ok m') :
    decFirst className value m = .ok m' := by
  unfold decCountIn at h
  cases hr : decFirst className value m with
  | error e => rw [hr] at h; cases h
  | ok r =>
    rw [hr] at h
    simp only [bind, Except.bind] at h
    split at h
    · split at h
      · cases h
      · simpa using h
    · simpa using h

end Laws

/-! ## Well-formed arrays -/

/-- Distinct values, each with a count of at least 1. -/
structure WF (m : ValueCountMap K) : Prop where
  nodup : (m.map (·.value)).Nodup
  pos : ∀ pair ∈ m, 1 ≤ pair.count

theorem WF.nil : WF ([] : ValueCountMap K) := ⟨by simp, by simp⟩

variable {m : ValueCountMap K}

theorem WF.tail {pair : ValueCountPair K} (h : WF (pair :: m)) : WF m :=
  ⟨(List.nodup_cons.mp h.nodup).2, fun q hq => h.pos q (.tail _ hq)⟩

theorem WF.cons {pair : ValueCountPair K} (h : WF m) (hpos : 1 ≤ pair.count)
    (hnot : pair.value ∉ m.map (·.value)) : WF (pair :: m) :=
  ⟨nodup_cons.mpr ⟨hnot, h.nodup⟩, forall_mem_cons.mpr ⟨hpos, h.pos⟩⟩

theorem WF.perm (h : WF m) (hp : m.Perm m') : WF m' :=
  ⟨(hp.map _).nodup_iff.mp h.nodup, fun q hq => h.pos q (hp.mem_iff.mpr hq)⟩

theorem WF.mem_values (h : WF m) {v : K} : v ∈ m.map (·.value) ↔ v ∈ content m := by
  induction m with
  | nil => simp
  | cons pair rest ih =>
    have hpos := h.pos pair mem_cons_self
    rw [map_cons, mem_cons, ih h.tail, content_cons, Multiset.mem_add, Multiset.mem_replicate]
    simp [Nat.ne_of_gt hpos]

theorem WF.total [ToString K] (h : WF m) : total m = .ok (content m).card := by
  induction m with
  | nil => rfl
  | cons pair rest ih =>
    have hpos := h.pos pair mem_cons_self
    simp only [ValueCountMap.total]
    rw [if_neg (by omega), ih h.tail]
    simp [Except.map]

section WellFormed

variable [DecidableEq K] [ToString K] {value : K}

theorem WF.incCount (h : WF m) (value : K) : ∃ m', incCount value m = .ok m' ∧ WF m' := by
  induction m with
  | nil => exact ⟨_, rfl, by simp, by simp⟩
  | cons pair rest ih =>
    have hpos := h.pos pair mem_cons_self
    have hnot := (List.nodup_cons.mp h.nodup).1
    by_cases hv : pair.value = value
    · refine ⟨{ pair with count := pair.count + 1 } :: rest, ?_, h.tail.cons (by simp) hnot⟩
      simp [ValueCountMap.incCount, hv]; omega
    obtain ⟨r, hr, hwf⟩ := ih h.tail
    refine ⟨pair :: r, by simp [ValueCountMap.incCount, hv, hr, Except.map], hwf.cons hpos ?_⟩
    rw [hwf.mem_values, content_incCount hr, Multiset.mem_cons, ← h.tail.mem_values]
    rintro (heq | hm)
    · exact hv heq
    · exact hnot hm

/-- A value that occurs can be decremented, and is gone if the array got shorter. -/
theorem WF.decFirst (h : WF m) (className : String) (hv : value ∈ content m) :
    ∃ m', decFirst className value m = .ok m' ∧ WF m' ∧ (∀ v ∈ m'.map (·.value), v ∈ m.map (·.value))
      ∧ (m'.length ≠ m.length → value ∉ m'.map (·.value)) := by
  induction m with
  | nil => simp at hv
  | cons pair rest ih =>
    have hpos := h.pos pair mem_cons_self
    have hnot := (List.nodup_cons.mp h.nodup).1
    by_cases heq : pair.value = value
    · by_cases ho : pair.count - 1 = 0
      · have hp := swapAndTrim_perm rest
        refine ⟨swapAndTrim rest, ?_, h.tail.perm hp.symm, ?_, ?_⟩
        · simp [ValueCountMap.decFirst, heq, ho]; omega
        · intro v hm
          exact .tail _ ((hp.map _).mem_iff.mp hm)
        · intro _ hm
          have : value ∈ rest.map (·.value) := (hp.map _).mem_iff.mp hm
          exact hnot (by simpa [heq] using this)
      · refine ⟨{ pair with count := pair.count - 1 } :: rest, ?_, ?_, ?_, ?_⟩
        · simp [ValueCountMap.decFirst, heq, ho]; omega
        · refine h.tail.cons ?_ hnot
          show 1 ≤ pair.count - 1
          omega
        · intro v hm; simpa using hm
        · intro hl; simp at hl
    · have hv' : value ∈ content rest := by
        rw [content_cons, Multiset.mem_add] at hv
        rcases hv with hv | hv
        · exact absurd (Multiset.eq_of_mem_replicate hv).symm heq
        · exact hv
      obtain ⟨r, hr, hwf, hs, hg⟩ := ih h.tail hv'
      refine ⟨pair :: r, by simp [ValueCountMap.decFirst, heq, hr, Except.map], ?_, ?_, ?_⟩
      · exact hwf.cons hpos fun hm => hnot (hs _ hm)
      · intro v hm
        rcases List.mem_cons.mp hm with rfl | hm
        · exact mem_cons_self ..
        · exact .tail _ (hs v hm)
      · intro hl hm
        rcases List.mem_cons.mp hm with he' | hm
        · exact heq he'.symm
        · exact hg (by simpa using hl) hm

theorem WF.decCountIn (h : WF m) (className : String) (hv : value ∈ content m) :
    ∃ m', decCountIn className value m = .ok m' ∧ WF m' := by
  obtain ⟨m', hm', hwf, -, hg⟩ := h.decFirst className hv
  refine ⟨m', ?_, hwf⟩
  unfold ValueCountMap.decCountIn
  rw [hm']
  simp only [bind, Except.bind]
  split
  · rename_i counter2 hf
    have hva : counter2.value = value := by simpa using List.find?_some hf
    have hm : value ∈ m'.map (·.value) := List.mem_map.mpr ⟨counter2, mem_of_find?_eq_some hf, hva⟩
    rw [if_neg (fun hl => hg hl hm)]
  · rfl

end WellFormed

/-! ## Exact counters -/

/-- The array is in order and counts exactly the values of `s`. -/
structure Counts (m : ValueCountMap K) (s : Multiset K) : Prop where
  wf : WF m
  content_eq : content m = s

section Exact

variable {m : ValueCountMap K} {s : Multiset K}

theorem Counts.nil : Counts ([] : ValueCountMap K) 0 := ⟨WF.nil, rfl⟩

variable [ToString K]

theorem Counts.total (h : Counts m s) : ValueCountMap.total m = .ok s.card := by
  rw [h.wf.total, h.content_eq]

variable [DecidableEq K]

theorem Counts.incCount (h : Counts m s) (value : K) :
    ∃ m', incCount value m = .ok m' ∧ Counts m' (value ::ₘ s) := by
  obtain ⟨m', hm', hwf⟩ := h.wf.incCount value
  exact ⟨m', hm', hwf, by rw [content_incCount hm', h.content_eq]⟩

def incAll (values : List K) (m : ValueCountMap K) : Except Exn (ValueCountMap K) :=
  values.foldlM (fun m value => incCount value m) m

theorem Counts.incAll (values : List K) : ∀ {m : ValueCountMap K} {s : Multiset K}, Counts m s →
      ∃ m', ValueCountMap.incAll values m = .ok m' ∧ Counts m' (s + (values : Multiset K)) := by
  induction values with
  | nil => exact fun h => ⟨_, rfl, by simpa using h⟩
  | cons value values ih =>
    intro m s h
    obtain ⟨m1, hm1, h1⟩ := h.incCount value
    obtain ⟨m2, hm2, h2⟩ := ih h1
    refine ⟨m2, ?_, ?_⟩
    · rw [ValueCountMap.incAll, foldlM_cons, hm1]
      exact hm2
    · rwa [Multiset.cons_add, ← Multiset.add_cons, Multiset.cons_coe] at h2

theorem Counts.decCountIn (className : String) {value : K} (h : Counts m (value ::ₘ s)) :
    ∃ m', decCountIn className value m = .ok m' ∧ Counts m' s := by
  have hm : value ∈ content m := by rw [h.content_eq]; exact Multiset.mem_cons_self _ _
  obtain ⟨m', hm', hwf⟩ := h.wf.decCountIn className hm
  refine ⟨m', hm', hwf, ?_⟩
  have := content_decFirst (decFirst_of_decCountIn hm')
  rw [h.content_eq] at this
  exact (Multiset.cons_inj_right value).mp this

end Exact

/-! ## Whole histories -/

section Histories

variable [DecidableEq K]

/-- A turn of `getMap`: `std::map::insert` leaves a key that is there. -/
def insertPair (ret : K → Option Nat) (pair : ValueCountPair K) : K → Option Nat :=
  if pair.count ≠ 0 ∧ ret pair.value = none then Function.update ret pair.value (some pair.count)
  else ret

def getMap (m : ValueCountMap K) : K → Option Nat := m.foldl insertPair (fun _ => none)

def maxValue (m : ValueCountMap UInt64) : Except Exn UInt64 :=
  if m.length = 0 then .error (.exception "In ValueCountMap::maxValue: empty map")
  else .ok (m.foldl (fun ret pair => if ret < pair.value then pair.value else ret) 0)

def minValue (m : ValueCountMap UInt64) : Except Exn UInt64 :=
  if m.length = 0 then .error (.exception "In ValueCountMap::minValue: empty map")
  else .ok (m.foldl (fun ret pair => if ret > pair.value then pair.value else ret)
    (UInt64.ofNat (UInt64.size - 1)))

inductive Update (K : Type) where
  | inc (value : K)
  | dec (value : K)

/-- A call that throws leaves the array. -/
def update [ToString K] (m : ValueCountMap K) : Update K → ValueCountMap K
  | .inc value => (incCount value m).toOption.getD m
  | .dec value => (decCount value m).toOption.getD m

/-- What the calls mean: the multiset gains or loses one occurrence. -/
def Update.apply (s : Multiset K) : Update K → Multiset K
  | .inc value => value ::ₘ s
  | .dec value => s.erase value

variable {m : ValueCountMap K} {s : Multiset K}

theorem Counts.count (h : Counts m s) {pair : ValueCountPair K} (hp : pair ∈ m) :
    pair.count = s.count pair.value := by
  have hwf := h.wf
  rw [← h.content_eq]
  clear h
  induction m with
  | nil => cases hp
  | cons q m ih =>
    have hq : q.value ∉ content m := by
      rw [← hwf.tail.mem_values]
      exact (nodup_cons.mp hwf.nodup).1
    rw [content_cons, Multiset.count_add, Multiset.count_replicate]
    rcases List.mem_cons.mp hp with rfl | hp
    · rw [if_pos rfl, Multiset.count_eq_zero_of_notMem hq, Nat.add_zero]
    have hne : q.value ≠ pair.value := by
      intro heq
      exact hq (heq ▸ hwf.tail.mem_values.mp (mem_map_of_mem hp))
    rw [if_neg hne, Nat.zero_add]
    exact ih hp hwf.tail

/-- The map that is built holds what it held, and the counts of the new values. -/
theorem WF.foldl_insertPair (h : WF m) (ret : K → Option Nat)
    (hret : ∀ pair ∈ m, ret pair.value = none) (v : K) : m.foldl insertPair ret v
      = if v ∈ content m then some ((content m).count v) else ret v := by
  induction m generalizing ret with
  | nil => simp
  | cons q m ih =>
    have hq : q.value ∉ m.map (·.value) := (nodup_cons.mp h.nodup).1
    have hpos := h.pos q mem_cons_self
    rw [foldl_cons, insertPair, if_pos ⟨by omega, hret q mem_cons_self⟩, ih h.tail]
    · rw [h.tail.mem_values] at hq
      by_cases hv : v = q.value
      · subst hv
        simp [hq, Multiset.mem_replicate, Nat.ne_of_gt hpos]
      · simp [hv, Multiset.mem_replicate]
    · intro pair hp
      rw [Function.update_of_ne]
      · exact hret pair (.tail _ hp)
      · intro heq
        exact hq (heq ▸ mem_map_of_mem hp)

theorem Counts.getMap (h : Counts m s) (v : K) :
    getMap m v = if v ∈ s then some (s.count v) else none := by
  rw [← h.content_eq]
  exact h.wf.foldl_insertPair _ (fun _ _ => rfl) v

variable [ToString K]

theorem Counts.decCount_absent (h : Counts m s) {value : K} (hv : value ∉ s) :
    decCount value m = .error (.exception
      ("In ValueCountMap::decCount: no entry found for value=" ++ toString value)) := by
  rw [← h.content_eq, ← h.wf.mem_values] at hv
  have hf : ∀ {m : ValueCountMap K}, value ∉ m.map (·.value) →
      decFirst "ValueCountMap" value m = .error (.exception
        ("In " ++ "ValueCountMap" ++ "::decCount: no entry found for value=" ++ toString value)) := by
    intro m hm
    induction m with
    | nil => rfl
    | cons q m ih =>
      obtain ⟨hne, hm⟩ := not_or.mp (fun h => hm (List.mem_cons.mpr h))
      rw [decFirst, if_neg (Ne.symm hne), ih hm]
      rfl
  unfold decCount ValueCountMap.decCountIn
  rw [hf hv]
  rfl

theorem Counts.update (h : Counts m s) (u : Update K) : Counts (update m u) (u.apply s) := by
  cases u with
  | inc value =>
    obtain ⟨m', hm, hc⟩ := h.incCount value
    rw [ValueCountMap.update, hm]
    exact hc
  | dec value =>
    by_cases hv : value ∈ s
    · obtain ⟨m', hm, hc⟩ := Counts.decCountIn "ValueCountMap" (s := s.erase value)
        ((Multiset.cons_erase hv).symm ▸ h)
      rw [ValueCountMap.update, decCount, hm]
      exact hc
    · rw [ValueCountMap.update, h.decCount_absent hv, Update.apply, Multiset.erase_of_notMem hv]
      exact h

/-- **The counters stand for the multiset of the values.** -/
theorem Counts.run (us : List (Update K)) :
    Counts (run ValueCountMap.update [] us) (us.foldl Update.apply 0) := by
  have hr : ∀ (m : ValueCountMap K) (s : Multiset K), Counts m s →
      Counts (Lib.run ValueCountMap.update m us) (us.foldl Update.apply s) := by
    induction us with
    | nil => exact fun _ _ h => h
    | cons u us ih => exact fun m s h => ih _ _ (h.update u)
  exact hr _ _ Counts.nil

end Histories

theorem Counts.extremes {m : ValueCountMap UInt64} {s : Multiset UInt64} (h : Counts m s)
    (hs : s ≠ 0) : (∃ x, minValue m = .ok x ∧ IsLeast {v | v ∈ s} x)
      ∧ ∃ x, maxValue m = .ok x ∧ IsGreatest {v | v ∈ s} x := by
  have hne : m ≠ [] := by
    rintro rfl
    exact hs h.content_eq.symm
  have hse : {v | v ∈ s} = {v | ∃ pair ∈ m, pair.value = v} := by
    ext v
    show v ∈ s ↔ _
    rw [← h.content_eq, ← h.wf.mem_values, List.mem_map]
    rfl
  have hl : m.length ≠ 0 := mt length_eq_zero_iff.mp hne
  have htp : ∀ x : UInt64, x ≤ UInt64.ofNat (UInt64.size - 1) := by
    intro x
    show _ ≤ 2 ^ 64 - 1
    omega
  rw [hse, minValue, maxValue, if_neg hl, if_neg hl]
  exact ⟨⟨_, rfl, isLeast_foldl ValueCountPair.value hne (fun pair _ => htp pair.value)⟩,
    ⟨_, rfl, isGreatest_foldl ValueCountPair.value hne (fun _ _ => UInt64.zero_le)⟩⟩

theorem Counts.extremes_empty {m : ValueCountMap UInt64} (h : Counts m 0) :
    minValue m = .error (.exception "In ValueCountMap::minValue: empty map")
      ∧ maxValue m = .error (.exception "In ValueCountMap::maxValue: empty map") := by
  have hm : m = [] := by
    rw [← List.map_eq_nil_iff, eq_nil_iff_forall_not_mem]
    intro v hv
    rw [h.wf.mem_values, h.content_eq] at hv
    exact Multiset.notMem_zero v hv
  rw [hm]
  exact ⟨rfl, rfl⟩

/-- **The counters are multisets**: every value that occurs has one entry, with its multiplicity;
a decrement throws for an absent value only, and changes nothing then. -/
theorem counters_are_multisets :
    (∀ {K : Type} [DecidableEq K] [ToString K] (us : List (Update K)) (m : ValueCountMap K)
      (s : Multiset K), m = run update [] us → s = us.foldl Update.apply 0 →
      (m.map (·.value)).Nodup ∧ (∀ v, v ∈ m.map (·.value) ↔ v ∈ s)
      ∧ (∀ pair ∈ m, 1 ≤ pair.count ∧ pair.count = s.count pair.value)
      ∧ (∀ v, (∃ m', incCount v m = .ok m') ∧ (v ∈ s → ∃ m', decCount v m = .ok m')
        ∧ (v ∉ s → update m (.dec v) = m ∧ decCount v m = .error (.exception
            ("In ValueCountMap::decCount: no entry found for value=" ++ toString v))))
      ∧ total m = .ok s.card ∧ ∀ v, getMap m v = if v ∈ s then some (s.count v) else none)
    ∧ ∀ (us : List (Update UInt64)) (m : ValueCountMap UInt64) (s : Multiset UInt64),
      m = run update [] us → s = us.foldl Update.apply 0 →
      (s ≠ 0 → (∃ x, minValue m = .ok x ∧ IsLeast {v | v ∈ s} x)
        ∧ ∃ x, maxValue m = .ok x ∧ IsGreatest {v | v ∈ s} x)
      ∧ (s = 0 → minValue m = .error (.exception "In ValueCountMap::minValue: empty map")
        ∧ maxValue m = .error (.exception "In ValueCountMap::maxValue: empty map")) := by
  constructor
  · rintro K _ _ us m s rfl rfl
    have h := Counts.run us
    refine ⟨h.wf.nodup, ?_, fun pair hp => ⟨h.wf.pos pair hp, h.count hp⟩, ?_, h.total, h.getMap⟩
    · intro v
      rw [h.wf.mem_values, h.content_eq]
    intro v
    refine ⟨?_, ?_, ?_⟩
    · obtain ⟨m', hm, -⟩ := h.incCount v
      exact ⟨m', hm⟩
    · intro hv
      obtain ⟨m', hm, -⟩ := h.wf.decCountIn "ValueCountMap" (h.content_eq ▸ hv)
      exact ⟨m', hm⟩
    · intro hv
      have hd := h.decCount_absent hv
      rw [update, hd]
      exact ⟨rfl, rfl⟩
  · rintro us m s rfl rfl
    have h := Counts.run us
    exact ⟨h.extremes, fun hs => (hs ▸ h).extremes_empty⟩

end ValueCountMap

/-! ## The counters of the activities -/

def RetrieveActivityCountMap.incCount (activity : String) (m : ValueCountMap String) :
    Except Exn (ValueCountMap String) :=
  ValueCountMap.incCount activity m

def RetrieveActivityCountMap.decCount (activity : String) (m : ValueCountMap String) :
    Except Exn (ValueCountMap String) :=
  ValueCountMap.decCountIn "RetrieveActivityCountMap" activity m

end TapeArchive.Objectstore
