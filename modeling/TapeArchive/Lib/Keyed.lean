/-
  Lists whose entries are looked up by a key: the FIRST entry with a key is the
  one that is found, and the one that an update changes. Entries with distinct
  keys are exactly those that their keys find, also through an ordered map that
  the list is read into, and that is written back as a list.
-/
import Mathlib

namespace TapeArchive.Lib

open List

variable {α κ : Type} [DecidableEq κ] {key : α → κ}

/-- The first entry with the key `k`. -/
def findKey (key : α → κ) (k : κ) (l : List α) : Option α := l.find? (fun a => key a == k)

/-- Change the first entry with the key `k`. -/
def updateKey (key : α → κ) (k : κ) (f : α → α) : List α → List α
  | [] => []
  | a :: l => if key a == k then f a :: l else a :: updateKey key k f l

@[simp] theorem findKey_nil (k : κ) : findKey key k [] = none := rfl

@[simp] theorem findKey_cons (k : κ) (a : α) (l : List α) :
    findKey key k (a :: l) = if key a = k then some a else findKey key k l := by
  unfold findKey
  rw [List.find?_cons]
  by_cases h : key a = k
  · simp [h]
  · rw [if_neg h, beq_eq_false_iff_ne.mpr h]

theorem mem_of_findKey {k : κ} {a : α} {l : List α} (h : findKey key k l = some a) : a ∈ l :=
  mem_of_find?_eq_some h

theorem key_of_findKey {k : κ} {a : α} {l : List α} (h : findKey key k l = some a) : key a = k := by
  simpa using List.find?_some h

/-- Distinct keys: every entry is the one its key finds. -/
theorem findKey_of_mem {l : List α} (hl : (l.map key).Nodup) {a : α} (ha : a ∈ l) :
    findKey key (key a) l = some a := by
  induction l with
  | nil => cases ha
  | cons b l ih =>
    rw [map_cons, nodup_cons] at hl
    rw [findKey_cons]
    rcases mem_cons.mp ha with rfl | ha
    · exact if_pos rfl
    have hne : key b ≠ key a := fun h => hl.1 (h ▸ mem_map_of_mem ha)
    rw [if_neg hne]
    exact ih hl.2 ha

section Update

variable {k k' : κ} {f : α → α} (hf : ∀ a, key (f a) = key a) (l : List α)
include hf

/-- The keys stay as they are. -/
theorem updateKey_keys : (updateKey key k f l).map key = l.map key := by
  induction l with
  | nil => rfl
  | cons a l ih =>
    unfold updateKey
    split
    · simp [hf]
    · simp [ih]

/-- The entry that was changed. -/
theorem findKey_updateKey_same : findKey key k (updateKey key k f l) = (findKey key k l).map f := by
  induction l with
  | nil => rfl
  | cons a l ih =>
    unfold updateKey
    by_cases h : key a = k
    · simp [h, hf]
    · simp [h, ih]

/-- The other entries. -/
theorem findKey_updateKey_of_ne (hk : k' ≠ k) :
    findKey key k' (updateKey key k f l) = findKey key k' l := by
  induction l with
  | nil => rfl
  | cons a l ih =>
    unfold updateKey
    by_cases h : key a = k
    · simp [h, hf, hk.symm]
    · simp [h, ih]

end Update

/-- The entries after an update, when the keys are distinct. -/
theorem mem_updateKey {k : κ} {f : α → α} {l : List α} (hl : (l.map key).Nodup) {b : α} :
    b ∈ updateKey key k f l ↔ (b ∈ l ∧ key b ≠ k) ∨ ∃ a ∈ l, key a = k ∧ b = f a := by
  induction l with
  | nil => simp [updateKey]
  | cons a l ih =>
    rw [map_cons, nodup_cons] at hl
    unfold updateKey
    by_cases h : key a = k
    · -- no other entry has the key of the first one
      have hrest : ∀ c ∈ l, key c ≠ k := fun c hc hck =>
        hl.1 (h.trans hck.symm ▸ mem_map_of_mem hc)
      simp only [h, beq_self_eq_true, if_true, mem_cons, exists_eq_or_imp, true_and]
      constructor
      · rintro (rfl | hb)
        · exact .inr (.inl rfl)
        · exact .inl ⟨.inr hb, hrest b hb⟩
      · rintro (⟨rfl | hb, hne⟩ | rfl | ⟨c, hc, hck, _⟩)
        · exact absurd h hne
        · exact .inr hb
        · exact .inl rfl
        · exact absurd hck (hrest c hc)
    · simp only [beq_iff_eq, h, if_false, mem_cons, ih hl.2, exists_eq_or_imp, false_and, false_or]
      constructor
      · rintro (rfl | ⟨hb, hne⟩ | hex)
        · exact .inl ⟨.inl rfl, h⟩
        · exact .inl ⟨.inr hb, hne⟩
        · exact .inr hex
      · rintro (⟨rfl | hb, hne⟩ | hex)
        · exact .inl rfl
        · exact .inr (.inl ⟨hb, hne⟩)
        · exact .inr (.inr hex)

/-- An update that adds at most `b` to every entry adds at most `b` to the sum. -/
theorem sum_map_updateKey_le {k : κ} {f : α → α} {g : α → Nat} {b : Nat}
    (hf : ∀ a, g (f a) ≤ g a + b) (l : List α) :
    ((updateKey key k f l).map g).sum ≤ (l.map g).sum + b := by
  induction l with
  | nil => exact Nat.zero_le _
  | cons a l ih =>
    unfold updateKey
    have ha := hf a
    split
    · simp only [map_cons, sum_cons]
      omega
    · simp only [map_cons, sum_cons]
      omega

/-- A sum over entries with distinct keys, split at a key. -/
theorem sum_map_split {γ : Type} [AddCommMonoid γ] (w : α → γ) (k : κ) {l : List α}
    (hl : (l.map key).Nodup) :
    (l.map w).sum = ((findKey key k l).map w).getD 0
      + ((l.filter (fun a => decide ¬(k == key a) = true)).map w).sum := by
  induction l with
  | nil => simp
  | cons a l ih =>
    rw [map_cons, nodup_cons] at hl
    by_cases h : key a = k
    · -- the other entries have other keys
      have hrest : l.filter (fun a => decide ¬(k == key a) = true) = l := by
        rw [filter_eq_self]
        intro c hc
        have hne : k ≠ key c := fun hk => hl.1 (h.trans hk ▸ mem_map_of_mem hc)
        simpa using hne
      rw [map_cons, sum_cons, findKey_cons, if_pos h, filter_cons,
        if_neg (by simpa using h.symm), hrest]
      rfl
    · rw [map_cons, sum_cons, ih hl.2, findKey_cons, if_neg h, filter_cons,
        if_pos (by simpa using fun hk => h hk.symm), map_cons, sum_cons]
      ac_rfl

/-! ## Ordered maps read from a list and written to one -/

section Maps

variable {β : Type} [Ord κ] [Std.TransOrd κ] [Std.LawfulEqOrd κ]

/-- Reading a list with distinct keys into a map. -/
theorem getElem?_foldl_insert (g : α → β) {l : List α} (hl : (l.map key).Nodup)
    (m : Std.TreeMap κ β) (k : κ) :
    (l.foldl (fun m a => m.insert (key a) (g a)) m)[k]? = ((findKey key k l).map g).or m[k]? := by
  induction l generalizing m with
  | nil => rfl
  | cons a l ih =>
    rw [map_cons, nodup_cons] at hl
    rw [foldl_cons, ih hl.2, findKey_cons, Std.TreeMap.getElem?_insert]
    by_cases h : key a = k
    · -- the key of `a` does not come back in the rest of the list
      have hn : findKey key k l = none := by
        cases hf : findKey key k l with
        | none => rfl
        | some b =>
          have hb : key b ∈ l.map key := mem_map_of_mem (mem_of_findKey hf)
          rw [key_of_findKey hf, ← h] at hb
          exact absurd hb hl.1
      simp [hn, h]
    · simp [h]

omit [DecidableEq κ] in
theorem toList_fst_nodup (m : Std.TreeMap κ β) : (m.toList.map Prod.fst).Nodup := by
  refine pairwise_map.mpr (Std.TreeMap.distinct_keys_toList.imp ?_)
  intro a b hne heq
  exact hne (heq ▸ Std.ReflCmp.compare_self)

omit [DecidableEq κ] in
/-- The keys of the entries of a map are distinct. -/
theorem map_toList_keys_nodup {m : Std.TreeMap κ β} {g : β → α}
    (hg : ∀ k b, m[k]? = some b → key (g b) = k) :
    ((m.toList.map (fun p => g p.2)).map key).Nodup := by
  have hk : (m.toList.map (fun p => g p.2)).map key = m.toList.map (·.1) := by
    rw [map_map]
    apply map_congr_left
    intro p hp
    exact hg p.1 p.2 (Std.TreeMap.mem_toList_iff_getElem?_eq_some.mp hp)
  rw [hk]
  exact toList_fst_nodup m

/-- Writing a map to a list. -/
theorem findKey_map_toList {m : Std.TreeMap κ β} {g : β → α}
    (hg : ∀ k b, m[k]? = some b → key (g b) = k) (k : κ) :
    findKey key k (m.toList.map (fun p => g p.2)) = m[k]?.map g := by
  cases h : m[k]? with
  | some b =>
    have hm : g b ∈ m.toList.map (fun p => g p.2) :=
      mem_map.mpr ⟨(k, b), Std.TreeMap.mem_toList_iff_getElem?_eq_some.mpr h, rfl⟩
    have hfi := findKey_of_mem (map_toList_keys_nodup hg) hm
    rw [hg k b h] at hfi
    exact hfi
  | none =>
    cases hf : findKey key k (m.toList.map (fun p => g p.2)) with
    | none => rfl
    | some a =>
      obtain ⟨p, hp, rfl⟩ := mem_map.mp (mem_of_findKey hf)
      have hp' := Std.TreeMap.mem_toList_iff_getElem?_eq_some.mp hp
      have hk : p.1 = k := (hg p.1 p.2 hp').symm.trans (key_of_findKey hf)
      rw [hk, h] at hp'
      cases hp'

/-- The entry of a key in the list of a map. -/
theorem findKey_toList (m : Std.TreeMap κ β) (k : κ) :
    findKey Prod.fst k m.toList = m[k]?.map (fun b => (k, b)) := by
  cases h : m[k]? with
  | some b => exact findKey_of_mem (toList_fst_nodup m) (Std.TreeMap.mem_toList_iff_getElem?_eq_some.mpr h)
  | none =>
    cases hf : findKey Prod.fst k m.toList with
    | none => rfl
    | some p =>
      have hp := Std.TreeMap.mem_toList_iff_getElem?_eq_some.mp (mem_of_findKey hf)
      rw [key_of_findKey hf, h] at hp
      cases hp

/-- Adding to the value of a key adds the weight of what is added. -/
theorem sum_toList_add {γ : Type} [AddCommMonoid β] [AddCommMonoid γ] {w : κ → β → γ}
    (hz : ∀ k, w k 0 = 0) (ha : ∀ k a b, w k (a + b) = w k a + w k b)
    (m : Std.TreeMap κ β) (k : κ) (x : β) :
    ((m.insert k (m.getD k 0 + x)).toList.map (fun p => w p.1 p.2)).sum
      = (m.toList.map (fun p => w p.1 p.2)).sum + w k x := by
  have hold : ((findKey Prod.fst k m.toList).map (fun p => w p.1 p.2)).getD 0
      = w k (m.getD k 0) := by
    rw [findKey_toList, Std.TreeMap.getD_eq_getD_getElem?]
    cases m[k]? with
    | none => exact (hz k).symm
    | some b => rfl
  rw [(Std.TreeMap.toList_insert_perm.map _).sum_eq, map_cons, sum_cons,
    sum_map_split (fun p : κ × β => w p.1 p.2) k (toList_fst_nodup m), hold, ha]
  ac_rfl

end Maps

/-! ## Ordered sets filled from a list -/

section Sets

variable {β : Type} [Ord β] [Std.TransOrd β] [Std.LawfulEqOrd β]

theorem mem_foldl_insert (f : α → β) (l : List α) (s : Std.TreeSet β) (b : β) :
    b ∈ l.foldl (fun s a => s.insert (f a)) s ↔ b ∈ s ∨ ∃ a ∈ l, f a = b := by
  induction l generalizing s with
  | nil => simp
  | cons a l ih =>
    rw [foldl_cons, ih, Std.TreeSet.mem_insert, Std.compare_eq_iff_eq]
    simp only [mem_cons, exists_eq_or_imp]
    tauto

/-- Elements that are not there yet each add one. -/
theorem size_foldl_insert {l : List β} {s : Std.TreeSet β} (hl : l.Nodup)
    (hs : ∀ b ∈ l, b ∉ s) : (l.foldl (fun s b => s.insert b) s).size = s.size + l.length := by
  induction l generalizing s with
  | nil => rfl
  | cons b l ih =>
    rw [nodup_cons] at hl
    have hrest : ∀ c ∈ l, c ∉ s.insert b := by
      intro c hc
      rw [Std.TreeSet.mem_insert, Std.compare_eq_iff_eq]
      rintro (heq | hm)
      · exact hl.1 (heq ▸ hc)
      · exact hs c (.tail _ hc) hm
    have hb : s.contains b = false :=
      Bool.eq_false_iff.mpr (fun h => hs b mem_cons_self (Std.TreeSet.contains_iff_mem.mp h))
    rw [foldl_cons, ih hl.2 hrest, Std.TreeSet.size_insert, length_cons]
    simp only [hb]
    show s.size + 1 + l.length = _
    omega

end Sets

end TapeArchive.Lib
