/-
  A store of named objects with advisory locks, in which a lock is part of the
  object: locking a name that is absent creates an empty object, and the locks on an
  object disappear with it. Every operation is atomic.

  What the operations do is said once, by who holds a lock afterwards (`Holds`) and
  which objects are empty (`IsEmpty`) or have content (`HasContent`).
-/
import Mathlib

namespace TapeArchive.Lib

open Function (update_of_ne update_self)

/-- A lock is shared by several clients, or held by one. -/
inductive LockMode where
  | shared
  | exclusive
  deriving DecidableEq

/-- An object with the clients that have locked it; without a content it is empty. -/
structure LockedObject (ρ γ : Type) where
  content : Option γ
  lockers : List ρ
  mode : LockMode

/-- The objects by their names. -/
abbrev LockStore (α ρ γ : Type) := α → Option (LockedObject ρ γ)

/-- How an attempt to lock ends. -/
inductive LockResult where
  | ok
  /-- Others hold a lock that does not go with this one. -/
  | busy
  /-- The client holds the lock already. -/
  | present

namespace LockStore

variable {α ρ γ : Type} [DecidableEq α] [DecidableEq ρ]

variable (s : LockStore α ρ γ)

def lock (a : α) (p : ρ) (m : LockMode) : LockResult × LockStore α ρ γ :=
  match s a with
  | none => (.ok, Function.update s a (some ⟨none, [p], m⟩))
  | some o =>
      if p ∈ o.lockers then (.present, s)
      else if o.lockers ≠ [] ∧ (m = .exclusive ∨ o.mode ≠ m) then (.busy, s)
      else (.ok, Function.update s a (some { o with lockers := p :: o.lockers, mode := m }))

/-- Take a client's lock off an object, if there is one. -/
def unlock (a : α) (p : ρ) : LockStore α ρ γ :=
  match s a with
  | none => s
  | some o => Function.update s a (some { o with lockers := o.lockers.filter (· ≠ p) })

/-- Remove an object, whoever has locked it. -/
def remove (a : α) : LockStore α ρ γ := Function.update s a none

/-- Create an object with a content, if there is none of the name. -/
def createNew (a : α) (c : γ) : Option (LockStore α ρ γ) :=
  match s a with
  | none => some (Function.update s a (some ⟨some c, [], .shared⟩))
  | some _ => none

/-- The client has locked the object. -/
def Holds (a : α) (p : ρ) (m : LockMode) : Prop :=
  ∃ o, s a = some o ∧ p ∈ o.lockers ∧ o.mode = m

def IsEmpty (a : α) : Prop := ∃ o, s a = some o ∧ o.content = none

def HasContent (a : α) : Prop := ∃ o c, s a = some o ∧ o.content = some c

instance (s : LockStore α ρ γ) (a : α) (p : ρ) (m : LockMode) : Decidable (s.Holds a p m) :=
  decidable_of_iff (((s a).any fun o => decide (p ∈ o.lockers ∧ o.mode = m)) = true)
    (by simp only [Option.any_eq_true, decide_eq_true_eq]; exact Iff.rfl)

instance (s : LockStore α ρ γ) (a : α) : Decidable (s.HasContent a) :=
  decidable_of_iff (((s a).any fun o => o.content.isSome) = true)
    (by simp only [Option.any_eq_true, Option.isSome_iff_exists]
        exact ⟨fun ⟨o, ho, c, hc⟩ => ⟨o, c, ho, hc⟩, fun ⟨o, c, ho, hc⟩ => ⟨o, ho, c, hc⟩⟩)

variable {s s' : LockStore α ρ γ} {a b : α} {p q : ρ} {m m' : LockMode} {c : γ}

omit [DecidableEq α] [DecidableEq ρ] in
theorem HasContent.not_isEmpty (h : s.HasContent a) : ¬ s.IsEmpty a := by
  obtain ⟨o, c, ho, hc⟩ := h
  intro he
  obtain ⟨o', ho', hn⟩ := he
  rw [ho] at ho'
  cases ho'
  rw [hc] at hn
  cases hn

omit [DecidableEq α] [DecidableEq ρ] in
/-- A predicate on the object of a name, at a name the update leaves. -/
theorem holds_congr (h : s' b = s b) : s'.Holds b q m ↔ s.Holds b q m := by
  unfold Holds
  rw [h]

omit [DecidableEq α] [DecidableEq ρ] in
theorem isEmpty_congr (h : s' b = s b) : s'.IsEmpty b ↔ s.IsEmpty b := by
  unfold IsEmpty
  rw [h]

omit [DecidableEq α] [DecidableEq ρ] in
theorem hasContent_congr (h : s' b = s b) : s'.HasContent b ↔ s.HasContent b := by
  unfold HasContent
  rw [h]

/-! ## Locking -/

/-- What a lock that succeeds has found: no object, or one that nobody had locked, or one that others
share. -/
theorem lock_ok (h : s.lock a p m = (.ok, s')) :
    (s a = none ∧ s' = Function.update s a (some ⟨none, [p], m⟩))
    ∨ ∃ o, s a = some o ∧ p ∉ o.lockers ∧ (o.lockers = [] ∨ (m = .shared ∧ o.mode = .shared))
        ∧ s' = Function.update s a (some { o with lockers := p :: o.lockers, mode := m }) := by
  unfold lock at h
  cases ho : s a with
  | none =>
    rw [ho] at h
    cases h
    exact Or.inl ⟨rfl, rfl⟩
  | some o =>
    rw [ho] at h
    dsimp only at h
    by_cases hp : p ∈ o.lockers
    · rw [if_pos hp] at h
      cases h
    rw [if_neg hp] at h
    by_cases hb : o.lockers ≠ [] ∧ (m = .exclusive ∨ o.mode ≠ m)
    · rw [if_pos hb] at h
      cases h
    rw [if_neg hb] at h
    cases h
    refine Or.inr ⟨o, rfl, hp, ?_, rfl⟩
    by_cases hn : o.lockers = []
    · exact Or.inl hn
    have hg : ¬ (m = .exclusive ∨ o.mode ≠ m) := fun hm => hb ⟨hn, hm⟩
    cases m with
    | shared => exact Or.inr ⟨rfl, by_contra fun hne => hg (Or.inr hne)⟩
    | exclusive => exact absurd (Or.inl rfl) hg

/-- Who holds what after a lock. -/
theorem holds_lock (h : s.lock a p m = (.ok, s')) :
    s'.Holds b q m' ↔ s.Holds b q m' ∨ (b = a ∧ q = p ∧ m' = m) := by
  by_cases hb : b = a
  · subst hb
    rcases lock_ok h with ⟨hn, rfl⟩ | ⟨o, ho, _, hg, rfl⟩
    · unfold Holds
      rw [update_self, hn]
      simp [eq_comm]
    · unfold Holds
      rw [update_self, ho]
      simp only [Option.some.injEq, exists_eq_left', List.mem_cons, true_and]
      rcases hg with hni | ⟨rfl, hm⟩
      · rw [hni]
        simp [eq_comm]
      · rw [hm]
        grind
  · have hs : s' b = s b := by
      rcases lock_ok h with ⟨_, rfl⟩ | ⟨o, _, _, _, rfl⟩
      · exact update_of_ne hb ..
      · exact update_of_ne hb ..
    rw [holds_congr hs]
    simp [hb]

/-- A lock leaves the content of the objects. -/
theorem hasContent_lock (h : s.lock a p m = (.ok, s')) : s'.HasContent b ↔ s.HasContent b := by
  by_cases hb : b = a
  · subst hb
    unfold HasContent
    rcases lock_ok h with ⟨hn, rfl⟩ | ⟨o, ho, _, _, rfl⟩
    · rw [update_self, hn]
      simp
    · rw [update_self, ho]
      simp
  · apply hasContent_congr
    rcases lock_ok h with ⟨_, rfl⟩ | ⟨o, _, _, _, rfl⟩
    · exact update_of_ne hb ..
    · exact update_of_ne hb ..

/-- The empty objects after a lock: those that were there, and the one that the lock creates. -/
theorem isEmpty_lock (h : s.lock a p m = (.ok, s')) :
    s'.IsEmpty b ↔ s.IsEmpty b ∨ (b = a ∧ s a = none) := by
  by_cases hb : b = a
  · subst hb
    unfold IsEmpty
    rcases lock_ok h with ⟨hn, rfl⟩ | ⟨o, ho, _, _, rfl⟩
    · rw [update_self, hn]
      simp
    · rw [update_self, ho]
      simp
  · have hs : s' b = s b := by
      rcases lock_ok h with ⟨_, rfl⟩ | ⟨o, _, _, _, rfl⟩
      · exact update_of_ne hb ..
      · exact update_of_ne hb ..
    rw [isEmpty_congr hs]
    simp [hb]

/-! ## Unlocking, removing, creating -/

theorem holds_unlock : (s.unlock a p).Holds b q m ↔ s.Holds b q m ∧ ¬ (b = a ∧ q = p) := by
  unfold unlock
  cases ho : s a with
  | none =>
    dsimp only
    constructor
    · intro h
      refine ⟨h, fun hba => ?_⟩
      obtain ⟨o, hs, _⟩ := h
      rw [hba.1, ho] at hs
      cases hs
    · exact fun h => h.1
  | some o =>
    dsimp only
    by_cases hb : b = a
    · subst hb
      unfold Holds
      rw [update_self, ho]
      simp only [Option.some.injEq, exists_eq_left', List.mem_filter, decide_eq_true_eq, true_and]
      tauto
    · rw [holds_congr (update_of_ne hb ..)]
      simp [hb]

theorem hasContent_unlock : (s.unlock a p).HasContent b ↔ s.HasContent b := by
  unfold unlock
  cases ho : s a with
  | none => exact Iff.rfl
  | some o =>
    dsimp only
    by_cases hb : b = a
    · subst hb
      unfold HasContent
      rw [update_self, ho]
      simp
    · exact hasContent_congr (update_of_ne hb ..)

theorem isEmpty_unlock : (s.unlock a p).IsEmpty b ↔ s.IsEmpty b := by
  unfold unlock
  cases ho : s a with
  | none => exact Iff.rfl
  | some o =>
    dsimp only
    by_cases hb : b = a
    · subst hb
      unfold IsEmpty
      rw [update_self, ho]
      simp
    · exact isEmpty_congr (update_of_ne hb ..)

omit [DecidableEq ρ] in
theorem holds_remove : (s.remove a).Holds b q m ↔ s.Holds b q m ∧ b ≠ a := by
  unfold remove
  by_cases hb : b = a
  · subst hb
    unfold Holds
    simp
  · rw [holds_congr (update_of_ne hb ..)]
    simp [hb]

omit [DecidableEq ρ] in
theorem hasContent_remove : (s.remove a).HasContent b ↔ s.HasContent b ∧ b ≠ a := by
  unfold remove
  by_cases hb : b = a
  · subst hb
    unfold HasContent
    simp
  · rw [hasContent_congr (update_of_ne hb ..)]
    simp [hb]

omit [DecidableEq ρ] in
theorem isEmpty_remove : (s.remove a).IsEmpty b ↔ s.IsEmpty b ∧ b ≠ a := by
  unfold remove
  by_cases hb : b = a
  · subst hb
    unfold IsEmpty
    simp
  · rw [isEmpty_congr (update_of_ne hb ..)]
    simp [hb]

omit [DecidableEq ρ] in
theorem createNew_some (h : s.createNew a c = some s') :
    s a = none ∧ s' = Function.update s a (some ⟨some c, [], .shared⟩) := by
  unfold createNew at h
  cases ho : s a with
  | none =>
    rw [ho] at h
    cases h
    exact ⟨rfl, rfl⟩
  | some o =>
    rw [ho] at h
    cases h

omit [DecidableEq ρ] in
theorem holds_createNew (h : s.createNew a c = some s') : s'.Holds b q m ↔ s.Holds b q m := by
  obtain ⟨hn, rfl⟩ := createNew_some h
  by_cases hb : b = a
  · subst hb
    unfold Holds
    rw [update_self, hn]
    simp
  · exact holds_congr (update_of_ne hb ..)

omit [DecidableEq ρ] in
theorem hasContent_createNew (h : s.createNew a c = some s') :
    s'.HasContent b ↔ s.HasContent b ∨ b = a := by
  obtain ⟨hn, rfl⟩ := createNew_some h
  by_cases hb : b = a
  · subst hb
    unfold HasContent
    rw [update_self]
    simp
  · rw [hasContent_congr (update_of_ne hb ..)]
    simp [hb]

omit [DecidableEq ρ] in
theorem isEmpty_createNew (h : s.createNew a c = some s') : s'.IsEmpty b ↔ s.IsEmpty b := by
  obtain ⟨hn, rfl⟩ := createNew_some h
  by_cases hb : b = a
  · subst hb
    unfold IsEmpty
    rw [update_self, hn]
    simp
  · exact isEmpty_congr (update_of_ne hb ..)

end LockStore

end TapeArchive.Lib
