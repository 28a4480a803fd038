/-
  Exclusive locks on the objects of a store, and the frame rule they give: a
  step of one process that respects the locks leaves every object that another
  process has locked, so whatever that process knows about it stays true.

  An object need not exist to be created, so the rule says nothing about a
  locked name without an object.
-/
import Mathlib.Logic.Function.Basic

namespace TapeArchive.Lib

variable {α β ρ : Type} [DecidableEq α]

/-- Who holds the exclusive lock on each object. -/
abbrev Locks (α ρ : Type) := α → Option ρ

namespace Locks

variable (l : Locks α ρ)

/-- Take the lock on `a`. -/
def acquire (a : α) (p : ρ) : Locks α ρ := Function.update l a (some p)

/-- Give back the lock on `a`. -/
def release (a : α) : Locks α ρ := Function.update l a none

/-- All locks of a process that ends, or leaves the scope of its locks. -/
def releaseAll [DecidableEq ρ] (l : Locks α ρ) (p : ρ) : Locks α ρ :=
  fun a => if l a = some p then none else l a

@[simp] theorem acquire_same (a : α) (p : ρ) : l.acquire a p a = some p :=
  Function.update_self ..

theorem acquire_of_ne {a b : α} (p : ρ) (h : b ≠ a) : l.acquire a p b = l b :=
  Function.update_of_ne h ..

theorem release_of_ne {a b : α} (h : b ≠ a) : l.release a b = l b :=
  Function.update_of_ne h ..

end Locks

/-- A step of the process `p` (`none`: nobody with a lock) respects the locks of the others. -/
structure Respects (p : Option ρ) (l l' : Locks α ρ) (s s' : α → Option β) : Prop where
  held : ∀ {a : α} {q : ρ}, some q ≠ p → l a = some q → l' a = some q
  kept : ∀ {a : α} {q : ρ} {v : β}, some q ≠ p → l a = some q → s a = some v → s' a = some v

namespace Respects

variable {p : Option ρ} {l l' l'' : Locks α ρ} {s s' s'' : α → Option β}

omit [DecidableEq α] in
theorem refl : Respects p l l s s := ⟨fun _ h => h, fun _ _ h => h⟩

omit [DecidableEq α] in
theorem trans (h : Respects p l l' s s') (h' : Respects p l' l'' s' s'') : Respects p l l'' s s'' :=
  ⟨fun hq hl => h'.held hq (h.held hq hl),
   fun hq hl hs => h'.kept hq (h.held hq hl) (h.kept hq hl hs)⟩

variable {a : α}

/-- Taking a free lock. -/
theorem acquire {g : ρ} (hf : l a = none) : Respects (some g) l (l.acquire a g) s s := by
  constructor
  · intro b q _ hl
    have hb : b ≠ a := fun h => by rw [h, hf] at hl; cases hl
    rw [Locks.acquire_of_ne _ _ hb]
    exact hl
  · exact fun _ _ h => h

/-- Giving back one's own lock. -/
theorem release {g : ρ} (ho : l a = some g) : Respects (some g) l (l.release a) s s := by
  constructor
  · intro b q hq hl
    have hb : b ≠ a := fun h => by
      rw [h, ho] at hl
      exact hq hl.symm
    rw [Locks.release_of_ne _ hb]
    exact hl
  · exact fun _ _ h => h

omit [DecidableEq α] in
/-- Giving back all one's locks. -/
theorem releaseAll [DecidableEq ρ] {g : ρ} : Respects (some g) l (l.releaseAll g) s s := by
  constructor
  · intro b q hq hl
    show (if l b = some g then none else l b) = some q
    rw [if_neg (fun h => hq (hl.symm.trans h)), hl]
  · exact fun _ _ h => h

/-- Writing to, or removing, an object that nobody else has locked. -/
theorem write {v : Option β} (hlo : l a = none ∨ l a = p) :
    Respects p l l s (Function.update s a v) := by
  constructor
  · exact fun _ h => h
  intro b q w hq hl hs
  have hb : b ≠ a := by
    intro h
    rw [h] at hl
    rcases hlo with hn | ho
    · rw [hn] at hl; cases hl
    · exact hq (hl.symm.trans ho)
  rw [Function.update_of_ne hb]
  exact hs

/-- Creating an object, which needs no lock. -/
theorem create {v : β} (hnew : s a = none) : Respects p l l s (Function.update s a (some v)) := by
  constructor
  · exact fun _ h => h
  intro b q w _ _ hs
  have hb : b ≠ a := fun h => by rw [h, hnew] at hs; cases hs
  rw [Function.update_of_ne hb]
  exact hs

end Respects

end TapeArchive.Lib
