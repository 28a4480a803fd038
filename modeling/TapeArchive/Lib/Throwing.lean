/-
  Programs with a state that may throw, and keep the state when they do (`EStateM`).

    • `Ends x Q E s` — `x` started in `s` ends with a value and a state that satisfy
                       `Q`, or with an exception and a state that satisfy `E`.
-/
import Mathlib.Init

namespace TapeArchive.Lib

variable {ε σ τ α β : Type}

/-! ## Known results -/

section Runs

variable {x : EStateM ε σ α} {f : α → EStateM ε σ β} {s s' : σ}

theorem bind_ok {a : α} (h : x s = .ok a s') : (x >>= f) s = f a s' := by
  show EStateM.bind x f s = f a s'
  unfold EStateM.bind
  rw [h]

theorem bind_error {e : ε} (h : x s = .error e s') : (x >>= f) s = .error e s' := by
  show EStateM.bind x f s = .error e s'
  unfold EStateM.bind
  rw [h]

/-- A sequence that returns has returned from both its parts. -/
theorem exists_of_bind_ok {b : β} (h : (x >>= f) s = .ok b s') :
    ∃ a s₁, x s = .ok a s₁ ∧ f a s₁ = .ok b s' := by
  cases hx : x s with
  | ok a s₁ =>
    rw [bind_ok hx] at h
    exact ⟨a, s₁, rfl, h⟩
  | error e s₁ =>
    rw [bind_error hx] at h
    cases h

/-- A sequence that throws has thrown in one of its parts. -/
theorem of_bind_error {e : ε} (h : (x >>= f) s = .error e s') :
    x s = .error e s' ∨ ∃ a s₁, x s = .ok a s₁ ∧ f a s₁ = .error e s' := by
  cases hx : x s with
  | ok a s₁ =>
    rw [bind_ok hx] at h
    exact Or.inr ⟨a, s₁, rfl, h⟩
  | error e1 s₁ =>
    rw [bind_error hx] at h
    cases h
    exact Or.inl rfl

/-- A loop that returns: the first round returned, and so did the rest. -/
theorem exists_of_forM_ok {γ : Type} {body : γ → EStateM ε σ Unit} {c : γ} {cs : List γ}
    {u : PUnit} (h : ((c :: cs).forM body : EStateM ε σ PUnit) s = .ok u s') :
    ∃ s₁, body c s = .ok () s₁ ∧ (cs.forM body : EStateM ε σ PUnit) s₁ = .ok u s' := by
  have hs : (body c >>= fun _ => cs.forM body : EStateM ε σ PUnit) s = .ok u s' := h
  obtain ⟨a, s₁, hc, hcs⟩ := exists_of_bind_ok hs
  exact ⟨s₁, hc, hcs⟩

/-- The run returns. -/
def returns (x : EStateM ε σ α) (s : σ) : Bool :=
  match x s with
  | .ok _ _ => true
  | .error _ _ => false

theorem exists_ok_of_returns (h : returns x s = true) : ∃ a s', x s = .ok a s' := by
  unfold returns at h
  cases hx : x s with
  | ok a s' => exact ⟨a, s', rfl⟩
  | error e s' =>
    rw [hx] at h
    cases h

theorem tryCatch_ok {a : α} {ha : ε → EStateM ε σ α} (h : x s = .ok a s') :
    (tryCatch x ha : EStateM ε σ α) s = .ok a s' := by
  show EStateM.tryCatch x ha s = .ok a s'
  unfold EStateM.tryCatch
  rw [h]

end Runs

/-! ## Conditions on how a run ends -/

/-- What holds after a run, with a value or with an exception. -/
def Ends (x : EStateM ε σ α) (Q : α → σ → Prop) (E : ε → σ → Prop) (s : σ) : Prop :=
  match x s with
  | .ok a s' => Q a s'
  | .error e s' => E e s'

namespace Ends

variable {x : EStateM ε σ α} {Q : α → σ → Prop} {E : ε → σ → Prop} {s : σ}

theorem of_ok (h : Ends x Q E s) {a : α} {s' : σ} (hr : x s = .ok a s') : Q a s' := by
  unfold Ends at h
  rw [hr] at h
  exact h

theorem of_error (h : Ends x Q E s) {e : ε} {s' : σ} (hr : x s = .error e s') : E e s' := by
  unfold Ends at h
  rw [hr] at h
  exact h

/-- A run that cannot throw returns. -/
theorem exists_ok (h : Ends x Q (fun _ _ => False) s) : ∃ a s', x s = .ok a s' ∧ Q a s' := by
  unfold Ends at h
  cases hx : x s with
  | ok a s' =>
    rw [hx] at h
    exact ⟨a, s', rfl, h⟩
  | error e s' =>
    rw [hx] at h
    exact absurd h id

theorem anyway (x : EStateM ε σ α) (s : σ) : Ends x (fun _ _ => True) (fun _ _ => True) s := by
  unfold Ends
  cases x s with
  | ok a s' => trivial
  | error e s' => trivial

variable {E' : ε → σ → Prop}

theorem mono (h : Ends x Q E s) {Q' : α → σ → Prop}
    (hQ : ∀ a s', Q a s' → Q' a s') (hE : ∀ e s', E e s' → E' e s') : Ends x Q' E' s := by
  unfold Ends at h ⊢
  cases hx : x s with
  | ok a s' =>
    rw [hx] at h
    exact hQ a s' h
  | error e s' =>
    rw [hx] at h
    exact hE e s' h

variable {f : α → EStateM ε σ β} {R : β → σ → Prop}

/-- **Sequencing.** -/
theorem bind (h : Ends x (fun a => Ends (f a) R E) E s) : Ends (x >>= f) R E s := by
  unfold Ends at h
  cases hx : x s with
  | ok a s' =>
    rw [hx] at h
    unfold Ends
    rw [bind_ok hx]
    exact h
  | error e s' =>
    rw [hx] at h
    unfold Ends
    rw [bind_error hx]
    exact h

/-- Sequencing with a condition in the middle. -/
theorem seq (h : Ends x Q E s) (hf : ∀ a s', Q a s' → Ends (f a) R E s') : Ends (x >>= f) R E s :=
  bind (h.mono hf (fun _ _ he => he))

/-- **Handlers.** -/
theorem catching {ha : ε → EStateM ε σ α} (h : Ends x Q E' s)
    (hh : ∀ e s', E' e s' → Ends (ha e) Q E s') :
    Ends (tryCatch x ha : EStateM ε σ α) Q E s := by
  show Ends (EStateM.tryCatch x ha) Q E s
  unfold Ends at h
  unfold Ends EStateM.tryCatch
  cases hx : x s with
  | ok a s' =>
    rw [hx] at h
    exact h
  | error e s' =>
    rw [hx] at h
    exact hh e s' h

end Ends

end TapeArchive.Lib
