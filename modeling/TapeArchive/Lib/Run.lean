/-
  Runs of a system given by a step function: the state after a list of events,
  the requirement that every event meets a condition in the state it finds, and
  the invariant rule.
-/
import Mathlib.Logic.Basic

namespace TapeArchive.Lib

variable {σ ε : Type}

/-- The state after a list of events. -/
def run (step : σ → ε → σ) (s : σ) (es : List ε) : σ := es.foldl step s

@[simp] theorem run_nil (step : σ → ε → σ) (s : σ) : run step s [] = s := rfl

@[simp] theorem run_cons (step : σ → ε → σ) (s : σ) (e : ε) (es : List ε) :
    run step s (e :: es) = run step (step s e) es := rfl

/-- Every event of the list meets `P` in the state it finds. -/
def Along (step : σ → ε → σ) (P : σ → ε → Prop) : σ → List ε → Prop
  | _, [] => True
  | s, e :: es => P s e ∧ Along step P (step s e) es

instance Along.decidable (step : σ → ε → σ) (P : σ → ε → Prop) [∀ s e, Decidable (P s e)] :
    (s : σ) → (es : List ε) → Decidable (Along step P s es)
  | _, [] => isTrue trivial
  | s, e :: es =>
      match decidable step P (step s e) es with
      | isTrue h => decidable_of_iff (P s e) ⟨fun hp => ⟨hp, h⟩, fun hp => hp.1⟩
      | isFalse h => isFalse (fun hp => h hp.2)

variable {step : σ → ε → σ}

/-- **The invariant rule**: what every event keeps, provided it meets `P`, holds after
every list of events that all meet `P`. -/
theorem run_invariant {P : σ → ε → Prop} {I : σ → Prop} (hs : ∀ s e, I s → P s e → I (step s e)) :
    ∀ {es : List ε} {s : σ}, I s → Along step P s es → I (run step s es) := by
  intro es
  induction es with
  | nil => exact fun hI _ => hI
  | cons e es ih => exact fun hI hP => ih (hs _ e hI hP.1) hP.2

/-- What the invariant gives for an event is given along the whole list. -/
theorem Along.of_invariant {P Q : σ → ε → Prop} {I : σ → Prop}
    (hs : ∀ s e, I s → P s e → I (step s e)) (hQ : ∀ s e, I s → P s e → Q s e) :
    ∀ {es : List ε} {s : σ}, I s → Along step P s es → Along step Q s es := by
  intro es
  induction es with
  | nil => exact fun _ _ => trivial
  | cons e es ih => exact fun hI hP => ⟨hQ _ e hI hP.1, ih (hs _ e hI hP.1) hP.2⟩

/-- Two conditions that agree where the invariant holds agree along the whole list. -/
theorem Along.iff_of_invariant {P Q : σ → ε → Prop} {I : σ → Prop}
    (hsp : ∀ s e, I s → P s e → I (step s e)) (hPQ : ∀ s e, I s → (P s e ↔ Q s e))
    {es : List ε} {s : σ} (hs : I s) : Along step P s es ↔ Along step Q s es :=
  ⟨Along.of_invariant hsp (fun s e hI => (hPQ s e hI).mp) hs,
    Along.of_invariant (fun s e hI hQ => hsp s e hI ((hPQ s e hI).mpr hQ))
      (fun s e hI => (hPQ s e hI).mpr) hs⟩

/-- What every event keeps holds after every list of events. -/
theorem run_preserves {I : σ → Prop} (hs : ∀ s e, I s → I (step s e)) :
    ∀ {es : List ε} {s : σ}, I s → I (run step s es) := by
  intro es
  induction es with
  | nil => exact fun hI => hI
  | cons e es ih => exact fun hI => ih (hs _ e hI)

/-- **The exact condition**: when an event keeps `J` exactly if it meets `P`, and never brings it
back, `J` holds after a list exactly if it held before and all events meet `P`. -/
theorem run_iff {P : σ → ε → Prop} {I J : σ → Prop}
    (hI : ∀ s e, I s → I (step s e)) (hJ : ∀ s e, I s → (J (step s e) ↔ J s ∧ P s e)) :
    ∀ {es : List ε} {s : σ}, I s → (J (run step s es) ↔ J s ∧ Along step P s es) := by
  intro es
  induction es with
  | nil => exact fun _ => ⟨fun h => ⟨h, trivial⟩, fun h => h.1⟩
  | cons e es ih =>
    intro s hs
    rw [run_cons, ih (hI s e hs), hJ s e hs, and_assoc]
    exact Iff.rfl

end TapeArchive.Lib
