/-
  `MemQueues.hpp`: threads that add jobs to the same queue share one update of it.  The
  first one posts the in-memory queue and a promise for its successor; the destructor of
  the lock they share keeps the promise, and removes it from the map if nobody took it.

  The calls use the static maps of `MemQueue<Request, Queue>`; the destructor names
  `MemQueue<Queue, Request>`, whose maps are others.
-/
import TapeArchive.Lib.Run
import Mathlib.Logic.Function.Basic

namespace TapeArchive.Scheduler.MemQueues

open Lib

/-! ## The calls and the destructor -/

/-- The order of the arguments of the template. -/
inductive Instance where
  | requestQueue
  | queueRequest
  deriving DecidableEq

/-- A queue and a promise are named by the number of the call that created them. -/
structure Statics where
  (g_queues g_promises g_futures : String → Option Nat)

def Statics.empty : Statics := ⟨fun _ => none, fun _ => none, fun _ => none⟩

/-- Where the call that created a queue is. -/
inductive Stage where
  /-- The queue is posted, and the predecessor's promise is waited for. -/
  | posted (predecessor : Option Nat)
  /-- The queue is off the map. -/
  | updating
  | returned
  /-- The shared lock is destroyed. -/
  | destroyed
  deriving DecidableEq

structure World where
  statics : Instance → Statics
  /-- The number of queues created so far. -/
  next : Nat
  stage : Nat → Option Stage
  queueIndex : Nat → String
  /-- Promises that were kept. -/
  kept : Nat → Bool

def World.initial : World :=
  ⟨fun _ => .empty, 0, fun _ => none, fun _ => "", fun _ => false⟩

inductive Event where
  /-- A call takes the global lock. -/
  | sharedAddToQueue (queueIndex : String)
  /-- The call that created the queue goes on after its predecessor, and drops the queue. -/
  | dropQueue (caller : Nat)
  | returnLock (caller : Nat)
  | destroyLock (caller : Nat)

/-- `sharedAddToNewQueue`, up to the release of the global lock. -/
def sharedAddToNewQueue (w : World) (queueIndex : String) : World :=
  let s := w.statics .requestQueue
  { w with
    next := w.next + 1
    statics := Function.update w.statics .requestQueue
      { g_queues := Function.update s.g_queues queueIndex (some w.next)
        g_promises := Function.update s.g_promises queueIndex (some w.next)
        g_futures := Function.update s.g_futures queueIndex (some w.next) }
    stage := Function.update w.stage w.next (some (.posted (s.g_promises queueIndex)))
    queueIndex := Function.update w.queueIndex w.next queueIndex }

/-- The critical section of the destructor, on the maps of an instance. -/
def Statics.trim (s : Statics) (caller : Nat) (queueIndex : String) : Statics :=
  if s.g_promises queueIndex = some caller then
    { s with
      g_futures := Function.update s.g_futures queueIndex none
      g_promises := Function.update s.g_promises queueIndex none }
  else s

def step (w : World) : Event → World
  | .sharedAddToQueue queueIndex =>
      match (w.statics .requestQueue).g_queues queueIndex with
      | none => sharedAddToNewQueue w queueIndex
      -- the job rides with the call that created the queue
      | some _ => w
  | .dropQueue caller =>
      match w.stage caller with
      | some (.posted predecessor) =>
          let s := w.statics .requestQueue
          if predecessor.all w.kept && s.g_queues (w.queueIndex caller) == some caller then
            { w with
              statics := Function.update w.statics .requestQueue
                { s with g_queues := Function.update s.g_queues (w.queueIndex caller) none }
              stage := Function.update w.stage caller (some .updating) }
          else w
      | _ => w
  | .returnLock caller =>
      if w.stage caller = some .updating then
        { w with stage := Function.update w.stage caller (some .returned) }
      else w
  | .destroyLock caller =>
      if w.stage caller = some .returned then
        { w with
          kept := Function.update w.kept caller true
          statics := Function.update w.statics .queueRequest
            ((w.statics .queueRequest).trim caller (w.queueIndex caller))
          stage := Function.update w.stage caller (some .destroyed) }
      else w

/-! ## What is left in the maps -/

/-- A posted queue has a promise, and a promise its future. -/
structure Posted (w : World) (index : String) : Prop where
  queues : (w.statics .requestQueue).g_promises index = none →
    (w.statics .requestQueue).g_queues index = none
  futures : (w.statics .requestQueue).g_futures index = (w.statics .requestQueue).g_promises index

/-- A step makes an entry when it is a call for the index, and none is ever removed. -/
theorem step_spec (w : World) (e : Event) {index : String} (h : Posted w index) :
    Posted (step w e) index ∧ (((step w e).statics .requestQueue).g_promises index = none
      ↔ (w.statics .requestQueue).g_promises index = none ∧ e ≠ .sharedAddToQueue index) := by
  cases e with
  | sharedAddToQueue queueIndex =>
    simp only [step]
    by_cases hi : index = queueIndex
    · subst hi
      cases hq : (w.statics .requestQueue).g_queues index with
      | none => exact ⟨⟨by simp [sharedAddToNewQueue], by simp [sharedAddToNewQueue]⟩,
          by simp [sharedAddToNewQueue]⟩
      | some q =>
        have hp : (w.statics .requestQueue).g_promises index ≠ none := by
          intro hp
          rw [h.queues hp] at hq
          cases hq
        exact ⟨h, by simp [hp]⟩
    · have hne : (Event.sharedAddToQueue queueIndex) ≠ .sharedAddToQueue index := by
        simpa using Ne.symm hi
      split
      · refine ⟨⟨?_, ?_⟩, ?_⟩
        · simpa [sharedAddToNewQueue, hi] using h.queues
        · simpa [sharedAddToNewQueue, hi] using h.futures
        · simp [sharedAddToNewQueue, hi, hne]
      · exact ⟨h, by simp [hne]⟩
  | dropQueue caller =>
    simp only [step]
    split
    · split
      · refine ⟨⟨?_, by simpa using h.futures⟩, by simp⟩
        simp only [Function.update_self]
        intro hp
        by_cases hi : index = w.queueIndex caller
        · simp [hi]
        · rw [Function.update_of_ne hi]
          exact h.queues hp
      · exact ⟨h, by simp⟩
    · exact ⟨h, by simp⟩
  | returnLock caller =>
    simp only [step]
    split
    · exact ⟨⟨h.queues, h.futures⟩, by simp⟩
    · exact ⟨h, by simp⟩
  | destroyLock caller =>
    -- the maps of the other instance are trimmed
    simp only [step]
    split
    · exact ⟨⟨by simpa using h.queues, by simpa using h.futures⟩, by simp⟩
    · exact ⟨h, by simp⟩

/-- **Nothing is ever cleaned up**: an index has no promise and no future in the maps of the calls
exactly when it was never called for. -/
theorem maps_trimmed_iff (es : List Event) (index : String) :
    (((run step World.initial es).statics .requestQueue).g_promises index = none
      ∧ ((run step World.initial es).statics .requestQueue).g_futures index = none)
    ↔ Along step (fun _ e => e ≠ .sharedAddToQueue index) World.initial es := by
  have hs : Posted World.initial index := ⟨fun _ => rfl, rfl⟩
  have hr : Posted (run step World.initial es) index :=
    run_preserves (I := fun w => Posted w index) (fun w e h => (step_spec w e h).1) hs
  have hi : ((run step World.initial es).statics .requestQueue).g_promises index = none ↔ _ :=
    run_iff (I := fun w => Posted w index)
      (J := fun w => (w.statics .requestQueue).g_promises index = none)
      (fun w e h => (step_spec w e h).1) (fun w e h => (step_spec w e h).2) hs
  rw [hr.futures, and_self, hi]
  exact and_iff_right rfl

/-- One call that returned, and its lock is destroyed. -/
theorem promise_left_behind :
    let w := run step World.initial
      [.sharedAddToQueue "pool", .dropQueue 0, .returnLock 0, .destroyLock 0]
    w.stage 0 = some .destroyed ∧ w.next = 1 ∧ (w.statics .requestQueue).g_promises "pool" = some 0
      ∧ (w.statics .requestQueue).g_futures "pool" = some 0 := by
  decide

end TapeArchive.Scheduler.MemQueues
