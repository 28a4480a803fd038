/-
  **HISTORIES OF CALLS ON A QUEUE.**

  A single writer locks and fetches a queue, adds a batch or removes a list of
  addresses, and lets go. A history is a sequence of such calls, starting
  from an initialised queue, all of which return. Along with the store it
  carries the list of jobs that should be queued by then.
-/
import TapeArchive.Objectstore.QueueSummaries

namespace TapeArchive.Objectstore

open Lib QueueJob

/-! ## The calls -/

/-- A call on a queue whose additions take batches of `B`. -/
inductive Call (B : Type) where
  | add (jobsToAdd : List B)
  | remove (jobsToRemove : List String)

structure QueueOps (Q J B : Type) where
  /-- The payloads `initialize` can write. -/
  Initial : Q → Prop
  /-- The job a batch entry is stored as. -/
  toPointer : B → J
  addJobsAndCommit : String → List B → Q → QueueM Q J Q
  removeJobsAndCommit : String → List String → Q → QueueM Q J Q

variable {Q J B : Type}

/-- A whole call: the queue is fetched, then the operation runs. -/
def QueueOps.call (ops : QueueOps Q J B) (addr : String) (c : Call B) : QueueM Q J Q := do
  let q ← fetchQueue addr
  match c with
  | .add jobsToAdd => ops.addJobsAndCommit addr jobsToAdd q
  | .remove jobsToRemove => ops.removeJobsAndCommit addr jobsToRemove q

def QueueOps.run (ops : QueueOps Q J B) (addr : String) (agent : AgentReference)
    (c : Call B) (st : QueueStore Q J) :
    Except Exn Q × Machine String (Obj Q (Shard J)) AgentReference :=
  (ops.call addr c).exec (Machine.start st agent)

/-! ## What a call should do to the content -/

section Content

variable [QueueJob J]

/-- The jobs that should be queued after a call, in order of addition. -/
def Call.effect (toPointer : B → J) : Call B → List J → List J
  | .add jobsToAdd, queued => queued ++ jobsToAdd.map toPointer
  | .remove jobsToRemove, queued => queued.filter (fun j => !jobsToRemove.contains (address j))

/-- The addresses of a batch are pairwise distinct and none of them is queued. -/
def Call.Admissible (toPointer : B → J) : Call B → List J → Prop
  | .add jobsToAdd, queued =>
      (jobsToAdd.map (fun b => address (toPointer b))).Nodup
        ∧ ∀ b ∈ jobsToAdd, address (toPointer b) ∉ queued.map address
  | .remove _, _ => True

instance (toPointer : B → J) (c : Call B) (queued : List J) :
    Decidable (c.Admissible toPointer queued) :=
  match c with
  | .add _ => inferInstanceAs (Decidable (_ ∧ _))
  | .remove _ => isTrue trivial

variable {queued : List J}

theorem Call.Admissible.nodup {toPointer : B → J} {c : Call B}
    (h : c.Admissible toPointer queued) (hq : (queued.map address).Nodup) :
    ((c.effect toPointer queued).map address).Nodup := by
  cases c with
  | add jobsToAdd =>
    obtain ⟨hba, hnew⟩ := h
    rw [Call.effect, List.map_append, List.map_map]
    refine hq.append hba ?_
    intro a ha ha'
    obtain ⟨b, hb, rfl⟩ := List.mem_map.mp ha'
    exact hnew b hb ha
  | remove jobsToRemove =>
    exact (List.filter_sublist.map address).nodup hq

/-! ## Histories -/

/-- Admissible calls that meet `Ok` and return lead to `st`; `queued` is what is left. -/
inductive History (ops : QueueOps Q J B) (addr : String)
    (Ok : QueueStore Q J → Call B → Prop) : QueueStore Q J → List J → Prop
  | start {st : QueueStore Q J} {q : Q} (hq : st addr = some (.queue q))
      (hinit : ops.Initial q) : History ops addr Ok st []
  | call {st : QueueStore Q J} {queued : List J} (c : Call B) (agent : AgentReference)
      (h : History ops addr Ok st queued) (hadm : c.Admissible ops.toPointer queued)
      (hok : Ok st c) (hret : (ops.run addr agent c st).1.isOk = true) :
      History ops addr Ok (ops.run addr agent c st).2.store
        (c.effect ops.toPointer queued)

variable {ops : QueueOps Q J B} {addr : String} {Ok : QueueStore Q J → Call B → Prop}
  {st : QueueStore Q J}

theorem History.nodup (h : History ops addr Ok st queued) : (queued.map address).Nodup := by
  induction h with
  | start => exact List.nodup_nil
  | call c agent _ hadm _ _ ih => exact hadm.nodup ih

theorem History.mono {Ok' : QueueStore Q J → Call B → Prop} (hOk : ∀ st c, Ok st c → Ok' st c)
    (h : History ops addr Ok st queued) :
    History ops addr Ok' st queued := by
  induction h with
  | start hq hinit => exact .start hq hinit
  | call c agent _ hadm hok hret ih => exact .call c agent ih hadm (hOk _ _ hok) hret

/-- **The invariant rule for histories**: what an initialised queue satisfies and every
call keeps holds along every history. -/
theorem History.invariant {Inv : QueueStore Q J → List J → Prop}
    (hs : ∀ st q, st addr = some (.queue q) → ops.Initial q → Inv st [])
    (hc : ∀ st queued c agent, Inv st queued → (queued.map address).Nodup →
      c.Admissible ops.toPointer queued → Ok st c →
      wp (ops.call addr c) (fun _ m' => Inv m'.store (c.effect ops.toPointer queued))
        (fun _ _ => True) (Machine.start st agent)) (h : History ops addr Ok st queued) :
    Inv st queued := by
  induction h with
  | start hq hinit => exact hs _ _ hq hinit
  | call c agent h hadm hok hret ih =>
    have hwp := hc _ _ c agent ih h.nodup hadm hok
    unfold QueueOps.run at hret ⊢
    rcases hrun : (ops.call addr c).exec (Machine.start _ agent) with ⟨r, m'⟩
    cases r with
    | ok q => exact wp_ok hwp hrun
    | error e =>
      rw [hrun] at hret
      cases hret

/-! ## Replaying a list of calls -/

variable (ops addr)

def QueueOps.replay (calls : List (AgentReference × Call B)) (st : QueueStore Q J) :
    QueueStore Q J :=
  calls.foldl (fun st ac => (ops.run addr ac.1 ac.2 st).2.store) st

/-- The jobs that should be queued after a list of calls. -/
def QueueOps.expected (calls : List (AgentReference × Call B)) (queued : List J) : List J :=
  calls.foldl (fun queued ac => ac.2.effect ops.toPointer queued) queued

/-- Every call of the list is admissible, meets `Ok` and returns. -/
def QueueOps.accepts (Ok : QueueStore Q J → Call B → Prop) [∀ st c, Decidable (Ok st c)] :
    List (AgentReference × Call B) → QueueStore Q J → List J → Bool
  | [], _, _ => true
  | (agent, c) :: calls, st, queued =>
      decide (c.Admissible ops.toPointer queued) && decide (Ok st c)
        && (ops.run addr agent c st).1.isOk
        && accepts Ok calls (ops.run addr agent c st).2.store
            (c.effect ops.toPointer queued)

variable {ops addr}

theorem History.replay [∀ st c, Decidable (Ok st c)] (calls : List (AgentReference × Call B)) :
    ∀ {st : QueueStore Q J} {queued : List J}, History ops addr Ok st queued →
      ops.accepts addr Ok calls st queued = true →
      History ops addr Ok (ops.replay addr calls st)
        (ops.expected calls queued) := by
  induction calls with
  | nil => exact fun h _ => h
  | cons ac calls ih =>
    intro st queued h ha
    simp only [QueueOps.accepts, Bool.and_eq_true, decide_eq_true_eq] at ha
    obtain ⟨⟨⟨hadm, hc⟩, hret⟩, hrest⟩ := ha
    exact ih (h.call ac.2 ac.1 hadm hc hret) hrest

/-- A condition on the queue an address leads to can be tested. -/
instance decidableForallQueue {S : Type} {o : Option (Obj Q S)} {P : Q → Prop} [DecidablePred P] :
    Decidable (∀ q, o = some (.queue q) → P q) :=
  match o with
  | some (.queue q) => decidable_of_iff (P q) (by simp)
  | some (.shard _) => isTrue (by simp)
  | some .other => isTrue (by simp)
  | none => isTrue (by simp)

end Content

end TapeArchive.Objectstore
