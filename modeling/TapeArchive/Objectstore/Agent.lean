/-
  The agent of a process and the register of all agents (`Agent.cpp`,
  `AgentRegister.cpp`), and the actions a process applies to its agent in
  batches (`AgentReference::appyAction`):

      ownedobjects ──► set ──add──► set ──remove──► … ──► ownedobjects
                                                    heartbeat + 1, …
-/
import TapeArchive.Lib.Keyed

namespace TapeArchive.Objectstore

open Std (TreeSet)
open Lib (mem_foldl_insert)

/-! ## The agent -/

/-- `serializers::Agent`, with the owner of its header. -/
structure Agent where
  owner : String
  ownedobjects : List String
  heartbeat : UInt64
  being_garbage_collected : Bool

/-- `serializers::removeString`; nothing depends on the order of the rest. -/
def removeString (field : List String) (value : String) : List String :=
  field.filter (fun s => s ≠ value)

namespace Agent

def isEmpty (ag : Agent) : Bool := ag.ownedobjects.isEmpty

def removeFromOwnership (ag : Agent) (name : String) : Agent :=
  { ag with ownedobjects := removeString ag.ownedobjects name }

def bumpHeartbeat (ag : Agent) : Agent := { ag with heartbeat := ag.heartbeat + 1 }

def getOwnershipSet (ag : Agent) : TreeSet String :=
  ag.ownedobjects.foldl (fun ret oo => ret.insert oo) ∅

def resetOwnership (ag : Agent) (ownershipSet : TreeSet String) : Agent :=
  { ag with ownedobjects := ownershipSet.toList }

end Agent

/-! ## The agent register -/

structure AgentRegister where
  (agents untrackedagents : List String)

namespace AgentRegister

variable (ar : AgentRegister)

def addAgent (name : String) : AgentRegister :=
  { agents := ar.agents ++ [name], untrackedagents := ar.untrackedagents ++ [name] }

def removeAgent (name : String) : AgentRegister :=
  { agents := removeString ar.agents name
    untrackedagents := removeString ar.untrackedagents name }

/-- `AgentRegister::trackAgent`; `none` stands for `NotFound`. -/
def trackAgent (name : String) : Option AgentRegister :=
  if name ∈ ar.agents then
    some { ar with untrackedagents := removeString ar.untrackedagents name }
  else none

/-- `AgentRegister::untrackAgent`; `none` stands for `NotFound`. -/
def untrackAgent (name : String) : Option AgentRegister :=
  if name ∈ ar.agents then
    some (if name ∈ ar.untrackedagents then ar
      else { ar with untrackedagents := ar.untrackedagents ++ [name] })
  else none

end AgentRegister

/-! ## Actions on an agent -/

inductive AgentOperation where
  | add | remove | addBatch | removeBatch | heartbeat
  deriving DecidableEq

/-- `m_ownerShipModifyingOperations.count(op)`. -/
def AgentOperation.modifiesOwnership : AgentOperation → Bool
  | .add | .remove | .addBatch | .removeBatch => true
  | .heartbeat => false

structure Action where
  op : AgentOperation
  objectAddress : String
  objectAddressSet : List String

def appyAction (action : Action) (agent : Agent) (ownershipSet : TreeSet String) :
    Agent × TreeSet String :=
  match action.op with
  | .add => (agent, ownershipSet.insert action.objectAddress)
  | .addBatch =>
      (agent, action.objectAddressSet.foldl (fun s oa => s.insert oa) ownershipSet)
  | .remove => (agent, ownershipSet.erase action.objectAddress)
  | .removeBatch =>
      (agent, action.objectAddressSet.foldl (fun s oa => s.erase oa) ownershipSet)
  | .heartbeat => (agent.bumpHeartbeat, ownershipSet)

variable (actions : List Action)

/-- The fetched agent after a batch of actions: what `queueAndExecuteAction` commits. -/
def executeActions (ag : Agent) : Agent :=
  let ownershipModification := actions.any (fun a => a.op.modifiesOwnership)
  let ownershipSet := if ownershipModification then ag.getOwnershipSet else ∅
  let result := actions.foldl (fun p a => appyAction a p.1 p.2) (ag, ownershipSet)
  if ownershipModification then result.1.resetOwnership result.2 else result.1

/-! ## A batch is the sequence of its actions -/

def Action.onSet (a : Action) (s : TreeSet String) : TreeSet String :=
  match a.op with
  | .add => s.insert a.objectAddress
  | .addBatch => a.objectAddressSet.foldl (fun s oa => s.insert oa) s
  | .remove => s.erase a.objectAddress
  | .removeBatch => a.objectAddressSet.foldl (fun s oa => s.erase oa) s
  | .heartbeat => s

def heartbeats : UInt64 :=
  (actions.map (fun a => if a.op = .heartbeat then (1 : UInt64) else 0)).sum

theorem appyAction_eq (a : Action) (ag : Agent) (s : TreeSet String) : appyAction a ag s
      = ({ ag with heartbeat := ag.heartbeat + if a.op = .heartbeat then 1 else 0 }, a.onSet s) := by
  unfold appyAction Action.onSet
  cases a.op <;> simp [Agent.bumpHeartbeat]

theorem foldl_appyAction (ag : Agent) (s : TreeSet String) :
    actions.foldl (fun p a => appyAction a p.1 p.2) (ag, s)
      = ({ ag with heartbeat := ag.heartbeat + heartbeats actions },
         actions.foldl (fun s a => a.onSet s) s) := by
  induction actions generalizing ag s with
  | nil => simp [heartbeats]
  | cons a actions ih =>
    rw [List.foldl_cons, appyAction_eq, ih]
    simp [heartbeats, add_assoc]

/-- A batch, field by field. -/
theorem executeActions_eq (ag : Agent) : executeActions actions ag
      = { ag with
          ownedobjects :=
            if actions.any (fun a => a.op.modifiesOwnership) then
              (actions.foldl (fun s a => a.onSet s) ag.getOwnershipSet).toList
            else ag.ownedobjects
          heartbeat := ag.heartbeat + heartbeats actions } := by
  unfold executeActions
  simp only [foldl_appyAction]
  cases actions.any (fun a => a.op.modifiesOwnership) <;> rfl

theorem foldl_onSet_of_not_any {actions : List Action}
    (h : actions.any (fun a => a.op.modifiesOwnership) = false) (s : TreeSet String) :
    actions.foldl (fun s a => a.onSet s) s = s := by
  induction actions with
  | nil => rfl
  | cons a actions ih =>
    rw [List.any_cons, Bool.or_eq_false_iff] at h
    have ha : a.onSet s = s := by
      unfold Action.onSet
      cases hop : a.op <;> simp [hop, AgentOperation.modifiesOwnership] at h ⊢
    rw [List.foldl_cons, ha]
    exact ih h.2

theorem foldl_insert_equiv (l : List String) {s t : TreeSet String} (h : s.Equiv t) :
    (l.foldl (fun s oa => s.insert oa) s).Equiv (l.foldl (fun s oa => s.insert oa) t) := by
  induction l generalizing s t with
  | nil => exact h
  | cons x l ih => exact ih (h.insert x)

theorem foldl_erase_equiv (l : List String) {s t : TreeSet String} (h : s.Equiv t) :
    (l.foldl (fun s oa => s.erase oa) s).Equiv (l.foldl (fun s oa => s.erase oa) t) := by
  induction l generalizing s t with
  | nil => exact h
  | cons x l ih => exact ih (h.erase x)

theorem Action.onSet_equiv (a : Action) {s t : TreeSet String} (h : s.Equiv t) :
    (a.onSet s).Equiv (a.onSet t) := by
  unfold Action.onSet
  cases a.op with
  | add => exact h.insert _
  | remove => exact h.erase _
  | addBatch => exact foldl_insert_equiv _ h
  | removeBatch => exact foldl_erase_equiv _ h
  | heartbeat => exact h

/-- The actions do not see how the set is stored. -/
theorem foldl_onSet_equiv {s t : TreeSet String} (h : s.Equiv t) :
    (actions.foldl (fun s a => a.onSet s) s).Equiv (actions.foldl (fun s a => a.onSet s) t) := by
  induction actions generalizing s t with
  | nil => exact h
  | cons a actions ih => exact ih (a.onSet_equiv h)

/-- A set that was written to an agent is read back. -/
theorem getOwnershipSet_resetOwnership (ag : Agent) (s : TreeSet String) :
    (ag.resetOwnership s).getOwnershipSet.Equiv s := by
  apply TreeSet.Equiv.of_forall_mem_iff
  intro x
  unfold Agent.getOwnershipSet Agent.resetOwnership
  rw [mem_foldl_insert (fun oo => oo)]
  simp

/-- **Two batches after each other are one batch.** -/
theorem executeActions_append (first second : List Action) (ag : Agent) :
    executeActions (first ++ second) ag = executeActions second (executeActions first ag) := by
  rw [executeActions_eq, executeActions_eq first, executeActions_eq second]
  have hb : heartbeats (first ++ second) = heartbeats first + heartbeats second := by
    simp [heartbeats]
  rw [List.any_append, List.foldl_append, hb, ← add_assoc]
  cases h2 : second.any (fun a => a.op.modifiesOwnership) with
  | false =>
    -- the second batch only bumps the heartbeat
    rw [foldl_onSet_of_not_any h2]
    simp
  | true =>
    cases h1 : first.any (fun a => a.op.modifiesOwnership) with
    | false =>
      rw [foldl_onSet_of_not_any h1]
      rfl
    | true =>
      -- the set the first batch writes is the one the second batch reads
      have hs := foldl_onSet_equiv second (getOwnershipSet_resetOwnership
        { ag with heartbeat := ag.heartbeat + heartbeats first }
        (first.foldl (fun s a => a.onSet s) ag.getOwnershipSet))
      simp only [Bool.or_self, if_true]
      rw [← hs.toList_eq]
      rfl

/-- **A batch leaves the agent as its actions do one by one.** -/
theorem executeActions_sequential (ag : Agent) :
    executeActions actions ag = actions.foldl (fun ag a => executeActions [a] ag) ag := by
  induction actions generalizing ag with
  | nil =>
    rw [executeActions_eq]
    simp [heartbeats]
  | cons a actions ih =>
    rw [show a :: actions = [a] ++ actions from rfl, executeActions_append, ih]
    rfl

end TapeArchive.Objectstore
