/-
  The object store as the object classes see it (`Backend.hpp`,
  `ObjectOps.hpp`): named objects with the four operations `create`,
  `atomicOverwrite`, `read` and `remove`, each of them atomic, and the agent
  reference that hands out the names of new objects. `create` refuses an existing
  name, `atomicOverwrite` and `remove` refuse an absent one, as both backends do.
-/
import TapeArchive.Lib.Machine

namespace TapeArchive.Objectstore

open Lib

/-! ## What can stop an operation -/

/-- Accesses without a bounds check: out of range the program has no defined behaviour. -/
inductive BadAccess where
  /-- `getJobsSummary()` reads the first and the last job of an empty shard. -/
  | emptyShardSummary
  /-- `mutable_retrievequeueshards(i)` or `SwapElements` past the end of the pointers. -/
  | shardPointerIndex
  /-- `retrievejobs(i)` past the end of the jobs. -/
  | jobIndex
  deriving DecidableEq

/-- The ways an operation can end other than by returning. -/
inductive Exn where
  | noSuchObject (address : String)
  | wrongType (address : String)
  /-- A failure reported by the backend itself. -/
  | backend (address : String)
  /-- `cta::exception::Exception` with its text. -/
  | exception (message : String)
  /-- Undefined behaviour: the process is lost. -/
  | undefined (access : BadAccess)
  /-- A loop of the source that does not end. -/
  | diverges
  deriving DecidableEq

/-! ## The agent reference -/

/-- `AgentReference`: the address of the agent and the counter behind `nextId`. -/
structure AgentReference where
  m_agentAddress : String
  m_nextId : Nat

/-- The name `nextId(childType)` gives when the counter stands at `n`. -/
def AgentReference.idAt (ar : AgentReference) (childType : String) (n : Nat) : String :=
  childType ++ "-" ++ ar.m_agentAddress ++ "-" ++ Nat.repr n

variable {childType : String}

theorem AgentReference.idAt_inj {ar : AgentReference} {n n' : Nat}
    (h : ar.idAt childType n = ar.idAt childType n') : n = n' := by
  exact Nat.repr_injective ((String.append_right_inj _).mp h)

/-! ## The operations on a store of objects `O` -/

/-- A computation of a process that works on the object store. -/
abbrev BackendM (O α : Type) := Prog String O AgentReference Exn α

variable {O : Type}

def nextId (childType : String) : BackendM O String := do
  let ar ← Prog.getMem
  Prog.setMem { ar with m_nextId := ar.m_nextId + 1 }
  pure (ar.idAt childType ar.m_nextId)

def create (address : String) (o : O) : BackendM O Unit := do
  let s ← Prog.getStore
  match s address with
  | none => Prog.write (.put address o)
  | some _ => Prog.fail (.backend address)

def atomicOverwrite (address : String) (o : O) : BackendM O Unit := do
  let s ← Prog.getStore
  match s address with
  | none => Prog.fail (.backend address)
  | some _ => Prog.write (.put address o)

def remove (address : String) : BackendM O Unit := do
  let s ← Prog.getStore
  match s address with
  | none => Prog.fail (.backend address)
  | some _ => Prog.write (.del address)

section Rules

variable {Q : Unit → Machine String O AgentReference → Prop}
variable {X : Exn → Machine String O AgentReference → Prop}
variable {m : Machine String O AgentReference} {a : String}

theorem wp_nextId (childType : String) {Q : String → Machine String O AgentReference → Prop} :
    wp (nextId childType) Q X m = Q (m.mem.idAt childType m.mem.m_nextId)
          { m with mem := { m.mem with m_nextId := m.mem.m_nextId + 1 } } := by
  simp [nextId]

variable {o : O}

theorem wp_create (h : m.store a = none) : wp (create a o) Q X m = Q () (m.push (.put a o)) := by
  simp [create, h]

theorem wp_create_taken {o o' : O} (h : m.store a = some o') :
    wp (create a o) Q X m = X (.backend a) m := by
  simp [create, h]

theorem wp_atomicOverwrite {o o' : O} (h : m.store a = some o') :
    wp (atomicOverwrite a o) Q X m = Q () (m.push (.put a o)) := by
  simp [atomicOverwrite, h]

theorem wp_remove (h : m.store a = some o) : wp (remove a) Q X m = Q () (m.push (.del a)) := by
  simp [remove, h]

/-- The three writes, without knowing whether the object exists. -/
theorem wp_create_cases (hX : X (.backend a) m) (hQ : m.store a = none → Q () (m.push (.put a o))) :
    wp (create a o) Q X m := by
  cases h : m.store a with
  | none => rw [wp_create h]; exact hQ h
  | some o' => rw [wp_create_taken h]; exact hX

theorem wp_atomicOverwrite_cases (hX : X (.backend a) m)
    (hQ : ∀ o', m.store a = some o' → Q () (m.push (.put a o))) :
    wp (atomicOverwrite a o) Q X m := by
  cases h : m.store a with
  | none => simpa [atomicOverwrite, h] using hX
  | some o' => rw [wp_atomicOverwrite h]; exact hQ o' h

/-- No name that the agent has still to give out is taken. -/
def NamesFree (childType : String) (m : Machine String O AgentReference) : Prop :=
  ∀ n ≥ m.mem.m_nextId, m.store (m.mem.idAt childType n) = none

theorem NamesFree.next (h : NamesFree childType m) :
    m.store (m.mem.idAt childType m.mem.m_nextId) = none := h _ (Nat.le_refl _)

/-- The names stay free when only other objects are created. -/
theorem NamesFree.step {m' : Machine String O AgentReference}
    (h : NamesFree childType m) (ha : m'.mem.m_agentAddress = m.mem.m_agentAddress)
    (hle : m.mem.m_nextId ≤ m'.mem.m_nextId)
    (hst : ∀ n ≥ m'.mem.m_nextId, m.store (m.mem.idAt childType n) = none →
      m'.store (m.mem.idAt childType n) = none) : NamesFree childType m' := by
  intro n hn
  have : m'.mem.idAt childType n = m.mem.idAt childType n := by
    simp only [AgentReference.idAt, ha]
  rw [this]
  exact hst n hn (h n (hle.trans hn))

end Rules

end TapeArchive.Objectstore
