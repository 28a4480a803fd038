/-
  **ONE COLLECTOR PER DEAD AGENT** (`GarbageCollector.cpp`, `Agent.cpp`,
  `AgentRegister.cpp`). A collector that believes an agent dead, on unlocked reads, goes
  through

      lock ─ fetch ─ owner is the register? ─ list it as our own
           ─ commit ourselves as owner ─ mark it tracked
           ─ clean its objects ─ remove it ─ unregister it ─ forget it

  and holds the lock on the agent to the end. It declares an agent dead whenever it
  likes: heartbeats and timeouts are not modelled.
-/
import TapeArchive.Lib.Locks
import TapeArchive.Lib.Run
import TapeArchive.Objectstore.Agent

namespace TapeArchive.Objectstore.AgentCollection

open Lib
open Function (update_of_ne update_self)

/-! ## Collectors and the store -/

/-- Where a collector is; from `suspects` on it is in `cleanupDeadAgent`. -/
inductive Phase where
  | idle
  | suspects (agent : String)
  | locked (agent : String)
  /-- The fetched owner is the agent register. -/
  | checked (agent : String)
  /-- Our own agent lists the agent. -/
  | intended (agent : String)
  /-- We are committed as the owner. -/
  | owning (agent : String)
  | cleaning (agent : String)
  /-- Individual collection of an agent that the dead one owned; both are locked. -/
  | collecting (agent owned : String)
  /-- `untrackAgent` of it is committed. -/
  | untracked (agent owned : String)
  /-- The agent object is removed. -/
  | unregistering (agent : String)
  | forgetting (agent : String)
  /-- The process has ended. -/
  | exited

/-- The agent whose objects the collector cleans. -/
def Phase.cleaned : Phase → Option String
  | .owning a | .cleaning a | .collecting a _ | .untracked a _ => some a
  | _ => none

/-- The agent that the collector has taken over, to the end of `cleanupDeadAgent`. -/
def Phase.takenOver : Phase → Option String
  | .owning a | .cleaning a | .collecting a _ | .untracked a _ => some a
  | .unregistering a | .forgetting a => some a
  | _ => none

/-- A `GarbageCollector`. -/
structure Collector where
  /-- `m_ourAgentReference.getAgentAddress()`. -/
  self : String
  m_watchedAgents : List String
  phase : Phase

/-- The stored agents, the register, the locks on the agents and the collectors. -/
structure World where
  agents : String → Option Agent
  register : AgentRegister
  locks : Locks String Nat
  collectors : Nat → Collector

/-- The steps of a collector `g`, and those of the processes of the agents. -/
inductive Event where
  | trimGoneTargets (g : Nat)
  | acquireTargets (g : Nat)
  /-- `checkAlive` said no. -/
  | declareDead (g : Nat) (agent : String)
  | lock (g : Nat)
  | fetch (g : Nat)
  | addToOwnership (g : Nat)
  | takeOwnership (g : Nat)
  | trackAgent (g : Nat)
  /-- An object of the agent is dealt with. -/
  | relinquish (g : Nat) (object : String)
  | lockOwned (g : Nat) (owned : String)
  | untrackOwned (g : Nat)
  | returnOwned (g : Nat)
  | removeAgent (g : Nat)
  | unregister (g : Nat)
  | forget (g : Nat)
  /-- An exception leaves `cleanupDeadAgent`. -/
  | fail (g : Nat)
  | crash (g : Nat)
  /-- `insertAndRegisterSelf`: the register first, then the agent. -/
  | enlist (agent : String)
  | insert (agent : String)
  /-- The process of an agent executes a batch of actions on it. -/
  | execute (agent : String) (actions : List Action)
  /-- The process of an agent ends: `removeAndUnregisterSelf`. -/
  | leave (agent : String)
  | unlist (agent : String)

namespace World

/-- Any number of collectors before their first pass. -/
def start (agents : String → Option Agent) (register : AgentRegister) (selves : Nat → String) :
    World where
  agents := agents
  register := register
  locks := fun _ => none
  collectors := fun g => { self := selves g, m_watchedAgents := [], phase := .idle }

/-! ## The steps of a collector -/

variable (w : World)

variable (g : Nat)

def setCollector (c : Collector) : World :=
  { w with collectors := Function.update w.collectors g c }

def setPhase (phase : Phase) : World :=
  w.setCollector g { w.collectors g with phase := phase }

/-- `cleanupDeadAgent` returns: its locks go, and the agent is not watched any more. -/
def finish (agent : String) : World :=
  { w with locks := w.locks.releaseAll g }.setCollector g
    { w.collectors g with
      m_watchedAgents := removeString (w.collectors g).m_watchedAgents agent, phase := .idle }

/-- An exception leaves `cleanupDeadAgent`; the agent is still watched. -/
def throw : World :=
  { w with locks := w.locks.releaseAll g }.setPhase g .idle

def die : World :=
  { w with locks := w.locks.releaseAll g }.setPhase g .exited

/-- `trimGoneTargets`, an unlocked read of the register. -/
def trimGoneTargets : World :=
  match (w.collectors g).phase with
  | .idle =>
      w.setCollector g { w.collectors g with
        m_watchedAgents := (w.collectors g).m_watchedAgents.filter (· ∈ w.register.agents) }
  | _ => w

/-- `acquireTargets`: unlocked reads; the owner of the agent is read and not used. -/
def acquireTargets : World :=
  match (w.collectors g).phase with
  | .idle =>
      let c := w.collectors g
      let acquired := w.register.untrackedagents.filter (fun a =>
        a ≠ c.self && a ∉ c.m_watchedAgents && (w.agents a).isSome)
      w.setCollector g { c with m_watchedAgents := c.m_watchedAgents ++ acquired }
  | _ => w

/-- `checkHeartbeats` calls `cleanupDeadAgent` for a watched agent. -/
def declareDead (agent : String) : World :=
  match (w.collectors g).phase with
  | .idle =>
      if agent ∈ (w.collectors g).m_watchedAgents then w.setPhase g (.suspects agent) else w
  | _ => w

/-- `agLock.lock(agent)`; it waits for the lock. -/
def lock : World :=
  match (w.collectors g).phase with
  | .suspects a =>
      match w.agents a with
      -- `NoSuchObject`: the agent is already deleted
      | none => w.finish g a
      | some _ =>
          match w.locks a with
          | none => { w with locks := w.locks.acquire a g }.setPhase g (.locked a)
          | some _ => w
  | _ => w

/-- `agent.fetch()` and the check of the owner. -/
def fetch (ar : String) (w : World) (g : Nat) : World :=
  match (w.collectors g).phase with
  | .locked a =>
      match w.agents a with
      | none => w.throw g
      | some ag => if ag.owner = ar then w.setPhase g (.checked a) else w.finish g a
  | _ => w

/-- `m_ourAgentReference` executes an action on our own agent, and `next` comes after it. -/
def updateOwnAgent (action : Action) (next : World → World) : World :=
  let self := (w.collectors g).self
  match w.locks self with
  | some _ => w
  | none =>
      match w.agents self with
      | none => w.throw g
      | some own =>
          -- our own agent is being collected: the process ends itself
          if own.being_garbage_collected then w.die g
          else next { w with
            agents := Function.update w.agents self (some (executeActions [action] own)) }

/-- `m_ourAgentReference.addToOwnership(address)`. -/
def addToOwnership : World :=
  match (w.collectors g).phase with
  | .checked a => w.updateOwnAgent g ⟨.add, a, []⟩ (fun w => w.setPhase g (.intended a))
  | _ => w

/-- `setOwner`, `setBeingGarbageCollected` and `commit`. -/
def takeOwnership : World :=
  match (w.collectors g).phase with
  | .intended a =>
      match w.agents a with
      | none => w.throw g
      | some ag =>
          { w with agents := Function.update w.agents a (some { ag with
              owner := (w.collectors g).self, being_garbage_collected := true })
          }.setPhase g (.owning a)
  | _ => w

/-- The register is locked, fetched, changed and committed. -/
def trackAgent (w : World) (g : Nat) : World :=
  match (w.collectors g).phase with
  | .owning a =>
      match w.register.trackAgent a with
      | none => w.throw g
      | some register => { w with register := register }.setPhase g (.cleaning a)
  | _ => w

/-- `agent.removeFromOwnership(object)` and `agent.commit()`. -/
def relinquish (object : String) : World :=
  match (w.collectors g).phase with
  | .cleaning a =>
      match w.agents a with
      | none => w.throw g
      | some ag =>
          { w with agents := Function.update w.agents a (some (ag.removeFromOwnership object))
          }.setPhase g (.cleaning a)
  | _ => w

/-- An agent among the objects of the dead one is locked and fetched. -/
def lockOwned (owned : String) : World :=
  match (w.collectors g).phase with
  | .cleaning a =>
      match w.agents owned, w.locks owned with
      | some _, none =>
          { w with locks := w.locks.acquire owned g }.setPhase g (.collecting a owned)
      | _, _ => w
  | _ => w

/-- `Agent::garbageCollect` up to the commit of the register. -/
def untrackOwned : World :=
  match (w.collectors g).phase with
  | .collecting a b =>
      match w.agents b with
      | none => w.throw g
      | some ag =>
          if ag.owner = a then
            match w.register.untrackAgent b with
            | none => w.throw g
            | some register => { w with register := register }.setPhase g (.untracked a b)
          else { w with locks := w.locks.release b }.setPhase g (.cleaning a)
  | _ => w

/-- `Agent::garbageCollect`: the agent goes back to the register. -/
def returnOwned (ar : String) (w : World) (g : Nat) : World :=
  match (w.collectors g).phase with
  | .untracked a b =>
      match w.agents b with
      | none => w.throw g
      | some ag =>
          { w with
            agents := Function.update w.agents b (some { ag with owner := ar })
            locks := w.locks.release b }.setPhase g (.cleaning a)
  | _ => w

/-- `removeAndUnregisterSelf` up to the removal of the object. -/
def removeAgent : World :=
  match (w.collectors g).phase with
  | .cleaning a =>
      match w.agents a with
      | none => w.throw g
      | some ag =>
          if ag.isEmpty then
            { w with agents := Function.update w.agents a none }.setPhase g (.unregistering a)
          else w.throw g
  | _ => w

/-- `removeAndUnregisterSelf`: the register forgets the agent. -/
def unregister : World :=
  match (w.collectors g).phase with
  | .unregistering a =>
      { w with register := w.register.removeAgent a }.setPhase g (.forgetting a)
  | _ => w

/-- `agentReference.removeFromOwnership(agent)`, and `cleanupDeadAgent` returns. -/
def forget : World :=
  match (w.collectors g).phase with
  | .forgetting a => w.updateOwnAgent g ⟨.remove, a, []⟩ (fun w => w.finish g a)
  | _ => w

/-- An exception or the end of a process that is still there. -/
def interrupt (stop : World → Nat → World) : World :=
  match (w.collectors g).phase with
  | .exited => w
  | _ => stop w g

/-! ## The steps of the other processes -/

/-- The process of an agent changes or removes it under its lock. -/
def ownProcess (agent : String) (change : Agent → Option Agent) : World :=
  match w.locks agent, w.agents agent with
  | none, some ag => { w with agents := Function.update w.agents agent (change ag) }
  | _, _ => w

def insertAgent (ar : String) (w : World) (agent : String) : World :=
  match w.agents agent with
  | none => { w with agents := Function.update w.agents agent (some ⟨ar, [], 0, false⟩) }
  | some _ => w

/-- The register forgets an agent whose object is removed. -/
def unlistAgent (agent : String) : World :=
  match w.agents agent with
  | none => { w with register := w.register.removeAgent agent }
  | some _ => w

/-- One step; `ar` is the address of the agent register. -/
def step (ar : String) (w : World) : Event → World
  | .trimGoneTargets g => w.trimGoneTargets g
  | .acquireTargets g => w.acquireTargets g
  | .declareDead g a => w.declareDead g a
  | .lock g => w.lock g
  | .fetch g => w.fetch ar g
  | .addToOwnership g => w.addToOwnership g
  | .takeOwnership g => w.takeOwnership g
  | .trackAgent g => w.trackAgent g
  | .relinquish g object => w.relinquish g object
  | .lockOwned g owned => w.lockOwned g owned
  | .untrackOwned g => w.untrackOwned g
  | .returnOwned g => w.returnOwned ar g
  | .removeAgent g => w.removeAgent g
  | .unregister g => w.unregister g
  | .forget g => w.forget g
  | .fail g => w.interrupt g throw
  | .crash g => w.interrupt g die
  | .enlist a => { w with register := w.register.addAgent a }
  | .insert a => w.insertAgent ar a
  -- the process of an agent that is being collected ends instead
  | .execute a actions => w.ownProcess a (fun ag =>
      some (if ag.being_garbage_collected then ag else executeActions actions ag))
  | .leave a => w.ownProcess a (fun ag => if ag.isEmpty then none else some ag)
  | .unlist a => w.unlistAgent a

end World

/-! ## What a collector knows while it holds its locks -/

def OwnedBy (agents : String → Option Agent) (a owner : String) : Prop :=
  ∃ ag, agents a = some ag ∧ ag.owner = owner

/-- **What holds of the locked agents in each phase.** -/
def Phase.Ok (ar self : String) (agents : String → Option Agent) (locks : Locks String Nat)
    (g : Nat) : Phase → Prop
  | .idle | .suspects _ | .exited => True
  | .locked a | .unregistering a | .forgetting a => locks a = some g
  | .checked a | .intended a => locks a = some g ∧ OwnedBy agents a ar
  | .owning a | .cleaning a => locks a = some g ∧ OwnedBy agents a self
  | .collecting a b | .untracked a b =>
      locks a = some g ∧ OwnedBy agents a self ∧ locks b = some g ∧ b ≠ a

/-- Every collector is where its locks allow it to be. -/
def Inv (ar : String) (w : World) : Prop :=
  ∀ g, (w.collectors g).phase.Ok ar (w.collectors g).self w.agents w.locks g

variable {g : Nat} {p : Option Nat}

/-- The frame rule: a step that respects the locks of `g` keeps what `g` knows. -/
theorem Phase.Ok.frame {ar self : String} {agents agents' : String → Option Agent}
    {locks locks' : Locks String Nat} {phase : Phase}
    (hr : Respects p locks locks' agents agents') (hg : some g ≠ p)
    (h : phase.Ok ar self agents locks g) : phase.Ok ar self agents' locks' g := by
  have how : ∀ {a o : String}, locks a = some g → OwnedBy agents a o → OwnedBy agents' a o := by
    intro a o hl hon
    obtain ⟨ag, hag, ho⟩ := hon
    exact ⟨ag, hr.kept hg hl hag, ho⟩
  cases phase with
  | idle | suspects | exited => trivial
  | locked | unregistering | forgetting => exact hr.held hg h
  | checked | intended | owning | cleaning => exact ⟨hr.held hg h.1, how h.1 h.2⟩
  | collecting | untracked =>
    exact ⟨hr.held hg h.1, how h.1 h.2.1, hr.held hg h.2.2.1, h.2.2.2⟩

/-- **What a step of the process `p` is allowed to do** (`none`: of no collector). -/
structure Move (ar : String) (w w' : World) (p : Option Nat) : Prop where
  others : ∀ g, some g ≠ p → w'.collectors g = w.collectors g
  respects : Respects p w.locks w'.locks w.agents w'.agents
  ok : ∀ g, some g = p →
    (w'.collectors g).phase.Ok ar (w'.collectors g).self w'.agents w'.locks g
  enters : ∀ g a, some g = p → (w'.collectors g).phase.cleaned = some a →
    (w.collectors g).phase.cleaned = some a ∨ (w.collectors g).phase = .intended a

theorem Inv.move {ar : String} {w w' : World} (h : Inv ar w) (hm : Move ar w w' p) : Inv ar w' := by
  intro g
  by_cases hg : some g = p
  · exact hm.ok g hg
  · rw [hm.others g hg]
    exact (h g).frame hm.respects hg

namespace Move

variable {ar : String} {w w' : World}

/-- A step of another process. -/
theorem environment (hc : w'.collectors = w.collectors)
    (hr : Respects none w.locks w'.locks w.agents w'.agents) : Move ar w w' none where
  others := fun g _ => by rw [hc]
  respects := hr
  ok := nofun
  enters := nofun

/-- Nothing happens. -/
theorem stay (h : Inv ar w) (g : Nat) : Move ar w w (some g) where
  others := fun _ _ => rfl
  respects := .refl
  ok := fun g' _ => h g'
  enters := fun _ _ _ ha => .inl ha

theorem setPhase {before phase : Phase} (hp : (w.collectors g).phase = before)
    (hs : w'.collectors = w.collectors) (hr : Respects (some g) w.locks w'.locks w.agents w'.agents)
    (hok : phase.Ok ar (w.collectors g).self w'.agents w'.locks g)
    (hen : ∀ a, phase.cleaned = some a → before.cleaned = some a ∨ before = .intended a) :
    Move ar w (w'.setPhase g phase) (some g) where
  others := by
    intro g' hg'
    show Function.update w'.collectors g _ g' = _
    rw [update_of_ne (fun he => hg' (by rw [he])), hs]
  respects := hr
  ok := by
    intro g' hg'
    cases hg'
    unfold World.setPhase World.setCollector
    simp only [update_self, hs]
    exact hok
  enters := by
    intro g' a hg' ha
    cases hg'
    unfold World.setPhase World.setCollector at ha
    simp only [update_self] at ha
    rw [hp]
    exact hen a ha

theorem setIdle {c : Collector} (hs : w'.collectors = w.collectors)
    (hr : Respects (some g) w.locks w'.locks w.agents w'.agents) (hi : c.phase = .idle) :
    Move ar w (w'.setCollector g c) (some g) where
  others := by
    intro g' hg'
    show Function.update w'.collectors g _ g' = _
    rw [update_of_ne (fun he => hg' (by rw [he])), hs]
  respects := hr
  ok := by
    intro g' hg'
    cases hg'
    show (Function.update w'.collectors g c g).phase.Ok ar _ _ _ g
    rw [update_self, hi]
    trivial
  enters := by
    intro g' a hg' ha
    cases hg'
    have hi' : (Function.update w'.collectors g c g).phase.cleaned = none := by
      rw [update_self, hi]
      rfl
    exact absurd (hi'.symm.trans ha) nofun

theorem finish (g : Nat) (a : String) : Move ar w (w.finish g a) (some g) := by
  apply setIdle
  · rfl
  · exact .releaseAll
  · rfl

theorem throw (g : Nat) : Move ar w (w.throw g) (some g) := by
  apply setPhase rfl
  · rfl
  · exact .releaseAll
  · trivial
  · exact nofun

theorem die (g : Nat) : Move ar w (w.die g) (some g) := by
  apply setPhase rfl
  · rfl
  · exact .releaseAll
  · trivial
  · exact nofun

/-! ## Every step is such a move -/

section Steps

variable (h : Inv ar w) (g : Nat)
include h

theorem trimGoneTargets : Move ar w (w.trimGoneTargets g) (some g) := by
  unfold World.trimGoneTargets
  split
  case h_1 hi => exact setIdle rfl .refl hi
  case h_2 => exact stay h g

theorem acquireTargets : Move ar w (w.acquireTargets g) (some g) := by
  unfold World.acquireTargets
  split
  case h_1 hi => exact setIdle rfl .refl hi
  case h_2 => exact stay h g

theorem declareDead (a : String) : Move ar w (w.declareDead g a) (some g) := by
  unfold World.declareDead
  split
  case h_1 =>
    split
    · exact setPhase rfl rfl .refl trivial nofun
    · exact stay h g
  case h_2 => exact stay h g

theorem lock : Move ar w (w.lock g) (some g) := by
  unfold World.lock
  split
  case h_2 => exact stay h g
  case h_1 a hp =>
    split
    case h_1 => exact finish g a
    case h_2 =>
      split
      case h_1 hf =>
        apply setPhase hp
        · rfl
        · exact .acquire hf
        · exact Locks.acquire_same ..
        · exact nofun
      case h_2 => exact stay h g

theorem fetch : Move ar w (w.fetch ar g) (some g) := by
  unfold World.fetch
  split
  case h_2 => exact stay h g
  case h_1 a hp =>
    have hok := h g
    rw [hp] at hok
    split
    case h_1 => exact throw g
    case h_2 ag hag =>
      split
      case isTrue ho => exact setPhase hp rfl .refl ⟨hok, ag, hag, ho⟩ nofun
      case isFalse => exact finish g a

theorem updateOwnAgent (action : Action) {next : World → World}
    (hnext : ∀ own, w.locks (w.collectors g).self = none →
      Move ar w (next { w with agents := Function.update w.agents (w.collectors g).self own })
        (some g)) :
    Move ar w (w.updateOwnAgent g action next) (some g) := by
  unfold World.updateOwnAgent
  simp only
  split
  case h_1 => exact stay h g
  case h_2 hf =>
    split
    case h_1 => exact throw g
    case h_2 own _ =>
      split
      · exact die g
      · exact hnext _ hf

theorem addToOwnership : Move ar w (w.addToOwnership g) (some g) := by
  unfold World.addToOwnership
  split
  case h_2 => exact stay h g
  case h_1 a hp =>
    have hok := h g
    rw [hp] at hok
    obtain ⟨hl, ag, hag, ho⟩ := hok
    apply updateOwnAgent h
    intro own hf
    have hne : a ≠ (w.collectors g).self := fun he => by
      rw [he, hf] at hl
      cases hl
    apply setPhase hp
    · rfl
    · exact .write (.inl hf)
    · exact ⟨hl, ag, (update_of_ne hne ..).trans hag, ho⟩
    · exact nofun

/-- The only step by which a collector comes to clean an agent. -/
theorem takeOwnership : Move ar w (w.takeOwnership g) (some g) := by
  unfold World.takeOwnership
  split
  case h_2 => exact stay h g
  case h_1 a hp =>
    have hok := h g
    rw [hp] at hok
    split
    case h_1 => exact throw g
    case h_2 ag _ =>
      apply setPhase hp
      · rfl
      · exact .write (.inr hok.1)
      · exact ⟨hok.1, _, update_self .., rfl⟩
      · intro a' ha
        cases ha
        exact .inr rfl

theorem trackAgent : Move ar w (w.trackAgent g) (some g) := by
  unfold World.trackAgent
  split
  case h_2 => exact stay h g
  case h_1 a hp =>
    have hok := h g
    rw [hp] at hok
    split
    case h_1 => exact throw g
    case h_2 =>
      apply setPhase hp
      · rfl
      · exact .refl
      · exact hok
      · exact fun _ ha => .inl ha

theorem relinquish (object : String) : Move ar w (w.relinquish g object) (some g) := by
  unfold World.relinquish
  split
  case h_2 => exact stay h g
  case h_1 a hp =>
    have hok := h g
    rw [hp] at hok
    split
    case h_1 => exact throw g
    case h_2 ag hag =>
      obtain ⟨hl, ag', ha', ho⟩ := hok
      rw [hag] at ha'
      cases ha'
      -- the owner stays
      apply setPhase hp
      · rfl
      · exact .write (.inr hl)
      · exact ⟨hl, _, update_self .., ho⟩
      · exact fun _ ha => .inl ha

theorem lockOwned (owned : String) : Move ar w (w.lockOwned g owned) (some g) := by
  unfold World.lockOwned
  split
  case h_2 => exact stay h g
  case h_1 a hp =>
    have hok := h g
    rw [hp] at hok
    obtain ⟨hl, ho⟩ := hok
    split
    case h_2 => exact stay h g
    case h_1 hag hf =>
      have hne : a ≠ owned := fun he => by
        rw [he, hf] at hl
        cases hl
      apply setPhase hp
      · rfl
      · exact .acquire hf
      · exact ⟨(Locks.acquire_of_ne _ _ hne).trans hl, ho, Locks.acquire_same .., hne.symm⟩
      · exact fun _ ha => .inl ha

theorem untrackOwned : Move ar w (w.untrackOwned g) (some g) := by
  unfold World.untrackOwned
  split
  case h_2 => exact stay h g
  case h_1 a b hp =>
    have hok := h g
    rw [hp] at hok
    obtain ⟨hlo, ho, hl, hne⟩ := hok
    split
    case h_1 => exact throw g
    case h_2 ag _ =>
      split
      case isTrue =>
        split
        case h_1 => exact throw g
        case h_2 =>
          apply setPhase hp
          · rfl
          · exact .refl
          · exact ⟨hlo, ho, hl, hne⟩
          · exact fun _ ha => .inl ha
      case isFalse =>
        apply setPhase hp
        · rfl
        · exact .release hl
        · exact ⟨(Locks.release_of_ne _ hne.symm).trans hlo, ho⟩
        · exact fun _ ha => .inl ha

theorem returnOwned : Move ar w (w.returnOwned ar g) (some g) := by
  unfold World.returnOwned
  split
  case h_2 => exact stay h g
  case h_1 a b hp =>
    have hok := h g
    rw [hp] at hok
    obtain ⟨hlo, ⟨ag, hag, ho⟩, hl, hne⟩ := hok
    split
    case h_1 => exact throw g
    case h_2 owned _ =>
      apply setPhase hp
      · rfl
      · exact (Respects.write (.inr hl)).trans (.release hl)
      · exact ⟨(Locks.release_of_ne _ hne.symm).trans hlo, ag,
          (update_of_ne hne.symm ..).trans hag, ho⟩
      · exact fun _ ha => .inl ha

theorem removeAgent : Move ar w (w.removeAgent g) (some g) := by
  unfold World.removeAgent
  split
  case h_2 => exact stay h g
  case h_1 a hp =>
    have hok := h g
    rw [hp] at hok
    split
    case h_1 => exact throw g
    case h_2 ag _ =>
      split
      case isTrue =>
        apply setPhase hp
        · rfl
        · exact .write (.inr hok.1)
        · exact hok.1
        · exact nofun
      case isFalse => exact throw g

theorem unregister : Move ar w (w.unregister g) (some g) := by
  unfold World.unregister
  split
  case h_2 => exact stay h g
  case h_1 a hp =>
    have hok := h g
    rw [hp] at hok
    apply setPhase hp
    · rfl
    · exact .refl
    · exact hok
    · exact nofun

theorem forget : Move ar w (w.forget g) (some g) := by
  unfold World.forget
  split
  case h_2 => exact stay h g
  case h_1 a _ =>
    apply updateOwnAgent h
    intro own hf
    apply setIdle
    · rfl
    · exact (Respects.write (.inl hf)).trans .releaseAll
    · rfl

theorem interrupt {stop : World → Nat → World}
    (hs : Move ar w (stop w g) (some g)) : Move ar w (w.interrupt g stop) (some g) := by
  unfold World.interrupt
  split
  · exact stay h g
  · exact hs

end Steps

theorem ownProcess (a : String) (change : Agent → Option Agent) :
    Move ar w (w.ownProcess a change) none := by
  unfold World.ownProcess
  split
  case h_1 hf _ => exact environment rfl (.write (.inl hf))
  case h_2 => exact environment rfl .refl

theorem insertAgent (a : String) : Move ar w (w.insertAgent ar a) none := by
  unfold World.insertAgent
  split
  case h_1 hnew => exact environment rfl (.create hnew)
  case h_2 => exact environment rfl .refl

theorem unlistAgent (a : String) : Move ar w (w.unlistAgent a) none := by
  unfold World.unlistAgent
  split
  · exact environment rfl .refl
  · exact environment rfl .refl

/-- **Every step is a move of one process.** -/
theorem step (h : Inv ar w) (e : Event) : ∃ p, Move ar w (w.step ar e) p := by
  cases e with
  | trimGoneTargets g => exact ⟨_, trimGoneTargets h g⟩
  | acquireTargets g => exact ⟨_, acquireTargets h g⟩
  | declareDead g a => exact ⟨_, declareDead h g a⟩
  | lock g => exact ⟨_, lock h g⟩
  | fetch g => exact ⟨_, fetch h g⟩
  | addToOwnership g => exact ⟨_, addToOwnership h g⟩
  | takeOwnership g => exact ⟨_, takeOwnership h g⟩
  | trackAgent g => exact ⟨_, trackAgent h g⟩
  | relinquish g object => exact ⟨_, relinquish h g object⟩
  | lockOwned g owned => exact ⟨_, lockOwned h g owned⟩
  | untrackOwned g => exact ⟨_, untrackOwned h g⟩
  | returnOwned g => exact ⟨_, returnOwned h g⟩
  | removeAgent g => exact ⟨_, removeAgent h g⟩
  | unregister g => exact ⟨_, unregister h g⟩
  | forget g => exact ⟨_, forget h g⟩
  | fail g => exact ⟨_, interrupt h g (throw g)⟩
  | crash g => exact ⟨_, interrupt h g (die g)⟩
  | enlist a => exact ⟨none, environment rfl .refl⟩
  | insert a => exact ⟨_, insertAgent a⟩
  | execute a | leave a => exact ⟨_, ownProcess a _⟩
  | unlist a => exact ⟨_, unlistAgent a⟩

end Move

namespace Inv

variable {ar : String} {w : World}

theorem step (h : Inv ar w) (e : Event) : Inv ar (w.step ar e) := by
  obtain ⟨p, hm⟩ := Move.step h e
  exact h.move hm

theorem start (agents : String → Option Agent) (register : AgentRegister)
    (selves : Nat → String) : Inv ar (World.start agents register selves) :=
  fun _ => trivial

variable {a : String}

/-- The collector that took an agent over holds its lock. -/
theorem lock_of_takenOver (h : Inv ar w) (hg : (w.collectors g).phase.takenOver = some a) :
    w.locks a = some g := by
  have hok := h g
  cases hp : (w.collectors g).phase <;> rw [hp] at hok hg <;>
    simp only [Phase.takenOver, reduceCtorEq, Option.some.injEq] at hg <;> subst hg
  case owning | cleaning | collecting | untracked => exact hok.1
  case unregistering | forgetting => exact hok

theorem owner_of_cleaned (h : Inv ar w) (hg : (w.collectors g).phase.cleaned = some a) :
    OwnedBy w.agents a (w.collectors g).self := by
  have hok := h g
  cases hp : (w.collectors g).phase <;> rw [hp] at hok hg <;>
    simp only [Phase.cleaned, reduceCtorEq, Option.some.injEq] at hg <;> subst hg
  case owning | cleaning => exact hok.2
  case collecting | untracked => exact hok.2.1

theorem owner_of_entered (h : Inv ar w) {e : Event} (hb : (w.collectors g).phase.cleaned ≠ some a)
    (ha : ((w.step ar e).collectors g).phase.cleaned = some a) : OwnedBy w.agents a ar := by
  obtain ⟨p, hm⟩ := Move.step h e
  by_cases hg : some g = p
  · rcases hm.enters g a hg ha with hold | hp
    · exact absurd hold hb
    · have hok := h g
      rw [hp] at hok
      exact hok.2
  · rw [hm.others g hg] at ha
    exact absurd ha hb

end Inv

/-! ## The result -/

/-- **One collector per dead agent.** After every run at most one collector cleans up an agent,
it is the stored owner, and none takes over an agent that the register does not own. -/
theorem one_collector_per_agent (ar : String) (agents : String → Option Agent)
    (register : AgentRegister) (selves : Nat → String) (es : List Event) :
    let w := run (World.step ar) (World.start agents register selves) es
    (∀ g g' a, (w.collectors g).phase.takenOver = some a →
      (w.collectors g').phase.takenOver = some a → g = g') ∧
    (∀ g a, (w.collectors g).phase.cleaned = some a → OwnedBy w.agents a (w.collectors g).self) ∧
    ∀ e g a, (w.collectors g).phase.cleaned ≠ some a →
      ((w.step ar e).collectors g).phase.cleaned = some a → OwnedBy w.agents a ar := by
  intro w
  have h : Inv ar w := run_preserves (fun _ e hw => hw.step e) (Inv.start agents register selves)
  constructor
  · intro g g' a hg hg'
    exact Option.some.inj ((h.lock_of_takenOver hg).symm.trans (h.lock_of_takenOver hg'))
  constructor
  · exact fun g a hg => h.owner_of_cleaned hg
  · exact fun e g a hb ha => h.owner_of_entered hb ha

end TapeArchive.Objectstore.AgentCollection
