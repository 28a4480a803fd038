/-
  **THE HANDLER OF A DRIVE** (`DriveHandler.cpp`, `SubprocessHandler.hpp`).

      ┌────────── fork ──────────▶ subprocess: data transfer session, or
      │                              cleaner session, or drive put down
   handler ◀──── state reports ─────────┤
      ▲                                 │
      └── processSigChild ◀── exit, or death by a signal

  The answers of the system calls are arguments. A result `none` is an exception
  that nobody catches: it ends the daemon.
-/
import Mathlib.Data.List.Basic
import TapeArchive.Lib.Run

namespace TapeArchive.Tapeserver.Daemon

open Lib

/-! ## The handler -/

inductive SessionState where
  | pendingFork | startingUp | checking | scheduling | mounting | running | unmounting
  | drainingToDisk | shuttingDown | shutdown | killed | fatal
  deriving DecidableEq

inductive SessionType where
  | undetermined | archive | retrieve | label | cleanup
  deriving DecidableEq

inductive ForkState where
  | parent | child | notForking

/-- Instants are milliseconds of the steady clock. -/
structure ProcessingStatus where
  shutdownRequested : Bool := false
  shutdownComplete : Bool := false
  killRequested : Bool := false
  forkRequested : Bool := false
  sigChild : Bool := false
  nextTimeout : Option Nat := none
  forkState : ForkState := .notForking

inductive PreviousSession where
  | initiating | up | down | crashed
  deriving DecidableEq

/-- `serializers::WatchdogMessage`, but for the log parameters. -/
structure WatchdogMessage where
  reportingstate : Bool
  sessionstate : SessionState
  sessiontype : SessionType
  vid : String
  reportingbytes : Bool
  (totaldiskbytesmoved totaltapebytesmoved : UInt64)

/-- `registered` says whether the socket is one that the process manager polls. -/
structure DriveHandler where
  m_previousSession : PreviousSession := .initiating
  m_previousState : SessionState := .startingUp
  m_previousType : SessionType := .undetermined
  m_previousVid : String := ""
  m_sessionState : SessionState := .pendingFork
  m_sessionType : SessionType := .undetermined
  m_sessionVid : String := ""
  m_processingStatus : ProcessingStatus := {}
  m_lastStateChangeTime : Nat := 0
  m_lastHeartBeatTime : Nat := 0
  m_lastDataMovementTime : Nat := 0
  m_totalTapeBytesMoved : UInt64 := 0
  m_totalDiskBytesMoved : UInt64 := 0
  m_pid : Option Nat := none
  m_socketPair : Bool := false
  registered : Bool := false
  m_catalogue : Bool := false

/-- What `SocketPair::receive` and the parser make of an event. -/
inductive Received where
  | message (message : WatchdogMessage)
  /-- `PeerDisconnected`. -/
  | disconnected
  /-- Any other exception. -/
  | failed

/-- What `waitpid` says of the subprocess. -/
inductive WaitAnswer where
  | error | stillRunning | exited | signaled

/-- How far the calls of `fork` get. -/
inductive ForkAnswer where
  | noSocketPair
  | noProcess
  | forked (pid : Nat)
  /-- The process is there, and what follows in the parent throws. -/
  | notPolled (pid : Nat)

/-- Whether `::kill` and `::waitpid` succeed. -/
structure KillAnswer where
  (killed waited : Bool)

/-- `m_stateChangeTimeouts`. -/
def stateChangeTimeout : SessionState → Option Nat
  | .checking => some (2 * 60000)
  | .scheduling => some (5 * 60000)
  | .mounting => some (10 * 60000)
  | .unmounting => some (10 * 60000)
  | .drainingToDisk => some (30 * 60000)
  | .shuttingDown => some (15 * 60000)
  | _ => none

/-- `m_heartbeatTimeouts`. -/
def heartbeatTimeout : SessionState → Option Nat
  | .running => some 60000
  | .drainingToDisk => some 60000
  | _ => none

/-- `m_dataMovementTimeouts`. -/
def dataMovementTimeout : SessionState → Option Nat
  | .running => some (15 * 60000)
  | .drainingToDisk => some (15 * 60000)
  | _ => none

def earlier : Option Nat → Option Nat → Option Nat
  | none, t => t
  | t, none => t
  | some t, some t' => some (if t' < t then t' else t)

def statesRequiringCleaner : List SessionState := [.mounting, .running, .unmounting]

namespace DriveHandler

variable (h : DriveHandler)

def nextTimeout : Option Nat :=
  earlier (earlier ((stateChangeTimeout h.m_sessionState).map (h.m_lastStateChangeTime + ·))
    ((heartbeatTimeout h.m_sessionState).map (h.m_lastHeartBeatTime + ·)))
    ((dataMovementTimeout h.m_sessionState).map (h.m_lastDataMovementTime + ·))

/-- `m_processingStatus.nextTimeout = nextTimeout()`. -/
def withNextTimeout : DriveHandler :=
  { h with m_processingStatus := { h.m_processingStatus with nextTimeout := h.nextTimeout } }

def getInitialStatus : DriveHandler :=
  { h with m_processingStatus := { h.m_processingStatus with forkRequested := true } }

/-- `removeFile` throws for a file that is not polled. -/
def dropSocketPair : Option DriveHandler :=
  if h.m_socketPair then
    if h.registered then some { h with m_socketPair := false, registered := false } else none
  else some h

/-- The `catch` clause of `fork`. -/
def forkFailed : DriveHandler :=
  { h with
    m_processingStatus := { shutdownComplete := true, forkState := .parent }
    m_sessionState := .shutdown }

/-- The parent's side of a fork before its socket is polled. -/
def forkedParent (now pid : Nat) : DriveHandler :=
  withNextTimeout { h with
    m_socketPair := true
    m_pid := some pid
    m_processingStatus := { h.m_processingStatus with forkState := .parent }
    m_sessionState := .pendingFork
    m_lastStateChangeTime := now }

variable (now : Nat)

/-- `DriveHandler::fork`, in the parent. -/
def fork (answer : ForkAnswer) : DriveHandler :=
  let h := { h with m_processingStatus := { h.m_processingStatus with forkRequested := false } }
  if h.m_sessionState ≠ .pendingFork then h.forkFailed
  else
    match answer with
    | .noSocketPair => h.forkFailed
    | .noProcess => forkFailed { h with m_socketPair := true, m_pid := none }
    | .forked pid => { h.forkedParent now pid with registered := true }
    | .notPolled pid => (h.forkedParent now pid).forkFailed

def resetToDefault (previous : PreviousSession) : DriveHandler :=
  { h with
    m_pid := none
    m_previousSession := previous
    m_previousType := h.m_sessionType
    m_previousState := h.m_sessionState
    m_previousVid := h.m_sessionVid
    m_sessionState := .pendingFork
    m_sessionType := .undetermined
    m_lastStateChangeTime := now
    m_lastHeartBeatTime := now
    m_lastDataMovementTime := now
    m_processingStatus := { h.m_processingStatus with
      forkRequested := false
      killRequested := false
      nextTimeout := none
      shutdownComplete := false
      shutdownRequested := false
      sigChild := false } }

/-- `m_processingStatus.forkRequested = requested`. -/
def requestFork (requested : Bool) : DriveHandler :=
  { h with m_processingStatus := { h.m_processingStatus with forkRequested := requested } }

/-- `processSigChild` on a subprocess that exited. -/
def collectExited : DriveHandler :=
  let h := if h.m_sessionState ≠ .shutdown then (h.resetToDefault now .up).requestFork true
    else h.requestFork false
  { h with m_pid := none }

/-- `processSigChild` on a subprocess that was killed; the state is looked at after the reset. -/
def collectSignaled : DriveHandler :=
  let h := { h with
    m_previousState := h.m_sessionState
    m_previousType := h.m_sessionType
    m_previousVid := h.m_sessionVid }
  let h := h.resetToDefault now .crashed
  let h := h.requestFork (h.m_sessionState != .shutdown)
  { h with m_pid := none }

def processSigChild (answer : WaitAnswer) : Option DriveHandler :=
  match h.m_pid with
  | none => some h
  | some _ =>
      match answer with
      | .error | .stillRunning => some h
      | .exited => h.dropSocketPair.map (collectExited · now)
      | .signaled => h.dropSocketPair.map (collectSignaled · now)

def processTimeout : DriveHandler :=
  match h.m_pid with
  | none =>
      let h := { h with
        m_processingStatus := { h.m_processingStatus with
          forkRequested := true
          nextTimeout := none }
        m_previousState := .shutdown
        m_previousType := .undetermined
        m_previousVid := "" }
      h.resetToDefault now .crashed
  | some _ => { h with m_processingStatus := { h.m_processingStatus with nextTimeout := none } }

/-- `m_sessionVid = vid`. -/
def withVid (vid : String) : DriveHandler := { h with m_sessionVid := vid }

def processScheduling (_ : WatchdogMessage) : DriveHandler := h.withVid ""

def processChecking (_ : WatchdogMessage) : DriveHandler := h.withVid ""

variable (message : WatchdogMessage)

def processMounting : DriveHandler :=
  h.withVid message.vid

def processRunning : DriveHandler :=
  let h := if h.m_sessionState ≠ message.sessionstate then { h with m_lastDataMovementTime := now }
    else h
  h.withVid message.vid

def processUnmounting : DriveHandler :=
  h.withVid message.vid

def processDrainingToDisk (_ : WatchdogMessage) : DriveHandler := h.withVid ""

def processShuttingDown (_ : WatchdogMessage) : DriveHandler := h.withVid ""

def processFatal (_ : WatchdogMessage) : DriveHandler :=
  let h := h.withVid ""
  { h with m_processingStatus := { h.m_processingStatus with shutdownRequested := true } }

def processBytes : DriveHandler :=
  let h := { h with m_lastHeartBeatTime := now }
  let h :=
    if h.m_totalTapeBytesMoved ≠ message.totaltapebytesmoved
        ∨ h.m_totalDiskBytesMoved ≠ message.totaldiskbytesmoved then
      { h with
        m_totalTapeBytesMoved := message.totaltapebytesmoved
        m_totalDiskBytesMoved := message.totaldiskbytesmoved
        m_lastDataMovementTime := now }
    else h
  h.withNextTimeout

/-- The `switch` of `processEvent`; any other state is an exception. -/
def processState :
    Option DriveHandler :=
  match message.sessionstate with
  | .checking => some (h.processChecking message)
  | .scheduling => some (h.processScheduling message)
  | .mounting => some (h.processMounting message)
  | .running => some (h.processRunning now message)
  | .unmounting => some (h.processUnmounting message)
  | .drainingToDisk => some (h.processDrainingToDisk message)
  | .shuttingDown => some (h.processShuttingDown message)
  | .fatal => some (h.processFatal message)
  | _ => none

def processMessage : DriveHandler :=
  let h := if message.reportingbytes then h.processBytes now message else h
  if message.reportingstate then
    match h.processState now message with
    | none => h
    | some h => withNextTimeout { h with
        m_sessionState := message.sessionstate
        m_sessionType := message.sessiontype
        m_lastStateChangeTime := now }
  else h.withNextTimeout

def processEvent (received : Received) : DriveHandler :=
  let h := { h with m_lastHeartBeatTime := now }
  match received with
  | .message message => h.processMessage now message
  | .disconnected => { h with m_socketPair := false, registered := false }
  | .failed => h

end DriveHandler

/-! ## The subprocess -/

inductive ChildStage where
  | starting
  /-- It reported `Fatal` and does nothing more. -/
  | givenUp
  | putDriveDown
  | cleaning (vid : String)
  | transferring
  deriving DecidableEq

/-- The calls of `runChild` that can throw. -/
structure ChildAnswers where
  (connectsToObjectstore createsCatalogue pings setsDriveDown pingsBeforeCleaner : Bool)
  startsUp : Bool

/-- The end of the branches of `runChild` that put the drive down. -/
def putDown (answers : ChildAnswers) : ChildStage :=
  if answers.setsDriveDown then .putDriveDown else .givenUp

/-- The drive may be loaded, by what was saved of the session before. -/
def DriveHandler.toBeCleaned (h : DriveHandler) : Bool :=
  h.m_previousSession == .crashed && statesRequiringCleaner.contains h.m_previousState

/-- `DriveHandler::runChild`, up to the session that it executes. -/
def DriveHandler.runChild (h : DriveHandler) (answers : ChildAnswers) : ChildStage :=
  if !answers.connectsToObjectstore then .givenUp
  else if !answers.createsCatalogue then .givenUp
  else if !answers.pings then .givenUp
  else if h.m_previousSession = .crashed ∧ h.m_previousType = .cleanup then putDown answers
  else if h.toBeCleaned then
    if h.m_previousVid.isEmpty then putDown answers
    else if !answers.pingsBeforeCleaner then .givenUp
    else .cleaning h.m_previousVid
  else if h.m_previousSession = .initiating ∧ answers.startsUp = false then .givenUp
  else .transferring

/-! ## What the calls keep -/

namespace DriveHandler

def saved (h : DriveHandler) : PreviousSession × SessionState × SessionType × String :=
  (h.m_previousSession, h.m_previousState, h.m_previousType, h.m_previousVid)

variable {h h' : DriveHandler}

theorem toBeCleaned_congr (hs : h.saved = h'.saved) : h.toBeCleaned = h'.toBeCleaned := by
  unfold saved at hs
  simp only [Prod.mk.injEq] at hs
  unfold toBeCleaned
  rw [hs.1, hs.2.1]

theorem previousVid_congr (hs : h.saved = h'.saved) : h.m_previousVid = h'.m_previousVid := by
  unfold saved at hs
  simp only [Prod.mk.injEq] at hs
  exact hs.2.2.2

/-- **The handler's own invariant.** -/
structure Sane (h : DriveHandler) : Prop where
  idle : h.m_pid = none → h.m_processingStatus.nextTimeout = none
  unpolled : h.m_pid = none → h.registered = false
  socket : h.registered = true → h.m_socketPair = true
  down : h.m_sessionState = .shutdown →
    h.m_processingStatus.nextTimeout = none ∧ h.registered = false

theorem dropSocketPair_eq (hsa : h.Sane) (hd : h.dropSocketPair = some h') :
    h' = { h with m_socketPair := false, registered := false } := by
  unfold dropSocketPair at hd
  cases hs : h.m_socketPair with
  | true =>
    rw [hs, if_pos rfl] at hd
    split at hd
    · exact (Option.some.inj hd).symm
    · cases hd
  | false =>
    have hr : h.registered = false := by
      cases hre : h.registered with
      | false => rfl
      | true => rw [hsa.socket hre] at hs; cases hs
    rw [hs, if_neg Bool.false_ne_true] at hd
    rw [← Option.some.inj hd]
    cases h
    cases hs
    cases hr
    rfl

/-- What `processSigChild` does with the subprocess of a sane handler. -/
theorem processSigChild_collects {pid now : Nat} {answer : WaitAnswer}
    {collect : DriveHandler → Nat → DriveHandler} (hs : h.Sane) (hp : h.m_pid = some pid)
    (ha : answer = .exited ∧ collect = collectExited
      ∨ answer = .signaled ∧ collect = collectSignaled)
    (hco : h.processSigChild now answer = some h') :
    h' = collect { h with m_socketPair := false, registered := false } now := by
  unfold processSigChild at hco
  rw [hp] at hco
  obtain ⟨ha, hc⟩ | ⟨ha, hc⟩ := ha
  all_goals
    subst ha hc
    obtain ⟨h1, hd, hh⟩ := Option.map_eq_some_iff.mp hco
    rw [← hh, dropSocketPair_eq hs hd]

/-! ### Forks -/

theorem saved_fork (h : DriveHandler) (now : Nat) (answer : ForkAnswer) :
    (h.fork now answer).saved = h.saved := by
  unfold fork
  dsimp only
  split
  · rfl
  · cases answer <;> rfl

theorem fork_forkRequested (h : DriveHandler) (now : Nat) (answer : ForkAnswer) :
    (h.fork now answer).m_processingStatus.forkRequested = false := by
  unfold fork
  dsimp only
  split
  · rfl
  · cases answer <;> rfl

theorem fork_sessionState (h : DriveHandler) (now : Nat) (answer : ForkAnswer) :
    (h.fork now answer).m_sessionState = .pendingFork ∨
      (h.fork now answer).m_sessionState = .shutdown := by
  unfold fork
  dsimp only
  split
  · exact .inr rfl
  cases answer with
  | forked pid => exact .inl rfl
  | _ => exact .inr rfl

variable {h : DriveHandler}

/-- A fork is asked for when there is no subprocess. -/
theorem Sane.fork (hs : h.Sane) (hp : h.m_pid = none) (now : Nat) (answer : ForkAnswer) :
    (h.fork now answer).Sane := by
  have hr := hs.unpolled hp
  unfold DriveHandler.fork
  dsimp only
  split
  · exact ⟨fun _ => rfl, hs.unpolled, hs.socket, fun _ => ⟨rfl, hr⟩⟩
  cases answer with
  | noSocketPair =>
    exact ⟨fun _ => rfl, hs.unpolled, hs.socket, fun _ => ⟨rfl, hr⟩⟩
  | noProcess =>
    exact ⟨fun _ => rfl, fun _ => hr, fun _ => rfl, fun _ => ⟨rfl, hr⟩⟩
  | forked pid =>
    refine ⟨?_, ?_, fun _ => rfl, ?_⟩
    · intro hn
      cases hn
    · intro hn
      cases hn
    · intro hd
      cases hd
  | notPolled pid =>
    refine ⟨fun _ => rfl, ?_, fun _ => rfl, fun _ => ⟨rfl, hr⟩⟩
    intro hn
    cases hn

/-! ### Messages -/

/-- What no message changes. -/
structure Receives (h h' : DriveHandler) : Prop where
  saved : h'.saved = h.saved
  pid : h'.m_pid = h.m_pid
  forkRequested : h'.m_processingStatus.forkRequested = h.m_processingStatus.forkRequested
  shutdownComplete :
    h'.m_processingStatus.shutdownComplete = h.m_processingStatus.shutdownComplete
  sessionState : h'.m_sessionState = h.m_sessionState
  registered : h'.registered = h.registered
  socketPair : h'.m_socketPair = h.m_socketPair

theorem processBytes_receives (h : DriveHandler) (now : Nat) (message : WatchdogMessage) :
    h.Receives (h.processBytes now message) := by
  unfold processBytes
  dsimp only
  split <;> exact ⟨rfl, rfl, rfl, rfl, rfl, rfl, rfl⟩

theorem processState_receives {now : Nat} {message : WatchdogMessage}
    (hs : h.processState now message = some h') :
    h.Receives h' ∧ message.sessionstate ≠ .shutdown := by
  unfold processState at hs
  cases hr : message.sessionstate with
  | running =>
    rw [hr] at hs
    rw [← Option.some.inj hs]
    unfold processRunning
    refine ⟨?_, nofun⟩
    split <;> exact ⟨rfl, rfl, rfl, rfl, rfl, rfl, rfl⟩
  | pendingFork | startingUp | shutdown | killed =>
    rw [hr] at hs
    cases hs
  | _ =>
    rw [hr] at hs
    rw [← Option.some.inj hs]
    exact ⟨⟨rfl, rfl, rfl, rfl, rfl, rfl, rfl⟩, nofun⟩

/-- What an event changes: nothing that was saved, and the state only by a report. -/
structure Hears (h h' : DriveHandler) (received : Received) : Prop where
  saved : h'.saved = h.saved
  pid : h'.m_pid = h.m_pid
  forkRequested : h'.m_processingStatus.forkRequested = h.m_processingStatus.forkRequested
  shutdownComplete :
    h'.m_processingStatus.shutdownComplete = h.m_processingStatus.shutdownComplete
  sessionState : h'.m_sessionState = h.m_sessionState ∨
    ∃ message, received = .message message ∧ message.reportingstate = true ∧
      h'.m_sessionState = message.sessionstate ∧ message.sessionstate ≠ .shutdown
  registered : h'.registered = true → h.registered = true
  socket : (h.registered = true → h.m_socketPair = true) →
    h'.registered = true → h'.m_socketPair = true

theorem processMessage_hears (h : DriveHandler) (now : Nat) (message : WatchdogMessage) :
    h.Hears (h.processMessage now message) (.message message) := by
  have hb : h.Receives (if message.reportingbytes then h.processBytes now message else h) := by
    split
    · exact processBytes_receives h now message
    · exact ⟨rfl, rfl, rfl, rfl, rfl, rfl, rfl⟩
  unfold processMessage
  dsimp only
  obtain ⟨h1, hh1⟩ : ∃ h1, h1 = (if message.reportingbytes then h.processBytes now message
      else h) := ⟨_, rfl⟩
  rw [← hh1] at hb ⊢
  have hk : h.Hears h1 (.message message) :=
    ⟨hb.saved, hb.pid, hb.forkRequested, hb.shutdownComplete, .inl hb.sessionState,
      fun hrg => hb.registered.symm.trans hrg,
      fun hs hrg => hb.socketPair.trans (hs (hb.registered.symm.trans hrg))⟩
  split
  · next hre =>
    cases hsta : h1.processState now message with
    | none => exact hk
    | some h2 =>
      obtain ⟨hr, hne⟩ := processState_receives hsta
      exact ⟨hr.saved.trans hb.saved, hr.pid.trans hb.pid, hr.forkRequested.trans hb.forkRequested,
        hr.shutdownComplete.trans hb.shutdownComplete,
        .inr ⟨message, rfl, hre, rfl, hne⟩,
        fun hrg => (hr.registered.trans hb.registered).symm.trans hrg,
        fun hs hrg => (hr.socketPair.trans hb.socketPair).trans
          (hs ((hr.registered.trans hb.registered).symm.trans hrg))⟩
  · exact ⟨hk.saved, hk.pid, hk.forkRequested, hk.shutdownComplete,
      hk.sessionState, hk.registered, hk.socket⟩

theorem processEvent_hears (h : DriveHandler) (now : Nat) (received : Received) :
    h.Hears (h.processEvent now received) received := by
  unfold processEvent
  cases received with
  | message message =>
    have hm := processMessage_hears { h with m_lastHeartBeatTime := now } now message
    exact ⟨hm.saved, hm.pid, hm.forkRequested, hm.shutdownComplete, hm.sessionState,
      hm.registered, hm.socket⟩
  | disconnected => exact ⟨rfl, rfl, rfl, rfl, .inl rfl, nofun, nofun⟩
  | failed => exact ⟨rfl, rfl, rfl, rfl, .inl rfl, id, id⟩

/-- Messages come from a socket that is polled. -/
theorem Sane.processEvent (hs : h.Sane) (hr : h.registered = true)
    (now : Nat) (received : Received) : (h.processEvent now received).Sane := by
  have hh := processEvent_hears h now received
  have hp : h.m_pid ≠ none := by
    intro hn
    rw [hs.unpolled hn] at hr
    cases hr
  have hnd : (h.processEvent now received).m_sessionState ≠ .shutdown := by
    intro hd
    obtain hsa | ⟨message, _, _, hsta, hne⟩ := hh.sessionState
    · rw [hsa] at hd
      rw [(hs.down hd).2] at hr
      cases hr
    · exact hne (hsta.symm.trans hd)
  exact ⟨fun hn => absurd (hh.pid.symm.trans hn) hp,
    fun hn => absurd (hh.pid.symm.trans hn) hp, hh.socket hs.socket,
    fun hd => absurd hd hnd⟩

/-! ### Ends of subprocesses, and timeouts -/

theorem collectSignaled_sane (h : DriveHandler) (now : Nat) :
    ({ h with m_socketPair := false, registered := false }.collectSignaled now).Sane :=
  ⟨fun _ => rfl, fun _ => rfl, nofun, nofun⟩

theorem collectExited_sane (hs : h.Sane) (now : Nat) :
    ({ h with m_socketPair := false, registered := false }.collectExited now).Sane := by
  unfold collectExited
  split
  · exact ⟨fun _ => rfl, fun _ => rfl, nofun, nofun⟩
  next hd =>
  have hn := (hs.down (not_not.mp hd)).1
  exact ⟨fun _ => hn, fun _ => rfl, nofun, fun _ => ⟨hn, rfl⟩⟩

/-- A timeout is due only when there is a subprocess. -/
theorem Sane.processTimeout_eq (hs : h.Sane) {now : Nat}
    (hd : h.m_processingStatus.nextTimeout.any (· < now) = true) :
    h.processTimeout now
      = { h with m_processingStatus := { h.m_processingStatus with nextTimeout := none } } := by
  unfold processTimeout
  cases hp : h.m_pid with
  | none =>
    rw [hs.idle hp] at hd
    cases hd
  | some pid => rfl

theorem Sane.noTimeout (hs : h.Sane) :
    ({ h with m_processingStatus := { h.m_processingStatus with nextTimeout := none } } :
      DriveHandler).Sane :=
  ⟨fun _ => rfl, hs.unpolled, hs.socket, fun hd => ⟨rfl, (hs.down hd).2⟩⟩

/-- What a subprocess that is to clean the drive comes to. -/
theorem runChild_toBeCleaned (hc : h.toBeCleaned = true) (answers : ChildAnswers) :
    h.runChild answers = .givenUp ∨ h.runChild answers = .putDriveDown ∨
      h.runChild answers = .cleaning h.m_previousVid := by
  have hd : putDown answers = .givenUp ∨ putDown answers = .putDriveDown ∨
      putDown answers = .cleaning h.m_previousVid := by
    unfold putDown
    split
    · exact .inr (.inl rfl)
    · exact .inl rfl
  unfold runChild
  split_ifs
  · exact .inl rfl
  · exact .inl rfl
  · exact .inl rfl
  · exact hd
  · exact hd
  · exact .inl rfl
  · exact .inr (.inr rfl)

end DriveHandler

/-! ## Asking for a subprocess -/

/-- The calls of the process manager to a handler that is not shut down. -/
inductive Call where
  | getInitialStatus
  | fork (now pid : Nat)
  | processEvent (now : Nat) (received : Received)
  | processSigChild (now : Nat) (answer : WaitAnswer)
  | processTimeout (now : Nat)

namespace DriveHandler

variable {h h' : DriveHandler}

/-- A call. A fork that is refused is no successful one, and an exception ends the daemon. -/
def serve (h : DriveHandler) : Call → DriveHandler
  | .getInitialStatus => h.getInitialStatus
  | .fork now pid => if h.m_sessionState = .pendingFork then h.fork now (.forked pid) else h
  | .processEvent now received => h.processEvent now received
  | .processSigChild now answer => (h.processSigChild now answer).getD h
  | .processTimeout now => h.processTimeout now

/-- Without a subprocess the handler asks for one. -/
def AsksForChild (h : DriveHandler) : Prop :=
  h.m_pid = none → h.m_processingStatus.forkRequested = true

/-- Timeouts come only while there is a subprocess. -/
def TimesOutChild (h : DriveHandler) : Call → Prop
  | .processTimeout _ => h.m_pid ≠ none
  | _ => True

theorem dropSocketPair_ok (hd : h.dropSocketPair = some h') :
    ∃ pair registered, h' = { h with m_socketPair := pair, registered := registered } := by
  unfold dropSocketPair at hd
  split_ifs at hd
  · exact ⟨_, _, (Option.some.inj hd).symm⟩
  · exact ⟨_, _, (Option.some.inj hd).symm⟩

variable {now : Nat}

theorem processSigChild_asks {answer : WaitAnswer} (hup : h.m_sessionState ≠ .shutdown)
    (ha : h.AsksForChild) (hc : h.processSigChild now answer = some h') :
    h'.AsksForChild ∧ h'.m_sessionState ≠ .shutdown := by
  unfold processSigChild at hc
  split at hc
  · rw [← Option.some.inj hc]
    exact ⟨ha, hup⟩
  cases answer with
  | error | stillRunning =>
    rw [← Option.some.inj hc]
    exact ⟨ha, hup⟩
  | exited =>
    obtain ⟨h1, hd, rfl⟩ := Option.map_eq_some_iff.mp hc
    obtain ⟨_, _, rfl⟩ := dropSocketPair_ok hd
    simp [collectExited, hup, AsksForChild, resetToDefault, requestFork]
  | signaled =>
    obtain ⟨h1, hd, rfl⟩ := Option.map_eq_some_iff.mp hc
    exact ⟨fun _ => rfl, nofun⟩

/-- One call of a handler that asks for a subprocess. -/
theorem serve_asks_iff (hup : h.m_sessionState ≠ .shutdown) (ha : h.AsksForChild) (call : Call) :
    ((h.serve call).AsksForChild ↔ h.TimesOutChild call)
      ∧ (h.serve call).m_sessionState ≠ .shutdown := by
  cases call with
  | getInitialStatus => exact ⟨iff_of_true (fun _ => rfl) trivial, hup⟩
  | fork now pid =>
    unfold serve
    dsimp only
    split
    · next hp =>
      simp only [fork, hp]
      exact ⟨iff_of_true nofun trivial, nofun⟩
    · exact ⟨iff_of_true ha trivial, hup⟩
  | processEvent now received =>
    have hh := processEvent_hears h now received
    refine ⟨iff_of_true ?_ trivial, ?_⟩
    · intro hn
      exact hh.forkRequested.trans (ha (hh.pid.symm.trans hn))
    obtain hsa | ⟨message, _, _, hs, hne⟩ := hh.sessionState
    · exact hsa.symm ▸ hup
    · exact hs.symm ▸ hne
  | processSigChild now answer =>
    simp only [serve]
    cases hc : h.processSigChild now answer with
    | none => exact ⟨iff_of_true ha trivial, hup⟩
    | some h' => exact (processSigChild_asks hup ha hc).imp_left (iff_of_true · trivial)
  | processTimeout now =>
    simp only [serve, processTimeout, TimesOutChild]
    cases hpi : h.m_pid with
    | none => simp [AsksForChild, resetToDefault]
    | some pid => simp [AsksForChild, hup]

/-- **A HANDLER WITHOUT A SUBPROCESS ASKS FOR ONE** after each call exactly when no timeout is
processed without a subprocess. -/
theorem asks_for_child_iff (calls : List Call) :
    Along serve (fun h call => (h.serve call).AsksForChild) (getInitialStatus {}) calls
      ↔ Along serve TimesOutChild (getInitialStatus {}) calls :=
  Along.iff_of_invariant
    (I := fun h : DriveHandler => h.m_sessionState ≠ .shutdown ∧ h.AsksForChild)
    (fun _ call hI ha => ⟨(serve_asks_iff hI.1 hI.2 call).2, ha⟩)
    (fun _ call hI => (serve_asks_iff hI.1 hI.2 call).1) ⟨nofun, fun _ => rfl⟩

/-- The reset takes back the request that the timeout made. -/
theorem timeout_without_child :
    ¬ (serve (getInitialStatus {}) (.processTimeout 0)).AsksForChild := by
  simp [serve, processTimeout, getInitialStatus, AsksForChild, resetToDefault]

end DriveHandler

end TapeArchive.Tapeserver.Daemon
