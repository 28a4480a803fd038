/-
  **THE LAST REPORT OF A SUBPROCESS** (`ProcessManager.cpp`, `SignalHandler.cpp`,
  `DriveHandler.cpp`).

  The reports of a subprocess and the signal of its death come through two
  descriptors. A round of `runEventLoop` takes one datagram and one signal at
  most, and the death is processed after it: what is left in the socket is dropped.
-/
import TapeArchive.Tapeserver.DriveHandler

namespace TapeArchive.Tapeserver.Daemon

open Lib List DriveHandler

/-- A report of a state that the handler expects. -/
structure StateReport where
  message : WatchdogMessage
  reporting : message.reportingstate = true
  expected : message.sessionstate ∉ [SessionState.pendingFork, .startingUp, .shutdown, .killed]

/-- The state and the volume that the handler takes from a report. -/
def StateReport.content (report : StateReport) : SessionState × String :=
  (report.message.sessionstate,
    if report.message.sessionstate ∈ statesRequiringCleaner then report.message.vid else "")

/-- What the last of some reports says; before the first one, what was known at the start. -/
def lastOf (atStart : SessionState × String) (reports : List StateReport) :
    SessionState × String :=
  (reports.getLast?.map StateReport.content).getD atStart

/-- The handler, its subprocess, and the reports that were sent and processed. -/
structure Supervision where
  handler : DriveHandler
  atStart : SessionState × String := (handler.m_sessionState, handler.m_sessionVid)
  (sent processed socket : List StateReport := [])
  alive : Bool := true
  signal : Bool := false

/-- The steps of the subprocess, and a round with the descriptors that `epoll_wait` gives. -/
inductive SupervisionEvent where
  | report (report : StateReport)
  | die
  | round (now : Nat) (socket signal : Bool)

namespace Supervision

variable (s : Supervision)

/-- `DriveHandler::processEvent` on what is in the socket. -/
def receive (now : Nat) : Supervision :=
  if s.handler.registered then
    match s.socket with
    | [] =>
      if s.alive then s else { s with handler := s.handler.processEvent now .disconnected }
    | report :: socket =>
      { s with
        handler := s.handler.processEvent now (.message report.message)
        processed := s.processed ++ [report]
        socket := socket }
  else s

/-- `SignalHandler::processEvent`, and then `runSigChildManagement`. -/
def readSignal (now : Nat) : Supervision :=
  if s.signal then
    match s.handler.processSigChild now .signaled with
    | none => s
    | some handler => { s with handler := handler, signal := false, socket := [] }
  else s

def receiveIf (now : Nat) (socket : Bool) : Supervision :=
  if socket then s.receive now else s

def step : SupervisionEvent → Supervision
  | .report report =>
    if s.alive then { s with sent := s.sent ++ [report], socket := s.socket ++ [report] } else s
  | .die => if s.alive then { s with alive := false, signal := true } else s
  | .round now socket signal =>
    if signal then (s.receiveIf now socket).readSignal now else s.receiveIf now socket

def told : SessionState × String :=
  (s.handler.m_sessionState, s.handler.m_sessionVid)

def saved : SessionState × String :=
  (s.handler.m_previousState, s.handler.m_previousVid)

/-- When a round reads the signal, at most one report is in the socket, and the round reads it. -/
def Drains : SupervisionEvent → Prop
  | .round _ socket true => s.signal = true → s.socket.length ≤ 1 ∧ (s.socket ≠ [] → socket = true)
  | _ => True

/-- As long as there is a subprocess, the reports in the socket follow those that were processed,
and the socket is polled until they are read. Afterwards nothing is left, and what is saved is
what the last report said. -/
structure Inv (s : Supervision) : Prop where
  signal : s.signal = true → s.alive = false
  watched : s.handler.m_pid ≠ none →
    s.processed ++ s.socket = s.sent ∧ s.told = lastOf s.atStart s.processed
      ∧ (s.handler.registered = true ∨ s.alive = false ∧ s.socket = [])
  buried : s.handler.m_pid = none → s.alive = false ∧ s.signal = false ∧ s.socket = []
    ∧ s.processed = s.sent ∧ s.saved = lastOf s.atStart s.sent

variable {s : Supervision}

theorem step_atStart (s : Supervision) (e : SupervisionEvent) : (s.step e).atStart = s.atStart := by
  unfold Supervision.step receiveIf readSignal receive
  grind

theorem run_atStart (s : Supervision) (events : List SupervisionEvent) :
    (run step s events).atStart = s.atStart :=
  run_preserves (I := fun t => t.atStart = s.atStart) (fun t e h => (step_atStart t e).trans h) rfl

theorem told_processEvent (h : DriveHandler) (now : Nat) (report : StateReport) :
    told { handler := h.processEvent now (.message report.message) } = report.content := by
  obtain ⟨message, hr, he⟩ := report
  simp only [processEvent, processMessage, hr, if_true]
  generalize (if message.reportingbytes then _ else _) = h1
  cases hs : message.sessionstate with
  | pendingFork | startingUp | shutdown | killed => exact absurd (hs ▸ he) (by decide)
  | _ =>
    simp [processState, hs, StateReport.content, statesRequiringCleaner, told, processChecking,
      processScheduling, processMounting, processRunning, processUnmounting,
      processDrainingToDisk, processShuttingDown, processFatal, withVid, withNextTimeout]

theorem registered_processEvent (h : DriveHandler) (now : Nat) (message : WatchdogMessage) :
    (h.processEvent now (.message message)).registered = h.registered := by
  simp only [processEvent, processMessage]
  generalize hb : (if message.reportingbytes then _ else _) = h1
  have hh1 : h1.registered = h.registered := by
    rw [← hb]
    split
    · exact (processBytes_receives _ now message).registered
    · rfl
  split
  · cases hsta : h1.processState now message with
    | none => exact hh1
    | some h2 => exact (processState_receives hsta).1.registered.trans hh1
  · exact hh1

/-- The socket is read: a report moves from it to the processed ones. -/
theorem Inv.receive (h : Inv s) (now : Nat) :
    Inv (s.receive now) ∧ (s.receive now).signal = s.signal := by
  unfold Supervision.receive
  split
  · next hre =>
    split
    · next hso =>
      split
      · exact ⟨h, rfl⟩
      · next hal =>
        refine ⟨⟨h.signal, fun hn => ?_, h.buried⟩, rfl⟩
        obtain ⟨hq, ht, -⟩ := h.watched hn
        exact ⟨hq, ht, .inr ⟨by simpa using hal, hso⟩⟩
    · next report socket hs =>
      have hp := (s.handler.processEvent_hears now (.message report.message)).pid
      refine ⟨⟨h.signal, fun hso => ?_, fun hn => ?_⟩, rfl⟩
      · obtain ⟨hq, -, -⟩ := h.watched (hp ▸ hso)
        refine ⟨by simp [← hq, hs], ?_, .inl ?_⟩
        · rw [lastOf, getLast?_concat]
          exact told_processEvent s.handler now report
        · exact (registered_processEvent s.handler now report.message).trans hre
      · have he := (h.buried (hp.symm.trans hn)).2.2.1
        rw [hs] at he
        cases he
  · exact ⟨h, rfl⟩

/-- The death is processed with nothing left in the socket: the reset saves what the handler was
told last. -/
theorem Inv.readSignal (h : Inv s) (now : Nat) (hd : s.signal = true → s.socket = []) :
    Inv (s.readSignal now) := by
  unfold Supervision.readSignal
  split
  · next hs =>
    split
    · exact h
    next handler hc =>
    unfold processSigChild at hc
    split at hc
    · next hn =>
      rw [(h.buried hn).2.1] at hs
      cases hs
    · next hso =>
      obtain ⟨h1, hdr, rfl⟩ := Option.map_eq_some_iff.mp hc
      obtain ⟨_, _, rfl⟩ := dropSocketPair_ok hdr
      obtain ⟨hq, ht, -⟩ := h.watched (by rw [hso]; nofun)
      rw [hd hs, append_nil] at hq
      exact ⟨nofun, fun hne => absurd rfl hne,
        fun _ => ⟨h.signal hs, rfl, rfl, hq, hq ▸ ht⟩⟩
  · exact h

/-- A round reads what is in the socket of a polled handler, if it is one report at most. -/
theorem Inv.receiveIf_socket (h : Inv s) (now : Nat) {socket : Bool} (hle : s.socket.length ≤ 1)
    (hso : s.socket ≠ [] → socket = true) : (s.receiveIf now socket).socket = [] := by
  match hq : s.socket with
  | [] =>
    unfold receiveIf Supervision.receive
    rw [hq]
    dsimp only
    grind
  | [report] =>
    have hre : s.handler.registered = true := by
      by_cases hn : s.handler.m_pid = none
      · rw [(h.buried hn).2.2.1] at hq
        cases hq
      · exact (h.watched hn).2.2.resolve_right fun hr => by simp [hq] at hr
    simp [receiveIf, hso (by simp [hq]), Supervision.receive, hre, hq]
  | _ :: _ :: _ => simp [hq] at hle

theorem Inv.step (h : Inv s) {e : SupervisionEvent} (hd : s.Drains e) : Inv (s.step e) := by
  have hb : s.alive = true → s.handler.m_pid ≠ none := fun ha hn =>
    absurd (ha.symm.trans (h.buried hn).1) nofun
  unfold Supervision.step
  cases e with
  | report report =>
    dsimp only
    split
    · next ha =>
      refine ⟨h.signal, fun hn => ?_, fun hn => absurd hn (hb ha)⟩
      obtain ⟨hq, ht, hre⟩ := h.watched hn
      exact ⟨by simp [← hq], ht, .inl (hre.resolve_right fun hr => by simp [ha] at hr)⟩
    · exact h
  | die =>
    dsimp only
    split
    · next ha =>
      refine ⟨fun _ => rfl, fun hn => ?_, fun hn => absurd hn (hb ha)⟩
      obtain ⟨hq, ht, hre⟩ := h.watched hn
      exact ⟨hq, ht, .inl (hre.resolve_right fun hr => by simp [ha] at hr)⟩
    · exact h
  | round now socket signal =>
    have hr : Inv (s.receiveIf now socket) ∧ (s.receiveIf now socket).signal = s.signal := by
      unfold receiveIf
      split
      · exact h.receive now
      · exact ⟨h, rfl⟩
    cases signal with
    | false => exact hr.1
    | true =>
      refine hr.1.readSignal now fun hre => ?_
      obtain ⟨hle, hso⟩ := hd (hr.2 ▸ hre)
      exact h.receiveIf_socket now hle hso

/-- **THE LAST REPORT IS SAVED**, and all are processed before the death, when the round that
reads the signal finds at most one report and reads it. -/
theorem last_report_saved (h : DriveHandler) (hchild : h.m_pid ≠ none)
    (hpolled : h.registered = true) (events : List SupervisionEvent)
    (hdrains : Along step Drains { handler := h } events)
    (hdead : (run step { handler := h } events).handler.m_pid = none) :
    let s := run step { handler := h } events
    s.processed = s.sent ∧ s.saved = lastOf (h.m_sessionState, h.m_sessionVid) s.sent := by
  have hs : Inv { handler := h } :=
    ⟨nofun, fun _ => ⟨rfl, rfl, .inl hpolled⟩, fun hn => absurd hn hchild⟩
  obtain ⟨-, -, -, hp, hsa⟩ :=
    (run_invariant (fun _ _ h hd => h.step hd) hs hdrains).buried hdead
  exact ⟨hp, hsa.trans (congrArg (lastOf · _) (run_atStart _ events))⟩

def mounting : StateReport := ⟨⟨true, .mounting, .retrieve, "V1", false, 0, 0⟩, rfl, by decide⟩

def shuttingDown : StateReport :=
  ⟨⟨true, .shuttingDown, .retrieve, "V1", false, 0, 0⟩, rfl, by decide⟩

def forked : Supervision := { handler := fork {} 0 (.forked 7) }

theorem read_report_is_saved :
    let s := run step forked [.report mounting, .die, .round 1 true true]
    s.processed = [mounting] ∧ s.saved = (.mounting, "V1") :=
  last_report_saved _ (by decide) (by decide) [.report mounting, .die, .round 1 true true]
    ⟨trivial, trivial, fun _ => ⟨by decide, fun _ => rfl⟩, trivial⟩ rfl

/-- The second report is in the socket when the death is processed. -/
theorem unread_report_is_lost :
    let s := run step forked [.report mounting, .report shuttingDown, .die, .round 1 true true]
    s.handler.m_pid = none ∧ lastOf s.atStart s.sent = (.shuttingDown, "")
      ∧ s.processed = [mounting] ∧ s.saved = (.mounting, "V1") :=
  ⟨rfl, rfl, rfl, rfl⟩

end Supervision

end TapeArchive.Tapeserver.Daemon
