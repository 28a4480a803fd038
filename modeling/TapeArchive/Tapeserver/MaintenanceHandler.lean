/-
  **THE HANDLER OF THE MAINTENANCE PROCESS** (`MaintenanceHandler.cpp`).

  A timeout while the handler shuts down is to kill the subprocess. The test is
  the wrong way round: with a subprocess nothing is killed, and the shutdown is
  declared complete all the same.

  Left out: log texts, and the byte that `shutdown` sends to the subprocess.
-/
import TapeArchive.Tapeserver.DriveHandler

namespace TapeArchive.Tapeserver.Daemon

open Lib

/-- `MaintenanceHandler`, with the subprocesses that were forked and not waited for. -/
structure MaintenanceHandler where
  m_processingStatus : ProcessingStatus := {}
  m_pid : Option Nat := none
  m_socketPair : Bool := false
  m_shutdownInProgress : Bool := false
  subprocesses : List Nat := []

/-- The calls of the process manager, with the answers of the system. -/
inductive MaintenanceCall where
  | fork (answer : ForkAnswer)
  | processSigChild (answer : WaitAnswer)
  | shutdown
  | processTimeout (answer : KillAnswer)

namespace MaintenanceHandler

variable (h : MaintenanceHandler)

/-- The `catch` clause of `fork`. -/
def forkFailed : MaintenanceHandler :=
  { h with m_processingStatus := { shutdownComplete := true, forkState := .parent } }

def forkedParent (pid : Nat) : MaintenanceHandler :=
  { h with
    m_socketPair := true
    m_pid := some pid
    subprocesses := pid :: h.subprocesses
    m_processingStatus := { h.m_processingStatus with forkState := .parent } }

/-- `MaintenanceHandler::fork`, in the parent. -/
def fork (answer : ForkAnswer) : MaintenanceHandler :=
  let h := { h with m_processingStatus := { h.m_processingStatus with forkRequested := false } }
  match answer with
  | .noSocketPair => h.forkFailed
  | .noProcess => forkFailed { h with m_socketPair := true, m_pid := none }
  | .forked pid => h.forkedParent pid
  | .notPolled pid => (h.forkedParent pid).forkFailed

/-- `MaintenanceHandler::kill`; it keeps the pid. -/
def kill (answer : KillAnswer) : MaintenanceHandler :=
  match h.m_pid with
  | none => h
  | some pid => { h with
      m_socketPair := false
      subprocesses := if answer.killed && answer.waited then h.subprocesses.erase pid
        else h.subprocesses }

/-- `MaintenanceHandler::processSigChild`. -/
def processSigChild (answer : WaitAnswer) : MaintenanceHandler :=
  match h.m_pid, answer with
  | none, _ | some _, .error | some _, .stillRunning => h
  | some pid, .exited | some pid, .signaled => { h with
      m_socketPair := false
      m_pid := none
      subprocesses := h.subprocesses.erase pid
      m_processingStatus := { h.m_processingStatus with
        forkRequested := !h.m_shutdownInProgress
        shutdownComplete := h.m_processingStatus.shutdownComplete || h.m_shutdownInProgress
        nextTimeout := none } }

/-- `MaintenanceHandler::shutdown`. -/
def shutdown : MaintenanceHandler :=
  { h with m_shutdownInProgress := true }

/-- `MaintenanceHandler::processTimeout`. -/
def processTimeout (answer : KillAnswer) : MaintenanceHandler :=
  if !h.m_shutdownInProgress then h
  else
    -- the branch with a subprocess is the one that only logs
    let h := if h.m_pid ≠ none then h else h.kill answer
    { h with m_processingStatus := { h.m_processingStatus with
        nextTimeout := none
        shutdownComplete := true } }

def serve : MaintenanceCall → MaintenanceHandler
  | .fork answer => h.fork answer
  | .processSigChild answer => h.processSigChild answer
  | .shutdown => h.shutdown
  | .processTimeout answer => h.processTimeout answer

/-- A complete shutdown leaves no subprocess behind. -/
def LeavesNoChild : Prop :=
  h.m_processingStatus.shutdownComplete = true → h.subprocesses = []

/-- A subprocess is forked where there is none, before the shutdown is complete. -/
def ForksInTurn : MaintenanceCall → Prop
  | .fork answer => h.subprocesses = [] ∧ h.m_processingStatus.shutdownComplete = false
      ∧ ∀ pid, answer ≠ .notPolled pid
  | _ => True

/-- The timeout of a shutdown finds no subprocess. -/
def TimesOutAlone : MaintenanceCall → Prop
  | .processTimeout _ => h.m_shutdownInProgress = true → h.subprocesses = []
  | _ => True

variable {h : MaintenanceHandler}

/-- One call of a handler that knows its only subprocess. -/
theorem serve_leavesNoChild (hpi : h.subprocesses = h.m_pid.toList) (hl : h.LeavesNoChild)
    {call : MaintenanceCall} (hf : h.ForksInTurn call) :
    ((h.serve call).LeavesNoChild ↔ h.TimesOutAlone call)
      ∧ (h.serve call).subprocesses = (h.serve call).m_pid.toList := by
  cases call with
  | fork answer =>
    obtain ⟨hn, ho, hp⟩ := hf
    cases answer with
    | notPolled pid => exact absurd rfl (hp pid)
    | forked pid =>
      refine ⟨iff_of_true (fun hc => ?_) trivial, by simp [serve, fork, forkedParent, hn]⟩
      exact absurd (hc.symm.trans ho) nofun
    | noSocketPair => exact ⟨iff_of_true (fun _ => hn) trivial, hpi⟩
    | noProcess => exact ⟨iff_of_true (fun _ => hn) trivial, hn⟩
  | processSigChild answer =>
    unfold serve processSigChild
    dsimp only
    split
    · exact ⟨iff_of_true hl trivial, hpi⟩
    · exact ⟨iff_of_true hl trivial, hpi⟩
    · exact ⟨iff_of_true hl trivial, hpi⟩
    all_goals
      next hs =>
      rw [hs] at hpi
      simp [LeavesNoChild, TimesOutAlone, hpi]
  | shutdown => exact ⟨iff_of_true hl trivial, hpi⟩
  | processTimeout answer =>
    unfold serve processTimeout
    cases hd : h.m_shutdownInProgress with
    | false =>
      have hqu : h.TimesOutAlone (.processTimeout answer) := fun htr =>
        absurd (hd.symm.trans htr) Bool.false_ne_true
      exact ⟨iff_of_true hl hqu, hpi⟩
    | true =>
      cases hs : h.m_pid with
      | none => simp [LeavesNoChild, TimesOutAlone, kill, hpi, hs]
      | some pid => simp [LeavesNoChild, TimesOutAlone, hpi, hs, hd]

/-- **A COMPLETE SHUTDOWN LEAVES NO SUBPROCESS BEHIND**, for subprocesses that are forked in turn,
exactly when no timeout of the shutdown finds one. -/
theorem shutdown_leaves_no_child_iff (calls : List MaintenanceCall) :
    Along serve (fun h call => h.ForksInTurn call ∧ (h.serve call).LeavesNoChild) {} calls
      ↔ Along serve (fun h call => h.ForksInTurn call ∧ h.TimesOutAlone call) {} calls :=
  Along.iff_of_invariant
    (I := fun h : MaintenanceHandler => h.subprocesses = h.m_pid.toList ∧ h.LeavesNoChild)
    (fun _ _ hI hs => ⟨(serve_leavesNoChild hI.1 hI.2 hs.1).2, hs.2⟩)
    (fun _ _ hI => and_congr_right fun hf => (serve_leavesNoChild hI.1 hI.2 hf).1)
    ⟨rfl, fun _ => rfl⟩

/-- The timeout of a shutdown declares it complete with the subprocess running. -/
theorem timeout_leaves_child_running :
    ¬ (run serve {} [.fork (.forked 7), .shutdown, .processTimeout ⟨true, true⟩]).LeavesNoChild :=
  fun hl => absurd (hl rfl) (by decide)

end MaintenanceHandler

end TapeArchive.Tapeserver.Daemon
