/-
  **A LOADED DRIVE IS CLEANED BEFORE IT IS USED AGAIN** (`DriveHandler.cpp`).

  The handler, one subprocess at a time, and any sequence of forks, reports, ends of
  subprocesses and timeouts. A log says what happened to the drive:

      diedLoaded V ──▶ … no data transfer session … ──▶ cleaned V, or drive put down

  Left out: the shutdown of the daemon.
-/
import Mathlib.Data.List.Induction
import TapeArchive.Tapeserver.DriveHandler

namespace TapeArchive.Tapeserver.Daemon

open Lib List
open DriveHandler (previousVid_congr processSigChild_collects saved_fork toBeCleaned_congr)

/-! ## The handler and its subprocess -/

/-- A subprocess: the handler as `fork` copied it, and its stage. -/
structure Child where
  copy : DriveHandler
  stage : ChildStage

/-- What matters for the tape in the drive. -/
inductive Happening where
  /-- A subprocess died by a signal, and its last report said that the drive may be loaded. -/
  | diedLoaded (vid : String)
  | ranTransfer
  /-- A subprocess ran the cleaner session and exited. -/
  | cleaned (vid : String)
  | putDown
  deriving DecidableEq

/-- `terminated` says that an exception ended the daemon. -/
structure DriveWorld where
  handler : DriveHandler
  child : Option Child
  log : List Happening
  terminated : Bool

inductive DriveEvent where
  | fork (now : Nat) (answer : ForkAnswer)
  | childRuns (answers : ChildAnswers)
  | receives (now : Nat) (received : Received)
  | sigChild (now : Nat) (answer : WaitAnswer)
  | timeout (now : Nat)

/-- A cleaner session sends no report, and one that gives up reports `Fatal`. -/
def ChildStage.sends : ChildStage → Received → Bool
  | .transferring, _ => true
  | .givenUp, .message message => !message.reportingstate || message.sessionstate == .fatal
  | _, .message message => !message.reportingstate
  | _, _ => true

/-- What the log gets when a subprocess reaches a stage. -/
def ChildStage.happenings : ChildStage → List Happening
  | .putDriveDown => [.putDown]
  | .transferring => [.ranTransfer]
  | _ => []

/-- What the log gets when an exit is collected. -/
def ChildStage.exitHappenings : ChildStage → List Happening
  | .cleaning vid => [.cleaned vid]
  | _ => []

namespace DriveWorld

def start : DriveWorld := ⟨DriveHandler.getInitialStatus {}, none, [], false⟩

variable (w : DriveWorld)

/-- The process manager found that the handler asks for a fork. -/
def forks (now : Nat) (answer : ForkAnswer) : DriveWorld :=
  let handler := w.handler.fork now answer
  let child : Option Child :=
    if w.handler.m_sessionState ≠ .pendingFork then w.child
    else match answer with
      | .forked _ | .notPolled _ => some ⟨handler, .starting⟩
      | _ => w.child
  { w with handler := handler, child := child }

/-- The subprocess gets through the first part of `runChild`. -/
def runs (child : Child) (answers : ChildAnswers) : DriveWorld :=
  let stage := child.copy.runChild answers
  { w with child := some { child with stage := stage }, log := w.log ++ stage.happenings }

/-- `processSigChild`, and what it says of the tape in the drive. -/
def collects (now : Nat) (answer : WaitAnswer) (happenings : List Happening) :
    DriveWorld :=
  match w.handler.processSigChild now answer with
  | none => { w with terminated := true }
  | some handler => ⟨handler, none, w.log ++ happenings, false⟩

def deathHappenings : List Happening :=
  if statesRequiringCleaner.contains w.handler.m_sessionState then
    [.diedLoaded w.handler.m_sessionVid] else []

/-- One event; what cannot happen changes nothing. -/
def step (e : DriveEvent) : DriveWorld :=
  if w.terminated then w
  else
    match e, w.child with
    | .fork now answer, _ =>
        if w.handler.m_processingStatus.forkRequested then w.forks now answer else w
    | .childRuns answers, some child =>
        if child.stage = .starting then w.runs child answers else w
    | .receives now received, some child =>
        if w.handler.registered && child.stage.sends received then
          { w with handler := w.handler.processEvent now received } else w
    | .sigChild now .exited, some child =>
        if child.stage = .starting then w
        else w.collects now .exited child.stage.exitHappenings
    | .sigChild now .signaled, some _ => w.collects now .signaled w.deathHappenings
    | .timeout now, _ =>
        if w.handler.m_processingStatus.nextTimeout.any (· < now) then
          { w with handler := w.handler.processTimeout now } else w
    | _, _ => w

end DriveWorld

/-! ## What is owed to the drive -/

/-- **The drive is cleaned before it is used again**, in what happened. -/
def CleanedBeforeUse (log : List Happening) : Prop :=
  ∀ before vid between after,
    log = before ++ [.diedLoaded vid] ++ between ++ [.ranTransfer] ++ after →
      .cleaned vid ∈ between ∨ .putDown ∈ between

/-- The tapes that are still to be cleaned away after one more thing happened. -/
def owedAfter : List String → Happening → List String
  | owed, .diedLoaded vid => vid :: owed
  | owed, .ranTransfer => owed
  | owed, .cleaned vid => owed.filter (· ≠ vid)
  | _, .putDown => []

/-- The tapes that are still to be cleaned away. -/
def owed (log : List Happening) : List String := log.foldl owedAfter []

theorem owed_concat (log : List Happening) (h : Happening) :
    owed (log ++ [h]) = owedAfter (owed log) h := by
  unfold owed
  rw [foldl_append]
  rfl

/-- A tape is owed as long as nothing was done about it. -/
theorem mem_owed {before : List Happening} {vid : String} : ∀ {between : List Happening},
    .cleaned vid ∉ between → .putDown ∉ between →
    vid ∈ owed (before ++ [.diedLoaded vid] ++ between) := by
  intro between
  induction between using List.reverseRecOn with
  | nil =>
    intro _ _
    rw [append_nil, owed_concat]
    exact mem_cons_self
  | append_singleton between h ih =>
    intro hc hd
    rw [mem_append, not_or] at hc hd
    have hm := ih hc.1 hd.1
    rw [← append_assoc, owed_concat]
    cases h with
    | diedLoaded vid' => exact .tail _ hm
    | ranTransfer => exact hm
    | cleaned vid' =>
      have hne : vid ≠ vid' := by
        intro heq
        rw [heq] at hc
        exact hc.2 mem_cons_self
      exact List.mem_filter.mpr ⟨hm, decide_eq_true hne⟩
    | putDown => exact absurd mem_cons_self hd.2

/-- One more thing happened, and it was no transfer with something owed. -/
theorem CleanedBeforeUse.concat {log : List Happening} {h : Happening}
    (hl : CleanedBeforeUse log) (hnew : h = .ranTransfer → owed log = []) :
    CleanedBeforeUse (log ++ [h]) := by
  intro before vid between after hs
  obtain ha | ⟨after', last, ha⟩ := eq_nil_or_concat' after
  · -- the transfer is what happened last
    subst ha
    rw [append_nil] at hs
    obtain ⟨hl', hlast⟩ := append_inj' hs rfl
    have hn := hnew (List.singleton_inj.mp hlast)
    by_contra hneither
    rw [not_or] at hneither
    have hm := @mem_owed before vid between hneither.1 hneither.2
    rw [← hl', hn] at hm
    cases hm
  · subst ha
    rw [← append_assoc] at hs
    obtain ⟨hl', _⟩ := append_inj' hs rfl
    exact hl before vid between after' hl'

/-! ## Runs -/

namespace DriveWorld

/-- **The condition**: a subprocess that is to clean the drive does not die before the drive is
put down, and does not give up. -/
def Regular (w : DriveWorld) : DriveEvent → Prop
  | .sigChild _ .signaled => ∀ child ∈ w.child, child.copy.toBeCleaned = true →
      child.stage = .putDriveDown
  | .sigChild _ .exited => ∀ child ∈ w.child, child.copy.toBeCleaned = true →
      child.stage ≠ .givenUp
  | _ => True

instance Regular.decidable (w : DriveWorld) : (e : DriveEvent) → Decidable (w.Regular e)
  | .sigChild _ .signaled => inferInstanceAs (Decidable (∀ child ∈ w.child,
      child.copy.toBeCleaned = true → child.stage = .putDriveDown))
  | .sigChild _ .exited => inferInstanceAs (Decidable (∀ child ∈ w.child,
      child.copy.toBeCleaned = true → child.stage ≠ .givenUp))
  | .sigChild _ .error => isTrue trivial
  | .sigChild _ .stillRunning => isTrue trivial
  | .fork _ _ => isTrue trivial
  | .childRuns _ => isTrue trivial
  | .receives _ _ => isTrue trivial
  | .timeout _ => isTrue trivial

/-- The subprocess while something is owed. -/
structure Cleans (h : DriveHandler) (child : Child) : Prop where
  stage : child.stage = .starting ∨ child.stage = .givenUp ∨
    child.stage = .cleaning h.m_previousVid
  sessionState : statesRequiringCleaner.contains h.m_sessionState = false

/-- **The invariant**: what is owed is what was saved, and the subprocess takes care of it. -/
structure Sound (w : DriveWorld) : Prop where
  handler : w.handler.Sane
  child : w.child = none ↔ w.handler.m_pid = none
  forking : w.handler.m_processingStatus.forkRequested = true → w.child = none
  copy : ∀ child, w.child = some child → child.copy.saved = w.handler.saved
  toBeCleaned : owed w.log ≠ [] → w.handler.toBeCleaned = true
  savedVid : ∀ vid ∈ owed w.log, vid = w.handler.m_previousVid
  cleans : owed w.log ≠ [] → ∀ child, w.child = some child → Cleans w.handler child
  log : CleanedBeforeUse w.log

theorem cleanedBeforeUse_nil : CleanedBeforeUse [] := by
  intro before vid between after hs
  have hl := congrArg List.length hs
  simp only [length_nil, length_append, length_cons] at hl
  omega

theorem start_sound : start.Sound := by
  refine ⟨⟨fun _ => rfl, fun _ => rfl, ?_, ?_⟩, ⟨fun _ => rfl, fun _ => rfl⟩, fun _ => rfl, ?_,
    fun ho => absurd rfl ho, ?_, fun ho => absurd rfl ho, cleanedBeforeUse_nil⟩
  · intro hr
    cases hr
  · intro hd
    cases hd
  · intro child hc
    cases hc
  · intro vid hv
    cases hv

section Steps

variable {w : DriveWorld} {child : Child} {now : Nat}

/-- The subprocess of a fork. -/
theorem forks_child (hn : w.child = none) {answer : ForkAnswer}
    (hc : (w.forks now answer).child = some child) :
    child = ⟨w.handler.fork now answer, .starting⟩ := by
  unfold forks at hc
  rw [hn] at hc
  split at hc
  · cases hc
  cases answer with
  | noSocketPair | noProcess => cases hc
  | forked | notPolled => exact (Option.some.inj hc).symm

theorem Sound.forks (h : w.Sound) (hr : w.handler.m_processingStatus.forkRequested = true)
    (now : Nat) (answer : ForkAnswer) : (w.forks now answer).Sound := by
  have hn := h.forking hr
  have hp := h.child.mp hn
  have hsa := saved_fork w.handler now answer
  have hs : statesRequiringCleaner.contains (w.handler.fork now answer).m_sessionState = false := by
    obtain hs | hs := DriveHandler.fork_sessionState w.handler now answer
    all_goals
      rw [hs]
      rfl
  refine ⟨h.handler.fork hp now answer, ?_, ?_, ?_, ?_, ?_, ?_, h.log⟩
  · show (if w.handler.m_sessionState ≠ .pendingFork then w.child else _) = none
      ↔ (w.handler.fork now answer).m_pid = none
    unfold DriveHandler.fork
    dsimp only
    split
    · exact h.child
    cases answer with
    | noSocketPair => exact h.child
    | noProcess => exact ⟨fun _ => rfl, fun _ => hn⟩
    | forked | notPolled => exact ⟨nofun, nofun⟩
  · intro ha
    rw [show (w.forks now answer).handler = w.handler.fork now answer from rfl,
      DriveHandler.fork_forkRequested] at ha
    cases ha
  · intro child hc
    rw [forks_child hn hc]
    rfl
  · intro ho
    exact (toBeCleaned_congr hsa).trans (h.toBeCleaned ho)
  · intro vid hv
    exact (h.savedVid vid hv).trans (previousVid_congr hsa).symm
  · intro ho child hc
    rw [forks_child hn hc]
    exact ⟨.inl rfl, hs⟩

/-- Another stage of the subprocess, and what the log gets from it. -/
theorem Sound.stage (h : w.Sound) (hch : w.child = some child)
    {stage : ChildStage} (htr : stage = .transferring → owed w.log = [])
    (hcl : owed w.log ≠ [] → stage ≠ .putDriveDown →
      Cleans w.handler { child with stage := stage }) :
    ({ w with child := some { child with stage := stage },
              log := w.log ++ stage.happenings } : DriveWorld).Sound := by
  -- what is owed stays, or the drive was put down
  have ho : owed (w.log ++ stage.happenings) ≠ [] →
      owed (w.log ++ stage.happenings) = owed w.log ∧ stage ≠ .putDriveDown := by
    intro hne
    cases stage with
    | putDriveDown => exact absurd (owed_concat _ _) hne
    | transferring => exact ⟨owed_concat _ _, nofun⟩
    | starting | givenUp | cleaning _ => exact ⟨congrArg owed (append_nil _), nofun⟩
  have hl : CleanedBeforeUse (w.log ++ stage.happenings) := by
    cases stage with
    | putDriveDown => exact h.log.concat nofun
    | transferring => exact h.log.concat fun _ => htr rfl
    | starting | givenUp | cleaning _ => exact (append_nil w.log).symm ▸ h.log
  exact { h with
    child := by
      rw [← h.child, hch]
      exact ⟨nofun, nofun⟩
    forking := by
      intro hr
      rw [h.forking hr] at hch
      cases hch
    copy := by
      intro c hc
      rw [← Option.some.inj hc]
      exact h.copy child hch
    toBeCleaned := fun hne => h.toBeCleaned ((ho hne).1 ▸ hne)
    savedVid := fun vid hv => h.savedVid vid ((ho (ne_nil_of_mem hv)).1 ▸ hv)
    cleans := by
      intro hne c hc
      rw [← Option.some.inj hc]
      exact hcl ((ho hne).1 ▸ hne) (ho hne).2
    log := hl }

/-- The subprocess decides. -/
theorem Sound.runs (h : w.Sound) (hc : w.child = some child) (answers : ChildAnswers) :
    (w.runs child answers).Sound := by
  have hsa := h.copy child hc
  have hca : owed w.log ≠ [] → child.copy.runChild answers = .givenUp ∨
      child.copy.runChild answers = .putDriveDown ∨
      child.copy.runChild answers = .cleaning w.handler.m_previousVid := by
    intro ho
    have hcl := (toBeCleaned_congr hsa).trans (h.toBeCleaned ho)
    rw [← previousVid_congr hsa]
    exact DriveHandler.runChild_toBeCleaned hcl answers
  refine h.stage hc ?_ ?_
  · intro htr
    by_contra ho
    rw [htr] at hca
    obtain hs | hs | hs := hca ho <;> cases hs
  · intro ho hd
    have hse := (h.cleans ho child hc).sessionState
    obtain hs | hs | hs := hca ho
    · exact ⟨.inr (.inl hs), hse⟩
    · exact absurd hs hd
    · exact ⟨.inr (.inr hs), hse⟩

/-- A message comes. -/
theorem Sound.receives (h : w.Sound) (hch : w.child = some child)
    {received : Received} (hre : w.handler.registered = true)
    (hs : child.stage.sends received = true) :
    ({ w with handler := w.handler.processEvent now received } : DriveWorld).Sound := by
  have hh := DriveHandler.processEvent_hears w.handler now received
  refine ⟨h.handler.processEvent hre now received, ?_, ?_, ?_, ?_, ?_, ?_, h.log⟩
  · show w.child = none ↔ (w.handler.processEvent now received).m_pid = none
    rw [hh.pid]
    exact h.child
  · intro hrd
    exact h.forking (hh.forkRequested.symm.trans hrd)
  · intro c hc
    exact (h.copy c hc).trans hh.saved.symm
  · intro ho
    exact (toBeCleaned_congr hh.saved).trans (h.toBeCleaned ho)
  · intro vid hv
    exact (h.savedVid vid hv).trans (previousVid_congr hh.saved).symm
  · intro ho c hc
    obtain ⟨hsg, hse⟩ := h.cleans ho c hc
    refine ⟨?_, ?_⟩
    · show _ ∨ _ ∨ c.stage = .cleaning (w.handler.processEvent now received).m_previousVid
      rw [previousVid_congr hh.saved]
      exact hsg
    · obtain hsa | ⟨message, hm, hr, hsta, _⟩ := hh.sessionState
      · show statesRequiringCleaner.contains
          (w.handler.processEvent now received).m_sessionState = false
        rw [hsa]
        exact hse
      · -- the only state that such a subprocess reports is `Fatal`
        have hf : message.sessionstate = .fatal := by
          rw [hch] at hc
          rw [Option.some.inj hc] at hs
          rw [hm] at hs
          obtain hsg | hsg | hsg := hsg <;> rw [hsg] at hs
          · simp [ChildStage.sends, hr] at hs
          · simpa [ChildStage.sends, hr] using hs
          · simp [ChildStage.sends, hr] at hs
        rw [hsta, hf]
        rfl

/-- The world without a subprocess, and a handler that asks for the next one or for none. -/
theorem sound_collected {handler : DriveHandler} {happenings : List Happening}
    (hs : handler.Sane) (hp : handler.m_pid = none)
    (hcl : owed (w.log ++ happenings) ≠ [] → handler.toBeCleaned = true)
    (hv : ∀ vid ∈ owed (w.log ++ happenings), vid = handler.m_previousVid)
    (hl : CleanedBeforeUse (w.log ++ happenings)) :
    DriveWorld.Sound ⟨handler, none, w.log ++ happenings, false⟩ := by
  refine ⟨hs, ⟨fun _ => hp, fun _ => rfl⟩, fun _ => rfl, ?_, hcl, hv, ?_, hl⟩
  · intro child hc
    cases hc
  · intro _ child hc
    cases hc

/-- An exception ends the daemon. -/
theorem Sound.terminate (h : w.Sound) : ({ w with terminated := true } : DriveWorld).Sound :=
  { h with }

theorem Sound.pid (h : w.Sound) (hc : w.child = some child) :
    ∃ pid, w.handler.m_pid = some pid := by
  rw [← Option.isSome_iff_exists, Option.isSome_iff_ne_none]
  intro hn
  rw [h.child.mpr hn] at hc
  cases hc

/-- The subprocess exited, and it had cleaned the drive if this was owed. -/
theorem Sound.exits (h : w.Sound) (hc : w.child = some child) (hsd : child.stage ≠ .starting)
    (hr : child.copy.toBeCleaned = true → child.stage ≠ .givenUp) :
    (w.collects now .exited child.stage.exitHappenings).Sound := by
  obtain ⟨pid, hp⟩ := h.pid hc
  unfold collects
  cases hco : w.handler.processSigChild now .exited with
  | none => exact h.terminate
  | some handler =>
    obtain rfl := processSigChild_collects h.handler hp (.inl ⟨rfl, rfl⟩) hco
    have hn : owed (w.log ++ child.stage.exitHappenings) = [] := by
      by_cases ho : owed w.log = []
      · cases hs : child.stage with
        | cleaning vid =>
          show owed (w.log ++ [.cleaned vid]) = []
          rw [owed_concat, ho]
          rfl
        | _ => exact (congrArg owed (append_nil _)).trans ho
      · -- the subprocess was there to clean the drive
        have hcl := (toBeCleaned_congr (h.copy child hc)).trans (h.toBeCleaned ho)
        obtain hs | hs | hs := (h.cleans ho child hc).stage
        · exact absurd hs hsd
        · exact absurd hs (hr hcl)
        · rw [hs]
          show owed (w.log ++ [.cleaned w.handler.m_previousVid]) = []
          rw [owed_concat]
          apply List.filter_eq_nil_iff.mpr
          intro vid hv
          rw [h.savedVid vid hv]
          simp
    have hl : CleanedBeforeUse (w.log ++ child.stage.exitHappenings) := by
      cases hs : child.stage with
      | cleaning vid => exact h.log.concat nofun
      | _ =>
        show CleanedBeforeUse (w.log ++ [])
        rw [append_nil]
        exact h.log
    refine sound_collected (DriveHandler.collectExited_sane h.handler now) rfl
      (fun hne => absurd hn hne) ?_ hl
    intro vid hv
    rw [hn] at hv
    cases hv

/-- The subprocess died, and nothing was owed. -/
theorem Sound.dies (h : w.Sound) (hc : w.child = some child)
    (hr : child.copy.toBeCleaned = true → child.stage = .putDriveDown) :
    (w.collects now .signaled w.deathHappenings).Sound := by
  obtain ⟨pid, hp⟩ := h.pid hc
  have hn : owed w.log = [] := by
    by_contra ho
    have hcl := (toBeCleaned_congr (h.copy child hc)).trans (h.toBeCleaned ho)
    have hdo := hr hcl
    obtain hs | hs | hs := (h.cleans ho child hc).stage
    all_goals
      rw [hs] at hdo
      cases hdo
  unfold collects
  cases hco : w.handler.processSigChild now .signaled with
  | none => exact h.terminate
  | some handler =>
    obtain rfl := processSigChild_collects h.handler hp (.inr ⟨rfl, rfl⟩) hco
    have hsa := DriveHandler.collectSignaled_sane w.handler now
    cases hl : statesRequiringCleaner.contains w.handler.m_sessionState with
    | true =>
      have hd : w.deathHappenings = [.diedLoaded w.handler.m_sessionVid] := by
        unfold deathHappenings
        rw [if_pos hl]
      have ho : owed (w.log ++ [.diedLoaded w.handler.m_sessionVid])
          = [w.handler.m_sessionVid] := by
        rw [owed_concat, hn]
        rfl
      rw [hd]
      refine sound_collected hsa rfl (fun _ => hl) ?_ (h.log.concat nofun)
      intro vid hv
      rw [ho] at hv
      exact List.mem_singleton.mp hv
    | false =>
      have hd : w.deathHappenings = [] := by
        unfold deathHappenings
        rw [hl]
        rfl
      rw [hd]
      refine sound_collected hsa rfl ?_ ?_ ?_
      all_goals rw [append_nil]
      · exact fun ho => absurd hn ho
      · intro vid hv
        rw [hn] at hv
        cases hv
      · exact h.log

/-- A timeout kills the subprocess, which is seen later. -/
theorem Sound.timesOut (h : w.Sound)
    (hd : w.handler.m_processingStatus.nextTimeout.any (· < now) = true) :
    ({ w with handler := w.handler.processTimeout now } : DriveWorld).Sound := by
  rw [h.handler.processTimeout_eq hd]
  refine ⟨h.handler.noTimeout, h.child, h.forking, h.copy, h.toBeCleaned, h.savedVid, ?_, h.log⟩
  intro ho child hc
  obtain ⟨hsg, hs⟩ := h.cleans ho child hc
  exact ⟨hsg, hs⟩

/-- **Every regular event keeps the invariant.** -/
theorem Sound.step (h : w.Sound) (e : DriveEvent) (hr : w.Regular e) : (w.step e).Sound := by
  unfold DriveWorld.step
  split
  · exact h
  split
  · split
    · next hre => exact h.forks hre _ _
    · exact h
  · next hc =>
    split
    · exact h.runs hc _
    · exact h
  · next hc =>
    split
    · next hs =>
      rw [Bool.and_eq_true] at hs
      exact h.receives hc hs.1 hs.2
    · exact h
  · next hc =>
    split
    · exact h
    · next hsd => exact h.exits hc hsd (hr _ hc)
  · next hc => exact h.dies hc (hr _ hc)
  · split
    · next hd => exact h.timesOut hd
    · exact h
  · exact h

end Steps

end DriveWorld

/-- **A LOADED DRIVE IS CLEANED BEFORE IT IS USED AGAIN**, in every run in which the subprocesses
that are to clean it neither die nor give up. -/
theorem cleaned_before_use (events : List DriveEvent)
    (hregular : Along DriveWorld.step DriveWorld.Regular DriveWorld.start events) :
    CleanedBeforeUse (run DriveWorld.step DriveWorld.start events).log := by
  have hs : (run DriveWorld.step DriveWorld.start events).Sound :=
    @run_invariant _ _ DriveWorld.step DriveWorld.Regular DriveWorld.Sound
      (fun _ e h hr => h.step e hr) events DriveWorld.start DriveWorld.start_sound hregular
  exact hs.log

/-! ## Runs with a cleaner -/

def allCalls : ChildAnswers := ⟨true, true, true, true, true, true⟩

def reportState (state : SessionState) (type : SessionType) (vid : String) : Received :=
  .message ⟨true, state, type, vid, false, 0, 0⟩

/-- A data transfer session dies while its tape is in the drive. -/
def crashWhileRunning : List DriveEvent :=
  [.fork 0 (.forked 100), .childRuns allCalls,
   .receives 1 (reportState .scheduling .undetermined ""),
   .receives 2 (reportState .mounting .archive "V01001"),
   .receives 3 (reportState .running .archive "V01001"), .sigChild 4 .signaled]

/-- The next subprocess, with what becomes of it. -/
def nextSubprocess (pid : Nat) (answers : ChildAnswers) (answer : WaitAnswer) : List DriveEvent :=
  [.fork 5 (.forked pid), .childRuns answers, .sigChild 6 answer]

/-- A cleaner session exits, and a data transfer session follows. -/
theorem cleaner_then_transfer : (run DriveWorld.step DriveWorld.start
        (crashWhileRunning ++ nextSubprocess 101 allCalls .exited
          ++ nextSubprocess 102 allCalls .stillRunning)).log
      = [.ranTransfer, .diedLoaded "V01001", .cleaned "V01001", .ranTransfer] ∧
    CleanedBeforeUse (run DriveWorld.step DriveWorld.start
        (crashWhileRunning ++ nextSubprocess 101 allCalls .exited
          ++ nextSubprocess 102 allCalls .stillRunning)).log :=
  ⟨by decide +kernel, cleaned_before_use _ (by decide +kernel)⟩

/-- **A CLEANER THAT DIES IS FORGOTTEN**, and one that does not reach the central storage is
taken for a session that unmounted its tape. -/
theorem dead_cleaner_is_forgotten : ¬ CleanedBeforeUse (run DriveWorld.step DriveWorld.start
        (crashWhileRunning ++ nextSubprocess 101 allCalls .signaled
          ++ nextSubprocess 102 allCalls .stillRunning)).log ∧
    ¬ CleanedBeforeUse (run DriveWorld.step DriveWorld.start
        (crashWhileRunning ++ nextSubprocess 101 { allCalls with pings := false } .exited
          ++ nextSubprocess 102 allCalls .stillRunning)).log := by
  have hl : (run DriveWorld.step DriveWorld.start
        (crashWhileRunning ++ nextSubprocess 101 allCalls .signaled
          ++ nextSubprocess 102 allCalls .stillRunning)).log
      = [.ranTransfer, .diedLoaded "V01001", .ranTransfer] ∧
    (run DriveWorld.step DriveWorld.start
        (crashWhileRunning ++ nextSubprocess 101 { allCalls with pings := false } .exited
          ++ nextSubprocess 102 allCalls .stillRunning)).log
      = [.ranTransfer, .diedLoaded "V01001", .ranTransfer] := by
    decide +kernel
  have hb : ¬ CleanedBeforeUse [.ranTransfer, .diedLoaded "V01001", .ranTransfer] := by
    intro hc
    obtain hm | hm := hc [.ranTransfer] "V01001" [] [] rfl <;> cases hm
  exact ⟨hb, hb⟩

end TapeArchive.Tapeserver.Daemon
