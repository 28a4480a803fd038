/-
  **THE END OF A RECALL SESSION** (`DiskWriteThreadPool.cpp`,
  `TapeReadSingleThread.cpp`, `RecallReportPacker.cpp`).

      disk   tasks … ─▶ last of the threads ─▶ setDiskDone ─▶ allThreadsDone? ─▶ end
      tape   … unmount, allThreadsDone? ─▶ setTapeDone ─▶ allThreadsDone? ─▶ end

  The threads that have not yet left are interchangeable: they are counted.
-/
import TapeArchive.Common.DataStructures
import TapeArchive.Tapeserver.DriveHandler

namespace TapeArchive.Tapeserver.RecallEnd

open Lib Common Tapeserver.Daemon List

/-! ## The report packer -/

/-- The reports of the recall report packer; jobs are numbers. -/
inductive Report where
  | successful (job : Nat)
  | error (job : Nat)
  | driveStatus (status : DriveStatus)
  | endOfSession
  | endOfSessionWithErrors

def Report.goingToEnd : Report → Bool
  | .endOfSession | .endOfSessionWithErrors => true
  | _ => false

def Report.isJob : Report → Bool
  | .successful _ | .error _ => true
  | _ => false

/-- How `Report::execute` ends; it catches a `NoSuchObject` of its job itself. -/
inductive Execution where
  | returns | noSuchObject | throws

/-- The thread of `RecallReportPacker`. -/
structure Packer where
  executed : List (Report × Execution) := []
  endFound : Bool := false
  m_successfulRetrieveJobs : List Nat := []
  flushed : List Nat := []

namespace Packer

def fullCheckAndFinishAsyncExecute (p : Packer) : Packer :=
  { p with flushed := p.flushed ++ p.m_successfulRetrieveJobs, m_successfulRetrieveJobs := [] }

/-- `Report::execute` and the flush after it, in the `try` block of the thread. -/
def execute (p : Packer) (report : Report) (result : Execution) (flushes : Bool) : Packer :=
  let p := { p with executed := p.executed ++ [(report, result)] }
  match report, result with
  | .successful job, .returns =>
    let p := { p with m_successfulRetrieveJobs := p.m_successfulRetrieveJobs ++ [job] }
    if flushes then p.fullCheckAndFinishAsyncExecute else p
  | .successful _, .noSuchObject => if flushes then p.fullCheckAndFinishAsyncExecute else p
  | _, _ => p

/-- A turn of `WorkerThread::run` on what was pushed, with the flush behind the loop. -/
def run (p : Packer) (pushed : List Report) (result : Execution) (flushes : Bool) : Packer :=
  if p.endFound then p
  else
    match pushed[p.executed.length]? with
    | none => p
    | some report =>
      let p := p.execute report result flushes
      if report.goingToEnd then { p.fullCheckAndFinishAsyncExecute with endFound := true } else p

end Packer

/-! ## The threads -/

/-- It works, sets its flag, looks at both, pushes the end, or is through. -/
inductive Stage where
  | working | leaving | flagged | reporting | ended
  deriving DecidableEq

inductive Cleaning where
  | noTape | unmounted | failed

def Stage.done : Stage → Bool
  | .working | .leaving => false
  | .flagged | .reporting | .ended => true

/-- A thread sets its flag, looks at both, and is going to report the end or not. -/
def Stage.next (allThreadsDone : Bool) : Stage → Stage
  | .leaving => .flagged
  | .flagged => if allThreadsDone then .reporting else .ended
  | .reporting | .ended => .ended
  | .working => .working

/-- `reportEndOfSession` or `reportEndOfSessionWithErrors`. -/
def Stage.report (errors : Bool) : Stage → Option Report
  | .reporting => some (if errors then .endOfSessionWithErrors else .endOfSession)
  | _ => none

/-- The session; `pushed` is all that was pushed into `m_fifo`. -/
structure Session where
  m_nbActiveThread : Nat
  m_failedWriteCount : Nat := 0
  disk : Stage := .working
  tape : Stage := .working
  pushed : List Report := []
  packer : Packer := {}

/-- The atomic steps of the disk threads, the tape thread and the packer. -/
inductive Event where
  | task (job : Nat) (succeeded : Bool)
  | noTask
  | disk
  /-- `~TapeCleaning`. -/
  | clean (cleaning : Cleaning)
  | tape (errorHappened : Bool)
  /-- The packer takes a report; it may be time to flush. -/
  | pack (result : Execution) (flushes : Bool)

namespace Session

variable (s : Session)

def push (report : Report) : Session := { s with pushed := s.pushed ++ [report] }

/-- `allThreadsDone`: `m_tapeThreadComplete` and `m_diskThreadComplete` are set. -/
def allThreadsDone : Bool := s.tape.done && s.disk.done

/-- The tail of `DiskWriteWorkerThread::run`. -/
def diskStep : Session :=
  { s with
    disk := s.disk.next s.allThreadsDone
    pushed := s.pushed ++ (s.disk.report (s.m_failedWriteCount != 0)).toList }

/-- The tail of `TapeReadSingleThread::run`, the same after an exception. -/
def tapeStep (errorHappened : Bool) : Session :=
  { s with
    tape := s.tape.next s.allThreadsDone
    pushed := s.pushed ++ (s.tape.report errorHappened).toList }

/-- The last status of the drive, and state of the session, that `~TapeCleaning` reports. -/
def cleaned : Cleaning → DriveStatus × SessionState
  | .noTape => (.up, .shuttingDown)
  | .unmounted =>
    if s.allThreadsDone then (.up, .shuttingDown) else (.drainingToDisk, .drainingToDisk)
  | .failed => (.down, .fatal)

/-- One step of the session; a step that no thread can take changes nothing. -/
def step : Event → Session
  | .task job succeeded =>
    if s.m_nbActiveThread = 0 then s
    else if succeeded then s.push (.successful job)
    else { s.push (.error job) with m_failedWriteCount := s.m_failedWriteCount + 1 }
  | .noTask =>
    if s.m_nbActiveThread = 0 then s
    else
      let s := { s with m_nbActiveThread := s.m_nbActiveThread - 1 }
      if s.m_nbActiveThread = 0 then { s with disk := .leaving } else s
  | .disk => s.diskStep
  | .clean cleaning =>
    if s.tape = .working then { s.push (.driveStatus (s.cleaned cleaning).1) with tape := .leaving }
    else s
  | .tape errorHappened => s.tapeStep errorHappened
  | .pack result flushes => { s with packer := s.packer.run s.pushed result flushes }

end Session

/-! ## What every step keeps -/

/-- The ends that a thread is still going to push. -/
def Stage.owes (allDone : Bool) : Stage → Nat
  | .flagged => allDone.toNat
  | .reporting => 1
  | _ => 0

/-- The jobs that were executed without an exception. -/
def successes (executed : List (Report × Execution)) : List Nat :=
  executed.filterMap fun
    | (.successful job, .returns) => some job
    | _ => none

/-- No outcome comes after an end. -/
def EndsLast (reports : List Report) : Prop :=
  reports.Pairwise fun a b => a.goingToEnd = true → b.isJob = false

/-- The packer follows what is pushed, and loses nothing. -/
structure Packer.Follows (p : Packer) (pushed : List Report) : Prop where
  order : EndsLast pushed
  front : p.executed.map Prod.fst <+: pushed
  found : p.endFound = p.executed.any (·.1.goingToEnd)
  kept : p.flushed ++ p.m_successfulRetrieveJobs = successes p.executed
  flushed : p.endFound = true → p.m_successfulRetrieveJobs = []

theorem Packer.execute_keeps (p : Packer) (report : Report) (result : Execution) (flushes : Bool)
    (hk : p.flushed ++ p.m_successfulRetrieveJobs = successes p.executed) :
    (p.execute report result flushes).executed = p.executed ++ [(report, result)]
      ∧ (p.execute report result flushes).endFound = p.endFound
      ∧ (p.execute report result flushes).flushed
          ++ (p.execute report result flushes).m_successfulRetrieveJobs
        = successes (p.executed ++ [(report, result)]) := by
  unfold successes at hk ⊢
  rw [filterMap_append, ← hk]
  cases report with
  | successful job =>
    cases result <;> cases flushes <;> simp [execute, fullCheckAndFinishAsyncExecute]
  | _ => simp [execute]

theorem Packer.Follows.run {p : Packer} {pushed : List Report} (h : p.Follows pushed)
    (result : Execution) (flushes : Bool) : (p.run pushed result flushes).Follows pushed := by
  unfold Packer.run
  split
  · exact h
  next ho =>
  split
  · exact h
  next report hr =>
  obtain ⟨he, hf, hk⟩ := p.execute_keeps report result flushes h.kept
  rw [← he] at hk
  have hfr : (p.execute report result flushes).executed.map Prod.fst <+: pushed := by
    obtain ⟨rest, rfl⟩ := h.front
    rw [he]
    cases rest with
    | nil => simp at hr
    | cons r rest =>
      obtain rfl : r = report := by simpa using hr
      exact ⟨rest, by simp⟩
  have han : (p.execute report result flushes).executed.any (·.1.goingToEnd)
      = report.goingToEnd := by
    simp [he, ← h.found, ho]
  split
  · next hen =>
    exact ⟨h.order, hfr, (han.trans hen).symm, (append_nil _).trans hk, fun _ => rfl⟩
  next hm =>
  have ha : p.endFound = report.goingToEnd := by simp [ho, hm]
  exact ⟨h.order, hfr, hf.trans (ha.trans han.symm), hk, fun hen => absurd (hf.symm.trans hen) ho⟩

theorem Stage.countP_report (stage : Stage) (errors : Bool) :
    (stage.report errors).toList.countP Report.goingToEnd
      = if stage = .reporting then 1 else 0 := by
  cases stage <;> cases errors <;> rfl

theorem Stage.next_eq_working {stage : Stage} {allThreadsDone : Bool} :
    stage.next allThreadsDone = .working ↔ stage = .working := by
  cases stage <;> cases allThreadsDone <;> simp [next]

/-- One step of one side: a second end comes from a flag set before the other side has looked. -/
theorem Stage.next_ends {c n : Nat} {a b : Stage} {all all' : Bool}
    (ha : all = (a.done && b.done)) (ha' : all' = ((a.next all).done && b.done))
    (hn : n = c + (if a = .reporting then 1 else 0) + (a.next all).owes all' + b.owes all')
    (he : 0 < c + a.owes all + b.owes all ↔ all = true) :
    (0 < n ↔ all' = true)
      ∧ (n ≤ 1 ↔ c + a.owes all + b.owes all ≤ 1 ∧ (a = .leaving → b ≠ .flagged)) := by
  subst hn ha' ha
  cases a <;> cases b <;> simp only [owes, done, next] at he ⊢ <;> grind

namespace Session

/-- The ends of the session, pushed or still to come. -/
def ends (s : Session) : Nat :=
  s.pushed.countP Report.goingToEnd + s.disk.owes s.allThreadsDone + s.tape.owes s.allThreadsDone

/-- What holds after every step of a session with `n` disk threads. -/
structure Inv (n : Nat) (s : Session) : Prop where
  threads : s.m_nbActiveThread ≤ n
  working : s.disk = .working ↔ 0 < s.m_nbActiveThread ∨ n = 0
  ends : 0 < s.ends ↔ s.allThreadsDone = true
  packer : s.packer.Follows s.pushed

variable {n : Nat} {s : Session}

/-- The second flag is set after the other side has looked. -/
def FlagsInTurn (s : Session) : Event → Prop
  | .disk => s.disk = .leaving → s.tape ≠ .flagged
  | .tape _ => s.tape = .leaving → s.disk ≠ .flagged
  | _ => True

theorem ends_step (hw : 0 < s.m_nbActiveThread → s.disk = .working)
    (he : 0 < s.ends ↔ s.allThreadsDone = true) (e : Event) :
    (0 < (s.step e).ends ↔ (s.step e).allThreadsDone = true)
      ∧ ((s.step e).ends ≤ 1 ↔ s.ends ≤ 1 ∧ s.FlagsInTurn e) := by
  have same : ∀ {s' : Session}, s'.ends = s.ends → s'.allThreadsDone = s.allThreadsDone →
      (0 < s'.ends ↔ s'.allThreadsDone = true) ∧ (s'.ends ≤ 1 ↔ s.ends ≤ 1 ∧ True) := by
    intro s' hs ha
    rw [hs, ha, and_true]
    exact ⟨he, Iff.rfl⟩
  unfold step
  cases e with
  | task job succeeded =>
    dsimp only
    split_ifs
    · exact same rfl rfl
    · exact same (by simp [ends, push, Report.goingToEnd, allThreadsDone]) rfl
    · exact same (by simp [ends, push, Report.goingToEnd, allThreadsDone]) rfl
  | noTask =>
    dsimp only
    split_ifs with hn
    · exact same rfl rfl
    · have hd := hw (Nat.pos_of_ne_zero hn)
      exact same (by simp [ends, allThreadsDone, hd, Stage.owes, Stage.done])
        (by simp [allThreadsDone, hd, Stage.done])
    · exact same rfl rfl
  | disk =>
    refine Stage.next_ends (Bool.and_comm ..) (Bool.and_comm ..) ?_ he
    simp [ends, diskStep, Stage.countP_report]
  | clean cleaning =>
    dsimp only
    split_ifs with ht
    · exact same
        (by simp [ends, push, Report.goingToEnd, allThreadsDone, ht, Stage.owes, Stage.done])
        (by simp [push, allThreadsDone, ht, Stage.done])
    · exact same rfl rfl
  | tape errorHappened =>
    have hsw : s.ends = _ := Nat.add_right_comm ..
    rw [hsw] at he ⊢
    refine Stage.next_ends rfl rfl ?_ he
    simp [ends, tapeStep, Stage.countP_report, Nat.add_right_comm]
  | pack result flushes => exact same rfl rfl

theorem Inv.follows_concat (h : Inv n s) {report : Report}
    (hj : report.isJob = true → s.allThreadsDone = false) :
    s.packer.Follows (s.pushed ++ [report]) := by
  refine { h.packer with
    order := pairwise_append.mpr ⟨h.packer.order, pairwise_singleton _ _, ?_⟩
    front := h.packer.front.trans (prefix_append _ _) }
  intro a ha b hb he
  have hpos := countP_pos_iff.mpr ⟨a, ha, he⟩
  have hd := h.ends.mp (by unfold Session.ends; omega)
  rw [mem_singleton.mp hb]
  by_contra hne
  rw [hj (Bool.eq_true_of_not_eq_false hne)] at hd
  cases hd

theorem Inv.follows_report (h : Inv n s) (stage : Stage) (errors : Bool) :
    s.packer.Follows (s.pushed ++ (stage.report errors).toList) := by
  cases stage with
  | reporting => exact h.follows_concat (by cases errors <;> nofun)
  | _ => exact (append_nil s.pushed).symm ▸ h.packer

theorem Inv.step (h : Inv n s) (e : Event) : Inv n (s.step e) := by
  have he := (ends_step (fun hpos => h.working.mpr (.inl hpos)) h.ends e).1
  revert he
  unfold Session.step
  cases e with
  | task job succeeded =>
    dsimp only
    split
    · exact fun _ => h
    next ha =>
    have ho : s.allThreadsDone = false := by
      simp [allThreadsDone, h.working.mpr (.inl (Nat.pos_of_ne_zero ha)), Stage.done]
    split <;> exact fun he => ⟨h.threads, h.working, he, h.follows_concat fun _ => ho⟩
  | noTask =>
    dsimp only
    split
    · exact fun _ => h
    next ha =>
    have hth := h.threads
    split
    · next hlast =>
      refine fun he => ⟨?_, iff_of_false nofun ?_, he, h.packer⟩ <;> dsimp only <;> omega
    next hm =>
    have hd := h.working.mpr (.inl (Nat.pos_of_ne_zero ha))
    exact fun he => ⟨Nat.le_trans (Nat.sub_le _ _) hth,
      iff_of_true hd (.inl (Nat.pos_of_ne_zero hm)), he, h.packer⟩
  | disk =>
    exact fun he =>
      ⟨h.threads, Stage.next_eq_working.trans h.working, he, h.follows_report ..⟩
  | clean cleaning =>
    dsimp only
    split
    · exact fun he => ⟨h.threads, h.working, he, h.follows_concat nofun⟩
    · exact fun _ => h
  | tape errorHappened =>
    exact fun he => ⟨h.threads, h.working, he, h.follows_report ..⟩
  | pack result flushes =>
    exact fun he => ⟨h.threads, h.working, he, h.packer.run result flushes⟩

/-! ## The end of the session -/

/-- A session of `n` disk threads. -/
def start (n : Nat) : Session := { m_nbActiveThread := n }

theorem inv_run (n : Nat) (events : List Event) : Inv n (run step (start n) events) :=
  run_preserves (fun _ e h => h.step e) ⟨le_rfl, by simp [start, Nat.pos_iff_ne_zero, em'],
      by simp [ends, start, Stage.owes, allThreadsDone, Stage.done],
      ⟨Pairwise.nil, prefix_rfl, rfl, rfl, fun _ => rfl⟩⟩

def DisksFinished (s : Session) : Prop :=
  s.m_nbActiveThread = 0 ∧ (s.disk = .working ∨ s.disk = .ended)

/-- **EVERY OUTCOME IS REPORTED BEFORE THE END**, and the threads leave an end behind exactly when
there is a disk thread. -/
theorem outcomes_reported_iff (n : Nat) (events : List Event) :
    let s := run step (start n) events
    EndsLast s.pushed ∧ (s.packer.endFound = true → (∀ report ∈ s.pushed, report.isJob = true →
          report ∈ s.packer.executed.map Prod.fst) ∧ s.packer.flushed = successes s.packer.executed)
      ∧ (s.DisksFinished → s.tape = .ended →
          ((∃ report ∈ s.pushed, report.goingToEnd = true) ↔ 0 < n)) := by
  intro s
  have h : Inv n s := inv_run n events
  refine ⟨h.packer.order, fun hf => ⟨?_, ?_⟩, fun hdi hta => ?_⟩
  · intro report hr hj
    obtain ⟨rest, hrest⟩ := h.packer.front
    have ho := h.packer.order
    rw [← hrest] at ho hr
    obtain ⟨x, hx, hen⟩ := any_eq_true.mp (h.packer.found.symm.trans hf)
    refine (mem_append.mp hr).resolve_right fun hl => ?_
    have := (pairwise_append.mp ho).2.2 _ (mem_map_of_mem hx) _ hl hen
    rw [hj] at this
    cases this
  · have hk := h.packer.kept
    rwa [h.packer.flushed hf, append_nil] at hk
  · have he := h.ends
    have hw := h.working
    obtain ⟨hn, hd | hd⟩ := hdi
    · simp_all [ends, allThreadsDone, Stage.owes, Stage.done]
    · simp_all [ends, allThreadsDone, Stage.owes, Stage.done]
      omega

theorem no_disk_thread_no_end :
    let s := run step (start 0) [.clean .unmounted, .tape false, .tape false]
    s.DisksFinished ∧ s.tape = .ended ∧ ¬ ∃ report ∈ s.pushed, report.goingToEnd = true := by
  refine ⟨⟨rfl, .inl rfl⟩, rfl, by decide⟩

/-- **THERE IS AT MOST ONE END OF THE SESSION** when the second flag is set after the other side
has looked, and, in a session at its end, only then. -/
theorem one_end_iff (n : Nat) (events : List Event) :
    let s := run step (start n) events
    (Along step FlagsInTurn (start n) events → s.pushed.countP Report.goingToEnd ≤ 1)
      ∧ (s.disk = .ended → s.tape = .ended → s.pushed.countP Report.goingToEnd ≤ 1 →
        Along step FlagsInTurn (start n) events) := by
  intro s
  have hs : (start n).ends ≤ 1 := by simp [ends, start, Stage.owes]
  have hi : s.ends ≤ 1 ↔ (start n).ends ≤ 1 ∧ Along step FlagsInTurn (start n) events :=
    run_iff (J := fun s => s.ends ≤ 1) (fun s e h => h.step e)
      (fun s e (h : Inv n s) => (ends_step (fun hpos => h.working.mpr (.inl hpos)) h.ends e).2)
      (inv_run n [])
  constructor
  · intro hf
    have hle := hi.mpr ⟨hs, hf⟩
    unfold ends at hle
    omega
  · intro hd hta hle
    refine (hi.mp ?_).2
    simpa [ends, hd, hta, Stage.owes] using hle

/-- Both sides set their flags before one of them looks. -/
theorem two_ends_of_session : (run step (start 1) [.noTask, .clean .unmounted, .disk, .tape false,
    .disk, .tape false, .disk, .tape false]).pushed.countP Report.goingToEnd = 2 := by
  decide

/-- After an unmount the drive is up if all disk threads have finished, else draining. -/
def ReportsDrive (s : Session) : Event → Prop
  | .clean .unmounted => s.tape = .working →
      (s.DisksFinished → s.cleaned .unmounted = (.up, .shuttingDown))
        ∧ ((s.cleaned .unmounted).1 = .drainingToDisk → ¬ s.DisksFinished)
  | _ => True

/-- The tape is unmounted while a disk thread is active. -/
def UnmountsFirst (s : Session) : Event → Prop
  | .clean .unmounted => s.tape = .working → ¬ s.DisksFinished
  | _ => True

/-- **THE DRIVE IS REPORTED RIGHTLY** exactly when the disk threads are not the first to finish. -/
theorem drive_status_iff (n : Nat) (events : List Event) :
    Along step ReportsDrive (start n) events ↔ Along step UnmountsFirst (start n) events := by
  refine Along.iff_of_invariant (I := fun _ => True) (fun _ _ _ _ => trivial)
    (fun s e _ => ?_) trivial
  unfold ReportsDrive UnmountsFirst
  split
  · refine forall_congr' fun hta => ?_
    simp [cleaned, allThreadsDone, hta, Stage.done]
  · exact Iff.rfl

theorem drained_drive_reported_draining :
    let s := run step (start 1) [.noTask, .disk, .disk]
    s.DisksFinished ∧ s.tape = .working
      ∧ s.cleaned .unmounted = (.drainingToDisk, .drainingToDisk) :=
  ⟨⟨rfl, .inr rfl⟩, rfl, rfl⟩

end Session

end TapeArchive.Tapeserver.RecallEnd
