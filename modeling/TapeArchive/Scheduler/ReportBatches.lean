/-
  `Scheduler::reportArchiveJobsBatch` and `reportRetrieveJobsBatch`: the disk reports of a
  batch are launched one after another, then waited for; the completed ones go to the
  database in one call, and each of the others is recorded by `reportFailed`.

  `reportFailed` throws for a job that is no longer in the object store. The archive
  batch goes on with the other jobs; the retrieve batch lets the exception out.
-/
import Mathlib

namespace TapeArchive.Scheduler.ReportBatches

open List

/-! ## The two functions -/

/-- A job, with the exceptions of the disk report. -/
structure Job where
  archiveFileID : UInt64
  /-- Of the report URL, `createDiskReporter` and `asyncReport`. -/
  launch : Option String
  waitReport : Option String
  /-- `reportFailed` throws `NoSuchObject` when not. -/
  inObjectStore : Bool
  deriving DecidableEq

/-- What the handler does with the `NoSuchObject` of `reportFailed`. -/
inductive Handler where
  | caught
  | notCaught
  deriving DecidableEq

/-- The calls of `reportFailed`, with their messages. -/
abbrev Failures := List (Job × String)

/-- Jobs whose `work` does not throw are passed on, the others recorded as failed. -/
def loop (handler : Handler) (work : Job → Option String) :
    List Job → Failures → Except Failures (List Job × Failures)
  | [], failures => .ok ([], failures)
  | j :: jobs, failures =>
      match work j with
      | none => (loop handler work jobs failures).map (fun (passed, all) => (j :: passed, all))
      | some message =>
          if j.inObjectStore || handler == .caught then
            loop handler work jobs (failures ++ [(j, message)])
          else .error (failures ++ [(j, message)])

structure Calls where
  reportFailed : Failures
  /-- The argument of `setArchiveJobBatchReported` (`setRetrieveJobBatchReportedToUser`), if it
  is called. -/
  batchReported : Option (List Job)
  deriving DecidableEq

def reportJobsBatch (handler : Handler) (jobs : List Job) : Calls :=
  let ended : Except Failures (List Job × Failures) := do
    let (pendingReports, failures) ← loop handler (·.launch) jobs []
    loop handler (·.waitReport) pendingReports failures
  match ended with
  | .ok (reportedJobs, failures) => ⟨failures, some reportedJobs⟩
  | .error failures => ⟨failures, none⟩

def reportArchiveJobsBatch : List Job → Calls := reportJobsBatch .caught

def reportRetrieveJobsBatch : List Job → Calls := reportJobsBatch .notCaught

/-! ## One outcome for each job -/

def Job.completed (j : Job) : Bool := j.launch.isNone && j.waitReport.isNone

/-- The database is told of the completed jobs, `reportFailed` of the others. -/
structure OneOutcome (jobs : List Job) (calls : Calls) : Prop where
  reported : calls.batchReported = some (jobs.filter (·.completed))
  failed : (calls.reportFailed.map (·.1)).Perm (jobs.filter (fun j => !j.completed))

variable {handler : Handler}

/-- A loop that no exception leaves goes through all its jobs. -/
theorem loop_ok {work : Job → Option String} {jobs : List Job}
    (h : ∀ j ∈ jobs, (work j).isSome → j.inObjectStore || handler == .caught) (failures : Failures) :
    ∃ all, loop handler work jobs failures = .ok (jobs.filter (fun j => (work j).isNone), all)
      ∧ all.map (·.1) = failures.map (·.1) ++ jobs.filter (fun j => (work j).isSome) := by
  induction jobs generalizing failures with
  | nil => exact ⟨failures, rfl, by simp⟩
  | cons j jobs ih =>
    have hrest := ih fun k hk => h k (.tail _ hk)
    cases hw : work j with
    | none =>
      obtain ⟨all, hl, ha⟩ := hrest failures
      refine ⟨all, ?_, by simpa [hw] using ha⟩
      simp only [loop, hw, hl]
      simp [hw, Except.map]
    | some message =>
      obtain ⟨all, hl, ha⟩ := hrest (failures ++ [(j, message)])
      refine ⟨all, ?_, by simpa [hw] using ha⟩
      simp only [loop, hw]
      rw [if_pos (h j mem_cons_self (by simp [hw])), hl]
      simp [hw]

theorem reportJobsBatch_oneOutcome {jobs : List Job}
    (h : ∀ j ∈ jobs, !j.completed → j.inObjectStore || handler == .caught) :
    OneOutcome jobs (reportJobsBatch handler jobs) := by
  have hla : ∀ j ∈ jobs, j.launch.isSome → j.inObjectStore || handler == .caught := by
    intro j hj hw
    exact h j hj (by simp [Job.completed, hw])
  have hwa : ∀ j ∈ jobs.filter (fun j => j.launch.isNone), j.waitReport.isSome →
      j.inObjectStore || handler == .caught := by
    intro j hj hw
    exact h j (mem_of_mem_filter hj) (by simp [Job.completed, hw])
  obtain ⟨failures, hl, hf⟩ := loop_ok hla []
  obtain ⟨all, hl', ha⟩ := loop_ok hwa failures
  have hc : reportJobsBatch handler jobs = ⟨all, some (jobs.filter (·.completed))⟩ := by
    simp only [reportJobsBatch, hl, bind, Except.bind, hl', filter_filter]
    congr 3
    funext j
    exact Bool.and_comm _ _
  rw [hc]
  refine ⟨rfl, ?_⟩
  -- the failed jobs are those that were not launched, and those that were
  refine .trans ?_ (filter_append_perm (fun j => j.launch.isSome) _)
  rw [ha, hf, filter_filter, filter_filter, filter_filter]
  refine .append (.of_eq (filter_congr fun j _ => ?_)) (.of_eq (filter_congr fun j _ => ?_))
  · cases hj : j.launch <;> simp [Job.completed, hj]
  · cases hj : j.launch <;> simp [Job.completed, hj]

/-- A loop that comes to its end passed on the jobs that did not throw, and met no failure that
gets out. -/
theorem of_loop_ok {work : Job → Option String} {jobs passed : List Job} {failures all : Failures}
    (h : loop handler work jobs failures = .ok (passed, all)) :
    passed = jobs.filter (fun j => (work j).isNone)
      ∧ ∀ j ∈ jobs, (work j).isSome → j.inObjectStore || handler == .caught := by
  induction jobs generalizing passed failures with
  | nil =>
    cases h
    exact ⟨rfl, nofun⟩
  | cons j jobs ih =>
    rw [forall_mem_cons]
    cases hw : work j with
    | none =>
      simp only [loop, hw] at h
      cases hl : loop handler work jobs failures with
      | error f => rw [hl] at h; cases h
      | ok r =>
        rw [hl] at h
        cases h
        obtain ⟨hp, hs⟩ := ih hl
        exact ⟨by simp [hw, hp], nofun, hs⟩
    | some message =>
      simp only [loop, hw] at h
      split at h
      · next hin =>
        obtain ⟨hp, hs⟩ := ih h
        exact ⟨by simp [hw, hp], fun _ => hin, hs⟩
      · cases h

/-- **One batch** gives every job its outcome exactly when the exception of no job gets out. -/
theorem oneOutcome_iff {jobs : List Job} : OneOutcome jobs (reportJobsBatch handler jobs)
      ↔ ∀ j ∈ jobs, !j.completed → j.inObjectStore || handler == .caught := by
  refine ⟨fun h j hj hc => ?_, reportJobsBatch_oneOutcome⟩
  have hr := h.reported
  unfold reportJobsBatch at hr
  cases hl : loop handler (·.launch) jobs [] with
  | error f => rw [hl] at hr; cases hr
  | ok launched =>
    obtain ⟨hp, hla⟩ := of_loop_ok hl
    cases hl' : loop handler (·.waitReport) launched.1 launched.2 with
    | error f => simp [hl, hl', bind, Except.bind] at hr
    | ok ended =>
      have hwa := (of_loop_ok hl').2
      rw [hp] at hwa
      cases hjl : j.launch with
      | some message => exact hla j hj (by simp [hjl])
      | none =>
        refine hwa j (mem_filter.mpr ⟨hj, by simp [hjl]⟩) ?_
        simpa [Job.completed, hjl, Option.isSome_iff_ne_none] using hc

/-- **Report batches**: every job of an archive batch has one outcome, and of a retrieve batch
exactly when no failed job of it is gone from the object store. -/
theorem report_batches_isolated (jobs : List Job) : OneOutcome jobs (reportArchiveJobsBatch jobs)
    ∧ (OneOutcome jobs (reportRetrieveJobsBatch jobs)
      ↔ ∀ j ∈ jobs, !j.completed → j.inObjectStore) := by
  refine ⟨oneOutcome_iff.mpr fun _ _ _ => by simp, oneOutcome_iff.trans ?_⟩
  simp

/-- A retrieve job that is gone and whose report cannot be launched: the completed report of the
other one is not recorded. -/
theorem gone_job_stops_the_batch :
    reportRetrieveJobsBatch [⟨1, none, none, true⟩, ⟨2, some "no reporter", none, false⟩]
      = ⟨[(⟨2, some "no reporter", none, false⟩, "no reporter")], none⟩ := by
  decide

end TapeArchive.Scheduler.ReportBatches
