/-
  **WHICH COPY A FAILURE IS CHARGED TO** (`addReportFailure` of both requests,
  `RetrieveRequest::addTransferFailure`). The loop returns in its FIRST turn:

      for j in jobs:
        if j.copynb = copyNumber: count the failure in j
        return a decision from the counters of j
-/
import TapeArchive.Objectstore.RetrieveRequest

namespace TapeArchive.Objectstore

open Lib

/-! ## The loop, and what it should do -/

section Charging

variable {J N : Type} (copynb : J → UInt32) (count : J → J)
  (decide : List J → J → Except RequestExn N) (message : String)

/-- The loop of the three functions, on the jobs of the payload in memory. -/
def firstTurn (jobs : List J) (copyNumber : UInt32) : List J × Except RequestExn N :=
  match jobs with
  | [] => ([], .error (.noSuchJob message))
  | first :: rest =>
      let j := if copynb first = copyNumber then count first else first
      (j :: rest, decide (j :: rest) j)

/-- What is meant: count in the job of the copy and decide from it, or throw `NoSuchJob`. -/
def charge (jobs : List J) (copyNumber : UInt32) : List J × Except RequestExn N :=
  match findKey copynb copyNumber jobs with
  | none => (jobs, .error (.noSuchJob message))
  | some j =>
      (updateKey copynb copyNumber count jobs,
        decide (updateKey copynb copyNumber count jobs) (count j))

def FirstIsCopy (jobs : List J) (copyNumber : UInt32) : Prop :=
  ∀ j ∈ jobs.head?, copynb j = copyNumber

instance (jobs : List J) (copyNumber : UInt32) :
    Decidable (FirstIsCopy copynb jobs copyNumber) :=
  inferInstanceAs (Decidable (∀ j ∈ jobs.head?, _))

variable {copynb count decide message} {jobs : List J} {copyNumber : UInt32}

theorem updateKey_ne {j : J}
    (hco : ∀ j, count j ≠ j) (hj : findKey copynb copyNumber jobs = some j) :
    updateKey copynb copyNumber count jobs ≠ jobs := by
  induction jobs with
  | nil => cases hj
  | cons first rest ih =>
    rw [findKey_cons] at hj
    unfold updateKey
    by_cases hc : copynb first = copyNumber
    · simp only [hc, beq_self_eq_true, if_true]
      intro heq
      exact hco first (List.cons.inj heq).1
    · rw [if_neg hc] at hj
      simp only [beq_eq_false_iff_ne.mpr hc]
      intro heq
      exact ih hj (List.cons.inj heq).2

/-- **The loop does what is meant exactly when its first turn finds the copy.** -/
theorem firstTurn_eq_charge_iff (hco : ∀ j, count j ≠ j)
    (hd : ∀ jobs j, decide jobs j ≠ .error (.noSuchJob message)) :
    firstTurn copynb count decide message jobs copyNumber
        = charge copynb count decide message jobs copyNumber
      ↔ FirstIsCopy copynb jobs copyNumber := by
  cases jobs with
  | nil => exact iff_of_true rfl (fun _ h => absurd h (Option.not_mem_none _))
  | cons first rest =>
    have hf : FirstIsCopy copynb (first :: rest) copyNumber ↔ copynb first = copyNumber := by
      simp [FirstIsCopy]
    rw [hf]
    constructor
    · intro heq
      by_contra hc
      unfold firstTurn charge at heq
      simp only [if_neg hc] at heq
      split at heq
      next =>
        -- no such job, and yet a decision
        exact hd _ _ (Prod.mk.inj heq).2
      next j hj =>
        -- the job of the copy stays as it was
        exact updateKey_ne hco hj (Prod.mk.inj heq).1.symm
    · intro hc
      unfold firstTurn charge
      have hu : updateKey copynb copyNumber count (first :: rest) = count first :: rest := by
        unfold updateKey
        simp [hc]
      rw [findKey_cons, if_pos hc, hu]
      simp only [if_pos hc]

end Charging

/-! ## The failed reports -/

namespace ArchiveRequest

/-- The counters of a job after one more failed report. -/
def countReportFailure (failureReason : String) (j : ArchiveJob) : ArchiveJob :=
  { j with totalreportretries := j.totalreportretries + 1,
           reportfailurelogs := j.reportfailurelogs ++ [failureReason] }

def afterReportFailure (j : ArchiveJob) : EnqueueingNextStep :=
  if j.totalreportretries ≥ j.maxreportretries then ⟨.storeInFailedJobsContainer, .failed⟩
  else ⟨.enqueueForReportForUser, j.status⟩

def addReportFailure (r : ArchiveRequest) (copyNumber : UInt32) (failureReason : String) :
    ArchiveRequest × Except RequestExn EnqueueingNextStep :=
  let done := firstTurn (·.copynb) (countReportFailure failureReason)
    (fun _ j => .ok (afterReportFailure j))
    "In ArchiveRequest::addJobFailure(): could not find job" r.jobs copyNumber
  ({ r with jobs := done.1 }, done.2)

end ArchiveRequest

namespace RetrieveRequest

/-- The counters of a job after one more failed report. -/
def countReportFailure (failureReason : String) (j : RetrieveJob) : RetrieveJob :=
  { j with totalreportretries := j.totalreportretries + 1,
           reportfailurelogs := j.reportfailurelogs ++ [failureReason] }

def afterReportFailure (j : RetrieveJob) : EnqueueingNextStep :=
  if j.totalreportretries ≥ j.maxreportretries then ⟨.storeInFailedJobsContainer, .failed⟩
  else ⟨.enqueueForReportForUser, j.status⟩

def addReportFailure (r : RetrieveRequest) (copyNumber : UInt32) (failureReason : String) :
    RetrieveRequest × Except RequestExn EnqueueingNextStep :=
  let done := firstTurn (·.copynb) (countReportFailure failureReason)
    (fun _ j => .ok (afterReportFailure j))
    "In RetrieveRequest::addJobFailure(): could not find job" r.jobs copyNumber
  ({ r with jobs := done.1 }, done.2)

/-! ## The failed transfers -/

/-- With the payload as it is in memory when the call returns or throws. -/
def addTransferFailureInMemory (r : RetrieveRequest) (copyNumber : UInt32) (mountId : UInt64)
    (failureReason : String) : RetrieveRequest × Except RequestExn EnqueueingNextStep :=
  let done := firstTurn (·.copynb) (countTransferFailure mountId failureReason)
    (fun jobs j => { r with jobs := jobs }.decideAt j copyNumber)
    "In RetrieveRequest::addJobFailure(): could not find job" r.jobs copyNumber
  ({ r with jobs := done.1 }, done.2)

/-- The decision of a turn never is `NoSuchJob`. -/
theorem decideAt_ne_noSuchJob (r : RetrieveRequest) (j : RetrieveJob) (copyNumber : UInt32)
    (message : String) : r.decideAt j copyNumber ≠ .error (.noSuchJob message) := by
  have hnext : r.determineNextStep copyNumber .transferFailed ≠ .error (.noSuchJob message) := by
    unfold determineNextStep
    split <;> nofun
  unfold decideAt
  split
  · exact hnext
  split
  · nofun
  · exact hnext

theorem countTransferFailure_ne (mountId : UInt64) (failureReason : String) (j : RetrieveJob) :
    countTransferFailure mountId failureReason j ≠ j := by
  intro heq
  have hl := congrArg (·.failurelogs.length) heq
  simp at hl

end RetrieveRequest

/-- A longer log is another job. -/
theorem ArchiveRequest.countReportFailure_ne (failureReason : String) (j : ArchiveJob) :
    countReportFailure failureReason j ≠ j := by
  intro heq
  have hl := congrArg (·.reportfailurelogs.length) heq
  simp [countReportFailure] at hl

theorem RetrieveRequest.countReportFailure_ne (failureReason : String) (j : RetrieveJob) :
    countReportFailure failureReason j ≠ j := by
  intro heq
  have hl := congrArg (·.reportfailurelogs.length) heq
  simp [countReportFailure] at hl

/-- Two updates of the jobs are the same as two updates of the request. -/
theorem with_jobs_eq_iff {R J N : Type} {f : List J → R} (hf : f.Injective)
    {a b : List J × Except RequestExn N} : (f a.1, a.2) = (f b.1, b.2) ↔ a = b := by
  constructor
  · intro h
    exact Prod.ext (hf (Prod.mk.inj h).1) (Prod.mk.inj h).2
  · intro h
    rw [h]

/-- **Failures and their copies.** A failure is counted in the job of its copy, or refused with
`NoSuchJob`, exactly when the first job of the request, if any, is that of the copy. -/
theorem failures_charged_iff (copyNumber : UInt32) (mountId : UInt64) (failureReason : String) :
    (∀ r : ArchiveRequest, r.addReportFailure copyNumber failureReason
        = (let done := charge (·.copynb) (ArchiveRequest.countReportFailure failureReason)
            (fun _ j => .ok (ArchiveRequest.afterReportFailure j))
            "In ArchiveRequest::addJobFailure(): could not find job" r.jobs copyNumber
          ({ r with jobs := done.1 }, done.2))
      ↔ FirstIsCopy (·.copynb) r.jobs copyNumber)
    ∧ (∀ r : RetrieveRequest, r.addReportFailure copyNumber failureReason
        = (let done := charge (·.copynb) (RetrieveRequest.countReportFailure failureReason)
            (fun _ j => .ok (RetrieveRequest.afterReportFailure j))
            "In RetrieveRequest::addJobFailure(): could not find job" r.jobs copyNumber
          ({ r with jobs := done.1 }, done.2))
      ↔ FirstIsCopy (·.copynb) r.jobs copyNumber)
    ∧ (∀ r : RetrieveRequest, r.addTransferFailureInMemory copyNumber mountId failureReason
        = (let done := charge (·.copynb)
            (RetrieveRequest.countTransferFailure mountId failureReason)
            (fun jobs j => { r with jobs := jobs }.decideAt j copyNumber)
            "In RetrieveRequest::addJobFailure(): could not find job" r.jobs copyNumber
          ({ r with jobs := done.1 }, done.2))
      ↔ FirstIsCopy (·.copynb) r.jobs copyNumber) := by
  refine ⟨?_, ?_, ?_⟩
  · intro r
    refine (with_jobs_eq_iff (f := fun jobs => { r with jobs := jobs }) ?_).trans
      (firstTurn_eq_charge_iff (ArchiveRequest.countReportFailure_ne failureReason) ?_)
    · exact fun a b h => congrArg (·.jobs) h
    · intro jobs j h
      cases h
  · intro r
    refine (with_jobs_eq_iff (f := fun jobs => { r with jobs := jobs }) ?_).trans
      (firstTurn_eq_charge_iff (RetrieveRequest.countReportFailure_ne failureReason) ?_)
    · exact fun a b h => congrArg (·.jobs) h
    · intro jobs j h
      cases h
  · intro r
    refine (with_jobs_eq_iff (f := fun jobs => { r with jobs := jobs }) ?_).trans
      (firstTurn_eq_charge_iff (RetrieveRequest.countTransferFailure_ne mountId failureReason)
        (fun jobs j => RetrieveRequest.decideAt_ne_noSuchJob _ j copyNumber _))
    exact fun a b h => congrArg (·.jobs) h

/-- An archive request with two copies; their reports may fail twice. -/
def twoCopies : ArchiveRequest :=
  ((ArchiveRequest.initial 12).addJob 1 "pool 1" "agent" 2 2 2).addJob 2 "pool 2" "agent" 2 2 2

/-- No counter changes, the first copy decides, and the missing copy does not throw. -/
theorem second_copy_not_charged : (twoCopies.addReportFailure 2 "no report").1 = twoCopies
      ∧ ¬ FirstIsCopy (·.copynb) twoCopies.jobs 2
      ∧ (twoCopies.addReportFailure 7 "no report").2
          = .ok ⟨.enqueueForReportForUser, .toTransferForUser⟩ := by
  decide +kernel

end TapeArchive.Objectstore
