/-
  **THE ARCHIVE REQUEST AND ITS JOBS** (`ArchiveRequest.cpp`, `cta.proto`).

  The functions that the source runs inside a backend callback get the FETCHED payload
  as an argument; where their lambda also reads the in-memory payload of the handle it
  was created from, that payload is an argument of its own.
-/
import TapeArchive.Lib.Keyed

namespace TapeArchive.Objectstore

open Std Lib

/-! ## Statuses and queue types -/

inductive ArchiveJobStatus where
  | toTransferForUser | toReportToUserForTransfer | complete | toReportToUserForFailure | failed
  | abandoned | toTransferForRepack | toReportToRepackForSuccess | toReportToRepackForFailure
  deriving DecidableEq

inductive JobQueueType where
  | jobsToTransferForUser | failedJobs | jobsToReportToUser | jobsToReportToRepackForSuccess
  | jobsToReportToRepackForFailure | jobsToTransferForRepack
  deriving DecidableEq

/-- The exceptions of the request classes, with their texts. -/
inductive RequestExn where
  | jobNotQueueable (message : String)
  | noSuchJob (message : String)
  | wrongPreviousOwner (message : String)
  | noSuchObject (message : String)
  | exception (message : String)
  deriving DecidableEq

/-! ## The payload -/

structure ArchiveJob where
  copynb : UInt32
  (tapepool archivequeueaddress owner : String)
  status : ArchiveJobStatus
  (totalretries retrieswithinmount : UInt32)
  lastmountwithfailure : UInt64
  (maxtotalretries maxretrieswithinmount : UInt32)
  failurelogs : List String
  (maxreportretries totalreportretries : UInt32)
  reportfailurelogs : List String
  deriving DecidableEq

/-- `jobsDestination` pairs a copy number with the vid it went to. -/
structure ArchiveRequestRepackInfo where
  (repackRequestAddress fileBufferUrl : String)
  fseq : UInt64
  jobsDestination : List (UInt32 × String)
  deriving DecidableEq

/-- What `payload.repack_info()` reads when the field is not set. -/
def ArchiveRequestRepackInfo.default : ArchiveRequestRepackInfo := ⟨"", "", 0, []⟩

/-- The destinations of the map are appended to those already in the message. -/
def ArchiveRequestRepackInfo.addDestination (info : ArchiveRequestRepackInfo)
    (copyNumber : UInt32) (destinationVid : String) : ArchiveRequestRepackInfo :=
  let jobsDestination := (TreeMap.ofList info.jobsDestination).insert copyNumber destinationVid
  { info with jobsDestination := info.jobsDestination ++ jobsDestination.toList }

structure ArchiveRequest where
  archivefileid : UInt64
  jobs : List ArchiveJob
  (reportdecided isrepack : Bool)
  repackInfo : Option ArchiveRequestRepackInfo
  deriving DecidableEq

namespace ArchiveRequest

/-- The payload of a handle that was never fetched: protocol buffer defaults. -/
def unfetched : ArchiveRequest := ⟨0, [], false, false, none⟩

/-- `initialize` followed by `setArchiveFile`. -/
def initial (archiveFileID : UInt64) : ArchiveRequest := ⟨archiveFileID, [], false, false, none⟩

variable (r : ArchiveRequest)

variable (copyNumber : UInt32)

def addJob (tapepool initialOwner : String)
    (maxRetriesWithinMount maxTotalRetries maxReportRetries : UInt16) : ArchiveRequest :=
  { r with jobs := r.jobs ++ [
      { copynb := copyNumber, tapepool := tapepool, archivequeueaddress := "",
        owner := initialOwner, status := .toTransferForUser, totalretries := 0,
        retrieswithinmount := 0, lastmountwithfailure := 0,
        maxtotalretries := maxTotalRetries.toUInt32,
        maxretrieswithinmount := maxRetriesWithinMount.toUInt32, failurelogs := [],
        maxreportretries := maxReportRetries.toUInt32, totalreportretries := 0,
        reportfailurelogs := [] }] }

/-- The first job with a copy number: what the loops over the jobs stop at. -/
def findJob : Option ArchiveJob :=
  findKey (·.copynb) copyNumber r.jobs

def updateJob (f : ArchiveJob → ArchiveJob) :
    ArchiveRequest :=
  { r with jobs := updateKey (·.copynb) copyNumber f r.jobs }

def setJobStatus (r : ArchiveRequest) (copyNumber : UInt32) (status : ArchiveJobStatus) :
    Except RequestExn ArchiveRequest :=
  match r.findJob copyNumber with
  | some _ => .ok (r.updateJob copyNumber (fun j => { j with status := status }))
  | none => .error (.exception "In ArchiveRequest::setJobStatus(): job not found.")

/-- The check `ArchiveRequest::commit` makes before it writes the object. -/
def checkCommit : Except RequestExn Unit :=
  if r.jobs.all (fun job => r.jobs.countP (fun j => j.tapepool == job.tapepool) == 1) then .ok ()
  else .error (.exception ("In ArchiveRequest::commit(), cannot insert an ArchiveRequest "
    ++ "containing archive jobs with the same destination tapepool"))

/-! ## A transfer fails -/

inductive JobEvent where
  | transferFailed
  | reportFailed

inductive NextStep where
  | nothing | enqueueForTransferForUser | enqueueForTransferForRepack | enqueueForReportForUser
  | enqueueForReportForRepack | storeInFailedJobsContainer | delete
  deriving DecidableEq

structure EnqueueingNextStep where
  nextStep : NextStep
  nextStatus : ArchiveJobStatus
  deriving DecidableEq

/-- An unexpected current status is only logged. -/
def determineNextStep (r : ArchiveRequest) (copyNumberUpdated : UInt32) (jobEvent : JobEvent) :
    Except RequestExn (ArchiveRequest × EnqueueingNextStep) :=
  match r.findJob copyNumberUpdated with
  | none =>
      .error (.exception ("In ArchiveRequest::determineNextStep(): copynb not found : "
        ++ toString copyNumberUpdated ++ "existing ones: "
        ++ String.join (r.jobs.map (fun j => toString j.copynb ++ "  "))))
  | some _ =>
    match jobEvent with
    | .transferFailed =>
        if !r.reportdecided then
          .ok ({ r with reportdecided := true },
            { nextStep := if r.isrepack then .enqueueForReportForRepack
                else .enqueueForReportForUser,
              nextStatus := if r.isrepack then .toReportToRepackForFailure
                else .toReportToUserForFailure })
        else
          .ok (r,
            { nextStep := if r.isrepack then .enqueueForReportForRepack
                else .storeInFailedJobsContainer,
              nextStatus := if r.isrepack then .toReportToRepackForFailure else .failed })
    | .reportFailed => .ok (r, ⟨.storeInFailedJobsContainer, .failed⟩)

/-- The counters of a job after one more failed transfer in the mount `mountId`. -/
def countTransferFailure (mountId : UInt64) (failureReason : String) (j : ArchiveJob) :
    ArchiveJob :=
  let j := if j.lastmountwithfailure == mountId then
      { j with retrieswithinmount := j.retrieswithinmount + 1 }
    else
      { j with retrieswithinmount := 1, lastmountwithfailure := mountId }
  { j with totalretries := j.totalretries + 1, failurelogs := j.failurelogs ++ [failureReason] }

def addTransferFailure (r : ArchiveRequest) (copyNumber : UInt32) (mountId : UInt64)
    (failureReason : String) : Except RequestExn (ArchiveRequest × EnqueueingNextStep) :=
  match r.findJob copyNumber with
  | none => .error (.noSuchJob "In ArchiveRequest::addTransferFailure(): could not find job")
  | some job =>
    let j := countTransferFailure mountId failureReason job
    let r := r.updateJob copyNumber (countTransferFailure mountId failureReason)
    if j.totalretries ≥ j.maxtotalretries then
      r.determineNextStep copyNumber .transferFailed
    else
      -- Another try: in this mount if the job has some left, after garbage collection otherwise.
      .ok (r,
        { nextStatus := if r.isrepack then .toTransferForRepack else .toTransferForUser,
          nextStep := if j.retrieswithinmount ≥ j.maxretrieswithinmount then .nothing
            else if r.isrepack then .enqueueForTransferForRepack
            else .enqueueForTransferForUser })

/-! ## A transfer succeeds -/

/-- Whether a job other than that of `copyNumber` is still to be transferred. -/
def otherJobsToTransfer : Bool :=
  r.jobs.any (fun j => j.copynb != copyNumber && j.status == .toTransferForUser)

/-- The lambda on the fetched `payload`; `m_payload` is that of the handle. -/
def asyncUpdateTransferSuccessful (m_payload payload : ArchiveRequest)
    (destinationVid : String) (copyNumber : UInt32) :
    Except RequestExn (ArchiveRequest × Option Bool) :=
  match payload.findJob copyNumber with
  | none =>
      .error (.exception
        "In ArchiveRequest::asyncUpdateJobSuccessful()::lambda(): copyNb not found")
  | some _ =>
    if !payload.isrepack then
      if payload.otherJobsToTransfer copyNumber || m_payload.reportdecided then
        .ok (payload.updateJob copyNumber (fun j => { j with status := .complete, owner := "" }),
          some false)
      else
        .ok (payload.updateJob copyNumber (fun j =>
          { j with status := .toReportToUserForTransfer }), some true)
    else
      let repackInfo := payload.repackInfo.getD ArchiveRequestRepackInfo.default
      .ok ({ payload.updateJob copyNumber (fun j =>
              { j with status := .toReportToRepackForSuccess }) with
            repackInfo := some (repackInfo.addDestination copyNumber destinationVid) }, none)

/-! ## The owner of a job -/

/-- The lambda; a job that already has the owner is accepted. -/
def asyncUpdateJobOwner (payload : ArchiveRequest) (copyNumber : UInt32)
    (owner previousOwner : String) (newStatus : Option ArchiveJobStatus) :
    Except RequestExn ArchiveRequest :=
  match payload.findJob copyNumber with
  | none => .error (.wrongPreviousOwner
      "In ArchiveRequest::asyncUpdateJobOwner()::lambda(): copyNb not found.")
  | some j =>
    if j.owner ≠ owner ∧ j.owner ≠ previousOwner then
      .error (.wrongPreviousOwner
        "In ArchiveRequest::asyncUpdateJobOwner()::lambda(): Job not owned.")
    else
      .ok (payload.updateJob copyNumber (fun j =>
        { j with owner := owner, status := newStatus.getD j.status }))

def statusOf : Option ArchiveJobStatus :=
  (r.findJob copyNumber).map (·.status)

/-- The statuses of all the jobs, as the update found them. -/
def getJobsStatusMap (payload : ArchiveRequest) : TreeMap UInt32 ArchiveJobStatus :=
  payload.jobs.foldl (fun map j => map.insert j.copynb j.status) ∅

/-! ## The update of one job, as the loops over the jobs see it -/

@[simp] theorem updateJob_isrepack (c : UInt32)
    (f : ArchiveJob → ArchiveJob) : (r.updateJob c f).isrepack = r.isrepack := rfl

@[simp] theorem updateJob_reportdecided (c : UInt32)
    (f : ArchiveJob → ArchiveJob) : (r.updateJob c f).reportdecided = r.reportdecided := rfl

variable {r : ArchiveRequest} {c : UInt32} {f : ArchiveJob → ArchiveJob}

theorem findJob_updateJob (hf : ∀ j, (f j).copynb = j.copynb) (c' : UInt32) :
    (r.updateJob c f).findJob c' = if c' = c then (r.findJob c).map f else r.findJob c' := by
  by_cases h : c' = c
  · rw [if_pos h, h]
    exact findKey_updateKey_same hf r.jobs
  · rw [if_neg h]
    exact findKey_updateKey_of_ne hf r.jobs h

theorem updateJob_copynbs (hf : ∀ j, (f j).copynb = j.copynb) :
    (r.updateJob c f).jobs.map (·.copynb) = r.jobs.map (·.copynb) :=
  updateKey_keys hf r.jobs

variable {owner previous : String} {newStatus : Option ArchiveJobStatus} {r r' : ArchiveRequest}

theorem asyncUpdateJobOwner_ok (h : r.asyncUpdateJobOwner c owner previous newStatus = .ok r') :
    r'.jobs.map (·.copynb) = r.jobs.map (·.copynb) ∧ r'.archivefileid = r.archivefileid
      ∧ ∀ c', r'.statusOf c' = if c' = c then (r.statusOf c).map newStatus.getD
        else r.statusOf c' := by
  unfold asyncUpdateJobOwner at h
  split at h
  · cases h
  split at h
  · cases h
  · rw [← Except.ok.inj h]
    refine ⟨updateJob_copynbs (fun _ => by rfl), rfl, fun c' => ?_⟩
    unfold statusOf
    rw [findJob_updateJob (fun _ => by rfl)]
    split
    · simp only [Option.map_map]
      rfl
    · rfl

theorem mem_of_asyncUpdateJobOwner (h : r.asyncUpdateJobOwner c owner previous newStatus = .ok r') :
    c ∈ r.jobs.map (·.copynb) := by
  unfold asyncUpdateJobOwner at h
  split at h
  · cases h
  · next j hj => exact List.mem_map.mpr ⟨j, mem_of_findKey hj, key_of_findKey hj⟩

theorem getElem?_getJobsStatusMap (hr : (r.jobs.map (·.copynb)).Nodup) (c : UInt32) :
    r.getJobsStatusMap[c]? = r.statusOf c := by
  unfold getJobsStatusMap statusOf findJob
  rw [getElem?_foldl_insert (fun j : ArchiveJob => j.status) hr]
  simp

@[simp] theorem countTransferFailure_copynb (mountId : UInt64) (failureReason : String)
    (j : ArchiveJob) : (countTransferFailure mountId failureReason j).copynb = j.copynb := by
  unfold countTransferFailure
  split <;> rfl

end ArchiveRequest

end TapeArchive.Objectstore
