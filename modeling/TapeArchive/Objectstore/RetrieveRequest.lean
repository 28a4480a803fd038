/-
  **THE RETRIEVE REQUEST AND ITS JOBS** (`RetrieveRequest.cpp`, `cta.proto`).

  The request as a whole has ONE owner, in the header of its object.
  `addTransferFailure` loops over the jobs and returns in its FIRST turn, also
  when the first job is not the one that failed.
-/
import TapeArchive.Common.DataStructures
import TapeArchive.Lib.Machine
import TapeArchive.Objectstore.ArchiveRequest

namespace TapeArchive.Objectstore

open Std (TreeSet)
open Lib Common

/-! ## The payload -/

inductive RetrieveJobStatus where
  | toTransfer | toReportToUserForFailure | failed | toReportToRepackForSuccess
  | toReportToRepackForFailure
  deriving DecidableEq

/-- The queue of a status, as `RetrieveRequest::getQueueType(copyNb)` reads it off a job. -/
def RetrieveJobStatus.queueType : RetrieveJobStatus → JobQueueType
  | .toTransfer => .jobsToTransferForUser
  | .toReportToRepackForSuccess => .jobsToReportToRepackForSuccess
  | .toReportToUserForFailure => .jobsToReportToUser
  | .failed => .failedJobs
  | .toReportToRepackForFailure => .jobsToReportToRepackForFailure

structure RetrieveJob where
  copynb : UInt32
  status : RetrieveJobStatus
  (totalretries retrieswithinmount : UInt32)
  lastmountwithfailure : UInt64
  (maxtotalretries maxretrieswithinmount : UInt32)
  failurelogs : List String
  (maxreportretries totalreportretries : UInt32)
  reportfailurelogs : List String

structure RetrieveRequestRepackInfo where
  repackRequestAddress : String
  forceDisabledTape : Bool

/-- `serializers::RetrieveRequest`, with the owner of the object header. -/
structure RetrieveRequest where
  owner : String
  archivefile : ArchiveFile
  jobs : List RetrieveJob
  (isrepack isverifyonly : Bool)
  repackInfo : RetrieveRequestRepackInfo

namespace RetrieveRequest

variable (r : RetrieveRequest)

/-- The first job with a copy number: what the loops over the jobs stop at. -/
def findJob (copyNumber : UInt32) : Option RetrieveJob :=
  findKey (·.copynb) copyNumber r.jobs

def updateJob (copyNumber : UInt32) (f : RetrieveJob → RetrieveJob) :
    RetrieveRequest :=
  { r with jobs := updateKey (·.copynb) copyNumber f r.jobs }

def getJobStatus (r : RetrieveRequest) (copyNumber : UInt32) :
    Except RequestExn RetrieveJobStatus :=
  match r.findJob copyNumber with
  | some j => .ok j.status
  | none => .error (.exception ("In RetrieveRequest::getJobStatus(): could not find job for copynb="
      ++ toString copyNumber))

def setJobStatus (r : RetrieveRequest) (copyNumber : UInt32) (status : RetrieveJobStatus) :
    Except RequestExn RetrieveRequest :=
  match r.findJob copyNumber with
  | some _ => .ok (r.updateJob copyNumber (fun j => { j with status := status }))
  | none => .error (.exception "In RetrieveRequest::setJobStatus(): job not found.")

def getQueueType (copyNb : UInt32) : Except RequestExn JobQueueType :=
  match r.findJob copyNb with
  | some j => .ok j.status.queueType
  | none => .error (.exception "In RetrieveRequest::getJobQueueType(): Copy number not found.")

/-- The lambda; of the stored object only the owner changes. -/
def asyncUpdateJobOwner (r : RetrieveRequest) (copyNumber : UInt32)
    (owner previousOwner : String) : Except RequestExn RetrieveRequest :=
  if r.owner ≠ previousOwner then
    .error (.wrongPreviousOwner
      "In RetrieveRequest::asyncUpdateJobOwner()::lambda(): Request not owned.")
  else match r.findJob copyNumber with
    | some _ => .ok { r with owner := owner }
    | none => .error (.wrongPreviousOwner
        "In RetrieveRequest::asyncUpdateJobOwner()::lambda(): copyNb not found.")

/-! ## A transfer fails -/

inductive NextStep where
  | nothing | enqueueForTransferForUser | enqueueForReportForUser | enqueueForReportForRepack
  | storeInFailedJobsContainer | delete
  deriving DecidableEq

structure EnqueueingNextStep where
  nextStep : NextStep
  nextStatus : RetrieveJobStatus

/-- What `determineNextStep` decides for `JobEvent::TransferFailed`. -/
def reportFailure : EnqueueingNextStep :=
  if r.isrepack then ⟨.enqueueForReportForRepack, .toReportToRepackForFailure⟩
  else ⟨.enqueueForReportForUser, .toReportToUserForFailure⟩

/-- For either event; an unexpected current status is only logged. -/
def determineNextStep (copyNumberUpdated : UInt32)
    (jobEvent : ArchiveRequest.JobEvent) : Except RequestExn EnqueueingNextStep :=
  match r.findJob copyNumberUpdated with
  | none =>
      .error (.exception ("In RetrieveRequest::updateJobStatus(): copynb not found : "
        ++ toString copyNumberUpdated ++ ", exiting ones: "
        ++ String.join (r.jobs.map (fun j => toString j.copynb ++ "  "))))
  | some _ =>
    match jobEvent with
    | .transferFailed => .ok r.reportFailure
    | .reportFailed => .ok ⟨.storeInFailedJobsContainer, .failed⟩

variable (mountId : UInt64)

variable (failureReason : String)

variable (j : RetrieveJob)

/-- The counters of a job after one more failed transfer in the mount `mountId`. -/
def countTransferFailure :
    RetrieveJob :=
  let j := if j.lastmountwithfailure == mountId then
      { j with retrieswithinmount := j.retrieswithinmount + 1 }
    else
      { j with retrieswithinmount := 1, lastmountwithfailure := mountId }
  { j with totalretries := j.totalretries + 1, failurelogs := j.failurelogs ++ [failureReason] }

/-- The decision of the loop's body in `RetrieveRequest::addTransferFailure`, at the job `j`. -/
def decideAt (copyNumber : UInt32) :
    Except RequestExn EnqueueingNextStep :=
  if r.isverifyonly then
    -- verifications are not tried again
    r.determineNextStep copyNumber .transferFailed
  else if j.totalretries < j.maxtotalretries then
    .ok
      { nextStatus := .toTransfer,
        nextStep := if j.retrieswithinmount < j.maxretrieswithinmount then
            .enqueueForTransferForUser
          else .nothing }
  else
    r.determineNextStep copyNumber .transferFailed

def addTransferFailure (copyNumber : UInt32) (mountId : UInt64)
    (failureReason : String) : Except RequestExn (RetrieveRequest × EnqueueingNextStep) :=
  match r.jobs with
  | [] => .error (.noSuchJob "In RetrieveRequest::addJobFailure(): could not find job")
  | first :: rest => do
    -- every branch of the loop's body returns: the other jobs are never looked at
    let j := if first.copynb = copyNumber then countTransferFailure mountId failureReason first
      else first
    let r := { r with jobs := j :: rest }
    return (r, ← r.decideAt j copyNumber)

/-! ## What the updates of a job leave alone -/

@[simp] theorem countTransferFailure_copynb :
    (countTransferFailure mountId failureReason j).copynb = j.copynb := by
  unfold countTransferFailure
  split <;> rfl

@[simp] theorem countTransferFailure_totalretries :
    (countTransferFailure mountId failureReason j).totalretries = j.totalretries + 1 := by
  unfold countTransferFailure
  split <;> rfl

@[simp] theorem countTransferFailure_maxtotalretries :
    (countTransferFailure mountId failureReason j).maxtotalretries = j.maxtotalretries := by
  unfold countTransferFailure
  split <;> rfl

@[simp] theorem countTransferFailure_failurelogs :
    (countTransferFailure mountId failureReason j).failurelogs
      = j.failurelogs ++ [failureReason] := by
  unfold countTransferFailure
  split <;> rfl

variable {r r' : RetrieveRequest} {c : UInt32}

theorem setJobStatus_ok {status : RetrieveJobStatus} (h : r.setJobStatus c status = .ok r') :
    ∃ j, r.findJob c = some j ∧ r'.findJob c = some { j with status := status }
      ∧ r'.owner = r.owner := by
  unfold setJobStatus at h
  split at h
  · next j hj =>
    have hr' := Except.ok.inj h
    subst hr'
    refine ⟨j, hj, ?_, rfl⟩
    show findKey _ c (updateKey _ c _ r.jobs) = _
    rw [findKey_updateKey_same (fun _ => by rfl)]
    show (r.findJob c).map _ = _
    rw [hj]
    rfl
  · cases h

theorem asyncUpdateJobOwner_ok {owner previous : String}
    (h : r.asyncUpdateJobOwner c owner previous = .ok r') : r' = { r with owner := owner } := by
  unfold asyncUpdateJobOwner at h
  split at h
  · cases h
  split at h
  · exact (Except.ok.inj h).symm
  · cases h

/-! ## What a failed transfer decides -/

/-- The failed copy is the first job, whose counters the loop reaches. -/
def FirstJobIs (r : RetrieveRequest) (copyNumber : UInt32) : Prop :=
  r.jobs.head?.map (·.copynb) = some copyNumber

instance (r : RetrieveRequest) (copyNumber : UInt32) : Decidable (r.FirstJobIs copyNumber) :=
  inferInstanceAs (Decidable (_ = _))

variable {r : RetrieveRequest}

theorem FirstJobIs.findJob (h : r.FirstJobIs c) : ∃ j, r.findJob c = some j := by
  unfold FirstJobIs at h
  unfold RetrieveRequest.findJob
  cases hj : r.jobs with
  | nil => simp [hj] at h
  | cons first rest =>
    have hc : first.copynb = c := by simpa [hj] using h
    exact ⟨first, by simp [hc]⟩

/-- A verification is not tried again, and a retrieve only while retries are left. -/
def Exhausts (r : RetrieveRequest) (j : RetrieveJob) : Prop :=
  r.isverifyonly = true ∨ j.maxtotalretries ≤ j.totalretries + 1

instance (r : RetrieveRequest) (j : RetrieveJob) : Decidable (r.Exhausts j) :=
  inferInstanceAs (Decidable (_ ∨ _))

/-- The decisions there are: `storeInFailedJobsContainer` and `delete` are none of them. -/
inductive Coherent (r : RetrieveRequest) : EnqueueingNextStep → Prop
  | leave : Coherent r ⟨.nothing, .toTransfer⟩
  | retry : Coherent r ⟨.enqueueForTransferForUser, .toTransfer⟩
  | reportToUser : r.isrepack = false →
      Coherent r ⟨.enqueueForReportForUser, .toReportToUserForFailure⟩
  | reportToRepack : r.isrepack = true →
      Coherent r ⟨.enqueueForReportForRepack, .toReportToRepackForFailure⟩

variable {next : EnqueueingNextStep}

theorem determineNextStep_ok (h : r.determineNextStep c .transferFailed = .ok next) :
    r.Coherent next ∧ (r.isrepack = true ↔ next.nextStep = .enqueueForReportForRepack) := by
  unfold determineNextStep at h
  split at h
  · cases h
  rw [← Except.ok.inj h]
  unfold reportFailure
  cases hrep : r.isrepack with
  | true => exact ⟨.reportToRepack hrep, by simp⟩
  | false => exact ⟨.reportToUser hrep, by simp⟩

theorem decideAt_ok {j : RetrieveJob} (h : r.decideAt j c = .ok next) : r.Coherent next
      ∧ (r.isrepack = true ∧ (r.isverifyonly = true ∨ j.maxtotalretries ≤ j.totalretries)
        ↔ next.nextStep = .enqueueForReportForRepack) := by
  unfold decideAt at h
  split at h
  · next hv =>
    obtain ⟨hc, hi⟩ := determineNextStep_ok h
    exact ⟨hc, by rw [← hi]; simp [hv]⟩
  · next hv =>
    split at h
    · next hlt =>
      rw [← Except.ok.inj h]
      split
      · exact ⟨.retry, by simp [hv, hlt]⟩
      · exact ⟨.leave, by simp [hv, hlt]⟩
    · next hge =>
      obtain ⟨hc, hi⟩ := determineNextStep_ok h
      exact ⟨hc, by rw [← hi]; simp [UInt32.not_lt.mp hge]⟩

/-- What `addTransferFailure` does to the request and what it decides. -/
structure FailureAdded (r : RetrieveRequest) (c : UInt32) (mountId : UInt64) (reason : String)
    (r' : RetrieveRequest) (next : EnqueueingNextStep) : Prop where
  owner : r'.owner = r.owner
  coherent : r.Coherent next
  /-- The copy that failed is counted when it is the first job. -/
  counted : ∀ j, r.FirstJobIs c → r.findJob c = some j →
    r'.findJob c = some (countTransferFailure mountId reason j)
      ∧ (r.isrepack = true ∧ r.Exhausts j ↔ next.nextStep = .enqueueForReportForRepack)
  /-- Otherwise its job is left as it was. -/
  missed : ¬ r.FirstJobIs c → r'.findJob c = r.findJob c

theorem addTransferFailure_ok {mountId : UInt64} {reason : String}
    (h : r.addTransferFailure c mountId reason = .ok (r', next)) :
    FailureAdded r c mountId reason r' next := by
  unfold addTransferFailure at h
  split at h
  · cases h
  next first rest hjo =>
  obtain ⟨next', hd, h⟩ := bind_eq_ok.mp h
  obtain ⟨hr', hn⟩ := Prod.mk.inj (Except.ok.inj h)
  subst hn
  obtain ⟨hco, hi⟩ := decideAt_ok hd
  have hrep : r'.isrepack = r.isrepack := by rw [← hr']
  rw [hr'] at hco hi
  constructor
  · rw [← hr']
  · cases hco with
    | leave => exact .leave
    | retry => exact .retry
    | reportToUser hr => exact .reportToUser (hrep ▸ hr)
    | reportToRepack hr => exact .reportToRepack (hrep ▸ hr)
  · intro j hf hj
    have hc : first.copynb = c := by simpa [FirstJobIs, hjo] using hf
    have hjf : first = j := by simpa [findJob, hjo, hc] using hj
    subst hjf
    rw [if_pos hc] at hi hr'
    constructor
    · rw [← hr']
      simp [findJob, hc]
    · rw [← hi, ← hr']
      simp [Exhausts]
  · intro hf
    have hc : first.copynb ≠ c := by simpa [FirstJobIs, hjo] using hf
    rw [← hr', if_neg hc]
    simp [findJob, hjo]

/-! ## The garbage collection. A request that the presumed owner does not own needs none:
the function says so in the log and goes on, for want of a `return`. -/

/-- The request, and the queues by container and type, with the requests they reference. -/
structure Stored where
  request : RetrieveRequest
  activecopynb : UInt32
  queues : String × JobQueueType → Option (String × List String)

/-- What a collection is given and meets; `none` for `NoTapeAvailableForRetrieve`. -/
structure Collection where
  (address presumedOwner : String)
  selectBestRetrieveQueue : List String → Except RequestExn (Option String)
  /-- `agentReference.nextId`, for a queue that is made. -/
  newQueue : String × JobQueueType → String
  failureLog : String

def noTapeFile (copynb : UInt32) : RequestExn := .exception
  ("In RetrieveRequest::garbageCollect(): could not find tapefile for copynb " ++ toString copynb)

def tapeFileOf (r : RetrieveRequest) (copynb : UInt32) : Option TapeFile :=
  r.archivefile.tapeFiles.find? (fun tf => tf.copyNb.toUInt32 == copynb)

/-- The loop over the jobs: the candidate vids, or the queue for the reports to a repack. -/
def scanJobs (r : RetrieveRequest) (candidateVids : List String) :
    List RetrieveJob → Except RequestExn (List String ⊕ String × JobQueueType)
  | [] => .ok (.inl candidateVids)
  | j :: jobs => match j.status, r.tapeFileOf j.copynb with
    | .toTransfer, some tf => scanJobs r (candidateVids ++ [tf.vid]) jobs
    | .toTransfer, none => .error (noTapeFile j.copynb)
    | .toReportToRepackForSuccess, some tf | .toReportToRepackForFailure, some tf => do
        -- `Sorter::insertRetrieveRequest` reads the first job with the copy number
        let status ← r.getJobStatus j.copynb
        let repack := status ∈ [.toReportToRepackForSuccess, .toReportToRepackForFailure]
        .ok (.inr (if repack then r.repackInfo.repackRequestAddress else tf.vid, status.queueType))
    | _, _ => scanJobs r candidateVids jobs

/-- `RetrieveRequest::getQueueType()`. -/
def queueTypeOf (jobs : List RetrieveJob) : JobQueueType :=
  match jobs.find? (fun j => j.status ∉ [.toReportToUserForFailure, .failed]) with
  | some j => j.status.queueType
  | none => if jobs.any (·.status = .toReportToUserForFailure) then .jobsToReportToUser
    else .failedJobs

/-- Where a request is taken: the queue, and what becomes of the jobs and the active copy. -/
structure Requeue where
  queue : String × JobQueueType
  /-- `addJobsIfNecessaryAndCommit`, not the sorter's `addJobsAndCommit`. -/
  ifNecessary : Bool
  jobs : List RetrieveJob
  activecopynb : UInt32

def failJob (log : String) (j : RetrieveJob) : RetrieveJob :=
  if j.status = .toTransfer then
    { j with status := .toReportToUserForFailure, failurelogs := j.failurelogs ++ [log] }
  else j

def queueForFailure (c : Collection) (s : Stored) : Except RequestExn Requeue :=
  let jobs := s.request.jobs.map (failJob c.failureLog)
  match s.request.tapeFileOf s.activecopynb with
  | none => .error (noTapeFile s.activecopynb)
  | some tf => .ok ⟨(tf.vid, queueTypeOf jobs), true, jobs, s.activecopynb⟩

variable (s : Stored)

def queueForTransfer (bestVid : String) : Except RequestExn Requeue :=
  match s.request.archivefile.tapeFiles.find? (·.vid == bestVid) with
  | none => .error (.exception
      ("In RetrieveRequest::garbageCollect(): could not find tapefile for vid " ++ bestVid))
  | some tf => match s.request.findJob tf.copyNb.toUInt32 with
    | none => .error (.exception
        ("In RetrieveRequest::garbageCollect(): could not find job for copynb "
          ++ toString tf.copyNb))
    | some j => .ok ⟨(bestVid, .jobsToTransferForUser), true, s.request.jobs, j.copynb⟩

/-- What a collection decides. The comparison of the owners is only logged. -/
def decideRequeue (c : Collection) (s : Stored) : Except RequestExn Requeue := do
  match ← scanJobs s.request [] s.request.jobs with
  -- the sorter takes the request from its own owner, whoever that is
  | .inr queue => pure ⟨queue, false, s.request.jobs, s.activecopynb⟩
  | .inl [] => queueForFailure c s
  | .inl candidateVids => match ← c.selectBestRetrieveQueue candidateVids with
    | some bestVid => queueForTransfer s bestVid
    | none => queueForFailure c s

variable (address : String)

/-- The queue is made if it is missing, references the request and becomes its owner. -/
def Stored.requeue (newQueue : String × JobQueueType → String) (q : Requeue) : Stored :=
  let queue := (s.queues q.queue).getD (newQueue q.queue, [])
  { request := { s.request with owner := queue.1, jobs := q.jobs }
    activecopynb := q.activecopynb
    queues := Function.update s.queues q.queue (some (queue.1,
      if q.ifNecessary ∧ address ∈ queue.2 then queue.2 else queue.2 ++ [address])) }

/-- What is logged about the owner, and what is stored afterwards. -/
def garbageCollect (c : Collection) (s : Stored) : List String × Stored :=
  (if s.request.owner ≠ c.presumedOwner then
      ["In RetrieveRequest::garbageCollect(): no garbage collection needed."]
    else [],
   match decideRequeue c s with
   | .error _ => s
   | .ok q => s.requeue c.address c.newQueue q)

/-! When it changes nothing, in terms of the request and of the queues. -/

/-- The loop over the jobs stops at this one: it throws, or it gives the request to the sorter. -/
def stopsAt (r : RetrieveRequest) (j : RetrieveJob) : Bool :=
  match j.status, r.tapeFileOf j.copynb with
  | .toTransfer, none => true
  | .toReportToRepackForSuccess, some _ | .toReportToRepackForFailure, some _ => true
  | _, _ => false

def vidToTransfer (r : RetrieveRequest) (j : RetrieveJob) : Option String :=
  if j.status = .toTransfer then (r.tapeFileOf j.copynb).map (·.vid) else none

/-- The request is in the queue, and the queue is its owner. -/
def Stored.AlreadyIn (queue : String × JobQueueType) : Prop :=
  ∃ references, s.queues queue = some (s.request.owner, references) ∧ address ∈ references

/-- No job is to transfer, and the request waits in the queue for its failures. -/
def Stored.failedAlready : Prop :=
  ∀ tf ∈ s.request.tapeFileOf s.activecopynb,
    (∀ j ∈ s.request.jobs, j.status ≠ .toTransfer)
      ∧ s.AlreadyIn address (tf.vid, queueTypeOf s.request.jobs)

/-- Queued there with that copy active, or the tape has no copy with a job. -/
def Stored.queuedAlready (address bestVid : String) : Prop :=
  ∀ tf ∈ s.request.archivefile.tapeFiles.find? (·.vid == bestVid),
    ∀ j ∈ s.request.findJob tf.copyNb.toUInt32,
      j.copynb = s.activecopynb ∧ s.AlreadyIn address (bestVid, .jobsToTransferForUser)

def Stored.settled (c : Collection) (s : Stored) : Prop :=
  match s.request.jobs.find? s.request.stopsAt with
  | some j => j.status = .toTransfer
  | none => match s.request.jobs.filterMap s.request.vidToTransfer with
    | [] => s.failedAlready c.address
    | vid :: vids => match c.selectBestRetrieveQueue (vid :: vids) with
      | .error _ => True
      | .ok none => s.failedAlready c.address
      | .ok (some bestVid) => s.queuedAlready c.address bestVid

/-- What the loop over the jobs finds out. -/
theorem scanJobs_cases (r : RetrieveRequest) {jobs : List RetrieveJob} (hsub : ∀ j ∈ jobs, j ∈ r.jobs)
    (vids : List String) :
    match jobs.find? r.stopsAt with
    | some j => if j.status = .toTransfer then scanJobs r vids jobs = .error (noTapeFile j.copynb)
        else ∃ queue, scanJobs r vids jobs = .ok (.inr queue)
    | none => scanJobs r vids jobs = .ok (.inl (vids ++ jobs.filterMap r.vidToTransfer)) := by
  induction jobs generalizing vids with
  | nil => simp [scanJobs]
  | cons j jobs ih =>
    have hrest := ih (fun j hj => hsub j (.tail _ hj))
    obtain ⟨status, hstatus⟩ : ∃ status, r.getJobStatus j.copynb = .ok status := by
      cases hf : r.findJob j.copynb with
      | none =>
        exact absurd (beq_self_eq_true j.copynb) (List.find?_eq_none.mp hf j (hsub j List.mem_cons_self))
      | some k => exact ⟨k.status, by rw [getJobStatus, hf]⟩
    cases ht : r.tapeFileOf j.copynb with
    | none => cases hs : j.status <;> simp_all [scanJobs, stopsAt, vidToTransfer]
    | some tf =>
      by_cases hs : j.status = .toTransfer
      · have hvid := hrest (vids ++ [tf.vid])
        rw [List.append_assoc] at hvid
        simpa [scanJobs, stopsAt, vidToTransfer, hs, ht] using hvid
      · cases hs : j.status <;> simp_all [scanJobs, stopsAt, vidToTransfer, bind, Except.bind]

theorem map_failJob_eq_iff {log : String} {jobs : List RetrieveJob} :
    jobs.map (failJob log) = jobs ↔ ∀ j ∈ jobs, j.status ≠ .toTransfer := by
  constructor
  · intro h j hj hs
    have he : failJob log j = j := List.map_inj_left.mp (h.trans (List.map_id' jobs).symm) j hj
    rw [failJob, if_pos hs] at he
    rw [← he] at hs
    cases hs
  · intro h
    have hc : jobs.map (failJob log) = jobs.map (fun j => j) :=
      List.map_congr_left fun j hj => if_neg (h j hj)
    rw [hc, List.map_id']

/-- A queue that is decided on changes nothing exactly if the request is already there as it is. -/
theorem requeue_eq_iff (newQueue : String × JobQueueType → String) (q : Requeue) :
    s.requeue address newQueue q = s ↔ q.ifNecessary = true ∧ q.jobs = s.request.jobs
      ∧ q.activecopynb = s.activecopynb ∧ s.AlreadyIn address q.queue := by
  constructor
  · intro h
    have ho : ((s.queues q.queue).getD (newQueue q.queue, [])).1 = s.request.owner :=
      congrArg (·.request.owner) h
    have hqu := (Function.update_self ..).symm.trans (congrFun (congrArg (·.queues) h) q.queue)
    have hj : q.jobs = s.request.jobs := congrArg (·.request.jobs) h
    have ha : q.activecopynb = s.activecopynb := congrArg (·.activecopynb) h
    cases hs : s.queues q.queue with
    | none =>
      rw [hs] at hqu
      cases hqu
    | some queue =>
      rw [hs, Option.getD_some] at ho hqu
      have hr : q.ifNecessary ∧ address ∈ queue.2 := by
        by_contra hnot
        rw [if_neg hnot] at hqu
        simpa using congrArg Prod.snd (Option.some.inj hqu)
      exact ⟨hr.1, hj, ha, queue.2, by rw [hs, ← ho], hr.2⟩
  · rintro ⟨hn, hj, ha, references, hqu, hm⟩
    simp only [Stored.requeue, hqu, hn, hm, hj, ha, Option.getD_some, and_self, if_true]
    rw [← hqu, Function.update_eq_self]

/-- What is stored after the decision. -/
def Stored.after (c : Collection) (s : Stored) : Except RequestExn Requeue → Stored
  | .error _ => s
  | .ok q => s.requeue c.address c.newQueue q

theorem queueForFailure_iff (c : Collection) (s : Stored) :
    s.after c (queueForFailure c s) = s ↔ s.failedAlready c.address := by
  unfold queueForFailure Stored.failedAlready
  cases s.request.tapeFileOf s.activecopynb with
  | none => simp [Stored.after]
  | some tf =>
    simp only [Stored.after, requeue_eq_iff, map_failJob_eq_iff, Option.mem_some, forall_eq', true_and]
    refine and_congr_right fun h => ?_
    rw [map_failJob_eq_iff.mpr h]

theorem queueForTransfer_iff (c : Collection) (s : Stored) (bestVid : String) :
    s.after c (queueForTransfer s bestVid) = s ↔ s.queuedAlready c.address bestVid := by
  unfold queueForTransfer Stored.queuedAlready
  cases s.request.archivefile.tapeFiles.find? (·.vid == bestVid) with
  | none => simp [Stored.after]
  | some tf =>
    cases hj : s.request.findJob tf.copyNb.toUInt32 with
    | none => simp [Stored.after, hj]
    | some j => simp [Stored.after, requeue_eq_iff, hj]

/-- **A COLLECTION CHANGES NOTHING** exactly if it stops at a job without tape file, the
selection throws, or the request is already where it would be taken. The presumed owner decides
about a line of the log only. -/
theorem collection_changes_nothing_iff (c : Collection) (s : Stored) :
    ((garbageCollect c s).1 = ["In RetrieveRequest::garbageCollect(): no garbage collection needed."]
        ↔ c.presumedOwner ≠ s.request.owner)
      ∧ ((garbageCollect c s).2 = s ↔ s.settled c) := by
  constructor
  · unfold garbageCollect
    split <;> simp_all [eq_comm]
  show s.after c (decideRequeue c s) = s ↔ s.settled c
  have hsc := scanJobs_cases s.request (fun _ h => h) []
  unfold decideRequeue Stored.settled
  cases hst : s.request.jobs.find? s.request.stopsAt with
  | some j =>
    rw [hst] at hsc
    dsimp only at hsc ⊢
    split at hsc
    case isTrue h =>
      rw [hsc]
      exact iff_of_true rfl h
    case isFalse h =>
      -- the sorter adds the request to a queue, whether it is there or not
      obtain ⟨queue, hqu⟩ := hsc
      rw [hqu]
      refine iff_of_false ?_ h
      simp [bind, Except.bind, pure, Except.pure, Stored.after, requeue_eq_iff]
  | none =>
    rw [hst] at hsc
    dsimp only at hsc ⊢
    rw [hsc, List.nil_append]
    cases s.request.jobs.filterMap s.request.vidToTransfer with
    | nil => exact queueForFailure_iff c s
    | cons vid vids =>
      simp only [bind, Except.bind]
      cases c.selectBestRetrieveQueue (vid :: vids) with
      | error e => exact iff_of_true rfl trivial
      | ok best => cases best with
        | none => exact queueForFailure_iff c s
        | some bestVid => exact queueForTransfer_iff c s bestVid

/-- A request of agent-2 with a copy on V1 to transfer, and no queue. -/
def ofAgent2 : Stored :=
  ⟨⟨"agent-2", ⟨1, 10, "single", [⟨"V1", 1, 1⟩]⟩, [⟨1, .toTransfer, 0, 0, 0, 0, 0, [], 0, 0, []⟩],
    false, false, ⟨"", false⟩⟩, 1, fun _ => none⟩

/-- **A COLLECTION FOR AGENT-1 TAKES THE REQUEST AWAY FROM AGENT-2.** -/
theorem request_of_other_agent_taken :
    (garbageCollect ⟨"RetrieveRequest-1", "agent-1", fun _ => .ok (some "V1"),
      fun _ => "RetrieveQueue-1", ""⟩ ofAgent2).2.request.owner = "RetrieveQueue-1" := by
  decide +kernel

end RetrieveRequest

end TapeArchive.Objectstore
