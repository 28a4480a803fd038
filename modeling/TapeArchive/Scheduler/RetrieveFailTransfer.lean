/-
  **WHAT A FAILED RETRIEVE LEAVES IN THE OBJECT STORE**
  (`OStoreDB::RetrieveJob::failTransfer`).

  The failure is added to the IN-MEMORY payload of the request. The queueing helpers
  work on the STORED request and change its owner only, so what was not
  committed before is lost.
-/
import TapeArchive.Objectstore.RetrieveRequest

namespace TapeArchive.Scheduler

open Std (TreeSet)
open Lib Common Objectstore

/-! ## The surroundings of a job -/

/-- The retrieve queues, as the algorithms over them find them. -/
structure RetrieveQueues where
  /-- `ContainerTraits::getLockedAndFetched`: the address of the queue of a type for a name. -/
  getLockedAndFetched : JobQueueType → String → Except RequestExn String
  /-- The type of the queue that is stored at an address. -/
  typeAt : String → Option JobQueueType
  typed : ∀ type name address,
    getLockedAndFetched type name = .ok address → typeAt address = some type

/-- What `failTransfer` uses besides the request. -/
structure FailTransferEnv where
  queues : RetrieveQueues
  agentAddress : String
  /-- `Catalogue::releaseDiskSpace` for the disk system of the job, if it has one. -/
  releaseDiskSpace : Except RequestExn Unit
  /-- `Helpers::selectBestRetrieveQueue`: the candidates, and whether disabled tapes count. -/
  selectBestRetrieveQueue : TreeSet String → Bool → Except RequestExn String
  /-- `addReferencesAndCommit` on the locked queue. -/
  (addReferencesAndCommit removeBatchFromOwnership : String → Except RequestExn Unit)

/-- `OStoreDB::RetrieveJob`. -/
structure RetrieveJobHandle where
  /-- The address of `m_retrieveRequest`. -/
  address : String
  selectedCopyNb : UInt32
  mountId : UInt64
  jobOwned : Bool

abbrev RequestProg := Prog String RetrieveRequest Unit RequestExn

open Prog (getStore write fail)

/-! ## The object store operations -/

def fetch (address : String) : RequestProg RetrieveRequest := do
  match (← getStore) address with
  | some r => pure r
  | none => fail (.noSuchObject ("In BackendRados::read,  failed to read: " ++ address))

/-- `commit` of a request: the in-memory payload overwrites the stored one. -/
def commit (address : String) (r : RetrieveRequest) : RequestProg Unit := do
  match (← getStore) address with
  | some _ => write (.put address r)
  | none => fail (.exception
      ("In BackendRados::atomicOverwrite, failed to assert existence or write: " ++ address))

variable (env : FailTransferEnv)

/-- For one element: the failure of the asynchronous update is handed back. -/
def switchElementOwnership (address : String) (copyNb : UInt32)
    (contAddress : String) : RequestProg (Option RequestExn) := do
  match (← getStore) address with
  | none => pure (some (.noSuchObject ("In BackendRados::read,  failed to read: " ++ address)))
  | some stored =>
    match stored.asyncUpdateJobOwner copyNb contAddress env.agentAddress with
    | .error e => pure (some e)
    | .ok stored => do
        write (.put address stored)
        pure none

/-- For one element; `some` is the failure of the ownership switch. -/
def referenceAndSwitch (type : JobQueueType) (contId : String)
    (address : String) (copyNb : UInt32) : RequestProg (Option RequestExn) := do
  let contAddress ← Prog.ofExcept (env.queues.getLockedAndFetched type contId)
  Prog.ofExcept (env.addReferencesAndCommit contAddress)
  match ← switchElementOwnership env address copyNb contAddress with
  | some failure => pure (some failure)
  | none => do
      Prog.ofExcept (env.removeBatchFromOwnership address)
      pure none

def referenceAndSwitchOwnership (env : FailTransferEnv) (type : JobQueueType) (contId : String)
    (address : String) (copyNb : UInt32) : RequestProg Unit := do
  match ← referenceAndSwitch env type contId address copyNb with
  | none => pure ()
  | some _ => fail (.exception ("In ContainerAlgorithms<>::referenceAndSwitchOwnership(): failed "
      ++ "to switch ownership of some elements"))

/-! ## The sorter -/

/-- `ArchiveFile::TapeFilesList::at`; its argument is a `uint8_t`. -/
def tapeFilesAt (tapeFiles : List TapeFile) (copyNb : UInt8) : Except RequestExn TapeFile :=
  match tapeFiles.find? (fun tf => tf.copyNb == copyNb) with
  | some tf => .ok tf
  | none => .error (.exception "In ArchiveFile::TapeFilesList::at(): not found.")

variable (r : RetrieveRequest)

def getContainerID (vid : String) (copyNb : UInt32) :
    Except RequestExn String := do
  match ← r.getJobStatus copyNb with
  | .toReportToRepackForSuccess | .toReportToRepackForFailure =>
      return r.repackInfo.repackRequestAddress
  | _ => return vid

/-- An entry of `m_retrieveQueuesAndRequests`. -/
structure SortedRetrieveJob where
  containerId : String
  jobQueueType : JobQueueType
  copyNb : UInt32

/-- `Sorter::insertRetrieveRequest` with a copy number; it reads the in-memory payload `r`. -/
def insertRetrieveRequest (copyNb : UInt32) :
    Except RequestExn SortedRetrieveJob := do
  let jobTapeFile ← tapeFilesAt r.archivefile.tapeFiles copyNb.toUInt8
  let _ ← r.getJobStatus jobTapeFile.copyNb.toUInt32
  let jobQueueType ← r.getQueueType jobTapeFile.copyNb.toUInt32
  let containerId ← getContainerID r jobTapeFile.vid copyNb
  return ⟨containerId, jobQueueType, jobTapeFile.copyNb.toUInt32⟩

/-- `Sorter::flushOneRetrieve` with one job, whose promise nobody waits for. -/
def flushOneRetrieve (address : String) (job : SortedRetrieveJob) :
    RequestProg Unit :=
  match job.jobQueueType with
  | .jobsToTransferForRepack =>
      fail (.exception "In Sorter::dispatchRetrieveAlgorithm(), unknown JobQueueType")
  | type => do
      let _ ← referenceAndSwitch env type job.containerId address job.copyNb
      pure ()

/-! ## `failTransfer` -/

/-- The vids of the tape files whose copies have a status. -/
def candidateVids (status : RetrieveJobStatus) :
    Except RequestExn (TreeSet String) := do
  let vids ← r.archivefile.tapeFiles.foldlM (fun (vids : TreeSet String) tf => do
    let s ← r.getJobStatus tf.copyNb.toUInt32
    return if s = status then vids.insert tf.vid else vids) ∅
  if vids.isEmpty then
    throw (.exception ("In OStoreDB::RetrieveJob::failTransfer(): no active job after "
      ++ "addJobFailure() returned false."))
  return vids

def tapeFileOf (bestVid : String) : Except RequestExn TapeFile :=
  match r.archivefile.tapeFiles.find? (fun tf => tf.vid == bestVid) with
  | some tf => .ok tf
  | none => .error (.exception ("In OStoreDB::RetrieveJob::failTransfer(): no tape file for "
      ++ "requested vid. archiveId=" ++ toString r.archivefile.archiveFileID
      ++ " vid=" ++ bestVid))

/-- `case NextStep::EnqueueForReportForUser`. -/
def enqueueForReportForUser (address : String) (r : RetrieveRequest) :
    RequestProg Unit := do
  let vids ← Prog.ofExcept (candidateVids r .toReportToUserForFailure)
  let bestVid ← Prog.ofExcept (env.selectBestRetrieveQueue vids false)
  let tf ← Prog.ofExcept (tapeFileOf r bestVid)
  commit address r
  referenceAndSwitchOwnership env .jobsToReportToUser tf.vid address tf.copyNb.toUInt32

/-- `case NextStep::EnqueueForTransferForUser`: here the commit comes before the selection. -/
def enqueueForTransferForUser (address : String) (r : RetrieveRequest) :
    RequestProg Unit := do
  let vids ← Prog.ofExcept (candidateVids r .toTransfer)
  let disabledTape := r.isrepack && r.repackInfo.forceDisabledTape
  commit address r
  let bestVid ← Prog.ofExcept (env.selectBestRetrieveQueue vids disabledTape)
  let tf ← Prog.ofExcept (tapeFileOf r bestVid)
  referenceAndSwitchOwnership env .jobsToTransferForUser bestVid address tf.copyNb.toUInt32

/-- `case NextStep::EnqueueForReportForRepack`: there is no commit. -/
def enqueueForReportForRepack (address : String) (r : RetrieveRequest)
    (selectedCopyNb : UInt32) : RequestProg Unit := do
  let job ← Prog.ofExcept (insertRetrieveRequest r selectedCopyNb)
  flushOneRetrieve env address job

/-- The `switch` over the next step. -/
def applyNextStep (job : RetrieveJobHandle) (r : RetrieveRequest) :
    RetrieveRequest.NextStep → RequestProg Unit
  | .nothing => commit job.address r
  | .delete => write (.del job.address)
  | .enqueueForReportForUser => enqueueForReportForUser env job.address r
  | .enqueueForReportForRepack => enqueueForReportForRepack env job.address r job.selectedCopyNb
  | .enqueueForTransferForUser => enqueueForTransferForUser env job.address r
  | .storeInFailedJobsContainer => fail (.exception ("In OStoreDB::RetrieveJob::failTransfer(): "
      ++ "case NextStep::StoreInFailedJobsContainer is not implemented"))

/-- The check that `failTransfer` starts with. -/
def checkJobOwned (job : RetrieveJobHandle) : Except RequestExn Unit :=
  if job.jobOwned then .ok ()
  else .error (.exception "In OStoreDB::RetrieveJob::failTransfer: cannot fail a job not owned")

def failTransfer (job : RetrieveJobHandle) (failureReason : String) :
    RequestProg Unit := do
  Prog.ofExcept (checkJobOwned job)
  Prog.ofExcept env.releaseDiskSpace
  let r ← fetch job.address
  let (r, next) ← Prog.ofExcept (r.addTransferFailure job.selectedCopyNb job.mountId failureReason)
  let r ← Prog.ofExcept (r.setJobStatus job.selectedCopyNb next.nextStatus)
  applyNextStep env job r next.nextStep

/-! ## What each operation leaves at the address of the request -/

section Leaves

variable {env : FailTransferEnv} {address : String} {r stored : RetrieveRequest}
variable {m : Machine String RetrieveRequest Unit}

/-- After a normal return, `P` holds of the request that is stored at `address`. -/
def Leaves (p : RequestProg Unit) (address : String) (P : RetrieveRequest → Prop)
    (m : Machine String RetrieveRequest Unit) : Prop :=
  wp p (fun _ m' => ∃ after, m'.store address = some after ∧ P after) (fun _ _ => True) m

theorem wp_ofExcept_of_ok {α : Type} {x : Except RequestExn α}
    {Q : α → Machine String RetrieveRequest Unit → Prop} (h : ∀ a, x = .ok a → Q a m) :
    wp (Prog.ofExcept x : RequestProg α) Q (fun _ _ => True) m := by
  cases x with
  | ok a => exact h a rfl
  | error e => trivial

/-- The owner of a stored request after it may have been queued in a queue of a type. -/
def OwnerSwitched (queues : RetrieveQueues) (type : JobQueueType) (before after : RetrieveRequest) :
    Prop :=
  after = before
    ∨ ∃ owner, queues.typeAt owner = some type ∧ after = { before with owner := owner }

theorem wp_referenceAndSwitch (type : JobQueueType) (contId : String) (copyNb : UInt32)
    (hm : m.store address = some stored) :
    wp (referenceAndSwitch env type contId address copyNb)
      (fun _ m' => ∃ after, m'.store address = some after
        ∧ OwnerSwitched env.queues type stored after)
      (fun _ _ => True) m := by
  unfold referenceAndSwitch switchElementOwnership
  simp only [wp_bind]
  apply wp_ofExcept_of_ok
  intro contAddress hc
  apply wp_ofExcept_of_ok
  intro _ _
  simp only [wp_getStore, hm]
  cases hup : stored.asyncUpdateJobOwner copyNb contAddress env.agentAddress with
  | error e => exact ⟨stored, hm, .inl rfl⟩
  | ok after =>
    simp only [wp_bind, wp_write, wp_pure]
    apply wp_ofExcept_of_ok
    intro _ _
    refine ⟨after, by simp, .inr ⟨contAddress, env.queues.typed _ _ _ hc, ?_⟩⟩
    exact RetrieveRequest.asyncUpdateJobOwner_ok hup

theorem referenceAndSwitchOwnership_leaves (type : JobQueueType) (contId : String)
    (copyNb : UInt32) (hm : m.store address = some stored) :
    Leaves (referenceAndSwitchOwnership env type contId address copyNb) address
      (OwnerSwitched env.queues type stored) m := by
  unfold Leaves referenceAndSwitchOwnership
  simp only [wp_bind]
  refine wp_post (wp_referenceAndSwitch type contId copyNb hm) ?_
  intro failure m' h
  cases failure with
  | none => exact h
  | some _ => trivial

/-- A commit and what follows it. -/
theorem wp_commit_bind {p : RequestProg Unit} {P : RetrieveRequest → Prop}
    (hm : m.store address = some stored)
    (h : ∀ m' : Machine String RetrieveRequest Unit, m'.store address = some r →
      Leaves p address P m') :
    Leaves (commit address r >>= fun _ => p) address P m := by
  unfold Leaves commit at *
  simp only [wp_bind, wp_getStore, hm, wp_write]
  exact h _ (by simp)

theorem enqueueForReportForUser_leaves (hm : m.store address = some stored) :
    Leaves (enqueueForReportForUser env address r) address
      (OwnerSwitched env.queues .jobsToReportToUser r) m := by
  unfold Leaves enqueueForReportForUser
  simp only [wp_bind]
  apply wp_ofExcept_of_ok
  intro vids _
  apply wp_ofExcept_of_ok
  intro bestVid _
  apply wp_ofExcept_of_ok
  intro tf _
  rw [← wp_bind]
  exact wp_commit_bind hm (fun m' hm' => referenceAndSwitchOwnership_leaves _ _ _ hm')

theorem enqueueForTransferForUser_leaves (hm : m.store address = some stored) :
    Leaves (enqueueForTransferForUser env address r) address
      (OwnerSwitched env.queues .jobsToTransferForUser r) m := by
  unfold Leaves enqueueForTransferForUser
  rw [wp_bind]
  apply wp_ofExcept_of_ok
  intro vids _
  apply wp_commit_bind hm
  intro m' hm'
  unfold Leaves
  simp only [wp_bind]
  apply wp_ofExcept_of_ok
  intro bestVid _
  apply wp_ofExcept_of_ok
  intro tf _
  exact referenceAndSwitchOwnership_leaves _ _ _ hm'

/-- The report of a repack failure switches the owner of the request as it is STORED: what
was computed in memory does not get there. -/
theorem enqueueForReportForRepack_leaves (c : UInt32) (hm : m.store address = some stored) :
    Leaves (enqueueForReportForRepack env address r c) address
      (fun after => ∃ owner, after = { stored with owner := owner }) m := by
  unfold Leaves enqueueForReportForRepack
  rw [wp_bind]
  apply wp_ofExcept_of_ok
  intro sorted _
  unfold flushOneRetrieve
  split
  · trivial
  rw [wp_bind]
  refine wp_post (wp_referenceAndSwitch _ _ _ hm) ?_
  rintro _ m' ⟨after, ha, rfl | ⟨owner, _, rfl⟩⟩
  · exact ⟨after, ha, after.owner, rfl⟩
  · exact ⟨_, ha, owner, rfl⟩

theorem commit_leaves (hm : m.store address = some stored) :
    Leaves (commit address r) address (fun after => after = r) m := by
  unfold Leaves commit
  simp only [wp_bind, wp_getStore, hm, wp_write]
  exact ⟨r, by simp, rfl⟩

end Leaves

/-! ## The stored request after a failure -/

section Persistence

variable {env : FailTransferEnv} {job : RetrieveJobHandle} {reason : String}
variable {before after : RetrieveRequest}

/-- The payload `r`, unless the failure is to be reported for a repack request. -/
def Outcome (queues : RetrieveQueues) (before r : RetrieveRequest)
    (next : RetrieveRequest.EnqueueingNextStep) (after : RetrieveRequest) : Prop :=
  if next.nextStep = .enqueueForReportForRepack then
    ∃ owner, after = { before with owner := owner }
  else OwnerSwitched queues next.nextStatus.queueType r after

variable {m : Machine String RetrieveRequest Unit}

theorem applyNextStep_leaves {r : RetrieveRequest} {next : RetrieveRequest.EnqueueingNextStep}
    (hm : m.store job.address = some before) (hnext : before.Coherent next) :
    Leaves (applyNextStep env job r next.nextStep) job.address
      (Outcome env.queues before r next) m := by
  cases hnext with
  | leave =>
    refine wp_post (commit_leaves hm) ?_
    rintro _ m' ⟨after, hs, rfl⟩
    exact ⟨after, hs, .inl rfl⟩
  | retry => exact enqueueForTransferForUser_leaves hm
  | reportToUser _ => exact enqueueForReportForUser_leaves hm
  | reportToRepack _ => exact enqueueForReportForRepack_leaves _ hm

theorem failTransfer_leaves (hm : m.store job.address = some before) :
    Leaves (failTransfer env job reason) job.address (fun after => ∃ added next r,
        before.addTransferFailure job.selectedCopyNb job.mountId reason = .ok (added, next)
          ∧ added.setJobStatus job.selectedCopyNb next.nextStatus = .ok r
          ∧ Outcome env.queues before r next after) m := by
  unfold Leaves failTransfer fetch
  simp only [wp_bind]
  apply wp_ofExcept_of_ok
  intro _ _
  apply wp_ofExcept_of_ok
  intro _ _
  simp only [wp_getStore, hm, wp_pure]
  apply wp_ofExcept_of_ok
  rintro ⟨added, next⟩ ha
  apply wp_ofExcept_of_ok
  intro r hse
  refine wp_post (applyNextStep_leaves hm (RetrieveRequest.addTransferFailure_ok ha).coherent) ?_
  rintro _ m' ⟨after, hs, ho⟩
  exact ⟨after, hs, added, next, r, ha, hse, ho⟩

/-- The failure of the selected copy is in the stored request `after`. -/
structure Persisted (queues : RetrieveQueues) (job : RetrieveJobHandle) (reason : String)
    (before after : RetrieveRequest) : Prop where
  /-- It is counted and logged. -/
  contained : ∃ j j', before.findJob job.selectedCopyNb = some j
    ∧ after.findJob job.selectedCopyNb = some j'
    ∧ j'.totalretries = j.totalretries + 1 ∧ j'.failurelogs = j.failurelogs ++ [reason]
  /-- The stored status of the copy is the one that `addTransferFailure` decided. -/
  decided : ∃ added next j',
    before.addTransferFailure job.selectedCopyNb job.mountId reason = .ok (added, next)
      ∧ after.findJob job.selectedCopyNb = some j' ∧ j'.status = next.nextStatus
  /-- A request that was queued is owned by a queue of the type of the stored status. -/
  queued : after.owner ≠ before.owner → ∃ j', after.findJob job.selectedCopyNb = some j'
    ∧ queues.typeAt after.owner = some j'.status.queueType

variable {queues : RetrieveQueues} {r after : RetrieveRequest} {type : JobQueueType}

theorem OwnerSwitched.findJob (h : OwnerSwitched queues type r after) (c : UInt32) :
    after.findJob c = r.findJob c := by
  rcases h with rfl | ⟨owner, _, rfl⟩ <;> rfl

theorem OwnerSwitched.typeAt (h : OwnerSwitched queues type r after) (hne : after.owner ≠ r.owner) :
    queues.typeAt after.owner = some type := by
  rcases h with rfl | ⟨owner, ht, rfl⟩
  · exact absurd rfl hne
  · exact ht

/-- A count that did not move is not one higher. -/
theorem not_persisted_of_findJob_totalretries {j j' : RetrieveJob}
    (hj : before.findJob job.selectedCopyNb = some j)
    (hj' : after.findJob job.selectedCopyNb = some j') (heq : j'.totalretries = j.totalretries) :
    ¬ Persisted queues job reason before after := by
  rintro ⟨⟨k, k', hk, hk', hc, _⟩, _, _⟩
  obtain rfl := Option.some.inj (hj.symm.trans hk)
  obtain rfl := Option.some.inj (hj'.symm.trans hk')
  rw [heq] at hc
  exact absurd hc (by simp)

/-- The failure of a copy is persisted exactly when the copy is the first job of the request
and its failure is not to be reported for a repack request. -/
theorem failure_persisted_iff (env : FailTransferEnv) (job : RetrieveJobHandle)
    (reason : String) (m m' : Machine String RetrieveRequest Unit)
    (before after : RetrieveRequest) (hbefore : m.store job.address = some before)
    (hrun : (failTransfer env job reason).exec m = (.ok (), m'))
    (hafter : m'.store job.address = some after) :
    Persisted env.queues job reason before after ↔ before.FirstJobIs job.selectedCopyNb
        ∧ ¬ (before.isrepack = true
          ∧ ∃ j, before.findJob job.selectedCopyNb = some j ∧ before.Exhausts j) := by
  obtain ⟨after', hs, added, next, r, ha, hse, hou⟩ := wp_ok (failTransfer_leaves hbefore) hrun
  obtain rfl := Option.some.inj (hs.symm.trans hafter)
  have hfa := RetrieveRequest.addTransferFailure_ok ha
  obtain ⟨j, hj, hjr, ho⟩ := RetrieveRequest.setJobStatus_ok hse
  unfold Outcome at hou
  by_cases hf : before.FirstJobIs job.selectedCopyNb
  · obtain ⟨k, hk⟩ := hf.findJob
    obtain ⟨hc, hr⟩ := hfa.counted k hf hk
    obtain rfl := Option.some.inj (hc.symm.trans hj)
    have hco : (before.isrepack = true
        ∧ ∃ j, before.findJob job.selectedCopyNb = some j ∧ before.Exhausts j)
        ↔ next.nextStep = .enqueueForReportForRepack := by
      simp [← hr, hk]
    rw [hco]
    by_cases hsp : next.nextStep = .enqueueForReportForRepack
    · -- nothing was committed: the stored job is the one from before
      rw [if_pos hsp] at hou
      obtain ⟨owner, rfl⟩ := hou
      simp only [hsp, not_true_eq_false, and_false, iff_false]
      exact not_persisted_of_findJob_totalretries hk hk rfl
    · rw [if_neg hsp] at hou
      have hstored := (hou.findJob job.selectedCopyNb).trans hjr
      refine iff_of_true ⟨⟨k, _, hk, hstored, ?_, ?_⟩, ⟨added, next, _, ha, hstored, rfl⟩, ?_⟩
        ⟨hf, hsp⟩
      · simp
      · simp
      · intro hne
        exact ⟨_, hstored, hou.typeAt (by rw [ho, hfa.owner]; exact hne)⟩
  · -- the counters of the selected copy were never reached
    have hke := hfa.missed hf
    rw [hke] at hj
    refine iff_of_false ?_ (fun h => hf h.1)
    split at hou
    · obtain ⟨owner, rfl⟩ := hou
      exact not_persisted_of_findJob_totalretries hj hj rfl
    · exact not_persisted_of_findJob_totalretries hj
        ((hou.findJob job.selectedCopyNb).trans hjr) rfl

end Persistence

/-! ## Two requests -/

def queueName : JobQueueType → String
  | .jobsToTransferForUser => "RetrieveQueueToTransferForUser"
  | .failedJobs => "RetrieveQueueFailed"
  | .jobsToReportToUser => "RetrieveQueueToReportForUser"
  | .jobsToReportToRepackForSuccess => "RetrieveQueueToReportToRepackForSuccess"
  | .jobsToReportToRepackForFailure => "RetrieveQueueToReportToRepackForFailure"
  | .jobsToTransferForRepack => "RetrieveQueueToTransferForRepack"

def queueTypes : List JobQueueType :=
  [.jobsToTransferForUser, .failedJobs, .jobsToReportToUser, .jobsToReportToRepackForSuccess,
    .jobsToReportToRepackForFailure, .jobsToTransferForRepack]

def sixQueues : RetrieveQueues where
  getLockedAndFetched type _ := .ok (queueName type)
  typeAt address := queueTypes.find? (fun type => queueName type == address)
  typed := by
    intro type name address h
    rw [← Except.ok.inj h]
    cases type <;> decide

/-- Surroundings in which nothing throws and the tape `V1` is selected. -/
def quietEnv : FailTransferEnv where
  queues := sixQueues
  agentAddress := "agent"
  releaseDiskSpace := .ok ()
  selectBestRetrieveQueue _ _ := .ok "V1"
  addReferencesAndCommit _ := .ok ()
  removeBatchFromOwnership _ := .ok ()

/-- A request with one copy on `V1`, which has failed `totalretries` of six times. -/
def oneCopyRequest (isrepack : Bool) (totalretries : UInt32) : RetrieveRequest where
  owner := "agent"
  archivefile := ⟨7, 1000, "sc", [⟨"V1", 1, 1⟩]⟩
  jobs := [
    { copynb := 1, status := .toTransfer, totalretries := totalretries, retrieswithinmount := 0,
      lastmountwithfailure := 0, maxtotalretries := 6, maxretrieswithinmount := 3,
      failurelogs := [], maxreportretries := 2, totalreportretries := 0,
      reportfailurelogs := [] }]
  isrepack := isrepack
  isverifyonly := false
  repackInfo := ⟨"repack", false⟩

def firstCopy : RetrieveJobHandle := ⟨"request", 1, 42, true⟩

def holding (r : RetrieveRequest) : Machine String RetrieveRequest Unit :=
  .start (fun address => if address = "request" then some r else none) ()

/-- A user's request whose copy can be tried again in the same mount. -/
theorem user_retry_persisted : ∃ m' after, (failTransfer quietEnv firstCopy "read error").exec
        (holding (oneCopyRequest false 0)) = (.ok (), m')
      ∧ m'.store "request" = some after
      ∧ after.owner = queueName .jobsToTransferForUser
      ∧ Persisted sixQueues firstCopy "read error" (oneCopyRequest false 0) after := by
  refine ⟨_, _, rfl, rfl, rfl, ?_⟩
  exact (failure_persisted_iff quietEnv firstCopy "read error" (holding (oneCopyRequest false 0))
    _ _ _ rfl rfl rfl).mpr (by decide)

/-- The request is queued to report with its old counters, no log and the status `ToTransfer`. -/
theorem repack_failure_not_persisted : ∃ m', (failTransfer quietEnv firstCopy "read error").exec
        (holding (oneCopyRequest true 5)) = (.ok (), m')
      ∧ m'.store "request" = some { oneCopyRequest true 5 with
          owner := queueName .jobsToReportToRepackForFailure }
      ∧ ¬ Persisted sixQueues firstCopy "read error" (oneCopyRequest true 5)
          { oneCopyRequest true 5 with owner := queueName .jobsToReportToRepackForFailure } := by
  refine ⟨_, rfl, rfl, ?_⟩
  exact not_persisted_of_findJob_totalretries rfl rfl rfl

end TapeArchive.Scheduler
