/-
  **WHAT THE MOUNT DECISION STARTS FROM** (`OStoreDB::fetchMountInfo`).

  Every queue with jobs is a potential mount: an archive queue for its tape
  pool, a retrieve queue for its tape (once per activity). Priority and age
  come from the mount policies of the catalogue that the queue names, and from
  the counters of the queue when there are none. Every drive that is at work
  or has a next mount is an existing mount.
-/
import TapeArchive.Lib.Machine
import TapeArchive.Lib.MachineWord
import TapeArchive.Objectstore.ArchiveRequest
import TapeArchive.Common.DataStructures

namespace TapeArchive.Scheduler

open Std Common Lib
open Objectstore (RequestExn JobQueueType)

/-! ## Mount policies -/

def reduce {α : Type} (op : α → α → α) (init : α) (l : List α) : α := l.foldl op init

def getMountPoliciesInQueue (mountPoliciesInCatalogue : List MountPolicy)
    (queueMountPolicyMap : TreeMap String UInt64) : List MountPolicy :=
  mountPoliciesInCatalogue.filter (fun mp => queueMountPolicyMap.contains mp.name)

/-- Reduce a list that must not be empty, from its first element. -/
def reducePolicies (function : String) (op : MountPolicy → MountPolicy → MountPolicy) :
    List MountPolicy → Except RequestExn MountPolicy
  | [] => .error (.exception ("In OStoreDB::" ++ function ++ "(), empty mount policy list."))
  | mp :: mountPolicies => .ok (reduce op mp mountPolicies)

def createBestArchiveMountPolicy : List MountPolicy → Except RequestExn MountPolicy :=
  reducePolicies "createBestArchiveMountPolicy" (fun mp1 mp2 =>
    let mp := mp1
    let mp := if mp1.archivePriority > mp2.archivePriority then
      { mp with archivePriority := mp1.archivePriority } else mp
    if mp1.archiveMinRequestAge < mp2.archiveMinRequestAge then
      { mp with archiveMinRequestAge := mp1.archiveMinRequestAge } else mp)

def createBestRetrieveMountPolicy : List MountPolicy → Except RequestExn MountPolicy :=
  reducePolicies "createBestRetrieveMountPolicy" (fun mp1 mp2 =>
    let mp := mp1
    let mp := if mp1.retrievePriority > mp2.retrievePriority then
      { mp with retrievePriority := mp1.retrievePriority } else mp
    if mp1.retrieveMinRequestAge < mp2.retrieveMinRequestAge then
      { mp with retrieveMinRequestAge := mp1.retrieveMinRequestAge } else mp)

def getHighestPriorityArchiveMountPolicyName (l : List MountPolicy) : Except RequestExn String :=
  (reducePolicies "getHighestPriorityArchiveMountPolicyName" (fun mp1 mp2 =>
    if mp2.archivePriority > mp1.archivePriority then mp2 else mp1) l).map (·.name)

def getLowestRequestAgeArchiveMountPolicyName (l : List MountPolicy) : Except RequestExn String :=
  (reducePolicies "getLowestRequestAgeArchiveMountPolicyName" (fun mp1 mp2 =>
    if mp1.archiveMinRequestAge < mp2.archiveMinRequestAge then mp1 else mp2) l).map (·.name)

def getHighestPriorityRetrieveMountPolicyName (l : List MountPolicy) : Except RequestExn String :=
  (reducePolicies "getHighestPriorityRetrieveMountPolicyName" (fun mp1 mp2 =>
    if mp1.retrievePriority > mp2.retrievePriority then mp1 else mp2) l).map (·.name)

def getLowestRequestAgeRetrieveMountPolicyName (l : List MountPolicy) : Except RequestExn String :=
  (reducePolicies "getLowestRequestAgeRetrieveMountPolicyName" (fun mp1 mp2 =>
    if mp1.retrieveMinRequestAge < mp2.retrieveMinRequestAge then mp1 else mp2) l).map (·.name)

/-! ## Mounts -/

/-- `SchedulerDatabase::PotentialMount`. The ratio is only ever set to zero. -/
structure PotentialMount where
  type : MountType
  (vid tapePool vo mediaType vendor : String)
  capacityInBytes : UInt64
  labelFormat : UInt8
  priority : UInt64
  minRequestAge : Int64
  (filesQueued bytesQueued : UInt64)
  (oldestJobStartTime youngestJobStartTime : Int64)
  logicalLibrary : String
  ratioOfMountQuotaUsed : Rat
  sleepingMount : Bool
  sleepStartTime : Int64
  diskSystemSleptFor : String
  sleepTime : UInt64
  (activity highestPriorityMountPolicyName lowestRequestAgeMountPolicyName : Option String)
  mountPolicyNames : Option (List String)
  deriving DecidableEq

/-- `SchedulerDatabase::PotentialMount::operator<`. -/
def PotentialMount.lt (m other : PotentialMount) : Bool :=
  if m.priority < other.priority then true
  else if m.priority > other.priority then false
  else if m.type == .archiveForUser && other.type != .archiveForUser then false
  else if other.type == .archiveForUser && m.type != .archiveForUser then true
  else if m.ratioOfMountQuotaUsed > other.ratioOfMountQuotaUsed then true
  else if m.ratioOfMountQuotaUsed < other.ratioOfMountQuotaUsed then false
  else if m.oldestJobStartTime > other.oldestJobStartTime then true
  else if m.oldestJobStartTime < other.oldestJobStartTime then false
  else if m.vid < other.vid then false
  else if m.vid > other.vid then true
  else if m.tapePool < other.tapePool then false
  else if m.tapePool > other.tapePool then true
  else false

structure ExistingMount where
  driveName : String
  type : MountType
  (tapePool vo vid : String)
  currentMount : Bool
  (bytesTransferred filesTransferred averageBandwidth : UInt64)
  activity : Option String

structure TapeMountDecisionInfo where
  potentialMounts : List PotentialMount
  existingOrNextMounts : List ExistingMount
  queueTrimRequired : Bool

/-! ## Fetching the queues and the drives -/

/-- `ArchiveQueue::JobsSummary`. -/
structure ArchiveJobsSummary where
  (jobs bytes : UInt64)
  (oldestJobStartTime youngestJobStartTime : Int64)
  (priority minArchiveRequestAge : UInt64)
  mountPolicyCountMap : TreeMap String UInt64

structure SleepInfo where
  sleepStartTime : Int64
  diskSystemSleptFor : String
  sleepTime : UInt64

/-- `RetrieveQueue::JobsSummary`; of the activity counts only the activities are used. -/
structure RetrieveJobsSummary where
  (jobs bytes : UInt64)
  (oldestJobStartTime youngestJobStartTime : Int64)
  (priority minRetrieveRequestAge : UInt64)
  mountPolicyCountMap : TreeMap String UInt64
  activityCounts : List String
  sleepInfo : Option SleepInfo

/-- The queues, with what fetching them gives, the drives and the catalogue. -/
structure QueuesAndDrives where
  mountPolicies : List MountPolicy
  (archiveQueuesForUser archiveQueuesForRepack : List (String × Option ArchiveJobsSummary))
  retrieveQueues : List (String × Option RetrieveJobsSummary)
  getTapeByVid : String → Except RequestExn Tape
  driveStates : List TapeDrive
  /-- `time(nullptr)`. -/
  time : Int64

/-- `PurposeGetMountInfo`. -/
inductive Purpose where
  | getNextMount
  | showQueues
  deriving DecidableEq

def archivePotentialMount (mountPolicies : List MountPolicy) (type : MountType)
    (tapePool : String) (summary : ArchiveJobsSummary) : Except RequestExn PotentialMount :=
  let m : PotentialMount :=
    { type := type, vid := "", tapePool := tapePool, vo := "", mediaType := "", vendor := ""
      capacityInBytes := 0, labelFormat := 0, priority := summary.priority
      minRequestAge := summary.minArchiveRequestAge.toInt64, filesQueued := summary.jobs
      bytesQueued := summary.bytes, oldestJobStartTime := summary.oldestJobStartTime
      youngestJobStartTime := summary.youngestJobStartTime, logicalLibrary := ""
      ratioOfMountQuotaUsed := 0, sleepingMount := false, sleepStartTime := 0
      diskSystemSleptFor := "", sleepTime := 0, activity := none
      highestPriorityMountPolicyName := none, lowestRequestAgeMountPolicyName := none
      mountPolicyNames := none }
  if mountPolicies.isEmpty then .ok m
  else match getMountPoliciesInQueue mountPolicies summary.mountPolicyCountMap with
  | [] => .ok { m with mountPolicyNames := some [] }
  | mountPoliciesInQueueList => do
    let mountPolicyToUse ← createBestArchiveMountPolicy mountPoliciesInQueueList
    let highest ← getHighestPriorityArchiveMountPolicyName mountPoliciesInQueueList
    let lowest ← getLowestRequestAgeArchiveMountPolicyName mountPoliciesInQueueList
    pure { m with
      mountPolicyNames := some (mountPoliciesInQueueList.map (·.name))
      priority := mountPolicyToUse.archivePriority
      minRequestAge := mountPolicyToUse.archiveMinRequestAge.toInt64
      highestPriorityMountPolicyName := some highest
      lowestRequestAgeMountPolicyName := some lowest }

variable (env : QueuesAndDrives)

/-- One turn of the loop over the archive queues of a type. -/
def fetchArchiveQueue (type : MountType) (tmdi : TapeMountDecisionInfo)
    (queue : String × Option ArchiveJobsSummary) : Except RequestExn TapeMountDecisionInfo :=
  match queue.2 with
  | none => .ok tmdi
  | some summary =>
    if summary.jobs == 0 then .ok { tmdi with queueTrimRequired := true }
    else do
      let m ← archivePotentialMount env.mountPolicies type queue.1 summary
      pure { tmdi with potentialMounts := tmdi.potentialMounts ++ [m] }

/-- The queue has jobs of a policy made for repack. -/
def hasRepackPolicy (summary : RetrieveJobsSummary) : Bool :=
  summary.mountPolicyCountMap.toList.any (fun policy =>
    policy.2 != 0 && "repack".toList.isPrefixOf policy.1.toList)

def isSleeping (time : Int64) (summary : RetrieveJobsSummary) : Option SleepInfo :=
  match summary.sleepInfo with
  | none => none
  | some info => if time < info.sleepStartTime + info.sleepTime.toInt64 then some info else none

/-- Priority, age and policy names of a retrieve queue. -/
structure RetrievePolicy where
  (priority minRetrieveRequestAge : UInt64)
  (highestPriorityMountPolicyName lowestRequestAgeMountPolicyName : Option String)
  queueMountPolicyNames : List String

def retrievePolicy (mountPolicies : List MountPolicy) (summary : RetrieveJobsSummary) :
    Except RequestExn RetrievePolicy :=
  match getMountPoliciesInQueue mountPolicies summary.mountPolicyCountMap with
  | [] => .ok ⟨summary.priority, summary.minRetrieveRequestAge, none, none, []⟩
  | mountPoliciesInQueueList => do
    let mountPolicyToUse ← createBestRetrieveMountPolicy mountPoliciesInQueueList
    let highest ← getHighestPriorityRetrieveMountPolicyName mountPoliciesInQueueList
    let lowest ← getLowestRequestAgeRetrieveMountPolicyName mountPoliciesInQueueList
    pure ⟨mountPolicyToUse.retrievePriority, mountPolicyToUse.retrieveMinRequestAge, some highest,
      some lowest, mountPoliciesInQueueList.map (·.name)⟩

/-- The potential mount of a retrieve queue, for an activity or for the jobs without one. -/
def retrievePotentialMount (time : Int64) (vid : String) (tape : Tape)
    (summary : RetrieveJobsSummary) (policy : RetrievePolicy) (activity : Option String) :
    PotentialMount :=
  let m : PotentialMount :=
    { type := .retrieve, vid := vid, tapePool := "", vo := "", mediaType := "", vendor := ""
      capacityInBytes := 0, labelFormat := tape.labelFormat, priority := policy.priority
      minRequestAge := policy.minRetrieveRequestAge.toInt64, filesQueued := summary.jobs
      bytesQueued := summary.bytes, oldestJobStartTime := summary.oldestJobStartTime
      youngestJobStartTime := summary.youngestJobStartTime, logicalLibrary := ""
      ratioOfMountQuotaUsed := 0, sleepingMount := false, sleepStartTime := 0
      diskSystemSleptFor := "", sleepTime := 0, activity := activity
      highestPriorityMountPolicyName := policy.highestPriorityMountPolicyName
      lowestRequestAgeMountPolicyName := policy.lowestRequestAgeMountPolicyName
      mountPolicyNames := some policy.queueMountPolicyNames }
  match isSleeping time summary with
  | none => m
  | some info =>
      { m with sleepingMount := true, sleepStartTime := info.sleepStartTime
               diskSystemSleptFor := info.diskSystemSleptFor
               -- without an activity the sleep time is read and not stored
               sleepTime := if activity.isSome then info.sleepTime else 0 }

/-- The activities that a retrieve queue is listed under; `none` for the jobs without one. -/
def listedActivities (summary : RetrieveJobsSummary) : List (Option String) :=
  summary.activityCounts.map some
    ++ (if !summary.activityCounts.isEmpty
          && UInt64.ofNat summary.activityCounts.length >= summary.jobs then [] else [none])

/-- One turn of the loop over the retrieve queues. -/
def fetchRetrieveQueue (purpose : Purpose) (tmdi : TapeMountDecisionInfo)
    (queue : String × Option RetrieveJobsSummary) : Except RequestExn TapeMountDecisionInfo :=
  match queue.2 with
  | none => .ok tmdi
  | some summary => do
    let tape ← env.getTapeByVid queue.1
    let isPotentialMount := tape.state == .active
      || (tape.state == .disabled && hasRepackPolicy summary)
    if summary.jobs != 0 && (isPotentialMount || purpose == .showQueues) then do
      let policy ← retrievePolicy env.mountPolicies summary
      let mounts := (listedActivities summary).map
        (retrievePotentialMount env.time queue.1 tape summary policy)
      pure { tmdi with potentialMounts := tmdi.potentialMounts ++ mounts }
    else if summary.jobs == 0 then pure { tmdi with queueTrimRequired := true }
    else pure tmdi

def activeDriveStatus : DriveStatus → Bool
  | .starting | .mounting | .transferring | .unloading | .unmounting | .drainingToDisk
  | .cleaningUp => true
  | _ => false

def activeMountType : MountType → Bool
  | .archiveForUser | .archiveForRepack | .retrieve | .label => true
  | _ => false

/-- The mounts of a drive: the current one and the next one. -/
def mountsOfDrive (driveState : TapeDrive) : List ExistingMount :=
  (if activeDriveStatus driveState.driveStatus then
    [{ driveName := driveState.driveName, type := driveState.mountType
       tapePool := driveState.currentTapePool.getD "", vo := driveState.currentVo.getD ""
       vid := driveState.currentVid.getD "", currentMount := true
       bytesTransferred := driveState.bytesTransferedInSession.getD 0
       filesTransferred := driveState.filesTransferedInSession.getD 0
       averageBandwidth :=
         match driveState.filesTransferedInSession, driveState.sessionElapsedTime with
         | some files, some elapsed => if elapsed > 0 then files / elapsed else 0
         | _, _ => 0
       activity := some (driveState.currentActivity.getD "") }] else [])
  ++ (if activeMountType driveState.nextMountType then
    [{ driveName := driveState.driveName, type := driveState.nextMountType
       tapePool := driveState.nextTapePool.getD "", vo := driveState.nextVo.getD ""
       vid := driveState.nextVid.getD "", currentMount := false, bytesTransferred := 0
       filesTransferred := 0, averageBandwidth := 0
       activity := some (driveState.nextActivity.getD "") }] else [])

def fetchMountInfo (purpose : Purpose) :
    Except RequestExn TapeMountDecisionInfo := do
  let tmdi ← env.archiveQueuesForUser.foldlM (fetchArchiveQueue env .archiveForUser) ⟨[], [], false⟩
  let tmdi ← env.archiveQueuesForRepack.foldlM (fetchArchiveQueue env .archiveForRepack) tmdi
  let tmdi ← env.retrieveQueues.foldlM (fetchRetrieveQueue env purpose) tmdi
  pure { tmdi with existingOrNextMounts := env.driveStates.flatMap mountsOfDrive }

/-! ## Trimming: the queue types that are trimmed and those that ask for it -/

/-- The queues of every type, as in `QueuesAndDrives`. -/
structure Queues where
  archive : JobQueueType → List (String × Option ArchiveJobsSummary)
  retrieve : JobQueueType → List (String × Option RetrieveJobsSummary)

/-- The queues that `fetchMountInfo` walks. -/
def QueuesAndDrives.walking (queues : Queues) : QueuesAndDrives :=
  { env with
    archiveQueuesForUser := queues.archive .jobsToTransferForUser
    archiveQueuesForRepack := queues.archive .jobsToTransferForRepack
    retrieveQueues := queues.retrieve .jobsToTransferForUser }

/-- Up to a queue that cannot be fetched; and whether there is none. -/
def trimQueues {S : Type} (jobs : S → UInt64) :
    List (String × Option S) → List (String × Option S) × Bool
  | [] => ([], true)
  | (name, none) :: rest => ((name, none) :: rest, false)
  | (name, some summary) :: rest =>
      let (kept, complete) := trimQueues jobs rest
      (if jobs summary == 0 then kept else (name, some summary) :: kept, complete)

/-- One turn of the loop over the types, which ends with the first exception. -/
def trimType (state : Queues × Bool) (queueType : JobQueueType) : Queues × Bool :=
  let (archive, complete) := trimQueues (·.jobs) (state.1.archive queueType)
  let (retrieve, complete) :=
    if complete then trimQueues (·.jobs) (state.1.retrieve queueType)
    else (state.1.retrieve queueType, false)
  (⟨Function.update state.1.archive queueType archive,
    Function.update state.1.retrieve queueType retrieve⟩, state.2 && complete)

/-- `OStoreDB::trimEmptyQueues`; and whether it ran without an exception. -/
def trimEmptyQueues (queues : Queues) : Queues × Bool :=
  [.jobsToTransferForUser, .jobsToReportToUser, .failedJobs].foldl trimType (queues, true)

/-- A queue without jobs can be fetched. -/
def hasEmpty {S : Type} (jobs : S → UInt64) (queues : List (String × Option S)) : Bool :=
  queues.any (fun queue => queue.2.any (jobs · == 0))

theorem hasEmpty_trimQueues {S : Type} {jobs : S → UInt64} {queues : List (String × Option S)}
    (h : (trimQueues jobs queues).2 = true) : hasEmpty jobs (trimQueues jobs queues).1 = false := by
  fun_induction trimQueues jobs queues with
  | case1 => rfl
  | case2 => cases h
  | case3 name summary rest kept complete hrest ih =>
    rw [hrest] at ih
    split
    · exact ih h
    rename_i hj
    rw [hasEmpty, List.any_cons, Bool.or_eq_false_iff]
    exact ⟨Bool.eq_false_iff.mpr hj, ih h⟩

variable {env : QueuesAndDrives} {purpose : Purpose} {tmdi tmdi' : TapeMountDecisionInfo}

theorem foldlM_queueTrimRequired {α : Type}
    {f : TapeMountDecisionInfo → α → Except RequestExn TapeMountDecisionInfo} {empty : α → Bool}
    (hs : ∀ t a t', f t a = .ok t' → t'.queueTrimRequired = (t.queueTrimRequired || empty a))
    {l : List α} (h : l.foldlM f tmdi = .ok tmdi') :
    tmdi'.queueTrimRequired = (tmdi.queueTrimRequired || l.any empty) := by
  induction l generalizing tmdi with
  | nil =>
    cases h
    simp
  | cons a l ih =>
    obtain ⟨t, ht, h⟩ := bind_eq_ok.mp h
    rw [ih h, hs _ _ _ ht, List.any_cons, Bool.or_assoc]

theorem fetchMountInfo_queueTrimRequired (h : fetchMountInfo env purpose = .ok tmdi) :
    tmdi.queueTrimRequired = (hasEmpty (·.jobs) env.archiveQueuesForUser
      || hasEmpty (·.jobs) env.archiveQueuesForRepack || hasEmpty (·.jobs) env.retrieveQueues) := by
  obtain ⟨t1, h1, h⟩ := bind_eq_ok.mp h
  obtain ⟨t2, h2, h⟩ := bind_eq_ok.mp h
  obtain ⟨t3, h3, h⟩ := bind_eq_ok.mp h
  cases h
  have ha (type : MountType) (t queue t') (h : fetchArchiveQueue env type t queue = .ok t') :
      t'.queueTrimRequired = (t.queueTrimRequired || queue.2.any (·.jobs == 0)) := by
    obtain ⟨name, _ | summary⟩ := queue
    · cases h
      simp
    simp only [fetchArchiveQueue] at h
    split at h
    · cases h
      simp [*]
    obtain ⟨m, -, h⟩ := bind_eq_ok.mp h
    cases h
    simp [*]
  have hr (t queue t') (h : fetchRetrieveQueue env purpose t queue = .ok t') :
      t'.queueTrimRequired = (t.queueTrimRequired || queue.2.any (·.jobs == 0)) := by
    obtain ⟨name, _ | summary⟩ := queue
    · cases h
      simp
    obtain ⟨tape, -, h⟩ := bind_eq_ok.mp h
    dsimp only at h
    split at h
    · obtain ⟨policy, -, h⟩ := bind_eq_ok.mp h
      cases h
      simp_all
    · split at h <;> cases h <;> simp [*]
  rw [foldlM_queueTrimRequired hr h3, foldlM_queueTrimRequired (ha _) h2,
    foldlM_queueTrimRequired (ha _) h1]
  rfl

/-- **TRIMMING SETTLES EXACTLY WHEN NO ARCHIVE QUEUE FOR REPACK IS EMPTY.** -/
theorem trimming_settles_iff {queues : Queues} (htrim : (trimEmptyQueues queues).2 = true)
    (h : fetchMountInfo (env.walking (trimEmptyQueues queues).1) purpose = .ok tmdi) :
    tmdi.queueTrimRequired = false
      ↔ hasEmpty (·.jobs) (queues.archive .jobsToTransferForRepack) = false := by
  have hc : (trimQueues (·.jobs) (queues.archive .jobsToTransferForUser)).2 = true
      ∧ (trimQueues (·.jobs) (queues.retrieve .jobsToTransferForUser)).2 = true := by
    simp only [trimEmptyQueues, trimType, List.foldl, Bool.true_and, Bool.and_eq_true] at htrim
    grind
  have ha := hasEmpty_trimQueues hc.1
  have hr := hasEmpty_trimQueues hc.2
  rw [fetchMountInfo_queueTrimRequired h]
  simp [QueuesAndDrives.walking, trimEmptyQueues, trimType, hc, ha, hr]

def idleLibrary : QueuesAndDrives := ⟨[], [], [], [], fun _ => .error (.exception ""), [], 0⟩

/-- One archive queue, without jobs. -/
def emptyArchiveQueue (queueType : JobQueueType) : Queues :=
  ⟨fun t => if t = queueType then [("tapepool", some ⟨0, 0, 0, 0, 0, 0, ∅⟩)] else [], fun _ => []⟩

theorem empty_user_queue_trimmed :
    (trimEmptyQueues (emptyArchiveQueue .jobsToTransferForUser)).2 = true
      ∧ ((⟨[], [], false⟩ : TapeMountDecisionInfo).queueTrimRequired = false
        ↔ hasEmpty (·.jobs) ((emptyArchiveQueue .jobsToTransferForUser).archive
          .jobsToTransferForRepack) = false) :=
  ⟨rfl, @trimming_settles_iff idleLibrary .getNextMount _ _ rfl rfl⟩

/-- **AN EMPTY ARCHIVE QUEUE FOR REPACK ASKS FOR TRIMMING FOR EVER.** -/
theorem empty_repack_queue_not_trimmed :
    let queues := emptyArchiveQueue .jobsToTransferForRepack
    (trimEmptyQueues queues).2 = true
      ∧ fetchMountInfo (idleLibrary.walking queues) .getNextMount = .ok ⟨[], [], true⟩
      ∧ fetchMountInfo (idleLibrary.walking (trimEmptyQueues queues).1) .getNextMount
        = .ok ⟨[], [], true⟩ :=
  ⟨rfl, rfl, rfl⟩

end TapeArchive.Scheduler
