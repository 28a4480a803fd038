/-
  `ArchiveQueue.cpp` and `ArchiveQueueShard.cpp`: the queue of the archive jobs
  of a tape pool, in the order in which they were added.

  Additions fill up the last shard and then create new ones; every round
  commits the QUEUE FIRST (so that the shard is referenced in all cases) and the
  shard after it. Removals write the SHARD FIRST and the queue after it.
-/
import TapeArchive.Objectstore.ShardedQueue

namespace TapeArchive.Objectstore

open Lib

/-! ## The data -/

structure ArchiveJobPointer where
  (fileid size : UInt64)
  address : String
  copynb : UInt32
  (priority minarchiverequestage starttime : UInt64)
  mountpolicyname : String
  deriving DecidableEq

instance : QueueJob ArchiveJobPointer where
  address := (·.address)
  size := (·.size)
  priority := (·.priority)
  minRequestAge := (·.minarchiverequestage)
  mountPolicyName := (·.mountpolicyname)
  starttime := (·.starttime)

abbrev ArchiveQueueShard := Shard ArchiveJobPointer

structure ArchiveQueue extends QueuePayload Unit where
  tapepool : String

/-- `ArchiveQueue::JobToAdd`; of the job dump only the copy number is used. -/
structure ArchiveQueue.JobToAdd where
  copyNb : UInt32
  archiveRequestAddress : String
  (archiveFileId fileSize : UInt64)
  policy : MountPolicy
  startTime : Int64

/-- The entry `ArchiveQueueShard::addJob` writes for a job. -/
def ArchiveQueue.JobToAdd.toPointer (j : ArchiveQueue.JobToAdd) : ArchiveJobPointer where
  fileid := j.archiveFileId
  size := j.fileSize
  address := j.archiveRequestAddress
  copynb := j.copyNb
  priority := j.policy.archivePriority
  minarchiverequestage := j.policy.archiveMinRequestAge
  starttime := j.startTime.toUInt64
  mountpolicyname := j.policy.name

namespace ArchiveQueue

/-- A computation on an archive queue and its shards. -/
abbrev M (α : Type) := QueueM ArchiveQueue ArchiveJobPointer α

/-- `getJobsSummary` of an archive shard checks nothing. -/
def kind : QueueKind ArchiveJobPointer Unit where
  className := "ArchiveQueue"
  rangeOf := fun _ => ()
  summaryCheck := fun _ => .ok ()

def c_maxShardSize : UInt64 := 25000

/-- The payload `initialize` sets up. -/
def initialized (name : String) : ArchiveQueue where
  queueshards := []
  prioritymap := []
  minrequestagemap := []
  mountpolicynamemap := []
  jobstotalsize := 0
  jobscount := 0
  oldestjobcreationtime := 0
  youngestjobcreationtime := 0
  mapsrebuildcount := 0
  tapepool := name

/-! ## Commit and rebuild -/

def rebuild (q : ArchiveQueue) : M ArchiveQueue := do
  let p ← rebuildSummaries kind q.toQueuePayload
  pure { q with toQueuePayload := { p with mapsrebuildcount := p.mapsrebuildcount + 1 } }

variable (addr : String)

def commit (q : ArchiveQueue) : M ArchiveQueue :=
  commitQueue (·.toQueuePayload) rebuild addr q

/-- The variables of `recomputeOldestAndYoungestJobCreationTime`. -/
structure Extremes where
  shards : List (ShardPointer Unit)
  (oldestJobCreationTime youngestJobCreationTime : Int64)

def Extremes.addJobs (e : Extremes) (jobs : List ArchiveJobPointer) : Extremes :=
  jobs.foldl (fun e j =>
    let startTime := j.starttime.toInt64
    { e with
      oldestJobCreationTime :=
        if startTime < e.oldestJobCreationTime then startTime else e.oldestJobCreationTime
      youngestJobCreationTime :=
        if startTime > e.youngestJobCreationTime then startTime
        else e.youngestJobCreationTime }) e

/-- The loop over the shards; the pointers to a shard that is gone are erased. -/
def recomputeShards : List String → Extremes → M Extremes
  | [], e => pure e
  | a :: rest, e => do
      let st ← Prog.getStore
      match st a with
      | none => recomputeShards rest { e with shards := QueuePayload.dropPointers a e.shards }
      | some (.shard s) => recomputeShards rest (e.addJobs s.jobs)
      | some _ => Prog.fail (.wrongType a)

def recomputeOldestAndYoungestJobCreationTime (q : ArchiveQueue) : M ArchiveQueue := do
  let e ← recomputeShards (q.queueshards.map (·.address))
    { shards := q.queueshards
      oldestJobCreationTime := Int64.maxValue
      youngestJobCreationTime := Int64.minValue }
  let q := { q with queueshards := e.shards }
  let q :=
    if e.oldestJobCreationTime ≠ Int64.maxValue then
      { q with oldestjobcreationtime := e.oldestJobCreationTime.toUInt64 }
    else q
  let q :=
    if e.youngestJobCreationTime ≠ Int64.minValue then
      { q with youngestjobcreationtime := e.youngestJobCreationTime.toUInt64 }
    else q
  pure q

/-! ## Additions -/

/-- While a shard is filled; the pointer is kept apart from the payload until it is full. -/
structure Filling where
  q : ArchiveQueue
  aqsp : ShardPointer Unit
  aqs : ArchiveQueueShard

/-- The totals and the creation times of the queue for one more job. -/
def addToTotals (p : QueuePayload Unit) (j : JobToAdd) : QueuePayload Unit :=
  let startTime := j.startTime.toUInt64
  let p :=
    if p.jobscount ≠ 0 then
      { p with
        oldestjobcreationtime :=
          if startTime < p.oldestjobcreationtime then startTime else p.oldestjobcreationtime
        youngestjobcreationtime :=
          if startTime > p.youngestjobcreationtime then startTime else p.youngestjobcreationtime
        jobstotalsize := p.jobstotalsize + j.fileSize }
    else
      { p with
        jobstotalsize := j.fileSize
        oldestjobcreationtime := startTime
        youngestjobcreationtime := startTime }
  { p with jobscount := p.jobscount + 1 }

def addJobToShard (aqs : ArchiveQueueShard) (j : JobToAdd) : ArchiveQueueShard where
  jobs := aqs.jobs ++ [j.toPointer]
  jobstotalsize := aqs.jobstotalsize + j.fileSize

/-- The body of the inner loop: account for one job and add it to the shard. -/
def Filling.addJob (f : Filling) (j : JobToAdd) : Except Exn Filling := do
  let p ← f.q.incCounts j.toPointer
  let aqs := addJobToShard f.aqs j
  pure
    { q := { f.q with toQueuePayload := addToTotals p j }
      aqsp := { f.aqsp with
        shardjobscount := UInt64.ofNat aqs.jobs.length
        shardbytescount := f.aqsp.shardbytescount + j.fileSize }
      aqs := aqs }

/-- The inner loop: add jobs while there are some and the shard is not full. -/
def fillShard : List JobToAdd → Filling → Except Exn (List JobToAdd × Filling)
  | [], f => .ok ([], f)
  | j :: rest, f =>
      if f.aqsp.shardjobscount < c_maxShardSize then do
        let f ← f.addJob j
        fillShard rest f
      else .ok (j :: rest, f)

/-- The last shard is filled up after the queue is committed, or the queue is rebuilt. -/
def addToLastShard (shardPointer : ShardPointer Unit)
    (jobs : List JobToAdd) (q : ArchiveQueue) : M (List JobToAdd × ArchiveQueue) := do
  let st ← Prog.getStore
  match st shardPointer.address with
  | none => do
      let q ← rebuild q
      let q ← commit addr q
      pure (jobs, q)
  | some (.shard aqs) =>
      if shardPointer.shardbytescount ≠ aqs.jobstotalsize
          ∨ shardPointer.shardjobscount ≠ UInt64.ofNat aqs.jobs.length then do
        let q ← rebuild q
        let q ← commit addr q
        pure (jobs, q)
      else do
        let r ← Prog.ofExcept (fillShard jobs ⟨q, shardPointer, aqs⟩)
        let q ← commit addr
          { r.2.q with queueshards := q.queueshards.dropLast ++ [r.2.aqsp] }
        atomicOverwrite shardPointer.address (.shard r.2.aqs)
        pure (r.1, q)
  | some _ => Prog.fail (.wrongType shardPointer.address)

/-- The new shard is filled in memory, the queue is committed, then the shard is inserted. -/
def addToNewShard (jobs : List JobToAdd) (q : ArchiveQueue) :
    M (List JobToAdd × ArchiveQueue) := do
  let a ← nextId ("ArchiveQueueShard-" ++ q.tapepool)
  let r ← Prog.ofExcept (fillShard jobs ⟨q, ⟨a, 0, 0, ()⟩, ⟨[], 0⟩⟩)
  let q ← commit addr { r.2.q with queueshards := q.queueshards ++ [r.2.aqsp] }
  create a (.shard r.2.aqs)
  pure (r.1, q)

/-- One round of the outer loop, returning the jobs that are still to be added. -/
def addRound (jobs : List JobToAdd) (q : ArchiveQueue) :
    M (List JobToAdd × ArchiveQueue) :=
  match q.queueshards.getLast? with
  | some shardPointer =>
      if shardPointer.shardjobscount < c_maxShardSize then
        addToLastShard addr shardPointer jobs q
      else addToNewShard addr jobs q
  | none => addToNewShard addr jobs q

/-- A round adds a job, or rebuilds; more than two rounds per job never end. -/
def addJobsLoop (addr : String) :
    Nat → List JobToAdd → ArchiveQueue → M ArchiveQueue
  | _, [], q => pure q
  | 0, _ :: _, _ => Prog.fail .diverges
  | fuel + 1, j :: jobs, q => do
      let r ← addRound addr (j :: jobs) q
      addJobsLoop addr fuel r.1 r.2

def addJobsAndCommit (jobsToAdd : List JobToAdd) (q : ArchiveQueue) :
    M ArchiveQueue :=
  addJobsLoop addr (2 * jobsToAdd.length) jobsToAdd q

/-! ## Removals -/

/-- What is left to remove, the next index and the queue, after the shard at `shardIndex`. -/
def removeRound (localJobsToRemove : List String) (shardIndex : Nat)
    (shardPointer : ShardPointer Unit) (q : ArchiveQueue) :
    M (List String × Nat × ArchiveQueue) := do
  let aqs ← fetchShard shardPointer.address
  let r := aqs.removeJobs localJobsToRemove
  storeRemoval shardPointer.address r
  let p ← Prog.ofExcept (r.2.removedJobs.foldlM QueuePayload.decCounts q.toQueuePayload)
  let q := { q with toQueuePayload := p.afterRemoval shardIndex shardPointer r.2 }
  let q ← repairIf rebuild (r.2.mismatch shardPointer) q
  let q ← recomputeOldestAndYoungestJobCreationTime q
  let q ← commit addr q
  pure (trimRemoved localJobsToRemove r.2,
    if r.2.jobsAfter ≠ 0 then shardIndex + 1 else shardIndex, q)

def removeJobsAndCommit (jobsToRemove : List String) (q : ArchiveQueue) : M ArchiveQueue :=
  removeLoop (fun q : ArchiveQueue => q.queueshards) (removeRound addr)
    q.queueshards.length jobsToRemove 0 q

/-! ## Candidates -/

structure JobDump where
  size : UInt64
  address : String
  copyNb : UInt32
  deriving DecidableEq

/-- The dump of a stored job; the copy number goes through `uint16_t`. -/
def JobDump.ofPointer (j : ArchiveJobPointer) : JobDump :=
  ⟨j.size, j.address, j.copynb.toUInt16.toUInt32⟩

def getCandidateList (maxBytes maxFiles : UInt64) (archiveRequestsToSkip : List String)
    (q : ArchiveQueue) : M (CandidateJobList JobDump) :=
  candidateList JobDump.ofPointer (fun j => archiveRequestsToSkip.contains j.address)
    maxBytes maxFiles q.queueshards {}

end ArchiveQueue

end TapeArchive.Objectstore
