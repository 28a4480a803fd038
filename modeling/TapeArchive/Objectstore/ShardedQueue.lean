/-
  What `ArchiveQueue.cpp` and `RetrieveQueue.cpp` have in common: a queue object that
  points to SHARDS, which hold the jobs, with summaries of what they contain.

  The two classes differ in the record a job is (`QueueJob`), in what else a
  shard pointer holds (`R`: nothing, or a range of fSeqs) and in what
  `getJobsSummary` of a shard demands (`QueueKind`).
-/
import TapeArchive.Objectstore.ValueCountMap

namespace TapeArchive.Objectstore

open Lib

/-! ## Jobs, shards, pointers -/

/-- The fields of a job pointer that the summaries of a queue are made of. -/
class QueueJob (J : Type) where
  address : J → String
  size : J → UInt64
  priority : J → UInt64
  minRequestAge : J → UInt64
  mountPolicyName : J → String
  starttime : J → UInt64

export QueueJob (address size priority minRequestAge mountPolicyName starttime)

structure Shard (J : Type) where
  jobs : List J
  jobstotalsize : UInt64
  deriving DecidableEq

structure ShardPointer (R : Type) where
  address : String
  (shardjobscount shardbytescount : UInt64)
  range : R
  deriving DecidableEq

/-- The part of a queue's payload that both classes have. -/
structure QueuePayload (R : Type) where
  queueshards : List (ShardPointer R)
  (prioritymap minrequestagemap : ValueCountMap UInt64)
  mountpolicynamemap : ValueCountMap String
  (jobstotalsize jobscount oldestjobcreationtime youngestjobcreationtime : UInt64)
  mapsrebuildcount : UInt64
  deriving DecidableEq

/-- `common::dataStructures::MountPolicy`, as far as the queues read it. -/
structure MountPolicy where
  name : String
  (archivePriority archiveMinRequestAge retrievePriority retrieveMinRequestAge : UInt64)

/-- `other` is an object that `getHeaderFromObjectData` refuses. -/
inductive Obj (Q S : Type) where
  | queue (q : Q)
  | shard (s : S)
  | other
  deriving DecidableEq

/-- Where the two queue classes differ in the code they share. -/
structure QueueKind (J R : Type) where
  /-- The class name in the messages. -/
  className : String
  /-- What `rebuild` records in a pointer besides the counts. -/
  rangeOf : List J → R
  /-- The checks of the shard's `getJobsSummary`. -/
  summaryCheck : Shard J → Except Exn Unit

abbrev QueueM (Q J α : Type) := BackendM (Obj Q (Shard J)) α

abbrev QueueStore (Q J : Type) := Store String (Obj Q (Shard J))

variable {Q J R : Type}

/-- The bytes of a list of jobs, in the `uint64_t` arithmetic of the code. -/
def bytesOf [QueueJob J] (jobs : List J) : UInt64 := (jobs.map size).sum

section Bytes

variable [QueueJob J]

@[simp] theorem bytesOf_nil : bytesOf ([] : List J) = 0 := rfl

@[simp] theorem bytesOf_cons (j : J) (jobs : List J) :
    bytesOf (j :: jobs) = size j + bytesOf jobs := by
  simp [bytesOf]

@[simp] theorem bytesOf_append (jobs jobs' : List J) :
    bytesOf (jobs ++ jobs') = bytesOf jobs + bytesOf jobs' := by
  simp [bytesOf]

theorem bytesOf_perm {jobs jobs' : List J} (h : jobs.Perm jobs') : bytesOf jobs = bytesOf jobs' :=
  (h.map size).sum_eq

/-- The same bytes as a number, which does not wrap. -/
def natBytes (jobs : List J) : Nat := (jobs.map (fun j => (size j).toNat)).sum

@[simp] theorem natBytes_nil : natBytes ([] : List J) = 0 := rfl

@[simp] theorem natBytes_cons (j : J) (jobs : List J) :
    natBytes (j :: jobs) = (size j).toNat + natBytes jobs := by
  simp [natBytes]

@[simp] theorem natBytes_append (jobs jobs' : List J) :
    natBytes (jobs ++ jobs') = natBytes jobs + natBytes jobs' := by
  simp [natBytes]

theorem natBytes_perm {jobs jobs' : List J} (h : jobs.Perm jobs') : natBytes jobs = natBytes jobs' :=
  (h.map _).sum_eq

theorem toNat_bytesOf {jobs : List J} (h : natBytes jobs < 2 ^ 64) :
    (bytesOf jobs).toNat = natBytes jobs := by
  induction jobs with
  | nil => rfl
  | cons j jobs ih =>
    rw [natBytes_cons] at h
    rw [bytesOf_cons, natBytes_cons, UInt64.toNat_add, ih (by omega)]
    exact Nat.mod_eq_of_lt h

end Bytes

/-! ## Shards -/

def fetchShard (a : String) : QueueM Q J (Shard J) := do
  let st ← Prog.getStore
  match st a with
  | some (.shard s) => pure s
  | some _ => Prog.fail (.wrongType a)
  | none => Prog.fail (.noSuchObject a)

/-- `fetch()` of the queue object. -/
def fetchQueue (a : String) : QueueM Q J Q := do
  let st ← Prog.getStore
  match st a with
  | some (.queue q) => pure q
  | some _ => Prog.fail (.wrongType a)
  | none => Prog.fail (.noSuchObject a)

section ShardOps

variable [QueueJob J]

def Shard.rebuild (s : Shard J) : Shard J := { s with jobstotalsize := bytesOf s.jobs }

/-- What `removeJobs` reports. -/
structure RemovalResult (J : Type) where
  (jobsRemoved jobsAfter : Nat)
  (bytesRemoved bytesAfter : UInt64)
  removedJobs : List J

/-- Every entry with the address is swapped to the end and trimmed. -/
def Shard.removeAddress (acc : Shard J × List J) (rrt : String) : Shard J × List J :=
  let gone := acc.1.jobs.filter (fun j => address j == rrt)
  ({ jobs := acc.1.jobs.filter (fun j => address j != rrt)
     jobstotalsize := acc.1.jobstotalsize - bytesOf gone },
   acc.2 ++ gone)

def Shard.removeJobs (s : Shard J) (jobsToRemove : List String) :
    Shard J × RemovalResult J :=
  let r := jobsToRemove.foldl Shard.removeAddress (s, [])
  (r.1, { jobsRemoved := r.2.length
          jobsAfter := r.1.jobs.length
          bytesRemoved := bytesOf r.2
          bytesAfter := r.1.jobstotalsize
          removedJobs := r.2 })

end ShardOps

/-! ## The summaries of the queue -/

namespace QueuePayload

/-- The three `incCount` calls made for a job. -/
def incCounts [QueueJob J] (q : QueuePayload R) (j : J) : Except Exn (QueuePayload R) := do
  let prioritymap ← q.prioritymap.incCount (priority j)
  let minrequestagemap ← q.minrequestagemap.incCount (minRequestAge j)
  let mountpolicynamemap ← q.mountpolicynamemap.incCount (mountPolicyName j)
  pure { q with prioritymap, minrequestagemap, mountpolicynamemap }

/-- The three `decCount` calls made for a job. -/
def decCounts [QueueJob J] (q : QueuePayload R) (j : J) : Except Exn (QueuePayload R) := do
  let prioritymap ← q.prioritymap.decCount (priority j)
  let minrequestagemap ← q.minrequestagemap.decCount (minRequestAge j)
  let mountpolicynamemap ← q.mountpolicynamemap.decCount (mountPolicyName j)
  pure { q with prioritymap, minrequestagemap, mountpolicynamemap }

def checkMapsAndShardsCoherency (q : QueuePayload R) : Except Exn Bool :=
  let bytesFromShardPointers := (q.queueshards.map (·.shardbytescount)).sum
  let jobsExpectedFromShardsPointers := (q.queueshards.map (·.shardjobscount)).sum
  if q.jobstotalsize ≠ bytesFromShardPointers ∨ q.jobscount ≠ jobsExpectedFromShardsPointers then
    .ok false
  else do
    let p ← q.prioritymap.total
    if UInt64.ofNat p ≠ q.jobscount then pure false
    else do
      let a ← q.minrequestagemap.total
      if UInt64.ofNat a ≠ q.jobscount then pure false
      else do
        let n ← q.mountpolicynamemap.total
        pure (UInt64.ofNat n == q.jobscount)

/-- The `erase` loop for a shard that is gone. -/
def dropPointers (a : String) (ps : List (ShardPointer R)) : List (ShardPointer R) :=
  ps.filter (fun p => p.address != a)

/-- Store a summary in the first pointer to the address. -/
def recordSummary (a : String) (jobs size : UInt64) (range : R) :
    List (ShardPointer R) → Option (List (ShardPointer R))
  | [] => none
  | p :: ps =>
      if p.address = a then
        some ({ p with shardjobscount := jobs, shardbytescount := size, range := range } :: ps)
      else (recordSummary a jobs size range ps).map (p :: ·)

end QueuePayload

/-- The totals and the pointer `sp` after a removal; it goes when the shard was drained. -/
def QueuePayload.afterRemoval (q : QueuePayload R) (shardIndex : Nat) (sp : ShardPointer R)
    (r : RemovalResult J) : QueuePayload R :=
  { q with
    jobscount := q.jobscount - UInt64.ofNat r.jobsRemoved
    jobstotalsize := q.jobstotalsize - r.bytesRemoved
    queueshards :=
      if r.jobsAfter ≠ 0 then
        q.queueshards.set shardIndex
          { sp with
            shardbytescount := sp.shardbytescount - r.bytesRemoved
            shardjobscount := sp.shardjobscount - UInt64.ofNat r.jobsRemoved }
      else q.queueshards.eraseIdx shardIndex }

/-- The shard is still there and its pointer disagrees with it after the removal. -/
def RemovalResult.mismatch (r : RemovalResult J) (sp : ShardPointer R) : Bool :=
  r.jobsAfter ≠ 0 ∧
    (sp.shardbytescount - r.bytesRemoved ≠ r.bytesAfter
      ∨ sp.shardjobscount - UInt64.ofNat r.jobsRemoved ≠ UInt64.ofNat r.jobsAfter)

/-- Write back a shard after a removal, or remove it when it is drained. -/
def storeRemoval (a : String) (r : Shard J × RemovalResult J) : QueueM Q J Unit :=
  if r.2.jobsAfter ≠ 0 then atomicOverwrite a (.shard r.1) else remove a

/-- The addresses that are still to be removed after a round. -/
def trimRemoved [QueueJob J] (localJobsToRemove : List String) (r : RemovalResult J) :
    List String :=
  localJobsToRemove.filter (fun ja => !r.removedJobs.any (fun j => address j == ja))

/-- One round per pointer, which moves on or loses the pointer. -/
def removeLoop (pointers : Q → List (ShardPointer R))
    (round : List String → Nat → ShardPointer R → Q → QueueM Q J (List String × Nat × Q)) :
    Nat → List String → Nat → Q → QueueM Q J Q
  | 0, _, _, q => pure q
  | rounds + 1, localJobsToRemove, shardIndex, q =>
      match localJobsToRemove, (pointers q)[shardIndex]? with
      | _ :: _, some shardPointer => do
          let r ← round localJobsToRemove shardIndex shardPointer q
          removeLoop pointers round rounds r.1 r.2.1 r.2.2
      | _, _ => pure q

/-! ## `rebuild()` -/

/-- The variables of `rebuild()`: the payload under repair and the running totals. -/
structure RebuildState (R : Type) where
  q : QueuePayload R
  (totalJobs totalBytes : UInt64)
  (oldestJobCreationTime youngestJobCreationTime : Int64)

/-- One job of the loop over `dumpJobs()`. -/
def RebuildState.countJob [QueueJob J] (r : RebuildState R) (j : J) :
    Except Exn (RebuildState R) := do
  let q ← r.q.incCounts j
  let startTime := (starttime j).toInt64
  pure { r with
    q := q
    oldestJobCreationTime :=
      if startTime < r.oldestJobCreationTime then startTime else r.oldestJobCreationTime
    youngestJobCreationTime :=
      if startTime > r.youngestJobCreationTime then startTime else r.youngestJobCreationTime }

/-- A shard that is gone loses its pointers; the others are summarised again. -/
def rebuildShards [QueueJob J] (K : QueueKind J R) :
    List String → RebuildState R → QueueM Q J (RebuildState R)
  | [], r => pure r
  | a :: rest, r => do
      let st ← Prog.getStore
      match st a with
      | none =>
          rebuildShards K rest
            { r with q := { r.q with queueshards := QueuePayload.dropPointers a r.q.queueshards } }
      | some (.shard s) => do
          let r' ← Prog.ofExcept (s.jobs.foldlM RebuildState.countJob r)
          let jobs := UInt64.ofNat s.jobs.length
          let size := bytesOf s.jobs
          match QueuePayload.recordSummary a jobs size (K.rangeOf s.jobs) r'.q.queueshards with
          | none =>
              Prog.fail (.exception
                ("In " ++ K.className ++ "::rebuild(): failed to record summary for shard " ++ a))
          | some ps => do
              Prog.ofExcept (K.summaryCheck s)
              if size ≠ s.jobstotalsize then atomicOverwrite a (.shard s.rebuild) else pure ()
              rebuildShards K rest
                { r' with
                  q := { r'.q with queueshards := ps }
                  totalJobs := r'.totalJobs + jobs
                  totalBytes := r'.totalBytes + size }
      | some _ => Prog.fail (.wrongType a)

/-- `rebuild()`, up to the count of rebuilds. -/
def rebuildSummaries [QueueJob J] (K : QueueKind J R) (q : QueuePayload R) :
    QueueM Q J (QueuePayload R) := do
  let r ← rebuildShards K (q.queueshards.map (·.address))
    { q := { q with prioritymap := [], minrequestagemap := [], mountpolicynamemap := [] }
      totalJobs := 0
      totalBytes := 0
      oldestJobCreationTime := Int64.maxValue
      youngestJobCreationTime := Int64.minValue }
  pure { r.q with
    jobscount := r.totalJobs
    jobstotalsize := r.totalBytes
    oldestjobcreationtime := r.oldestJobCreationTime.toUInt64
    youngestjobcreationtime := r.youngestJobCreationTime.toUInt64 }

/-- A repair of the summaries, when one is needed. -/
def repairIf (repair : Q → QueueM Q J Q) (needed : Bool) (q : Q) : QueueM Q J Q :=
  if needed then repair q else pure q

/-- Check the summaries, repair them if necessary, and write the queue. -/
def commitQueue (payload : Q → QueuePayload R) (repair : Q → QueueM Q J Q)
    (addr : String) (q : Q) : QueueM Q J Q := do
  let coherent ← Prog.ofExcept (payload q).checkMapsAndShardsCoherency
  let q ← repairIf repair (!coherent) q
  atomicOverwrite addr (.queue q)
  pure q

/-! ## Candidates -/

/-- `CandidateJobList`, with the job dumps `D` of the class. -/
structure CandidateJobList (D : Type) where
  remainingFilesAfterCandidates : UInt64 := 0
  remainingBytesAfterCandidates : UInt64 := 0
  candidateFiles : UInt64 := 0
  candidateBytes : UInt64 := 0
  candidates : List D := []

/-- Jobs to skip are passed over; the loop breaks once a limit is reached. -/
def candidateLoop [QueueJob J] {D : Type} (dump : J → D) (skip : J → Bool)
    (maxBytes maxFiles : UInt64) : List J → CandidateJobList D → CandidateJobList D
  | [], ret => ret
  | j :: rest, ret =>
      let ret :=
        if skip j then ret
        else { ret with
          candidates := ret.candidates ++ [dump j]
          candidateBytes := ret.candidateBytes + size j
          candidateFiles := ret.candidateFiles + 1 }
      let ret := { ret with
        remainingBytesAfterCandidates := ret.remainingBytesAfterCandidates - size j
        remainingFilesAfterCandidates := ret.remainingFilesAfterCandidates - 1 }
      if ret.candidateBytes ≥ maxBytes ∨ ret.candidateFiles ≥ maxFiles then ret
      else candidateLoop dump skip maxBytes maxFiles rest ret

def Shard.getCandidateJobList [QueueJob J] {D : Type} (dump : J → D) (skip : J → Bool)
    (maxBytes maxFiles : UInt64) (s : Shard J) : CandidateJobList D :=
  candidateLoop dump skip maxBytes maxFiles s.jobs
    { remainingBytesAfterCandidates := s.jobstotalsize
      remainingFilesAfterCandidates := UInt64.ofNat s.jobs.length }

/-- The loop of the queue's `getCandidateList` over the shard pointers. -/
def candidateList [QueueJob J] {D : Type} (dump : J → D) (skip : J → Bool)
    (maxBytes maxFiles : UInt64) :
    List (ShardPointer R) → CandidateJobList D → QueueM Q J (CandidateJobList D)
  | [], ret => pure ret
  | p :: rest, ret =>
      if ret.candidateBytes < maxBytes ∧ ret.candidateFiles < maxFiles then do
        let s ← fetchShard p.address
        let shardCandidates := s.getCandidateJobList dump skip
          (maxBytes - ret.candidateBytes) (maxFiles - ret.candidateFiles)
        candidateList dump skip maxBytes maxFiles rest
          { candidateBytes := ret.candidateBytes + shardCandidates.candidateBytes
            candidateFiles := ret.candidateFiles + shardCandidates.candidateFiles
            remainingBytesAfterCandidates := shardCandidates.remainingBytesAfterCandidates
            remainingFilesAfterCandidates := shardCandidates.remainingFilesAfterCandidates
            candidates := ret.candidates ++ shardCandidates.candidates }
      else
        candidateList dump skip maxBytes maxFiles rest
          { ret with
            remainingBytesAfterCandidates := ret.remainingBytesAfterCandidates + p.shardbytescount
            remainingFilesAfterCandidates :=
              ret.remainingFilesAfterCandidates + p.shardjobscount }

end TapeArchive.Objectstore
