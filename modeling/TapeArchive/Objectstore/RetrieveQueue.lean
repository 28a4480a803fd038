/-
  `RetrieveQueue.cpp`: the queue of the retrieve jobs of a tape. The shards
  cover successive ranges of fSeqs, and a full one is SPLIT in two halves of its range.

    1. the LAYOUT (`layout`): a plan in memory, made from the shard pointers alone;
       counts of split shards are estimates,
    2. the EXECUTION (`applyShards`), shard by shard: a new shard is pre-referenced,
       filled from the shard it splits, the queue is committed and the shards are written.
-/
import TapeArchive.Objectstore.RetrieveQueueShard

namespace TapeArchive.Objectstore

open Lib

/-! ## The data -/

structure RetrieveQueue extends QueuePayload FseqRange where
  vid : String
  activity_map : ValueCountMap String
  maxshardsize : UInt64
  deriving DecidableEq

namespace RetrieveQueue

open RetrieveQueueShard (addJobsBatch jobsToAddSet getJobsSummary)

/-- A computation on a retrieve queue and its shards. -/
abbrev M (α : Type) := QueueM RetrieveQueue RetrieveJobPointer α

abbrev RStore := QueueStore RetrieveQueue RetrieveJobPointer

/-- `rebuild` records the range of fSeqs, and asks each shard for its summary. -/
def kind : QueueKind RetrieveJobPointer FseqRange where
  className := "RetrieveQueue"
  rangeOf := RetrieveQueueShard.rangeOf
  summaryCheck := fun s => (getJobsSummary s).map (fun _ => ())

/-- The payload `initialize` sets up, with a maximum shard size of choice. -/
def initialized (vid : String) (maxShardSize : UInt64) : RetrieveQueue where
  queueshards := []
  prioritymap := []
  minrequestagemap := []
  mountpolicynamemap := []
  jobstotalsize := 0
  jobscount := 0
  oldestjobcreationtime := 0
  youngestjobcreationtime := 0
  mapsrebuildcount := 0
  vid := vid
  activity_map := []
  maxshardsize := maxShardSize

/-! ## Commit and rebuild -/

variable (q : RetrieveQueue)

def rebuild : M RetrieveQueue := do
  let p ← rebuildSummaries kind q.toQueuePayload
  pure { q with toQueuePayload := p }

/-- The rebuild a commit makes, which is counted. -/
def countedRebuild : M RetrieveQueue := do
  let q ← rebuild q
  pure { q with mapsrebuildcount := q.mapsrebuildcount + 1 }

variable (addr : String)

def commit (q : RetrieveQueue) : M RetrieveQueue :=
  commitQueue (·.toQueuePayload) countedRebuild addr q

/-! ## The layout of an addition -/

/-- `node` identifies the element of the list, so that `splitSource` can name one. -/
structure ShardForAddition where
  node : Nat := 0
  newShard : Bool := false
  toSplit : Bool := false
  fromSplit : Bool := false
  splitSource : Nat := 0
  address : String := ""
  (minFseq maxFseq jobsCount : UInt64)
  jobsToAdd : List JobToAdd := []

def updateShardLimits (fSeq : UInt64) (sfa : ShardForAddition) : ShardForAddition :=
  { sfa with
    minFseq := if fSeq < sfa.minFseq then fSeq else sfa.minFseq
    maxFseq := if fSeq > sfa.maxFseq then fSeq else sfa.maxFseq }

variable (sfa : ShardForAddition)

def ShardForAddition.addJob (jobToAdd : JobToAdd) : ShardForAddition :=
  updateShardLimits jobToAdd.fSeq
    { sfa with jobsCount := sfa.jobsCount + 1, jobsToAdd := sfa.jobsToAdd ++ [jobToAdd] }

/-- The highest fSeq of the lower half of a shard's range. -/
def ShardForAddition.middle : UInt64 :=
  sfa.minFseq + (sfa.maxFseq - sfa.minFseq) / 2

/-- The new shard of a split: the lower half of the range, and the jobs to add in it. -/
def ShardForAddition.lowerHalf : ShardForAddition where
  newShard := true
  fromSplit := true
  splitSource := sfa.node
  minFseq := sfa.minFseq
  maxFseq := sfa.middle
  jobsCount := sfa.jobsCount / 2
  jobsToAdd := sfa.jobsToAdd.filter (fun j => j.fSeq ≤ sfa.middle)

/-- What a split leaves of the shard: the upper half of the range. -/
def ShardForAddition.upperHalf : ShardForAddition :=
  { sfa with
    minFseq := sfa.middle + 1
    jobsCount := sfa.jobsCount / 2
    toSplit := true
    jobsToAdd := sfa.jobsToAdd.filter (fun j => ¬ j.fSeq ≤ sfa.middle) }

variable (maxShardSize : UInt64)

/-- The shard may not take the job as it is and is split. -/
def ShardForAddition.mustSplit (sfa : ShardForAddition) : Bool :=
  ¬ (sfa.jobsCount < maxShardSize ∨ sfa.fromSplit ∨ sfa.newShard)

/-- `addJobToShardAndMaybeSplit`: the elements that take the place of the shard. -/
def addJobToShardAndMaybeSplit (jobToAdd : JobToAdd)
    (sfa : ShardForAddition) : List ShardForAddition :=
  if sfa.mustSplit maxShardSize then
    if jobToAdd.fSeq ≥ sfa.upperHalf.minFseq then [sfa.lowerHalf, sfa.upperHalf.addJob jobToAdd]
    else [sfa.lowerHalf.addJob jobToAdd, sfa.upperHalf]
  else [sfa.addJob jobToAdd]

/-- Where a job lands: the shards before, the shard that takes it, the shards after. -/
def landing (jta : JobToAdd) :
    List ShardForAddition →
      Option (List ShardForAddition × ShardForAddition × List ShardForAddition)
  | [] => none
  | [sfa] =>
      if sfa.minFseq > jta.fSeq then some ([], sfa, [])
      else if jta.fSeq ≥ sfa.minFseq ∧ jta.fSeq ≤ sfa.maxFseq then some ([], sfa, [])
      else if sfa.maxFseq < jta.fSeq then some ([], sfa, [])
      else none
  | sfa :: nextSfa :: rest =>
      if sfa.minFseq > jta.fSeq then some ([], sfa, nextSfa :: rest)
      else if jta.fSeq ≥ sfa.minFseq ∧ jta.fSeq ≤ sfa.maxFseq then
        some ([], sfa, nextSfa :: rest)
      else if jta.fSeq > sfa.maxFseq ∧ jta.fSeq < nextSfa.minFseq then
        if sfa.jobsCount < nextSfa.jobsCount then some ([], sfa, nextSfa :: rest)
        else some ([sfa], nextSfa, rest)
      else (landing jta (nextSfa :: rest)).map (fun l => (sfa :: l.1, l.2))

/-- One job of the layout; the first job of an empty queue creates the initial shard. -/
def layoutJob (shards : List ShardForAddition) (jta : JobToAdd) :
    Except Exn (List ShardForAddition) :=
  match shards with
  | [] => .ok [{ newShard := true, minFseq := jta.fSeq, maxFseq := jta.fSeq, jobsCount := 1,
                 jobsToAdd := [jta] }]
  | _ =>
      match landing jta shards with
      | some (before, sfa, after) =>
          .ok (before ++ addJobToShardAndMaybeSplit maxShardSize jta sfa ++ after)
      | none => .error (.exception
          "In RetrieveQueue::addJobsAndCommit(): could not find an appropriate shard for job")

def shardsForAddition (ps : List RetrieveQueueShardPointer) : List ShardForAddition :=
  ps.mapIdx (fun i p =>
    { node := i
      address := p.address
      minFseq := p.range.minfseq
      maxFseq := p.range.maxfseq
      jobsCount := p.shardjobscount })

/-- The fSeqs are put in order: what is used pushes the limits of the next shards. -/
def orderShards : UInt64 → List ShardForAddition → List ShardForAddition
  | _, [] => []
  | highestFseqSoFar, sfa :: rest =>
      let minFseq := if highestFseqSoFar < sfa.minFseq then sfa.minFseq else highestFseqSoFar
      let maxFseq := if minFseq < sfa.maxFseq then sfa.maxFseq else minFseq
      { sfa with minFseq, maxFseq } :: orderShards (maxFseq + 1) rest

def layout (ps : List RetrieveQueueShardPointer)
    (jobsToAdd : List JobToAdd) : Except Exn (List ShardForAddition) :=
  jobsToAdd.foldlM (layoutJob maxShardSize) (orderShards 0 (shardsForAddition ps))

/-! ## The execution of the plan -/

/-- The object under an address, read as a shard. -/
def readShard (st : RStore) (a : String) : Except Exn RetrieveQueueShard :=
  match st a with
  | some (.shard s) => .ok s
  | some _ => .error (.wrongType a)
  | none => .error (.noSuchObject a)

/-- The queue, the shard and the one it was split from, ready before the first write. -/
structure Prepared where
  q : RetrieveQueue
  rqs : RetrieveQueueShard
  rqsSplitFrom : Option (String × RetrieveQueueShard)
  addedJobs : Nat
  addedBytes : UInt64
  transferedInSplitJobs : Nat
  transferedInSplitBytes : UInt64

/-- A pointer for a new shard: appended, then swapped down to its index. -/
def addShardPointer (shardIndex : Nat) (a : String) (q : RetrieveQueue) :
    Except Exn RetrieveQueue :=
  if shardIndex ≤ q.queueshards.length then
    .ok { q with queueshards := q.queueshards.insertIdx shardIndex ⟨a, 0, 0, ⟨0, 0⟩⟩ }
  else .error (.undefined .shardPointerIndex)

/-- The jobs of the split shard that belong to the range of the new one. -/
def jobsToTransfer (shard : ShardForAddition) (rqsSplitFrom : RetrieveQueueShard) :
    List RetrieveJobPointer :=
  rqsSplitFrom.jobs.filter (fun j => shard.minFseq ≤ j.fseq ∧ j.fseq ≤ shard.maxFseq)

/-- Estimates for the new shard, and for what `splitFromShardPointer` refers to. -/
def splitPointers (shardIndex sourceIndex : Nat) (shard source : ShardForAddition)
    (ps : List RetrieveQueueShardPointer) : List RetrieveQueueShardPointer :=
  (ps.modify shardIndex (fun p =>
    { p with
      range := ⟨shard.minFseq, shard.maxFseq⟩
      shardjobscount := shard.jobsCount
      shardbytescount := 1 })).modify sourceIndex (fun p =>
    { p with
      range := ⟨source.minFseq, source.maxFseq⟩
      shardjobscount := source.jobsCount })

/-- `splitFromShardPointer` is looked up at the index of the source in the FINAL list. -/
def prepareNewShard (st : RStore) (plan : List ShardForAddition) (shardIndex : Nat)
    (shard : ShardForAddition) (a : String) (q : RetrieveQueue) : Except Exn Prepared := do
  let q ← addShardPointer shardIndex a q
  if shard.fromSplit then
    match plan.findIdx? (fun s => !s.newShard && s.node == shard.splitSource) with
    | none => .error (.undefined .shardPointerIndex)
    | some sourceIndex =>
        match plan[sourceIndex]? with
        | none => .error (.undefined .shardPointerIndex)
        | some source =>
            if q.queueshards.length ≤ sourceIndex then .error (.undefined .shardPointerIndex)
            else do
              let rqsSplitFrom ← readShard st source.address
              let moved := jobsToTransfer shard rqsSplitFrom
              let rqs ← moved.foldlM (fun rqs j => addJobsBatch rqs [JobToAdd.ofPointer j]) ⟨[], 0⟩
              let r := rqsSplitFrom.removeJobs (moved.map (·.address))
              pure
                { q := { q with
                    queueshards := splitPointers shardIndex sourceIndex shard source q.queueshards }
                  rqs := rqs
                  rqsSplitFrom := some (source.address, r.1)
                  addedJobs := moved.length
                  addedBytes := bytesOf moved
                  transferedInSplitJobs := r.2.jobsRemoved
                  transferedInSplitBytes := r.2.bytesRemoved }
  else
    pure
      { q := q
        rqs := ⟨[], 0⟩
        rqsSplitFrom := none
        addedJobs := 0
        addedBytes := 0
        transferedInSplitJobs := 0
        transferedInSplitBytes := 0 }

/-- An existing shard, fetched, with its pointer. -/
def prepareOldShard (st : RStore) (shardIndex : Nat) (shard : ShardForAddition)
    (q : RetrieveQueue) : Except Exn Prepared := do
  let rqs ← readShard st shard.address
  if q.queueshards.length ≤ shardIndex then .error (.undefined .shardPointerIndex)
  else
    pure
      { q := q
        rqs := rqs
        rqsSplitFrom := none
        addedJobs := 0
        addedBytes := 0
        transferedInSplitJobs := 0
        transferedInSplitBytes := 0 }

/-- The activity of an added job is counted, if it has one. -/
def incActivity (m : ValueCountMap String) : Option String → Except Exn (ValueCountMap String)
  | some activity => RetrieveActivityCountMap.incCount activity m
  | none => .ok m

def accountJob (j : JobToAdd) : Except Exn RetrieveQueue := do
  let p ← q.incCounts j.toPointer
  let activity_map ← incActivity q.activity_map j.activity
  let startTime := j.startTime.toUInt64
  pure { q with
    toQueuePayload := { p with
      oldestjobcreationtime :=
        if p.oldestjobcreationtime ≠ 0 then
          if startTime < p.oldestjobcreationtime then startTime else p.oldestjobcreationtime
        else startTime
      youngestjobcreationtime :=
        if p.youngestjobcreationtime ≠ 0 then
          if startTime > p.youngestjobcreationtime then startTime else p.youngestjobcreationtime
        else startTime }
    activity_map := activity_map }

/-- The shard takes its jobs, its pointer the summary, and the totals are corrected. -/
def addPlannedJobs (shardIndex : Nat) (shard : ShardForAddition) (p : Prepared) :
    Except Exn Prepared := do
  let q ← shard.jobsToAdd.foldlM accountJob p.q
  let rqs ← addJobsBatch p.rqs (jobsToAddSet shard.jobsToAdd)
  let addedJobs := p.addedJobs + shard.jobsToAdd.length
  let addedBytes := p.addedBytes + (shard.jobsToAdd.map (·.fileSize)).sum
  let shardSummary ← getJobsSummary rqs
  pure
    { p with
      q := { q with
        queueshards := q.queueshards.modify shardIndex (fun sp =>
          { sp with
            range := ⟨shardSummary.minFseq, shardSummary.maxFseq⟩
            shardbytescount := shardSummary.bytes
            shardjobscount := shardSummary.jobs })
        jobscount := q.jobscount + UInt64.ofNat addedJobs - UInt64.ofNat p.transferedInSplitJobs
        jobstotalsize := q.jobstotalsize + addedBytes - p.transferedInSplitBytes }
      rqs := rqs
      addedJobs := addedJobs
      addedBytes := addedBytes }

/-- The body of the loop up to the first write. -/
def prepareShard (st : RStore) (plan : List ShardForAddition) (shardIndex : Nat)
    (shard : ShardForAddition) (a : String) (q : RetrieveQueue) : Except Exn Prepared := do
  let p ←
    if shard.newShard then prepareNewShard st plan shardIndex shard a q
    else prepareOldShard st shardIndex shard q
  addPlannedJobs shardIndex shard p

/-- The queue first, with a potential new shard to pre-reference, then the shards. -/
def writeShard (shard : ShardForAddition) (a : String) (p : Prepared) :
    M RetrieveQueue := do
  let q ←
    if shard.fromSplit then do
      atomicOverwrite addr (.queue p.q)
      pure p.q
    else commit addr p.q
  if shard.newShard then create a (.shard p.rqs) else atomicOverwrite a (.shard p.rqs)
  match p.rqsSplitFrom with
  | some (source, rqsSplitFrom) => atomicOverwrite source (.shard rqsSplitFrom)
  | none => pure ()
  pure q

/-- The body of the loop over the shards of the plan. -/
def applyShard (plan : List ShardForAddition) (shardIndex : Nat)
    (shard : ShardForAddition) (q : RetrieveQueue) : M RetrieveQueue := do
  let a ← if shard.newShard then nextId ("RetrieveQueueShard-" ++ q.vid) else pure shard.address
  let st ← Prog.getStore
  let p ← Prog.ofExcept (prepareShard st plan shardIndex shard a q)
  writeShard addr shard a p

def applyShards (addr : String) (plan : List ShardForAddition) :
    Nat → List ShardForAddition → RetrieveQueue → M RetrieveQueue
  | _, [], q => pure q
  | shardIndex, shard :: rest, q => do
      let q ← applyShard addr plan shardIndex shard q
      applyShards addr plan (shardIndex + 1) rest q

def addJobsAndCommit (jobsToAdd : List JobToAdd) (q : RetrieveQueue) :
    M RetrieveQueue :=
  if jobsToAdd.isEmpty then pure q
  else do
    let plan ← Prog.ofExcept (layout q.maxshardsize q.queueshards jobsToAdd)
    applyShards addr plan 0 plan q

/-! ## Removals -/

/-- The activity of a removed job is counted out, if it has one. -/
def decActivity (m : ValueCountMap String) : Option String → Except Exn (ValueCountMap String)
  | some activity => RetrieveActivityCountMap.decCount activity m
  | none => .ok m

/-- The counters of the queue for one removed job. -/
def discountJob (j : RetrieveJobPointer) : Except Exn RetrieveQueue := do
  let p ← q.decCounts j
  let activity_map ← decActivity q.activity_map j.activity
  pure { q with toQueuePayload := p, activity_map := activity_map }

/-- One of the removed jobs was the oldest or the youngest. -/
def needToRebuild (removedJobs : List RetrieveJobPointer) : Bool :=
  removedJobs.any (fun j =>
    j.starttime.toInt64 ≤ q.oldestjobcreationtime.toInt64
      || j.starttime.toInt64 ≥ q.youngestjobcreationtime.toInt64)

/-- What is left to remove, the next index and the queue, after the shard at `shardIndex`. -/
def removeRound (localJobsToRemove : List String) (shardIndex : Nat)
    (shardPointer : RetrieveQueueShardPointer) (q : RetrieveQueue) :
    M (List String × Nat × RetrieveQueue) := do
  let rqs ← fetchShard shardPointer.address
  let r := rqs.removeJobs localJobsToRemove
  storeRemoval shardPointer.address r
  let q' ← Prog.ofExcept (r.2.removedJobs.foldlM discountJob q)
  let q' := { q' with
    toQueuePayload := q'.toQueuePayload.afterRemoval shardIndex shardPointer r.2 }
  -- a mismatch of the pointer rebuilds as well, unless a rebuild is due anyway
  let q' ← repairIf rebuild (needToRebuild q r.2.removedJobs || r.2.mismatch shardPointer) q'
  let q' ← commit addr q'
  pure (trimRemoved localJobsToRemove r.2,
    if r.2.jobsAfter ≠ 0 then shardIndex + 1 else shardIndex, q')

def removeJobsAndCommit (jobsToRemove : List String) (q : RetrieveQueue) : M RetrieveQueue :=
  removeLoop (fun q : RetrieveQueue => q.queueshards) (removeRound addr)
    q.queueshards.length jobsToRemove 0 q

/-! ## Candidates -/

structure JobDump where
  address : String
  copyNb : UInt32
  size : UInt64
  (activity diskSystemName : Option String)

/-- The dump of a stored job; the copy number goes through `uint16_t`. -/
def JobDump.ofPointer (j : RetrieveJobPointer) : JobDump :=
  ⟨j.address, j.copynb.toUInt16.toUInt32, j.size, j.activity, j.destination_disk_system_name⟩

/-- `getCandidateList`. A job without a disk system counts as one with an empty name. -/
def getCandidateList (maxBytes maxFiles : UInt64)
    (retrieveRequestsToSkip diskSystemsToSkip : List String)
    (q : RetrieveQueue) : M (CandidateJobList JobDump) :=
  candidateList JobDump.ofPointer
    (fun j => retrieveRequestsToSkip.contains j.address
      || diskSystemsToSkip.contains (j.destination_disk_system_name.getD ""))
    maxBytes maxFiles q.queueshards {}

end RetrieveQueue

end TapeArchive.Objectstore
