/-
  **CREATING THE SUBREQUESTS OF A REPACK**
  (`OStoreDB::RepackRequest::addSubrequestsAndUpdateStats`), in batches of 500.

  The list of those that cannot be created is reported after each batch and never
  emptied, so a failure of an early batch is reported again after every later one.
-/
import TapeArchive.Lib.PrefixSums
import TapeArchive.Objectstore.RepackStatus
import TapeArchive.Scheduler.RepackRetrieveFailures

namespace TapeArchive.Scheduler

open Std Lib Common Objectstore List
open Objectstore.RepackRequest

/-! ## What the creation of a subrequest meets -/

/-- The outcome of `Helpers::selectBestRetrieveQueue`. -/
inductive VidSelection where
  | selected (vid : String)
  /-- `NoTapeAvailableForRetrieve`. -/
  | noTapeAvailable
  | thrown (e : RequestExn)

/-- The outcome of `RetrieveRequest::asyncInsert`. -/
inductive InsertLaunch where
  | launched | notNewObject | thrown

/-- The repack at hand, and the outcomes of the calls by position. -/
structure CreationEnv where
  vid : String
  noRecall : Bool
  archiveRoutesMap : ArchiveRouteFullMap
  selectBestRetrieveQueue : Nat → TreeSet String → VidSelection
  asyncInsert : Nat → InsertLaunch
  /-- Whether `AsyncInserter::wait` returns. -/
  inserted : Nat → Bool
  /-- The queueing of the requests of a batch (`Sorter`). -/
  queueBatch : Nat → Except RequestExn Unit
  surroundings : Surroundings

inductive Creation where
  /-- It was created before, and deleted. -/
  | skipped
  /-- It is put on the list of those not created. -/
  | notCreated
  /-- It exists already. -/
  | existing
  /-- Its insertion was launched. -/
  | launched (bestVid : String) (activeCopyNb : UInt32)
  deriving DecidableEq

/-- The routes of a storage class as the retrieve request keeps them. -/
def archiveRouteMap (routes : StorageClassMap) : TreeMap UInt32 String :=
  routes.toList.foldl (fun m ar => m.insert ar.2.copyNb.toUInt32 ar.2.tapePoolName) ∅

/-- Every copy number has a tape pool of its own. -/
def poolsDistinct (archiveRouteMap : TreeMap UInt32 String) : Bool :=
  archiveRouteMap.toList.all (fun current =>
    archiveRouteMap.toList.countP (fun other => other.2 == current.2) == 1)

/-- The vid of the repacked tape, if the file can be recalled from it; empty otherwise. -/
def repackVid (env : CreationEnv) (i : Nat) (rsr : Subrequest) : Except RequestExn String :=
  if env.noRecall then .ok env.vid
  else match rsr.archiveFile.tapeFiles.find? (fun tc => tc.vid == env.vid) with
    | none => .ok ""
    | some _ =>
      match env.selectBestRetrieveQueue i (TreeSet.ofList [env.vid]) with
      | .selected _ => .ok env.vid
      | .noTapeAvailable => .ok ""
      | .thrown e => .error e

/-- The vid to recall from, `none` when there is no tape for it. -/
def bestVid (env : CreationEnv) (i : Nat) (rsr : Subrequest) :
    Except RequestExn (Option String) := do
  let vid ← repackVid env i rsr
  let candidateVids := TreeSet.ofList (rsr.archiveFile.tapeFiles.map (·.vid))
  if !vid.isEmpty then pure (some vid)
  else match env.selectBestRetrieveQueue i candidateVids with
    | .selected v => .ok (some v)
    | .noTapeAvailable => .ok none
    | .thrown e => .error e

/-- The body of the first loop, for the subrequest at position `i`. -/
def createSubrequest (env : CreationEnv) (subReqInfoMap : TreeMap UInt64 SubrequestInfo)
    (rsr : Subrequest) (i : Nat) : Except RequestExn Creation :=
  match subReqInfoMap[rsr.fSeq]? with
  | none => .error (.exception "map::at")
  | some info =>
    if info.subrequestDeleted then .ok .skipped
    else match env.archiveRoutesMap[rsr.archiveFile.storageClass]? with
    | none => .ok .notCreated
    | some routes =>
      if !poolsDistinct (archiveRouteMap routes) then
        .error (.exception ("In OStoreDB::RepackRequest::addSubrequestsAndUpdateStats(), "
          ++ "found the same destination tapepool for different copyNb."))
      else do
        match ← bestVid env i rsr with
        | none => pure .notCreated
        | some vid =>
          match rsr.archiveFile.tapeFiles.find? (fun tc => tc.vid == vid) with
          | none => pure .notCreated
          | some tc =>
            match env.asyncInsert i with
            | .launched => pure (.launched vid tc.copyNb.toUInt32)
            | .notNewObject => pure .existing
            | .thrown => pure .notCreated

/-! ## The loop over the batches -/

def createSubrequests (env : CreationEnv) (subReqInfoMap : TreeMap UInt64 SubrequestInfo)
    (batch : List (Subrequest × Nat)) :
    Except RequestExn (List ((Subrequest × Nat) × Creation)) :=
  batch.mapM (fun x => do pure (x, ← createSubrequest env subReqInfoMap x.1 x.2))

def launched (creations : List ((Subrequest × Nat) × Creation)) : List (Subrequest × Nat) :=
  (creations.filter (fun c => c.2 matches .launched ..)).map (·.1)

/-- Not created, in the order of the list: first loop, then the insertions. -/
def failed (env : CreationEnv) (creations : List ((Subrequest × Nat) × Creation)) :
    List (Subrequest × Nat) :=
  (creations.filter (fun c => c.2 == .notCreated)).map (·.1)
    ++ (launched creations).filter (fun x => !env.inserted x.2)

/-- The tape of the active copy, or `none` for a file that the user provided. -/
def sorterKey (rsr : Subrequest) (activeCopyNb : UInt32) : Option String :=
  if rsr.hasUserProvidedFile then none
  else (rsr.archiveFile.tapeFiles.find? (fun tf => tf.copyNb == activeCopyNb.toUInt8)).map (·.vid)

/-- The keys of the subrequests that the sorter is handed, one for each of them. -/
def handed (env : CreationEnv) (creations : List ((Subrequest × Nat) × Creation)) :
    List (Option String) :=
  creations.filterMap (fun c => match c.2 with
    | .launched _ activeCopyNb =>
      if env.inserted c.1.2 then some (sorterKey c.1.1 activeCopyNb) else none
    | _ => none)

/-- The variables of the loop over the batches. -/
structure Expansion where
  request : RepackRequest
  notCreatedSubrequests : List Subrequest
  nbRetrieveSubrequestsCreated : UInt64
  nbBatches : Nat

def addBatch (env : CreationEnv) (subReqInfoMap : TreeMap UInt64 SubrequestInfo) (x : Expansion)
    (batch : List (Subrequest × Nat)) : Except RequestExn Expansion := do
  let creations ← createSubrequests env subReqInfoMap batch
  let notCreatedSubrequests := x.notCreatedSubrequests ++ (failed env creations).map (·.1)
  let request ← if !notCreatedSubrequests.isEmpty then
      x.request.reportRetrieveCreationFailures env.surroundings notCreatedSubrequests
    else pure x.request
  env.queueBatch x.nbBatches
  pure { request := request, notCreatedSubrequests := notCreatedSubrequests,
         nbRetrieveSubrequestsCreated :=
           -- `sorter.getAllRetrieve().size()`: the keys, not the subrequests
           UInt64.ofNat (handed env creations).dedup.length,
         nbBatches := x.nbBatches + 1 }

def subrequestBatchSize : Nat := 500

def subReqInfoMap (subrequestsNames : List SubrequestInfo) : TreeMap UInt64 SubrequestInfo :=
  subrequestsNames.foldl (fun m rn => m.insert rn.fSeq rn) ∅

/-- `OStoreDB::RepackRequest::addSubrequestsAndUpdateStats`, on the fetched repack request. -/
def addSubrequestsAndUpdateStats (env : CreationEnv) (agentReference : AgentReference)
    (repackSubrequests : List Subrequest) (maxFSeqLowBound maxAddedFSeq : UInt64)
    (totalStatsFiles : TotalStatsFiles) (r : RepackRequest) :
    Except RequestExn (RepackRequest × UInt64) := do
  let fSeqs := TreeSet.ofList (repackSubrequests.map (·.fSeq))
  let (r, subrequestsNames, _) := r.getOrPrepareSubrequestInfo fSeqs agentReference
  let r := r.setTotalStats totalStatsFiles
  let fSeq := if maxFSeqLowBound + 1 < maxAddedFSeq + 1 then maxAddedFSeq + 1
    else maxFSeqLowBound + 1
  let x ← (batches subrequestBatchSize repackSubrequests.zipIdx).foldlM
    (addBatch env (subReqInfoMap subrequestsNames)) ⟨r, [], 0, 0⟩
  pure (x.request.setLastExpandedFSeq fSeq, x.nbRetrieveSubrequestsCreated)

/-! ## The subrequests that are not created -/

/-- It fails in the first loop, or its insertion does not succeed. -/
def notCreated (env : CreationEnv) (subReqInfoMap : TreeMap UInt64 SubrequestInfo)
    (x : Subrequest × Nat) : Bool :=
  match createSubrequest env subReqInfoMap x.1 x.2 with
  | .ok .notCreated => true
  | .ok (.launched ..) => !env.inserted x.2
  | _ => false

variable {env : CreationEnv} {infos : TreeMap UInt64 SubrequestInfo}
  {batch : List (Subrequest × Nat)} {creations : List ((Subrequest × Nat) × Creation)}

theorem createSubrequests_cons {x : Subrequest × Nat}
    (h : createSubrequests env infos (x :: batch) = .ok creations) :
    ∃ c rest, createSubrequest env infos x.1 x.2 = .ok c
      ∧ createSubrequests env infos batch = .ok rest ∧ creations = (x, c) :: rest := by
  unfold createSubrequests at h
  rw [mapM_cons] at h
  obtain ⟨y, hy, h⟩ := bind_eq_ok.mp h
  obtain ⟨ys, hys, h⟩ := bind_eq_ok.mp h
  obtain ⟨c, hc, hy⟩ := bind_eq_ok.mp hy
  cases h
  cases hy
  exact ⟨c, ys, hc, hys, rfl⟩

theorem failed_perm (h : createSubrequests env infos batch = .ok creations) :
    (failed env creations).Perm (batch.filter (notCreated env infos)) := by
  induction batch generalizing creations with
  | nil =>
    cases h
    exact .nil
  | cons x batch ih =>
    obtain ⟨c, ys, hc, hys, rfl⟩ := createSubrequests_cons h
    have hrest := ih hys
    unfold failed launched at hrest ⊢
    cases c with
    | skipped | existing => simpa [notCreated, hc] using hrest
    | notCreated => simpa [notCreated, hc] using hrest.cons x
    | launched vid copyNb =>
      cases hi : env.inserted x.2 with
      | true => simpa [notCreated, hc, hi] using hrest
      | false =>
        have hco := (perm_middle).trans (hrest.cons x)
        simpa [notCreated, hc, hi] using hco

/-! ## The counters along the batches -/

/-- The three counters of failed creations: files, bytes and archive requests. -/
def tally (r : RepackRequest) : UInt64 × UInt64 × UInt64 :=
  (r.failedtoretrievefiles, r.failedtoretrievebytes, r.failedtocreatearchivereq)

variable {r r' : RepackRequest}

theorem tally_setStatus {env : Surroundings} (h : r.setStatus env = .ok r') :
    tally r' = tally r := by
  have hc := counter_setStatus h
  have hb : r'.failedtoretrievebytes = r.failedtoretrievebytes :=
    congrFun hc .failedToRetrieveBytes
  have hf := sameFailures_setStatus h
  unfold tally
  rw [hf.retrieve, hf.create, hb]

variable {l : List Subrequest}

theorem tally_reportRetrieveCreationFailures {env : Surroundings}
    (h : r.reportRetrieveCreationFailures env l = .ok r') :
    tally r' = tally r + (l.map creationWeight).sum := by
  rw [tally_setStatus h, ← creationFailures_eq_sum]
  rfl

theorem tally_getOrPrepareSubrequestInfo (r : RepackRequest) (fSeqs : TreeSet UInt64)
    (agentRef : AgentReference) :
    tally (r.getOrPrepareSubrequestInfo fSeqs agentRef).1 = tally r := by
  unfold getOrPrepareSubrequestInfo
  dsimp only
  split <;> rfl

/-- What the subrequests of a batch that are not created add to the counters. -/
def batchWeight (env : CreationEnv) (infos : TreeMap UInt64 SubrequestInfo)
    (batch : List (Subrequest × Nat)) : UInt64 × UInt64 × UInt64 :=
  ((batch.filter (notCreated env infos)).map (fun x => creationWeight x.1)).sum

variable {x x' : Expansion}

/-- **One batch**: the list grows by the failures of the batch, and all of it is reported. -/
theorem addBatch_ok (h : addBatch env infos x batch = .ok x') :
    (x'.notCreatedSubrequests.map creationWeight).sum
        = (x.notCreatedSubrequests.map creationWeight).sum + batchWeight env infos batch
      ∧ tally x'.request = tally x.request + (x'.notCreatedSubrequests.map creationWeight).sum := by
  obtain ⟨creations, hc, h⟩ := bind_eq_ok.mp h
  have hp := failed_perm hc
  have hl : ((x.notCreatedSubrequests ++ (failed env creations).map (·.1)).map creationWeight).sum
        = (x.notCreatedSubrequests.map creationWeight).sum + batchWeight env infos batch := by
    rw [map_append, sum_append, map_map]
    exact congrArg _ (hp.map _).sum_eq
  -- the report is sent only when something has failed so far
  dsimp only at h
  split at h
  next =>
    obtain ⟨request, hr, h⟩ := bind_eq_ok.mp h
    obtain ⟨-, -, h⟩ := bind_eq_ok.mp h
    cases h
    exact ⟨hl, tally_reportRetrieveCreationFailures hr⟩
  next he =>
    obtain ⟨request, hr, h⟩ := bind_eq_ok.mp h
    obtain ⟨-, -, h⟩ := bind_eq_ok.mp h
    cases hr
    cases h
    have hn : x.notCreatedSubrequests ++ (failed env creations).map (·.1) = [] := by
      simpa using he
    refine ⟨hl, ?_⟩
    show tally x.request = _
    rw [hn]
    exact (add_zero _).symm

variable {bs : List (List (Subrequest × Nat))}

/-- **The loop over the batches** adds up the running totals of the failures. -/
theorem foldlM_addBatch_ok (h : bs.foldlM (addBatch env infos) x = .ok x') :
    tally x'.request = tally x.request
      + sumPrefixes (x.notCreatedSubrequests.map creationWeight).sum
          (bs.map (batchWeight env infos)) := by
  induction bs generalizing x with
  | nil =>
    cases h
    exact (add_zero _).symm
  | cons batch bs ih =>
    rw [foldlM_cons] at h
    obtain ⟨x1, ho, hrest⟩ := bind_eq_ok.mp h
    obtain ⟨hl, hta⟩ := addBatch_ok ho
    rw [ih hrest, hta, hl, map_cons, sumPrefixes, add_assoc]

/-! ## The whole call -/

/-- The addresses that a call prepares, by fSeq. -/
def preparedInfos (r : RepackRequest) (agentReference : AgentReference)
    (repackSubrequests : List Subrequest) : TreeMap UInt64 SubrequestInfo :=
  subReqInfoMap (r.getOrPrepareSubrequestInfo
    (TreeSet.ofList (repackSubrequests.map (·.fSeq))) agentReference).2.1

/-- The subrequests of the list that a call does not create. -/
def notCreatedOf (env : CreationEnv) (infos : TreeMap UInt64 SubrequestInfo)
    (repackSubrequests : List Subrequest) : List Subrequest :=
  (repackSubrequests.zipIdx.filter (notCreated env infos)).map (·.1)

structure CountedOnce (r r' : RepackRequest) (failures : List Subrequest) : Prop where
  files : r'.failedtoretrievefiles = r.failedtoretrievefiles + UInt64.ofNat failures.length
  bytes : r'.failedtoretrievebytes
    = r.failedtoretrievebytes + (failures.map (·.archiveFile.fileSize)).sum
  archiveRequests : r'.failedtocreatearchivereq = r.failedtocreatearchivereq
    + (failures.map (fun s => UInt64.ofNat s.copyNbsToRearchive.size)).sum

def OnlyLastBatchFails (env : CreationEnv) (infos : TreeMap UInt64 SubrequestInfo)
    (repackSubrequests : List Subrequest) : Prop :=
  ∀ batch ∈ (batches subrequestBatchSize repackSubrequests.zipIdx).dropLast,
    ∀ x ∈ batch, notCreated env infos x = false

theorem sum_creationWeight (l : List Subrequest) :
    (l.map creationWeight).sum = (UInt64.ofNat l.length, (l.map (·.archiveFile.fileSize)).sum,
      (l.map (fun s => UInt64.ofNat s.copyNbsToRearchive.size)).sum) := by
  induction l with
  | nil => rfl
  | cons s l ih =>
    simp only [map_cons, sum_cons, ih, length_cons, creationWeight,
      Prod.mk_add_mk, UInt64.ofNat_add, UInt64.ofNat_one]
    rw [add_comm 1]

variable {agentReference : AgentReference} {maxFSeqLowBound maxAddedFSeq : UInt64}
  {totalStatsFiles : TotalStatsFiles} {result : RepackRequest × UInt64}

/-- What a call adds to the counters: the running totals of the failures of the batches. -/
theorem tally_addSubrequestsAndUpdateStats {r : RepackRequest}
    (h : addSubrequestsAndUpdateStats env agentReference l maxFSeqLowBound maxAddedFSeq
      totalStatsFiles r = .ok result) :
    tally result.1 = tally r + sumPrefixes 0 ((batches subrequestBatchSize l.zipIdx).map
      (batchWeight env (preparedInfos r agentReference l))) := by
  obtain ⟨x, hx, h⟩ := bind_eq_ok.mp h
  cases h
  have hp := tally_getOrPrepareSubrequestInfo r (TreeSet.ofList (l.map (·.fSeq))) agentReference
  show tally x.request = _
  rw [foldlM_addBatch_ok hx, ← hp]
  rfl

/-- The failures of the batches together are the failures of the list. -/
theorem sum_batchWeight (env : CreationEnv) (infos : TreeMap UInt64 SubrequestInfo)
    (l : List Subrequest) :
    ((batches subrequestBatchSize l.zipIdx).map (batchWeight env infos)).sum
      = ((notCreatedOf env infos l).map creationWeight).sum := by
  have hf := batches_flatten (n := subrequestBatchSize) (by decide) l.zipIdx
  unfold notCreatedOf
  rw [← hf, filter_flatten, map_flatten, map_flatten, sum_flatten, hf, map_map, map_map, map_map]
  refine congrArg List.sum (map_congr_left fun batch _ => ?_)
  simp only [batchWeight, Function.comp_apply, map_map]
  rfl

def batchFailures (env : CreationEnv) (infos : TreeMap UInt64 SubrequestInfo)
    (batch : List (Subrequest × Nat)) : Nat :=
  (batch.filter (notCreated env infos)).length

/-- The counter of files alone, in the machine's numbers. -/
theorem files_addSubrequestsAndUpdateStats {r : RepackRequest}
    (h : addSubrequestsAndUpdateStats env agentReference l maxFSeqLowBound maxAddedFSeq
      totalStatsFiles r = .ok result) :
    result.1.failedtoretrievefiles = r.failedtoretrievefiles
      + UInt64.ofNat (sumPrefixes 0 ((batches subrequestBatchSize l.zipIdx).map
          (batchFailures env (preparedInfos r agentReference l)))) := by
  let ofNat : Nat →+ UInt64 := ⟨⟨UInt64.ofNat, rfl⟩, UInt64.ofNat_add⟩
  have hf := congrArg Prod.fst (tally_addSubrequestsAndUpdateStats h)
  have hs := map_sumPrefixes (AddMonoidHom.fst UInt64 (UInt64 × UInt64)) 0
    ((batches subrequestBatchSize l.zipIdx).map (batchWeight env (preparedInfos r agentReference l)))
  have hon := map_sumPrefixes ofNat 0 ((batches subrequestBatchSize l.zipIdx).map
    (batchFailures env (preparedInfos r agentReference l)))
  have hb : ∀ batch, (batchWeight env (preparedInfos r agentReference l) batch).1
      = UInt64.ofNat (batchFailures env (preparedInfos r agentReference l) batch) := by
    intro batch
    have := sum_creationWeight
      ((batch.filter (notCreated env (preparedInfos r agentReference l))).map (·.1))
    rw [map_map, length_map] at this
    exact congrArg Prod.fst this
  rw [show result.1.failedtoretrievefiles = (tally result.1).1 from rfl, hf]
  refine congrArg (r.failedtoretrievefiles + ·) (hs.trans (Eq.trans ?_ hon.symm))
  rw [map_map, map_map]
  exact congrArg _ (map_congr_left fun batch _ => hb batch)

theorem onlyLastBatchFails_iff (env : CreationEnv) (infos : TreeMap UInt64 SubrequestInfo)
    (l : List Subrequest) :
    OnlyLastBatchFails env infos l ↔
      ∀ n ∈ ((batches subrequestBatchSize l.zipIdx).map (batchFailures env infos)).dropLast,
        n = 0 := by
  rw [dropLast_eq_take, length_map, ← map_take, ← dropLast_eq_take]
  simp only [mem_map, forall_exists_index, and_imp, forall_apply_eq_imp_iff₂,
    batchFailures, length_eq_zero_iff, filter_eq_nil_iff, Bool.not_eq_true]
  rfl

/-- The totals stay far from the end of the counter's range. -/
theorem sumPrefixes_batchFailures_lt (env : CreationEnv)
    (infos : TreeMap UInt64 SubrequestInfo) (hl : l.length < 2 ^ 32) :
    (notCreatedOf env infos l).length ≤ l.length
      ∧ ((batches subrequestBatchSize l.zipIdx).map (batchFailures env infos)).sum
        = (notCreatedOf env infos l).length
      ∧ sumPrefixes 0 ((batches subrequestBatchSize l.zipIdx).map (batchFailures env infos))
        < 2 ^ 64 := by
  have hs : ((batches subrequestBatchSize l.zipIdx).map (batchFailures env infos)).sum
      = (notCreatedOf env infos l).length := by
    have hf := batches_flatten (n := subrequestBatchSize) (by decide) l.zipIdx
    unfold notCreatedOf
    rw [length_map, ← hf, filter_flatten, length_flatten, hf, map_map]
    rfl
  have hle : (notCreatedOf env infos l).length ≤ l.length := by
    unfold notCreatedOf
    rw [length_map]
    exact (length_filter_le _ _).trans_eq length_zipIdx
  have hb : (batches subrequestBatchSize l.zipIdx).length ≤ l.length :=
    (batches_length_le _ _).trans_eq length_zipIdx
  refine ⟨hle, hs, ?_⟩
  calc sumPrefixes 0 ((batches subrequestBatchSize l.zipIdx).map (batchFailures env infos))
      ≤ (batches subrequestBatchSize l.zipIdx).length * (notCreatedOf env infos l).length := by
        have := sumPrefixes_le ((batches subrequestBatchSize l.zipIdx).map
          (batchFailures env infos))
        rwa [hs, length_map] at this
    _ ≤ l.length * l.length := Nat.mul_le_mul hb hle
    _ < 2 ^ 32 * 2 ^ 32 := Nat.mul_lt_mul'' hl hl

/-- **Creation failures are counted once** when only the last batch has any; and (unless the
counter of files overflows) only then. -/
theorem creation_failures_counted_once {env : CreationEnv} {agentReference : AgentReference}
    {l : List Subrequest} {maxFSeqLowBound maxAddedFSeq : UInt64}
    {totalStatsFiles : TotalStatsFiles} {r : RepackRequest} {result : RepackRequest × UInt64}
    (h : addSubrequestsAndUpdateStats env agentReference l maxFSeqLowBound maxAddedFSeq
      totalStatsFiles r = .ok result) :
    (OnlyLastBatchFails env (preparedInfos r agentReference l) l →
      CountedOnce r result.1 (notCreatedOf env (preparedInfos r agentReference l) l))
      ∧ (l.length < 2 ^ 32 →
        CountedOnce r result.1 (notCreatedOf env (preparedInfos r agentReference l) l) →
        OnlyLastBatchFails env (preparedInfos r agentReference l) l) := by
  generalize hi : preparedInfos r agentReference l = infos
  have hta := tally_addSubrequestsAndUpdateStats h
  have hf := files_addSubrequestsAndUpdateStats h
  rw [hi] at hta hf
  refine ⟨fun ho => ?_, fun hl hc => ?_⟩
  · -- the weights of the batches before the last are zero
    have hz : ∀ w ∈ ((batches subrequestBatchSize l.zipIdx).map
        (batchWeight env infos)).dropLast, w = 0 := by
      rw [dropLast_eq_take, length_map, ← map_take, ← dropLast_eq_take]
      intro w hw
      obtain ⟨batch, hb, rfl⟩ := mem_map.mp hw
      have hn : batch.filter (notCreated env infos) = [] :=
        filter_eq_nil_iff.mpr fun x hx => by simp [ho batch hb x hx]
      unfold batchWeight
      rw [hn]
      rfl
    rw [sumPrefixes_of_dropLast_zero hz, sum_batchWeight, sum_creationWeight] at hta
    unfold tally at hta
    exact ⟨congrArg (·.1) hta, congrArg (·.2.1) hta, congrArg (·.2.2) hta⟩
  · obtain ⟨hle, hs, hlt⟩ := sumPrefixes_batchFailures_lt env infos hl
    have heq := hf.symm.trans hc.files
    have hna := congrArg UInt64.toNat (add_left_cancel heq)
    rw [UInt64.toNat_ofNat', UInt64.toNat_ofNat', Nat.mod_eq_of_lt hlt,
      Nat.mod_eq_of_lt (by omega), ← hs] at hna
    exact (onlyLastBatchFails_iff env infos l).mpr (dropLast_zero_of_sumPrefixes_eq hna)

/-! ## The call returns -/

/-- Every subrequest of the list has its address, and is deleted only if it was. -/
theorem preparedInfos_getElem? (r : RepackRequest) (agentReference : AgentReference)
    (l : List Subrequest) {s : Subrequest} (hs : s ∈ l) :
    ∃ info, (preparedInfos r agentReference l)[s.fSeq]? = some info
      ∧ (info.subrequestDeleted = true → mapDeleted r.readMap s.fSeq = true) := by
  generalize hse : TreeSet.ofList (l.map (·.fSeq)) = fSeqs
  have hp := Prepares.of_foldl r agentReference fSeqs.toList
  generalize hc : fSeqs.toList.foldl prepareOne ⟨r.readMap, [], false, agentReference⟩ = c
    at hp
  have hin : preparedInfos r agentReference l = subReqInfoMap c.infos := by
    unfold preparedInfos getOrPrepareSubrequestInfo
    rw [hse, hc]
  have hn : (c.infos.map (·.fSeq)).Nodup := by
    rw [hp.fSeqs]
    refine TreeSet.distinct_toList.imp ?_
    intro a b hne heq
    exact hne (heq ▸ ReflCmp.compare_self)
  have hm : s.fSeq ∈ c.infos.map (·.fSeq) := by
    rw [hp.fSeqs, TreeSet.mem_toList, ← hse, TreeSet.mem_ofList]
    simpa using ⟨s, hs, rfl⟩
  obtain ⟨info, hi, hfs⟩ := mem_map.mp hm
  refine ⟨info, ?_, fun hd => hfs ▸ hp.deleted_of_info hi hd⟩
  rw [hin]
  unfold subReqInfoMap
  rw [getElem?_foldl_insert (fun info => info) hn, ← hfs, findKey_of_mem hn hi]
  rfl

/-- Nothing outside the repack request gets in the way of the call. -/
structure Undisturbed (env : CreationEnv) : Prop where
  pools : ∀ (storageClass : String) (routes : StorageClassMap),
    env.archiveRoutesMap[storageClass]? = some routes →
      poolsDistinct (archiveRouteMap routes) = true
  selection : ∀ i vids e, env.selectBestRetrieveQueue i vids ≠ .thrown e
  queueing : ∀ n, env.queueBatch n = .ok ()
  owner : env.surroundings.removeFromOwnership = .ok ()

section Returns

variable {env : CreationEnv} (henv : Undisturbed env)
include henv

theorem repackVid_returns (i : Nat) (rsr : Subrequest) : ∃ vid, repackVid env i rsr = .ok vid := by
  unfold repackVid
  split
  · exact ⟨_, rfl⟩
  split
  · exact ⟨_, rfl⟩
  · split
    · exact ⟨_, rfl⟩
    · exact ⟨_, rfl⟩
    next e he => exact absurd he (henv.selection i _ e)

theorem bestVid_returns (i : Nat) (rsr : Subrequest) : ∃ vid, bestVid env i rsr = .ok vid := by
  obtain ⟨vid, hv⟩ := repackVid_returns henv i rsr
  unfold bestVid
  rw [hv]
  show ∃ vid', (if !vid.isEmpty then _ else _) = _
  split
  · exact ⟨_, rfl⟩
  split
  · exact ⟨_, rfl⟩
  · exact ⟨_, rfl⟩
  next e he => exact absurd he (henv.selection i _ e)

theorem createSubrequest_returns {rsr : Subrequest}
    {info : SubrequestInfo} (hi : infos[rsr.fSeq]? = some info) (i : Nat) :
    ∃ c, createSubrequest env infos rsr i = .ok c := by
  unfold createSubrequest
  rw [hi]
  dsimp only
  split
  · exact ⟨_, rfl⟩
  split
  · exact ⟨_, rfl⟩
  next routes hr =>
    obtain ⟨vid, hv⟩ := bestVid_returns henv i rsr
    rw [henv.pools _ routes hr, hv]
    cases vid with
    | none => exact ⟨_, rfl⟩
    | some vid =>
      show ∃ c, (match rsr.archiveFile.tapeFiles.find? (fun tc => tc.vid == vid) with
        | none => pure .notCreated
        | some tc => match env.asyncInsert i with
          | .launched => pure (.launched vid tc.copyNb.toUInt32)
          | .notNewObject => pure .existing
          | .thrown => pure .notCreated : Except RequestExn Creation) = .ok c
      split
      · exact ⟨_, rfl⟩
      · split <;> exact ⟨_, rfl⟩

theorem addBatch_returns (hi : ∀ x ∈ batch, ∃ info, infos[x.1.fSeq]? = some info) (x : Expansion) :
    ∃ x', addBatch env infos x batch = .ok x' := by
  obtain ⟨creations, hcr⟩ : ∃ creations, createSubrequests env infos batch = .ok creations := by
    refine mapM_returns (fun y hy => ?_)
    obtain ⟨info, hin⟩ := hi y hy
    obtain ⟨c, hc⟩ := createSubrequest_returns henv hin y.2
    rw [hc]
    exact ⟨(y, c), rfl⟩
  obtain ⟨request, hr⟩ := setStatus_returns henv.owner (countRetrieveCreationFailures x.request
    (x.notCreatedSubrequests ++ (failed env creations).map (·.1)))
  unfold addBatch
  rw [hcr]
  simp only [henv.queueing, bind, Except.bind]
  split
  · unfold reportRetrieveCreationFailures
    rw [hr]
    exact ⟨_, rfl⟩
  · exact ⟨_, rfl⟩

/-- **An undisturbed call returns**, whichever subrequests cannot be created. -/
theorem addSubrequestsAndUpdateStats_returns (agentReference : AgentReference)
    (l : List Subrequest) (maxFSeqLowBound maxAddedFSeq : UInt64)
    (totalStatsFiles : TotalStatsFiles) (r : RepackRequest) :
    ∃ result, addSubrequestsAndUpdateStats env agentReference l maxFSeqLowBound maxAddedFSeq
      totalStatsFiles r = .ok result := by
  have hf := batches_flatten (n := subrequestBatchSize) (by decide) l.zipIdx
  have hi : ∀ batch ∈ batches subrequestBatchSize l.zipIdx, ∀ y ∈ batch,
      ∃ info, (preparedInfos r agentReference l)[y.1.fSeq]? = some info := by
    intro batch hb y hy
    have hm : y ∈ l.zipIdx := hf ▸ mem_flatten.mpr ⟨batch, hb, hy⟩
    obtain ⟨info, hin, -⟩ := preparedInfos_getElem? r agentReference l (fst_mem_of_mem_zipIdx hm)
    exact ⟨info, hin⟩
  obtain ⟨x, hx⟩ := foldlM_returns (fun x batch hb => addBatch_returns henv (hi batch hb) x)
    ⟨(r.getOrPrepareSubrequestInfo (TreeSet.ofList (l.map (·.fSeq))) agentReference).1.setTotalStats
      totalStatsFiles, [], 0, 0⟩
  exact ⟨_, congrArg (· >>= _) hx⟩

end Returns

/-- A repack without recall of V00001 in which the insertion number `k` fails. -/
def insertionFails (k : Nat) : CreationEnv :=
  { vid := "V00001", noRecall := true
    archiveRoutesMap := (∅ : ArchiveRouteFullMap).insert "single"
      ((∅ : StorageClassMap).insert 1 ⟨"single", 1, "pool"⟩)
    selectBestRetrieveQueue := fun _ _ => .noTapeAvailable
    asyncInsert := fun i => if i = k then .thrown else .launched
    inserted := fun _ => true
    queueBatch := fun _ => .ok ()
    surroundings := calm }

/-- Files of 100 bytes at the fSeqs 1, …, `n`, with one copy to archive again. -/
def filesOfTape (n : Nat) : List Subrequest :=
  (List.range n).map (fun i =>
    { fSeq := UInt64.ofNat (i + 1)
      archiveFile := ⟨UInt64.ofNat i, 100, "single", [⟨"V00001", UInt64.ofNat (i + 1), 1⟩]⟩
      copyNbsToRearchive := TreeSet.ofList [(1 : UInt32)]
      fileBufferURL := "", hasUserProvidedFile := false })

/-- The expansion of a tape with `n` files, of which the number `k` is not created. -/
def expandTape (k n : Nat) : Except RequestExn (RepackRequest × UInt64) :=
  addSubrequestsAndUpdateStats (insertionFails k) ⟨"agent", 0⟩ (filesOfTape n) 0
    (UInt64.ofNat n) ⟨0, 0, 0, 0, 0⟩ (initial "V00001")

def infosOfTape (n : Nat) : TreeMap UInt64 SubrequestInfo :=
  preparedInfos (initial "V00001") ⟨"agent", 0⟩ (filesOfTape n)

variable (k n : Nat)

theorem undisturbed_insertionFails : Undisturbed (insertionFails k) := by
  refine ⟨fun storageClass routes hr => ?_, by simp [insertionFails], fun _ => rfl, rfl⟩
  unfold insertionFails at hr
  rw [TreeMap.getElem?_insert] at hr
  split at hr
  · cases hr
    decide
  · simp at hr

/-- Only the file number `k` is not created, whatever the addresses are. -/
theorem notCreated_filesOfTape :
    ∀ x ∈ (filesOfTape n).zipIdx,
      notCreated (insertionFails k) (infosOfTape n) x = (x.2 == k) := by
  intro x hx
  obtain ⟨info, hif, hd⟩ := preparedInfos_getElem? (initial "V00001") ⟨"agent", 0⟩ _
    (fst_mem_of_mem_zipIdx hx)
  have hd : info.subrequestDeleted = false := Bool.eq_false_iff.mpr fun h => by cases hd h
  obtain ⟨i, -, hi⟩ := mem_map.mp (fst_mem_of_mem_zipIdx hx)
  have hr : (insertionFails k).archiveRoutesMap["single"]?
      = some ((∅ : StorageClassMap).insert 1 ⟨"single", 1, "pool"⟩) := by
    unfold insertionFails
    rw [TreeMap.getElem?_insert_self]
  have hp : poolsDistinct
      (archiveRouteMap ((∅ : StorageClassMap).insert 1 ⟨"single", 1, "pool"⟩)) = true := by decide
  have hv : bestVid (insertionFails k) x.2 x.1 = .ok (some "V00001") := rfl
  unfold notCreated createSubrequest infosOfTape
  rw [hif, hv, ← hi]
  simp only [hd, hr, hp]
  have hin : (insertionFails k).inserted x.2 = true := rfl
  by_cases hf : x.2 = k
  · subst hf
    have hl : (insertionFails x.2).asyncInsert x.2 = .thrown := if_pos rfl
    simp [hl, bind, Except.bind, pure, Except.pure]
  · have hl : (insertionFails k).asyncInsert x.2 = .launched := if_neg hf
    have hne : (x.2 == k) = false := beq_eq_false_iff_ne.mpr hf
    simp [hl, hin, hne, bind, Except.bind, pure, Except.pure]

theorem notCreatedOf_filesOfTape : notCreatedOf (insertionFails k) (infosOfTape n) (filesOfTape n)
      = ((filesOfTape n).zipIdx.filter (fun x => x.2 == k)).map (·.1) := by
  unfold notCreatedOf
  rw [filter_congr (notCreated_filesOfTape k n)]

/-- With 501 files the failure of the last, in a batch of its own, is counted once. -/
theorem failure_of_last_batch_counted_once : ∃ result, expandTape 500 501 = .ok result
      ∧ result.1.failedtoretrievefiles = 1 ∧ result.1.failedtoretrievebytes = 100
      ∧ result.1.failedtocreatearchivereq = 1 := by
  obtain ⟨result, h⟩ := addSubrequestsAndUpdateStats_returns (undisturbed_insertionFails 500)
    ⟨"agent", 0⟩ (filesOfTape 501) 0 (UInt64.ofNat 501) ⟨0, 0, 0, 0, 0⟩ (initial "V00001")
  have ho : OnlyLastBatchFails (insertionFails 500) (infosOfTape 501) (filesOfTape 501) := by
    have hd : ∀ batch ∈ (batches subrequestBatchSize (filesOfTape 501).zipIdx).dropLast,
        ∀ x ∈ batch, (x.2 == 500) = false := by decide +kernel
    intro batch hb x hx
    have hfl := batches_flatten (n := subrequestBatchSize) (by decide) (filesOfTape 501).zipIdx
    rw [notCreated_filesOfTape 500 501 x (hfl ▸ mem_flatten.mpr ⟨batch, mem_of_mem_dropLast hb, hx⟩)]
    exact hd batch hb x hx
  have hc := (creation_failures_counted_once h).1 ho
  change CountedOnce _ _ (notCreatedOf (insertionFails 500) (infosOfTape 501) _) at hc
  rw [notCreatedOf_filesOfTape] at hc
  obtain ⟨hf, hby, ha⟩ := hc
  exact ⟨result, h, hf.trans (by decide +kernel), hby.trans (by decide +kernel),
    ha.trans (by decide +kernel)⟩

/-- **With 501 files the failure of the first is counted twice.** -/
theorem failure_of_first_batch_counted_twice :
    (notCreatedOf (insertionFails 0) (infosOfTape 501) (filesOfTape 501)).length = 1
      ∧ (expandTape 0 501).map (fun result => tally result.1) = .ok (2, 200, 2) := by
  obtain ⟨result, h⟩ := addSubrequestsAndUpdateStats_returns (undisturbed_insertionFails 0)
    ⟨"agent", 0⟩ (filesOfTape 501) 0 (UInt64.ofNat 501) ⟨0, 0, 0, 0, 0⟩ (initial "V00001")
  have hfl := batches_flatten (n := subrequestBatchSize) (by decide) (filesOfTape 501).zipIdx
  have hw : (batches subrequestBatchSize (filesOfTape 501).zipIdx).map
        (batchWeight (insertionFails 0) (infosOfTape 501))
      = (batches subrequestBatchSize (filesOfTape 501).zipIdx).map (fun batch =>
          ((batch.filter (fun x => x.2 == 0)).map (fun x => creationWeight x.1)).sum) := by
    refine map_congr_left (fun batch hb => ?_)
    unfold batchWeight
    rw [filter_congr fun x hx =>
      notCreated_filesOfTape 0 501 x (hfl ▸ mem_flatten.mpr ⟨batch, hb, hx⟩)]
  refine ⟨?_, ?_⟩
  · rw [notCreatedOf_filesOfTape]
    decide +kernel
  · have hta := (tally_addSubrequestsAndUpdateStats h).trans (congrArg _ (congrArg _ hw))
    show (addSubrequestsAndUpdateStats _ _ _ _ _ _ _).map _ = _
    rw [h]
    refine congrArg Except.ok (hta.trans ?_)
    decide +kernel

/-! ## The number that is returned -/

/-- The keys of the subrequests that are created, at their positions of the list. -/
def handedOf (env : CreationEnv) (infos : TreeMap UInt64 SubrequestInfo)
    (l : List (Subrequest × Nat)) : List (Option String) :=
  l.filterMap (fun x => match createSubrequest env infos x.1 x.2 with
    | .ok (.launched _ activeCopyNb) =>
      if env.inserted x.2 then some (sorterKey x.1 activeCopyNb) else none
    | _ => none)

theorem handed_eq (h : createSubrequests env infos batch = .ok creations) :
    handed env creations = handedOf env infos batch := by
  induction batch generalizing creations with
  | nil =>
    cases h
    rfl
  | cons x batch ih =>
    obtain ⟨c, ys, hc, hys, rfl⟩ := createSubrequests_cons h
    have hrest := ih hys
    unfold handed handedOf at hrest ⊢
    rw [filterMap_cons, filterMap_cons, hc, hrest]
    cases c <;> rfl

/-- Every batch overwrites the number. -/
theorem addBatch_nbRetrieveSubrequestsCreated (h : addBatch env infos x batch = .ok x') :
    x'.nbRetrieveSubrequestsCreated = UInt64.ofNat (handedOf env infos batch).dedup.length := by
  obtain ⟨creations, hc, h⟩ := bind_eq_ok.mp h
  rw [← handed_eq hc]
  dsimp only at h
  split at h
  all_goals
    obtain ⟨request, -, h⟩ := bind_eq_ok.mp h
    obtain ⟨-, -, h⟩ := bind_eq_ok.mp h
    cases h
    rfl

/-- The queues of the last batch are counted. -/
theorem foldlM_addBatch_nbRetrieveSubrequestsCreated {last : List (Subrequest × Nat)}
    (h : (bs ++ [last]).foldlM (addBatch env infos) x = .ok x') :
    x'.nbRetrieveSubrequestsCreated = UInt64.ofNat (handedOf env infos last).dedup.length := by
  rw [foldlM_append] at h
  obtain ⟨x1, -, h⟩ := bind_eq_ok.mp h
  rw [foldlM_cons] at h
  obtain ⟨x2, hlast, h⟩ := bind_eq_ok.mp h
  cases h
  exact addBatch_nbRetrieveSubrequestsCreated hlast

/-- **THE NUMBER OF CREATED SUBREQUESTS IS RETURNED** exactly when all of them are of the last
batch and go to different queues. -/
theorem created_number_iff {env : CreationEnv} {agentReference : AgentReference}
    {l : List Subrequest} {maxFSeqLowBound maxAddedFSeq : UInt64}
    {totalStatsFiles : TotalStatsFiles} {r : RepackRequest} :
    (Undisturbed env → ∃ result, addSubrequestsAndUpdateStats env agentReference l maxFSeqLowBound
        maxAddedFSeq totalStatsFiles r = .ok result)
      ∧ ∀ result, addSubrequestsAndUpdateStats env agentReference l maxFSeqLowBound maxAddedFSeq
          totalStatsFiles r = .ok result →
        (result.2.toNat = (handedOf env (preparedInfos r agentReference l) l.zipIdx).length
          ↔ (∀ batch ∈ (batches subrequestBatchSize l.zipIdx).dropLast,
              handedOf env (preparedInfos r agentReference l) batch = [])
            ∧ ∀ batch ∈ (batches subrequestBatchSize l.zipIdx).getLast?,
              (handedOf env (preparedInfos r agentReference l) batch).Nodup) := by
  refine ⟨fun henv => addSubrequestsAndUpdateStats_returns henv .., fun result h => ?_⟩
  obtain ⟨x, hx, h⟩ := bind_eq_ok.mp h
  cases h
  have hf := batches_flatten (n := subrequestBatchSize) (by decide) l.zipIdx
  have hs : ∀ b ∈ batches subrequestBatchSize l.zipIdx, b.length ≤ subrequestBatchSize :=
    length_le_of_mem_batches_go l.zipIdx.length l.zipIdx
  have hal : handedOf env (preparedInfos r agentReference l) l.zipIdx
      = handedOf env (preparedInfos r agentReference l)
          (batches subrequestBatchSize l.zipIdx).flatten := by rw [hf]
  change (batches subrequestBatchSize l.zipIdx).foldlM
    (addBatch env (preparedInfos r agentReference l)) _ = _ at hx
  rw [hal]
  show x.nbRetrieveSubrequestsCreated.toNat = _ ↔ _
  generalize preparedInfos r agentReference l = infos at hx
  rcases eq_nil_or_concat (batches subrequestBatchSize l.zipIdx) with hbs | ⟨bs, last, hbs⟩
  · rw [hbs] at hx ⊢
    cases hx
    simp [handedOf]
  · rw [concat_eq_append] at hbs
    rw [hbs] at hx hs ⊢
    have hnb := foldlM_addBatch_nbRetrieveSubrequestsCreated hx
    have hlast : (handedOf env infos last).dedup.length ≤ (handedOf env infos last).length :=
      (dedup_sublist _).length_le
    have hlt : (handedOf env infos last).dedup.length < 2 ^ 64 := by
      have h1 : (handedOf env infos last).length ≤ last.length := length_filterMap_le ..
      have h2 : last.length ≤ 500 := hs last (by simp)
      omega
    have hn : (handedOf env infos last).Nodup
        ↔ (handedOf env infos last).dedup.length = (handedOf env infos last).length :=
      ⟨fun h => congrArg _ h.dedup, fun h => (dedup_sublist _).eq_of_length h ▸ nodup_dedup _⟩
    have hb : (∀ batch ∈ bs, handedOf env infos batch = [])
        ↔ (handedOf env infos bs.flatten).length = 0 := by
      unfold handedOf
      rw [length_eq_zero_iff, filterMap_flatten, flatten_eq_nil_iff, forall_mem_map]
    have ha : (handedOf env infos (bs ++ [last]).flatten).length
        = (handedOf env infos bs.flatten).length + (handedOf env infos last).length := by
      simp [handedOf]
    rw [hnb, UInt64.toNat_ofNat_of_lt' hlt, ha, dropLast_concat, List.getLast?_concat, hb]
    simp only [Option.mem_def, Option.some.injEq, forall_eq', hn]
    omega

theorem one_created_one_returned : ∃ result, expandTape 0 2 = .ok result
      ∧ result.2.toNat
        = (handedOf (insertionFails 0) (infosOfTape 2) (filesOfTape 2).zipIdx).length := by
  obtain ⟨result, h⟩ := created_number_iff.1 (undisturbed_insertionFails 0)
  refine ⟨result, h, (created_number_iff.2 result h).mpr ⟨?_, ?_⟩⟩
  · intro batch hb
    cases hb
  intro batch hb
  cases hb
  decide +kernel

/-- **OF TWO CREATED SUBREQUESTS ONE IS RETURNED**: both files are on the same tape. -/
theorem two_created_one_returned : (expandTape 0 3).toOption.map (·.2) = some 1
      ∧ handedOf (insertionFails 0) (infosOfTape 3) (filesOfTape 3).zipIdx
        = [some "V00001", some "V00001"] := by
  decide +kernel

end TapeArchive.Scheduler
