/-
  **THE TAPE TO RECALL FROM** (`Helpers::selectBestRetrieveQueue`,
  `Helpers::getRetrieveQueueStatistics`).

  The statistics of the retrieve queues of the candidate tapes are cached for ten
  seconds. A stale entry is marked, read again without the lock and written back:

      updating := true ──► getTapesByVid ──► getRetrieveQueueStatistics ──► updating := false

  The promise of a refresh that threw is gone, so that waiting for it returns at once.
-/
import TapeArchive.Common.DataStructures
import TapeArchive.Objectstore.RootEntry

namespace TapeArchive.Objectstore.Selection

open Lib Common List

/-! ## The statistics of the queues -/

structure RetrieveQueueStatistics where
  vid : String
  (bytesQueued filesQueued currentPriority : UInt64)
  deriving DecidableEq

/-- `operator>`. -/
def RetrieveQueueStatistics.greater (left right : RetrieveQueueStatistics) : Bool :=
  left.bytesQueued > right.bytesQueued || left.currentPriority > right.currentPriority

/-- What a call meets: the clock, the tapes of the catalogue, the root entry and the queues. -/
structure Outside where
  time : Int64
  getTapesByVid : String → Except RequestExn (List (String × TapeState))
  /-- The stored root entry, or what its lock or its fetch throws. -/
  rootEntry : Except RequestExn RootEntry
  /-- The vid and the summary of the queue at an address, if there is one. -/
  queueAt : String → Option RetrieveQueueStatistics

/-- The root entry in memory, with the flag of `ObjectOpsBase`. -/
structure FetchedRootEntry where
  m_payload : RootEntry
  m_payloadInterpreted : Bool

namespace FetchedRootEntry

/-- `ScopedLock::release`: the object in memory is void from then on. -/
def release (re : FetchedRootEntry) : FetchedRootEntry := { re with m_payloadInterpreted := false }

def getRetrieveQueueAddress (re : FetchedRootEntry) (vid : String) : Except RequestExn String :=
  -- `checkPayloadReadable`
  if !re.m_payloadInterpreted then .error (.exception
    "In ObjectOps::checkPayloadReadable: header not yet fetched or initialized")
  else match re.m_payload.findAddress ⟨.retrieve, .jobsToTransferForUser, vid⟩ with
    | none => .error (.exception ("In RootEntry::getRetreveQueueAddress: retrieve queue not allocated "
        ++ vid ++ "/jobsToTranfer"))
    | some address => .ok address

end FetchedRootEntry

/-- `ObjectOpsBase::setAddress` of a new object. -/
def setAddress (name : String) : Except RequestExn Unit :=
  if name.isEmpty then .error (.exception "In ObjectOps::setAddress(): empty name") else .ok ()

/-- The turn of a tape file whose vid is considered. -/
def queueStatistics (o : Outside) (re : FetchedRootEntry) (vid : String) :
    Except RequestExn RetrieveQueueStatistics :=
  let rqAddr := ""
  match re.getRetrieveQueueAddress vid with
  -- every exception of the lookup is taken for a missing queue
  | .error _ => .ok ⟨vid, 0, 0, 0⟩
  | .ok _ => do
    -- the address went to a variable of the inner block
    setAddress rqAddr
    match o.queueAt rqAddr with
    | none => .error (.noSuchObject rqAddr)
    | some rq =>
      if rq.vid != vid then .error (.exception
        "In OStoreDB::getRetrieveQueueStatistics(): unexpected vid for retrieve queue")
      else .ok rq

/-- The vids of the tape files that are considered. -/
def considered (tapeFiles : List TapeFile) (vidsToConsider : List String) : List String :=
  (tapeFiles.map (·.vid)).filter (· ∈ vidsToConsider)

def getRetrieveQueueStatistics (o : Outside) (tapeFiles : List TapeFile)
    (vidsToConsider : List String) : Except RequestExn (List RetrieveQueueStatistics) := do
  let stored ← o.rootEntry
  -- the lock is released before the queues are looked up
  let re := FetchedRootEntry.release ⟨stored, true⟩
  (considered tapeFiles vidsToConsider).mapM (queueStatistics o re)

/-- The retrieve queue of a tape: the root entry points to it, and it is there. -/
def Outside.queueOf (o : Outside) (vid : String) : Option RetrieveQueueStatistics :=
  match o.rootEntry with
  | .error _ => none
  | .ok re => (re.findAddress ⟨.retrieve, .jobsToTransferForUser, vid⟩).bind o.queueAt

/-- What is to be reported of a vid. -/
def expectedStatistics (o : Outside) (vid : String) : RetrieveQueueStatistics :=
  match o.queueOf vid with
  | none => ⟨vid, 0, 0, 0⟩
  | some queue => { queue with vid := vid }

variable {o : Outside}

/-- **Zeros, whatever is queued**: no lookup in the released root entry succeeds. -/
theorem getRetrieveQueueStatistics_eq (o : Outside) (tapeFiles : List TapeFile)
    (vidsToConsider : List String) : getRetrieveQueueStatistics o tapeFiles vidsToConsider
      = o.rootEntry.map fun _ => (considered tapeFiles vidsToConsider).map (⟨·, 0, 0, 0⟩) := by
  unfold getRetrieveQueueStatistics
  cases o.rootEntry with
  | error e => rfl
  | ok re =>
    have hz : queueStatistics o (FetchedRootEntry.release ⟨re, true⟩)
        = fun vid => pure ⟨vid, 0, 0, 0⟩ := rfl
    show List.mapM _ _ = _
    rw [hz, mapM_pure]
    rfl

theorem expectedStatistics_eq_zero_iff {vid : String} : expectedStatistics o vid = ⟨vid, 0, 0, 0⟩
      ↔ ∀ queue ∈ o.queueOf vid,
        queue.bytesQueued = 0 ∧ queue.filesQueued = 0 ∧ queue.currentPriority = 0 := by
  unfold expectedStatistics
  cases o.queueOf vid with
  | none => simp
  | some queue => simp [RetrieveQueueStatistics.mk.injEq]

/-- **THE STATISTICS ARE REPORTED** exactly when the root entry can be read and the queues of the
considered tapes are empty and of priority 0. -/
theorem queue_statistics_iff (o : Outside) (tapeFiles : List TapeFile)
    (vidsToConsider : List String) :
    getRetrieveQueueStatistics o tapeFiles vidsToConsider
        = .ok ((considered tapeFiles vidsToConsider).map (expectedStatistics o))
      ↔ (∃ re, o.rootEntry = .ok re) ∧ ∀ tf ∈ tapeFiles, tf.vid ∈ vidsToConsider →
        ∀ queue ∈ o.queueOf tf.vid,
          queue.bytesQueued = 0 ∧ queue.filesQueued = 0 ∧ queue.currentPriority = 0 := by
  rw [getRetrieveQueueStatistics_eq]
  simp only [← expectedStatistics_eq_zero_iff]
  cases o.rootEntry with
  | error e => simp [Except.map]
  | ok re =>
    have hm : ∀ vid, vid ∈ considered tapeFiles vidsToConsider
        ↔ vid ∈ vidsToConsider ∧ ∃ tf ∈ tapeFiles, tf.vid = vid := by
      simp [considered, and_comm]
    simp only [Except.map, Except.ok.injEq, map_inj_left, hm, exists_eq', true_and]
    constructor
    · exact fun h tf htf hv => (h _ ⟨hv, tf, htf, rfl⟩).symm
    · rintro h _ ⟨hv, tf, htf, rfl⟩
      exact (h tf htf hv).symm

/-- V1 has a queue of two files at `RetrieveQueue-1`. -/
def oneQueue : Outside where
  time := 100
  getTapesByVid vid := .ok [(vid, .active)]
  rootEntry := .ok ((⟨fun _ => [], fun _ => []⟩ : RootEntry).addPointer
    ⟨.retrieve, .jobsToTransferForUser, "V1"⟩ "RetrieveQueue-1")
  queueAt address := if address = "RetrieveQueue-1" then some ⟨"V1", 20, 2, 1⟩ else none

/-- **ITS JOBS ARE NOT REPORTED.** -/
theorem queued_jobs_not_reported : oneQueue.queueOf "V1" = some ⟨"V1", 20, 2, 1⟩
      ∧ getRetrieveQueueStatistics oneQueue [⟨"V1", 1, 1⟩] ["V1"] = .ok [⟨"V1", 0, 0, 0⟩] :=
  ⟨by decide, rfl⟩

/-! ## The cache -/

/-- `RetrieveQueueStatisticsWithTime`; of the tape only the state is read. -/
structure CacheEntry where
  stats : RetrieveQueueStatistics
  tapeStatus : TapeState
  updating : Bool
  updateTime : Int64

/-- `g_retrieveQueueStatistics`. -/
abbrev Cache := String → Option CacheEntry

/-- `g_retrieveQueueStatistics[v].updating = …`, which makes the entry if there is none. -/
def setUpdating (cache : Cache) (v : String) (updating : Bool) : Cache :=
  Function.update cache v (some
    { (cache v).getD ⟨⟨"", 0, 0, 0⟩, .active, false, 0⟩ with updating := updating })

def refresh (o : Outside) (cache : Cache) (v : String) : Cache × Except RequestExn CacheEntry :=
  match o.getTapesByVid v with
  | .error e => (setUpdating cache v true, .error e)
  | .ok tapeStatus =>
    match getRetrieveQueueStatistics o [⟨v, 0, 1⟩] [v] with
    | .error e => (setUpdating cache v true, .error e)
    | .ok queuesStats =>
      let cache := setUpdating cache v false
      match queuesStats with
      | [stats] =>
        if stats.vid != v then (cache, .error (.exception
          "In Helpers::selectBestRetrieveQueue(): unexpected vid in queueStats."))
        else match tapeStatus with
        | [tape] =>
          if tape.1 != v then (cache, .error (.exception
            "In Helpers::selectBestRetrieveQueue(): unexpected vid in tapeStatus."))
          else
            let entry := ⟨stats, tape.2, false, o.time⟩
            (Function.update cache v (some entry), .ok entry)
        | _ => (cache, .error (.exception
          "In Helpers::selectBestRetrieveQueue(): unexpected size for tapeStatus."))
      | _ => (cache, .error (.exception
        "In Helpers::selectBestRetrieveQueue(): unexpected size for queueStats."))

/-- The turn of a candidate: the entry that is used. One being updated is waited for. -/
def visit (o : Outside) (cache : Cache) (v : String) : Cache × Except RequestExn CacheEntry :=
  match cache v with
  | none => refresh o cache v
  | some e =>
    if e.updating then (cache, .ok e)
    else if o.time - e.updateTime > 10 then refresh o cache v
    else (cache, .ok e)

def admissible (forceDisabledTape : Bool) (e : CacheEntry) : Bool :=
  e.tapeStatus == .active || (e.tapeStatus == .disabled && forceDisabledTape)

/-- The loop over the candidates, up to the first refresh that throws. -/
def candidateVidsStats (o : Outside) (forceDisabledTape : Bool) (cache : Cache) :
    List String → Cache × Except RequestExn (List RetrieveQueueStatistics)
  | [] => (cache, .ok [])
  | v :: vs =>
    match visit o cache v with
    | (cache, .error e) => (cache, .error e)
    | (cache, .ok e) =>
      let rest := candidateVidsStats o forceDisabledTape cache vs
      (rest.1, rest.2.map (fun l => if admissible forceDisabledTape e then e.stats :: l else l))

/-- A call as the cache sees it: what it meets and its arguments. -/
structure Call where
  outside : Outside
  candidateVids : List String
  forceDisabledTape : Bool

def afterCall (cache : Cache) (c : Call) : Cache :=
  (candidateVidsStats c.outside c.forceDisabledTape cache c.candidateVids).1

def Unmarked (cache : Cache) : Prop := ∀ v, ∀ e ∈ cache v, e.updating = false

variable {cache : Cache}

theorem Unmarked.update (h : Unmarked cache) {v : String} {e : CacheEntry}
    (he : e.updating = false) : Unmarked (Function.update cache v (some e)) := by
  intro w e' he'
  by_cases hw : w = v
  · subst hw
    rw [Function.update_self] at he'
    cases he'
    exact he
  · rw [Function.update_of_ne hw] at he'
    exact h w e' he'

/-- The catalogue answers for every candidate, and the root entry can be read. -/
def ReadsReturn (c : Call) : Prop :=
  (∃ re, c.outside.rootEntry = .ok re)
    ∧ ∀ v ∈ c.candidateVids, ∃ tapes, c.outside.getTapesByVid v = .ok tapes

/-- **One refresh** whose reads return takes its mark away. -/
theorem unmarked_refresh {v : String} (h : Unmarked cache) {re : RootEntry}
    {tapes : List (String × TapeState)} (hre : o.rootEntry = .ok re)
    (hta : o.getTapesByVid v = .ok tapes) : Unmarked (refresh o cache v).1 := by
  have hs : getRetrieveQueueStatistics o [⟨v, 0, 1⟩] [v] = .ok [⟨v, 0, 0, 0⟩] := by
    rw [getRetrieveQueueStatistics_eq, hre]
    simp [considered, Except.map]
  have hse : Unmarked (setUpdating cache v false) := h.update rfl
  unfold refresh
  rw [hta, hs]
  simp only [bne_self_eq_false, Bool.false_eq_true, if_false]
  -- the checks of what was read throw after the mark is gone
  split
  · split
    · exact hse
    · exact hse.update rfl
  · exact hse

/-- **One call**: the turns of its candidates, by induction on those that are left. -/
theorem unmarked_candidateVidsStats {force : Bool} {vs : List String} {re : RootEntry}
    (hre : o.rootEntry = .ok re) (hta : ∀ v ∈ vs, ∃ tapes, o.getTapesByVid v = .ok tapes) :
    ∀ {cache : Cache}, Unmarked cache → Unmarked (candidateVidsStats o force cache vs).1 := by
  induction vs with
  | nil => exact fun h => h
  | cons v vs ih =>
    intro cache h
    obtain ⟨tapes, hv⟩ := hta v mem_cons_self
    have hvi : Unmarked (visit o cache v).1 := by
      unfold visit
      split
      · exact unmarked_refresh h hre hv
      split
      · exact h
      · split
        · exact unmarked_refresh h hre hv
        · exact h
    unfold candidateVidsStats
    split
    next cache' e heq =>
      rw [heq] at hvi
      exact hvi
    next cache' e heq =>
      rw [heq] at hvi
      exact ih (fun w hw => hta w (.tail _ hw)) hvi

/-- **NO ENTRY IS LEFT MARKED** by calls whose reads return, from any cache without marks. -/
theorem no_entry_left_marked {cache : Cache} {calls : List Call} (h : Unmarked cache)
    (hreads : Along afterCall (fun _ c => ReadsReturn c) cache calls) :
    Unmarked (run afterCall cache calls) :=
  run_invariant (fun _ c hca (hc : ReadsReturn c) =>
    hc.1.elim fun _ hre => unmarked_candidateVidsStats hre hc.2 hca) h hreads

/-- A first call and one that finds a stale entry leave no mark, although there is a queue. -/
theorem two_refreshes_leave_no_mark : Unmarked (run afterCall (fun _ => none)
      [⟨oneQueue, ["V1"], false⟩, ⟨{ oneQueue with time := 200 }, ["V1"], false⟩]) := by
  refine no_entry_left_marked (fun v e he => ?_) ⟨?_, ?_, trivial⟩
  · cases he
  · exact ⟨⟨_, rfl⟩, fun v _ => ⟨_, rfl⟩⟩
  · exact ⟨⟨_, rfl⟩, fun v _ => ⟨_, rfl⟩⟩

/-- The catalogue cannot be asked. -/
def catalogueDown : Outside :=
  { oneQueue with getTapesByVid := fun _ => .error (.exception "no connection") }

/-- **A REFRESH THAT THROWS** leaves a blank entry marked, and a later call uses it. -/
theorem marked_entry_is_reused :
    run afterCall (fun _ => none)
        [⟨catalogueDown, ["V1"], false⟩, ⟨{ oneQueue with time := 200 }, ["V1"], false⟩] "V1"
      = some ⟨⟨"", 0, 0, 0⟩, .active, true, 0⟩ :=
  rfl

/-! ## The choice -/

/-- `candidateVidsStats.sort(leftGreaterThanRight)`: `list::sort` is a stable merge sort, too. -/
def sorted (stats : List RetrieveQueueStatistics) : List RetrieveQueueStatistics :=
  stats.mergeSort (fun left right => !right.greater left)

/-- `shortlistVids`, before it is made a set. -/
def shortlist (front : RetrieveQueueStatistics) (stats : List RetrieveQueueStatistics) :
    List String :=
  (stats.filter (fun s => !front.greater s && !s.greater front)).map (·.vid)

/-- The end of `selectBestRetrieveQueue`; `none` is `NoTapeAvailableForRetrieve`. -/
def choose (candidateVids : List String) (index : Nat) (stats : List RetrieveQueueStatistics) :
    Option String :=
  match sorted stats with
  | [] => none
  | front :: rest =>
    let shortlistVids := shortlist front (front :: rest)
    if shortlistVids.dedup.length = 1 then shortlistVids.head? else candidateVids[index]?

def selectBestRetrieveQueue (c : Call) (index : Nat) (cache : Cache) :
    Cache × Except RequestExn (Option String) :=
  let stats := candidateVidsStats c.outside c.forceDisabledTape cache c.candidateVids
  (stats.1, stats.2.map (choose c.candidateVids index))

/-- The admissible tapes that no other one beats. -/
def best (stats : List RetrieveQueueStatistics) : List RetrieveQueueStatistics :=
  stats.filter (fun s => stats.all (fun t => !t.greater s))

variable {x : RetrieveQueueStatistics}

variable {stats rest : List RetrieveQueueStatistics} {front : RetrieveQueueStatistics}

/-- The cached entry that is fresh or being updated, or the tape's status and no jobs. -/
def entryOf (o : Outside) (cache : Cache) (v : String) : Option CacheEntry :=
  let read := match o.getTapesByVid v, o.rootEntry with
    | .ok [(vid, state)], .ok _ => if vid = v then some ⟨⟨v, 0, 0, 0⟩, state, false, o.time⟩ else none
    | _, _ => none
  match cache v with
  | none => read
  | some e => if e.updating ∨ ¬o.time - e.updateTime > 10 then some e else read

/-- A candidate that may be recalled from, with its statistics. -/
def Offers (c : Call) (cache : Cache) (v : String) (s : RetrieveQueueStatistics) : Prop :=
  v ∈ c.candidateVids
    ∧ ∃ e, entryOf c.outside cache v = some e ∧ admissible c.forceDisabledTape e ∧ e.stats = s

/-- A candidate that may be recalled from and that no other one beats. -/
def Best (c : Call) (cache : Cache) (v : String) (s : RetrieveQueueStatistics) : Prop :=
  Offers c cache v s ∧ ∀ w s', Offers c cache w s' → s'.greater s = false

section Choice

variable {c : Call} (hst : ∀ s, s ∈ stats ↔ ∃ v, Offers c cache v s)

include hst

section Shortlist

variable (hs : sorted stats = front :: rest) (hb : best stats ≠ [])

include hs hb

end Shortlist

end Choice

end TapeArchive.Objectstore.Selection
