/-
  **HOW LARGE A BATCH OF ARCHIVE JOBS GETS** (`ContainerAlgorithms::popNextBatch`
  for the two archive queues to transfer, and `ArchiveMount::getNextJobBatch`).

  The queue is fetched anew in each round and is not locked in between: what a round finds
  (`Round`) is an input here, and so are the outcomes of the ownership switches.
-/
import TapeArchive.Objectstore.ArchiveQueueHistory
import TapeArchive.Objectstore.QueueCandidates

namespace TapeArchive.Objectstore

open Lib ArchiveQueue List
open UInt64 (ofNat_add toNat_add)

/-! ## The algorithm -/

namespace PopNextBatch

/-- `ArchiveQueueToTransferForUser` and `ArchiveQueueToTransferForRepack`. -/
inductive QueueType where
  | forUser
  | forRepack
  deriving DecidableEq

structure PopCriteria where
  (files bytes : UInt64)

structure PoppedElementsSummary where
  files : UInt64 := 0
  bytes : UInt64 := 0

def PoppedElementsSummary.add (s s' : PoppedElementsSummary) : PoppedElementsSummary :=
  ⟨s.files + s'.files, s.bytes + s'.bytes⟩

def PoppedElementsSummary.sub (s s' : PoppedElementsSummary) : PoppedElementsSummary :=
  ⟨s.files - s'.files, s.bytes - s'.bytes⟩

/-- `PoppedElementsSummary::operator<`. -/
def PoppedElementsSummary.below (s : PoppedElementsSummary) (pc : PopCriteria) : Bool :=
  decide (s.bytes < pc.bytes) && decide (s.files < pc.files)

def PopCriteria.sub (pc : PopCriteria) (s : PoppedElementsSummary) : PopCriteria :=
  ⟨pc.files - s.files, pc.bytes - s.bytes⟩

/-- `PoppedElementsBatch`; of an element, the dump it is made of. -/
structure PoppedElementsBatch where
  elements : List JobDump := []
  summary : PoppedElementsSummary := {}

/-- `getElementSummary`: the one for users' queues counts the bytes, the general one does not. -/
def getElementSummary : QueueType → JobDump → PoppedElementsSummary
  | .forUser, e => ⟨1, e.size⟩
  | .forRepack, _ => ⟨1, 0⟩

variable (t : QueueType)

def PoppedElementsBatch.push (ret : PoppedElementsBatch) (cjfq : JobDump) :
    PoppedElementsBatch :=
  ⟨ret.elements ++ [cjfq], ret.summary.add (getElementSummary t cjfq)⟩

/-- `getPoppingElementsCandidates`: for repack, any number of bytes is asked for. -/
def getPoppingElementsCandidates (unfulfilledCriteria : PopCriteria)
    (elementsToSkip : List String) (cont : ArchiveQueue) : M PoppedElementsBatch := do
  let maxBytes := match t with
    | .forUser => unfulfilledCriteria.bytes
    | .forRepack => 18446744073709551615
  let candidateJobsFromQueue ←
    cont.getCandidateList maxBytes unfulfilledCriteria.files elementsToSkip
  pure (candidateJobsFromQueue.candidates.foldl (PoppedElementsBatch.push t) {})

inductive SwitchFailure where
  | noSuchObject | wrongPreviousOwner | couldNotUnlock | other
  deriving DecidableEq

/-- The queue and its store, how each switch ends, and whether the queue is trimmed. -/
structure Round where
  cont : Option (ArchiveQueue × Machine String (Obj ArchiveQueue (Shard ArchiveJobPointer))
    AgentReference)
  failure : Nat → Option SwitchFailure
  trimmed : Bool

structure Popping where
  ret : PoppedElementsBatch := {}
  unfulfilledCriteria : PopCriteria
  elementsToSkip : List String := []
  unexpectedException : Bool := false
  didTrim : Bool := false

def failedElements (failure : Nat → Option SwitchFailure) (elements : List JobDump) :
    List (JobDump × SwitchFailure) :=
  elements.zipIdx.filterMap (fun e => (failure e.2).map (fun f => (e.1, f)))

variable (failed : List (JobDump × SwitchFailure))

/-- The addresses of `elementsNotToReport`. -/
def notToReport : List String :=
  (failed.filter (fun e => e.2 != .couldNotUnlock)).map (·.1.address)

/-- The addresses that failed with an unexpected error. -/
def unexpected : List String :=
  (failed.filter (fun e => e.2 == .other)).map (·.1.address)

/-- The rest of a round, once it has its candidates. -/
def popCandidates (round : Round) (s : Popping)
    (candidateElements : PoppedElementsBatch) : Popping :=
  let failed := failedElements round.failure candidateElements.elements
  if failed.isEmpty then
    { s with
      ret := ⟨s.ret.elements ++ candidateElements.elements,
        s.ret.summary.add candidateElements.summary⟩
      unfulfilledCriteria := s.unfulfilledCriteria.sub candidateElements.summary
      didTrim := round.trimmed }
  else
    let reported := candidateElements.elements.filter
      (fun e => !(notToReport failed).contains e.address)
    let batchSummary := (candidateElements.elements.filter
      (fun e => (notToReport failed).contains e.address)).foldl
      (fun summary e => summary.sub (getElementSummary t e)) candidateElements.summary
    { s with
      ret := ⟨s.ret.elements ++ reported, s.ret.summary.add batchSummary⟩
      unfulfilledCriteria := s.unfulfilledCriteria.sub batchSummary
      elementsToSkip := s.elementsToSkip ++ unexpected failed
      unexpectedException := s.unexpectedException || !(unexpected failed).isEmpty }

/-- The loop; `none` when it wants one more round than are given. -/
def popLoop (t : QueueType) (popCriteria : PopCriteria) :
    List Round → Popping → Option (Except Exn PoppedElementsBatch)
  | rounds, s =>
      if !s.unexpectedException && s.ret.summary.below popCriteria && !s.didTrim then
        match rounds with
        | [] => none
        | round :: rest =>
            match round.cont with
            | none => some (.ok s.ret)
            | some (cont, m) =>
                match ((getPoppingElementsCandidates t s.unfulfilledCriteria s.elementsToSkip
                    cont).exec m).1 with
                | .error e => some (.error e)
                | .ok candidateElements =>
                    popLoop t popCriteria rest (popCandidates t round s candidateElements)
      else some (.ok s.ret)

def popNextBatch (popCriteria : PopCriteria) (rounds : List Round) :
    Option (Except Exn PoppedElementsBatch) :=
  popLoop t popCriteria rounds { unfulfilledCriteria := popCriteria }

/-- `ArchiveMount::getNextJobBatch`: the jobs are made of the popped elements. -/
def getNextJobBatch (filesRequested bytesRequested : UInt64)
    (rounds : List Round) : Option (Except Exn (List JobDump)) :=
  (popNextBatch t ⟨filesRequested, bytesRequested⟩ rounds).map (·.map (·.elements))

/-! ## Lists within limits -/

def dumpBytes (l : List JobDump) : Nat := (l.map (·.size.toNat)).sum

@[simp] theorem dumpBytes_append (l l' : List JobDump) :
    dumpBytes (l ++ l') = dumpBytes l + dumpBytes l' := by
  simp [dumpBytes]

/-- At most `maxFiles` elements, and below `maxBytes` without the last one. -/
def Within (maxBytes maxFiles : Nat) (l : List JobDump) : Prop :=
  l.length ≤ maxFiles ∧ (l ≠ [] → dumpBytes l.dropLast < maxBytes)

theorem Within.nil (maxBytes maxFiles : Nat) : Within maxBytes maxFiles [] :=
  ⟨Nat.zero_le _, fun h => absurd rfl h⟩

variable {maxBytes maxFiles : Nat}

theorem Within.singleton (hb : 0 < maxBytes) (hf : 0 < maxFiles) (e : JobDump) :
    Within maxBytes maxFiles [e] :=
  ⟨hf, fun _ => hb⟩

variable {l l' : List JobDump}

/-- **The step rule**: what is within what is left may follow. -/
theorem Within.append (h : Within maxBytes maxFiles l)
    (h' : Within (maxBytes - dumpBytes l) (maxFiles - l.length) l') :
    Within maxBytes maxFiles (l ++ l') := by
  have hle := h.1
  have hl' := h'.1
  refine ⟨by rw [length_append]; omega, fun _ => ?_⟩
  by_cases hn : l' = []
  · subst hn
    rw [append_nil]
    by_cases hl : l = []
    · subst hl
      simp_all [Within]
    · exact h.2 hl
  · have hlast := h'.2 hn
    rw [dropLast_append_of_ne_nil hn, dumpBytes_append]
    omega

theorem Within.sublist (h : Within maxBytes maxFiles l) (hs : l'.Sublist l) :
    Within maxBytes maxFiles l' := by
  have hd : l'.dropLast.Sublist l.dropLast := by
    simpa [tail_reverse] using hs.reverse.tail.reverse
  have hb : dumpBytes l'.dropLast ≤ dumpBytes l.dropLast :=
    (hd.map _).sum_le_sum (fun _ _ => Nat.zero_le _)
  refine ⟨hs.length_le.trans h.1, fun hne => ?_⟩
  have hl : l ≠ [] := by
    rintro rfl
    exact hne (sublist_nil.mp hs)
  exact hb.trans_lt (h.2 hl)

def Small (l : List JobDump) : Prop := ∀ e ∈ l, e.size.toNat < 2 ^ 63

/-- Within at most 2^63 bytes, small elements do not add up to 2^64. -/
theorem Within.bytes_lt {l : List JobDump}
    (h : Within maxBytes maxFiles l) (hs : Small l) (hm : maxBytes ≤ 2 ^ 63) :
    dumpBytes l < 2 ^ 64 := by
  by_cases hl : l = []
  · subst hl
    decide
  have hd := h.2 hl
  have hlast := hs _ (getLast_mem hl)
  have hsp : dumpBytes l = dumpBytes l.dropLast + (l.getLast hl).size.toNat := by
    conv_lhs => rw [← dropLast_append_getLast hl]
    simp [dumpBytes]
  omega

/-! ## The candidates -/

/-- A result of the selection that is within the limits and counts what it holds. -/
structure Limited (maxBytes maxFiles : Nat) (ret : CandidateJobList JobDump) : Prop where
  within : Within maxBytes maxFiles ret.candidates
  small : Small ret.candidates
  bytes : ret.candidateBytes.toNat = dumpBytes ret.candidates
  files : ret.candidateFiles.toNat = ret.candidates.length

theorem Limited.nil (maxBytes maxFiles : Nat) (remainingFiles remainingBytes : UInt64) :
    Limited maxBytes maxFiles
      { remainingFilesAfterCandidates := remainingFiles
        remainingBytesAfterCandidates := remainingBytes } :=
  ⟨.nil _ _, fun _ h => absurd h not_mem_nil, rfl, rfl⟩

variable {maxBytes maxFiles : UInt64}

/-- **More candidates** within what is left. -/
theorem Limited.afterShard {ret sc : CandidateJobList JobDump}
    (h : Limited maxBytes.toNat maxFiles.toNat ret) (hm : maxBytes.toNat ≤ 2 ^ 63)
    (hsc : Limited (maxBytes.toNat - dumpBytes ret.candidates)
      (maxFiles.toNat - ret.candidates.length) sc) :
    Limited maxBytes.toNat maxFiles.toNat (afterShard ret sc) := by
  have hw := h.within.append hsc.within
  have hs : Small (ret.candidates ++ sc.candidates) := by
    intro e he
    exact (mem_append.mp he).elim (h.small e) (hsc.small e)
  have hlt := hw.bytes_lt hs hm
  have hl := hw.1
  have hf := maxFiles.toNat_lt
  rw [dumpBytes_append] at hlt
  rw [length_append] at hl
  refine ⟨hw, hs, ?_, ?_⟩
  · show (ret.candidateBytes + sc.candidateBytes).toNat = dumpBytes (ret.candidates ++ sc.candidates)
    rw [toNat_add, h.bytes, hsc.bytes, dumpBytes_append]
    exact Nat.mod_eq_of_lt hlt
  · show (ret.candidateFiles + sc.candidateFiles).toNat = (ret.candidates ++ sc.candidates).length
    rw [toNat_add, h.files, hsc.files, length_append]
    exact Nat.mod_eq_of_lt (by omega)

variable {ret : CandidateJobList JobDump}

/-- The loop over a shard. -/
theorem candidateLoop_limited (skip : ArchiveJobPointer → Bool)
    (hm : maxBytes.toNat ≤ 2 ^ 63) (jobs : List ArchiveJobPointer)
    (hs : ∀ j ∈ jobs, j.size.toNat < 2 ^ 63) (h : Limited maxBytes.toNat maxFiles.toNat ret)
    (ho : ret.candidateBytes < maxBytes ∧ ret.candidateFiles < maxFiles) :
    Limited maxBytes.toNat maxFiles.toNat
      (candidateLoop JobDump.ofPointer skip maxBytes maxFiles jobs ret) := by
  induction jobs generalizing ret with
  | nil => exact h
  | cons j rest ih =>
    rw [UInt64.lt_iff_toNat_lt, UInt64.lt_iff_toNat_lt, h.bytes, h.files] at ho
    have hnext : Limited maxBytes.toNat maxFiles.toNat (afterJob JobDump.ofPointer skip ret j) := by
      unfold afterJob
      cases skip j with
      | true => exact ⟨h.within, h.small, h.bytes, h.files⟩
      | false =>
        -- one job is added as a shard with one candidate is
        have hon : Limited (maxBytes.toNat - dumpBytes ret.candidates)
            (maxFiles.toNat - ret.candidates.length)
            { candidates := [JobDump.ofPointer j], candidateBytes := j.size
              candidateFiles := 1 } := by
          refine ⟨.singleton (by omega) (by omega) _, ?_, ?_, rfl⟩
          · intro e he
            rw [mem_singleton.mp he]
            exact hs j mem_cons_self
          · simp [dumpBytes, JobDump.ofPointer]
        have := h.afterShard hm hon
        exact ⟨this.within, this.small, this.bytes, this.files⟩
    rw [candidateLoop_cons]
    split
    · exact hnext
    next hgo =>
      rw [not_or] at hgo
      exact ih (fun j' hj' => hs j' (.tail _ hj')) hnext
        ⟨UInt64.not_le.mp hgo.1, UInt64.not_le.mp hgo.2⟩

/-- The shards of a store hold jobs below 2^63 bytes. -/
def SmallJobs (m : Machine String (Obj ArchiveQueue (Shard ArchiveJobPointer)) AgentReference) :
    Prop :=
  ∀ a s, m.store a = some (.shard s) → ∀ j ∈ s.jobs, j.size.toNat < 2 ^ 63

variable {m : Machine String (Obj ArchiveQueue (Shard ArchiveJobPointer)) AgentReference}

/-- The loop over the pointers. -/
theorem candidateList_limited (skip : ArchiveJobPointer → Bool) (hm : maxBytes.toNat ≤ 2 ^ 63)
    (hs : SmallJobs m) (ps : List (ShardPointer Unit))
    (h : Limited maxBytes.toNat maxFiles.toNat ret) :
    wp (candidateList JobDump.ofPointer skip maxBytes maxFiles ps ret : M _)
      (fun ret' _ => Limited maxBytes.toNat maxFiles.toNat ret') (fun _ _ => True) m := by
  induction ps generalizing ret with
  | nil => exact h
  | cons p rest ih =>
    rw [candidateList_cons]
    split
    next ho =>
      rw [wp_bind]
      cases hp : m.store p.address with
      | none => simp [fetchShard, hp]
      | some o =>
        cases o with
        | queue | other => simp [fetchShard, hp]
        | shard s =>
          rw [wp_fetchShard hp]
          refine ih (h.afterShard hm ?_)
          have hb := UInt64.toNat_sub_of_le _ _ (UInt64.le_of_lt ho.1)
          have hf := UInt64.toNat_sub_of_le _ _ (UInt64.le_of_lt ho.2)
          have ho' : 0 < maxBytes - ret.candidateBytes ∧ 0 < maxFiles - ret.candidateFiles := by
            simp only [UInt64.lt_iff_toNat_lt, hb, hf, UInt64.toNat_zero] at ho ⊢
            omega
          rw [← h.bytes, ← h.files, ← hb, ← hf]
          exact candidateLoop_limited skip (by omega) s.jobs (hs _ s hp) (.nil ..) ho'
    · exact ih ⟨h.within, h.small, h.bytes, h.files⟩

/-! ## The rounds -/

/-- What `summary` counts for the elements of a user's queue. -/
def countOf (l : List JobDump) : PoppedElementsSummary :=
  ⟨UInt64.ofNat l.length, (l.map JobDump.size).sum⟩

theorem toNat_sum_size {l : List JobDump} (h : dumpBytes l < 2 ^ 64) :
    ((l.map JobDump.size).sum).toNat = dumpBytes l := by
  induction l with
  | nil => rfl
  | cons e l ih =>
    simp only [dumpBytes, map_cons, sum_cons] at h ih ⊢
    rw [toNat_add, ih (by omega)]
    exact Nat.mod_eq_of_lt h

theorem foldl_push (l : List JobDump) (ret : PoppedElementsBatch) :
    l.foldl (PoppedElementsBatch.push .forUser) ret
      = ⟨ret.elements ++ l, ret.summary.add (countOf l)⟩ := by
  induction l generalizing ret with
  | nil => simp [countOf, PoppedElementsSummary.add]
  | cons e l ih =>
    rw [foldl_cons, ih]
    simp only [PoppedElementsBatch.push, PoppedElementsSummary.add, getElementSummary, countOf,
      append_assoc, singleton_append, length_cons, map_cons, sum_cons,
      ofNat_add, PoppedElementsBatch.mk.injEq, PoppedElementsSummary.mk.injEq, true_and]
    constructor <;> grind

theorem foldl_sub (l : List JobDump) (s : PoppedElementsSummary) :
    l.foldl (fun summary e => summary.sub (getElementSummary .forUser e)) s
      = s.sub (countOf l) := by
  induction l generalizing s with
  | nil => simp [countOf, PoppedElementsSummary.sub]
  | cons e l ih =>
    rw [foldl_cons, ih]
    simp only [PoppedElementsSummary.sub, getElementSummary, countOf, length_cons,
      map_cons, sum_cons, ofNat_add, PoppedElementsSummary.mk.injEq]
    constructor <;> grind

/-- What is counted without some elements is what is counted for the others. -/
theorem countOf_sub_filter (p : JobDump → Bool) (l : List JobDump) :
    (countOf l).sub (countOf (l.filter p)) = countOf (l.filter (fun e => !p e)) := by
  induction l with
  | nil => simp [countOf, PoppedElementsSummary.sub]
  | cons e l ih =>
    simp only [PoppedElementsSummary.sub, countOf, PoppedElementsSummary.mk.injEq] at ih ⊢
    cases hp : p e <;>
      simp only [filter_cons, hp, Bool.not_true, Bool.not_false, if_true, if_false,
        Bool.false_eq_true, length_cons, map_cons, sum_cons, ofNat_add] <;>
      constructor <;> grind

/-- **The end of a round**: some of the candidates are kept, and counted. -/
theorem popCandidates_forUser (round : Round) (s : Popping) (candidates : List JobDump) :
    ∃ kept, kept.Sublist candidates
      ∧ (popCandidates .forUser round s ⟨candidates, countOf candidates⟩).ret
        = ⟨s.ret.elements ++ kept, s.ret.summary.add (countOf kept)⟩
      ∧ (popCandidates .forUser round s ⟨candidates, countOf candidates⟩).unfulfilledCriteria
        = s.unfulfilledCriteria.sub (countOf kept) := by
  unfold popCandidates
  dsimp only
  split
  · exact ⟨candidates, List.Sublist.refl _, rfl, rfl⟩
  refine ⟨candidates.filter (fun e => !(notToReport (failedElements round.failure
    candidates)).contains e.address), filter_sublist, ?_, ?_⟩
  · rw [foldl_sub, countOf_sub_filter]
  · rw [foldl_sub, countOf_sub_filter]

/-- Between the rounds, what is collected is within the limits, and counted. -/
structure Collected (pc : PopCriteria) (s : Popping) : Prop where
  within : Within pc.bytes.toNat pc.files.toNat s.ret.elements
  small : Small s.ret.elements
  summary : s.ret.summary = countOf s.ret.elements
  unfulfilled : s.unfulfilledCriteria = pc.sub s.ret.summary

variable {pc : PopCriteria}

/-- **One round** keeps it so. -/
theorem Collected.round {s : Popping} (h : Collected pc s)
    (hm : pc.bytes.toNat ≤ 2 ^ 63) (hb : s.ret.summary.below pc = true) (round : Round)
    {candidates : List JobDump}
    (hw : Within s.unfulfilledCriteria.bytes.toNat s.unfulfilledCriteria.files.toNat candidates)
    (hs : Small candidates) :
    Collected pc (popCandidates .forUser round s ⟨candidates, countOf candidates⟩) := by
  obtain ⟨kept, hsu, hret, hle⟩ := popCandidates_forUser round s candidates
  have hlt := h.within.bytes_lt h.small hm
  have hl : s.ret.elements.length < 2 ^ 64 := h.within.1.trans_lt pc.files.toNat_lt
  simp only [PoppedElementsSummary.below, Bool.and_eq_true, decide_eq_true_eq] at hb
  have hby : s.unfulfilledCriteria.bytes.toNat = pc.bytes.toNat - dumpBytes s.ret.elements := by
    rw [h.unfulfilled, PopCriteria.sub, UInt64.toNat_sub_of_le _ _ (UInt64.le_of_lt hb.1),
      h.summary, countOf, toNat_sum_size hlt]
  have hf : s.unfulfilledCriteria.files.toNat = pc.files.toNat - s.ret.elements.length := by
    rw [h.unfulfilled, PopCriteria.sub, UInt64.toNat_sub_of_le _ _ (UInt64.le_of_lt hb.2),
      h.summary, countOf, UInt64.toNat_ofNat_of_lt' hl]
  rw [hby, hf] at hw
  constructor
  · rw [hret]
    exact h.within.append (hw.sublist hsu)
  · rw [hret]
    intro e he
    exact (mem_append.mp he).elim (h.small e) (fun hk => hs e (hsu.subset hk))
  · rw [hret, h.summary]
    simp [PoppedElementsSummary.add, countOf, ofNat_add]
  · rw [hle, hret, h.unfulfilled]
    simp only [PopCriteria.sub, PoppedElementsSummary.add, PopCriteria.mk.injEq]
    constructor <;> grind

theorem getPoppingElementsCandidates_forUser {unfulfilled : PopCriteria} (toSkip : List String)
    (cont : ArchiveQueue) (hm : unfulfilled.bytes.toNat ≤ 2 ^ 63) (hs : SmallJobs m) :
    wp (getPoppingElementsCandidates .forUser unfulfilled toSkip cont)
      (fun batch _ => ∃ candidates, batch = ⟨candidates, countOf candidates⟩
        ∧ Within unfulfilled.bytes.toNat unfulfilled.files.toNat candidates ∧ Small candidates)
      (fun _ _ => True) m := by
  unfold getPoppingElementsCandidates
  rw [wp_bind]
  refine wp_post (candidateList_limited _ hm hs cont.queueshards (.nil _ _ 0 0)) ?_
  intro ret m' h
  refine ⟨ret.candidates, ?_, h.within, h.small⟩
  rw [foldl_push]
  simp [PoppedElementsSummary.add]

/-- **A whole run** of rounds over queues of users' jobs. -/
theorem popLoop_within (hm : pc.bytes.toNat ≤ 2 ^ 63) {rounds : List Round}
    (hs : ∀ round ∈ rounds, ∀ cont m, round.cont = some (cont, m) → SmallJobs m)
    {s : Popping} (h : Collected pc s) {batch : PoppedElementsBatch}
    (hp : popLoop .forUser pc rounds s = some (.ok batch)) :
    Within pc.bytes.toNat pc.files.toNat batch.elements := by
  induction rounds generalizing s with
  | nil =>
    unfold popLoop at hp
    split at hp
    · cases hp
    · cases hp
      exact h.within
  | cons round rest ih =>
    unfold popLoop at hp
    split at hp
    next hgo =>
      simp only [Bool.and_eq_true] at hgo
      cases hco : round.cont with
      | none =>
        simp only [hco] at hp
        cases hp
        exact h.within
      | some found =>
        obtain ⟨cont, m⟩ := found
        simp only [hco] at hp
        have hl : s.unfulfilledCriteria.bytes.toNat ≤ 2 ^ 63 := by
          have hb := hgo.1.2
          simp only [PoppedElementsSummary.below, Bool.and_eq_true, decide_eq_true_eq] at hb
          rw [h.unfulfilled, PopCriteria.sub, UInt64.toNat_sub_of_le _ _ (UInt64.le_of_lt hb.1)]
          omega
        have hc := getPoppingElementsCandidates_forUser s.elementsToSkip cont hl
          (hs round mem_cons_self cont m hco)
        unfold wp at hc
        rcases hexec : (getPoppingElementsCandidates .forUser s.unfulfilledCriteria
          s.elementsToSkip cont).exec m with ⟨result, m'⟩
        rw [hexec] at hp hc
        cases result with
        | error e => cases hp
        | ok found =>
          obtain ⟨candidates, rfl, hw, hs'⟩ := hc
          exact ih (fun r hr => hs r (.tail _ hr)) (h.round hm hgo.1.2 round hw hs') hp
    · cases hp
      exact h.within

/-! ## The limits of a batch -/

/-- A round on a queue with two jobs, both of which change hands. -/
def pairRound (size : UInt64) : Round where
  cont := some (pairQueue size, pairMachine size)
  failure _ := none
  trimmed := true

/-- The queues the rounds find hold jobs below 2^63 bytes. -/
def SmallRounds (rounds : List Round) : Prop :=
  ∀ round ∈ rounds, ∀ cont m, round.cont = some (cont, m) → SmallJobs m

theorem pairRound_small : SmallRounds [pairRound 5] := by
  intro round hr cont m hc a s hs j hj
  rw [mem_singleton.mp hr] at hc
  cases hc
  by_cases ha : a = "S"
  · subst ha
    cases hs
    fin_cases hj <;> decide
  · have hn : (pairMachine 5).store a = none := if_neg ha
    rw [hn] at hs
    cases hs

/-- **For repack the bytes are not counted**: 3 bytes are asked for, and two jobs of 5 come. -/
theorem repack_batch_too_large : (getNextJobBatch .forRepack 10 3 [pairRound 5]).map (·.toOption)
        = some (some [⟨5, "R1", 1⟩, ⟨5, "R2", 1⟩])
      ∧ ¬ Within 3 10 [⟨5, "R1", 1⟩, ⟨5, "R2", 1⟩]
      ∧ (getNextJobBatch .forUser 10 3 [pairRound 5, pairRound 5]).map (·.toOption)
        = some (some [⟨5, "R1", 1⟩]) := by
  refine ⟨by decide +kernel, ?_, by decide +kernel⟩
  intro h
  exact absurd (h.2 (by simp)) (by decide)

/-- **THE LIMITS OF A BATCH** are kept, whatever the rounds find, exactly for users' jobs. -/
theorem byte_limit_iff :
    (∀ (filesRequested bytesRequested : UInt64) (rounds : List Round) (jobs : List JobDump),
      bytesRequested.toNat ≤ 2 ^ 63 → SmallRounds rounds →
      getNextJobBatch t filesRequested bytesRequested rounds = some (.ok jobs) →
      Within bytesRequested.toNat filesRequested.toNat jobs) ↔ t = .forUser := by
  constructor
  · intro h
    cases t with
    | forUser => rfl
    | forRepack =>
      have hb : getNextJobBatch .forRepack 10 3 [pairRound 5]
          = some (.ok [⟨5, "R1", 1⟩, ⟨5, "R2", 1⟩]) := rfl
      have hw := h 10 3 [pairRound 5] _ (by decide) pairRound_small hb
      exact absurd (hw.2 (by simp)) (by decide)
  · rintro rfl filesRequested bytesRequested rounds jobs hm hs hb
    obtain ⟨result, hp, hj⟩ := Option.map_eq_some_iff.mp hb
    cases result with
    | error e => cases hj
    | ok batch =>
      cases hj
      refine @popLoop_within ⟨filesRequested, bytesRequested⟩ hm rounds hs _ ?_ batch hp
      exact ⟨.nil _ _, fun _ he => absurd he not_mem_nil, rfl, by
        simp [PopCriteria.sub]⟩

/-! ## A round on a stored queue -/

/-- The oldest jobs of a queue, up to the limits. -/
def oldest (pc : PopCriteria) (queued : List ArchiveJobPointer) : List JobDump :=
  (examine (fun _ => false) (if t = .forUser then pc.bytes else 18446744073709551615).toNat
    pc.files.toNat 0 0 queued).1.map JobDump.ofPointer

end PopNextBatch

end TapeArchive.Objectstore
