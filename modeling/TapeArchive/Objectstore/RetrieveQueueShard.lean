/-
  `RetrieveQueueShard.cpp`: a shard of a retrieve queue keeps its jobs in the
  order of their fSeq. A batch of jobs is inserted either in place (each job
  is appended and swapped towards the front) or through a sorted copy; a
  bisection estimates which of the two moves fewer entries.

  Whichever way is taken, the shard holds exactly the old and the new jobs, in
  order, with their bytes (`addJobsBatch_extends`).
-/
import TapeArchive.Objectstore.ShardedQueue

namespace TapeArchive.Objectstore

open Lib List

/-! ## The data -/

structure RetrieveJobPointer where
  size : UInt64
  address : String
  copynb : UInt32
  (fseq priority minretrieverequestage starttime : UInt64)
  mountpolicyname : String
  (activity destination_disk_system_name : Option String)
  deriving DecidableEq

instance : QueueJob RetrieveJobPointer where
  address := (·.address)
  size := (·.size)
  priority := (·.priority)
  minRequestAge := (·.minretrieverequestage)
  mountPolicyName := (·.mountpolicyname)
  starttime := (·.starttime)

structure RetrieveQueue.JobToAdd where
  copyNb : UInt32
  fSeq : UInt64
  retrieveRequestAddress : String
  fileSize : UInt64
  policy : MountPolicy
  startTime : Int64
  (activity diskSystemName : Option String)

/-- The entry `addJob` writes for a job. -/
def RetrieveQueue.JobToAdd.toPointer (j : RetrieveQueue.JobToAdd) : RetrieveJobPointer where
  size := j.fileSize
  address := j.retrieveRequestAddress
  copynb := j.copyNb
  fseq := j.fSeq
  priority := j.policy.retrievePriority
  minretrieverequestage := j.policy.retrieveMinRequestAge
  starttime := j.startTime.toUInt64
  mountpolicyname := j.policy.name
  activity := j.activity
  destination_disk_system_name := j.diskSystemName

/-- The archive half of the policy is not stored in a retrieve shard. -/
def RetrieveQueue.JobToAdd.ofPointer (j : RetrieveJobPointer) : RetrieveQueue.JobToAdd where
  copyNb := j.copynb
  fSeq := j.fseq
  retrieveRequestAddress := j.address
  fileSize := j.size
  policy :=
    { name := j.mountpolicyname
      archivePriority := 0
      archiveMinRequestAge := 0
      retrievePriority := j.priority
      retrieveMinRequestAge := j.minretrieverequestage }
  startTime := j.starttime.toInt64
  activity := j.activity
  diskSystemName := j.destination_disk_system_name

/-- A job that goes through memory to another shard is stored there as it was. -/
@[simp] theorem RetrieveQueue.JobToAdd.toPointer_ofPointer (j : RetrieveJobPointer) :
    (RetrieveQueue.JobToAdd.ofPointer j).toPointer = j := by
  cases j
  simp [RetrieveQueue.JobToAdd.ofPointer, RetrieveQueue.JobToAdd.toPointer]

abbrev RetrieveQueueShard := Shard RetrieveJobPointer

/-- The fSeqs in a `RetrieveQueueShardPointer`. -/
structure FseqRange where
  (minfseq maxfseq : UInt64)
  deriving DecidableEq

abbrev RetrieveQueueShardPointer := ShardPointer FseqRange

namespace RetrieveQueueShard

open RetrieveQueue (JobToAdd)

/-! ## Adding jobs -/

variable (s : RetrieveQueueShard)

/-- Append, then swap to the front: from the end, an ordered insertion. -/
def addJob (j : JobToAdd) : RetrieveQueueShard where
  jobs := (s.jobs.reverse.orderedInsert (fun a b => b.fseq ≤ a.fseq) j.toPointer).reverse
  jobstotalsize := s.jobstotalsize + j.fileSize

variable (jobsToAdd : List JobToAdd)

def addJobsInPlace : RetrieveQueueShard :=
  jobsToAdd.foldl addJob s

/-- `std::multiset::insert(hint, value)`: as close to the hint as the order allows. -/
def insertHint (acc : List RetrieveJobPointer × Nat) (j : RetrieveJobPointer) :
    List RetrieveJobPointer × Nat :=
  let lower := acc.1.countP (fun x => x.fseq < j.fseq)
  let upper := acc.1.countP (fun x => x.fseq ≤ j.fseq)
  let position := max lower (min acc.2 upper)
  (acc.1.insertIdx position j, position)

variable (jobs : List RetrieveJobPointer)

/-- The ordered multiset built by inserting with the last position as the hint. -/
def sortedCopy : List RetrieveJobPointer :=
  (jobs.foldl insertHint ([], 0)).1

def addJobsThroughCopy :
    RetrieveQueueShard where
  jobs := (sortedCopy (jobsToAdd.map (·.toPointer))).foldl
    (fun set j => set.orderedInsert (fun a b => a.fseq < b.fseq) j) (sortedCopy s.jobs)
  jobstotalsize := s.jobstotalsize + (jobsToAdd.map (·.fileSize)).sum

/-- The number of jobs after the last index whose fSeq is not above `fSeqLimit`. -/
def bisect (jobs : List RetrieveJobPointer) (fSeqLimit : UInt64) :
    Nat → Nat → Nat → Nat → Except Exn Nat
  | 0, _, _, _ => .error .diverges
  | fuel + 1, iminmin, iminmax, imin =>
      match jobs[imin]? with
      | none => .error (.undefined .jobIndex)
      | some j =>
          if j.fseq > fSeqLimit then
            if (iminmin + imin) / 2 = 0 then
              match jobs.head? with
              | none => .error (.undefined .jobIndex)
              | some first =>
                  .ok (if first.fseq ≤ fSeqLimit then jobs.length - 1 else jobs.length)
            else bisect jobs fSeqLimit fuel iminmin imin ((iminmin + imin) / 2)
          else if imin ≥ jobs.length - 1 then
            match jobs.getLast? with
            | none => .error (.undefined .jobIndex)
            | some last => .ok (if last.fseq ≤ fSeqLimit then 0 else 1)
          else
            match jobs[imin + 1]? with
            | none => .error (.undefined .jobIndex)
            | some j1 =>
                if j1.fseq > fSeqLimit then .ok (jobs.length - imin - 1)
                else if imin + 1 = jobs.length - 1 then .ok 0
                else bisect jobs fSeqLimit fuel imin iminmax ((imin + iminmax) / 2)

/-- The number `Np` of stored jobs the first job to add has to be moved over. -/
def jobsAbove (fSeqLimit : UInt64) : Except Exn Nat :=
  match jobs with
  | [] => .ok 0
  | [j] => .ok (if j.fseq ≤ fSeqLimit then 0 else 1)
  | _ => bisect jobs fSeqLimit (jobs.length + 1) 0 (jobs.length - 1) (jobs.length / 2)

/-- `addJobsBatch`, for jobs in the order of a `JobsToAddSet`. -/
def addJobsBatch :
    Except Exn RetrieveQueueShard :=
  match jobsToAdd with
  | [] => .ok s
  | first :: _ => do
      let N := s.jobs.length
      let Np ← jobsAbove s.jobs first.fSeq
      let k := jobsToAdd.length
      if 3 * (k + 1) * Np / 2 > 2 * N + 3 * k then pure (addJobsThroughCopy s jobsToAdd)
      else pure (addJobsInPlace s jobsToAdd)

/-- `JobsToAddSet`, a multiset ordered by fSeq: each job goes after its equals. -/
def jobsToAddSet (jobs : List JobToAdd) : List JobToAdd :=
  jobs.foldl (fun set j => set.orderedInsert (fun a b => a.fSeq < b.fSeq) j) []

/-! ## The summary of a shard -/

structure JobsSummary where
  (jobs bytes minFseq maxFseq : UInt64)

/-- The fSeqs of the first and the last job, which an empty shard does not have. -/
def getJobsSummary (s : RetrieveQueueShard) : Except Exn JobsSummary :=
  match s.jobs.head?, s.jobs.getLast? with
  | some first, some last =>
      if first.fseq > last.fseq then
        .error (.exception "In RetrieveQueueShard::getJobsSummary(): wrong shard ordering.")
      else
        .ok { jobs := UInt64.ofNat s.jobs.length
              bytes := s.jobstotalsize
              minFseq := first.fseq
              maxFseq := last.fseq }
  | _, _ => .error (.undefined .emptyShardSummary)

/-- The range `RetrieveQueue::rebuild` records in the pointer of a shard. -/
def rangeOf : FseqRange :=
  jobs.foldl (fun r j =>
    { minfseq := if j.fseq < r.minfseq then j.fseq else r.minfseq
      maxfseq := if j.fseq > r.maxfseq then j.fseq else r.maxfseq })
    { minfseq := UInt64.ofNat (UInt64.size - 1), maxfseq := 0 }

/-! ## A batch insertion adds exactly the batch -/

abbrev Ordered (jobs : List RetrieveJobPointer) : Prop := SortedBy RetrieveJobPointer.fseq jobs

/-- `s'` is `s` with more jobs, in order if `s` was, and with their bytes. -/
structure Extends (s s' : RetrieveQueueShard) (jobs : List RetrieveJobPointer) : Prop where
  perm : s'.jobs.Perm (s.jobs ++ jobs)
  ordered : Ordered s.jobs → Ordered s'.jobs
  bytes : s'.jobstotalsize = s.jobstotalsize + bytesOf jobs

theorem Extends.refl : Extends s s [] := ⟨by simp, id, by simp⟩

theorem Extends.trans {s s' s'' : RetrieveQueueShard} {jobs jobs' : List RetrieveJobPointer}
    (h : Extends s s' jobs) (h' : Extends s' s'' jobs') : Extends s s'' (jobs ++ jobs') where
  perm := by
    rw [← append_assoc]
    exact h'.perm.trans (h.perm.append_right jobs')
  ordered := h'.ordered ∘ h.ordered
  bytes := by rw [h'.bytes, h.bytes, bytesOf_append, add_assoc]

theorem addJob_extends (j : JobToAdd) :
    Extends s (addJob s j) [j.toPointer] where
  perm := by
    have h := perm_orderedInsert (fun a b : RetrieveJobPointer => b.fseq ≤ a.fseq)
      j.toPointer s.jobs.reverse
    refine (reverse_perm _).trans (h.trans ?_)
    exact ((reverse_perm s.jobs).cons _).trans (perm_append_singleton _ _).symm
  ordered := fun h => h.reverse_orderedInsert j.toPointer
  bytes := by
    show s.jobstotalsize + j.fileSize = s.jobstotalsize + (j.fileSize + 0)
    simp

theorem addJobsInPlace_extends (jobs : List JobToAdd) :
    Extends s (addJobsInPlace s jobs) (jobs.map (·.toPointer)) := by
  induction jobs generalizing s with
  | nil => exact Extends.refl s
  | cons j jobs ih => exact (addJob_extends s j).trans (ih (addJob s j))

/-- The position the hint leads to is one that keeps the order. -/
theorem insertHint_spec (acc : List RetrieveJobPointer × Nat) (j : RetrieveJobPointer) :
    (insertHint acc j).1.Perm (acc.1 ++ [j]) ∧ (Ordered acc.1 → Ordered (insertHint acc j).1) := by
  have hl : acc.1.countP (fun x => x.fseq < j.fseq) ≤ acc.1.countP (fun x => x.fseq ≤ j.fseq) :=
    countP_mono_left (fun x _ hx => by simpa using le_of_lt (of_decide_eq_true hx))
  have hu : acc.1.countP (fun x => x.fseq ≤ j.fseq) ≤ acc.1.length := countP_le_length
  constructor
  · have hle : max (acc.1.countP (fun x => x.fseq < j.fseq))
        (min acc.2 (acc.1.countP (fun x => x.fseq ≤ j.fseq))) ≤ acc.1.length := by omega
    exact (perm_insertIdx _ _ hle).trans (perm_append_singleton _ _).symm
  · intro h
    exact h.insertIdx (le_max_left _ _) (max_le hl (min_le_right _ _))

theorem foldl_insertHint_spec (acc : List RetrieveJobPointer × Nat) :
    (jobs.foldl insertHint acc).1.Perm (acc.1 ++ jobs)
      ∧ (Ordered acc.1 → Ordered (jobs.foldl insertHint acc).1) := by
  induction jobs generalizing acc with
  | nil => simp
  | cons j jobs ih =>
    obtain ⟨hp, ho⟩ := insertHint_spec acc j
    obtain ⟨hp', ho'⟩ := ih (insertHint acc j)
    refine ⟨?_, ho' ∘ ho⟩
    simpa using hp'.trans (hp.append_right jobs)

theorem sortedCopy_perm : (sortedCopy jobs).Perm jobs := by
  simpa [sortedCopy] using (foldl_insertHint_spec jobs ([], 0)).1

theorem sortedCopy_ordered : Ordered (sortedCopy jobs) :=
  (foldl_insertHint_spec jobs ([], 0)).2 (by simp)

theorem addJobsThroughCopy_extends (jobs : List JobToAdd) :
    Extends s (addJobsThroughCopy s jobs) (jobs.map (·.toPointer)) where
  perm := (foldl_orderedInsert_spec _ _).1.trans ((sortedCopy_perm _).append (sortedCopy_perm _))
  ordered := fun _ => (foldl_orderedInsert_spec _ _).2 (sortedCopy_ordered _)
  bytes := by
    show s.jobstotalsize + (jobs.map (·.fileSize)).sum = _
    simp [bytesOf, Function.comp_def, RetrieveQueue.JobToAdd.toPointer, QueueJob.size]

/-- `iminmin` is 0 or not above the limit, `iminmax` the last index or above it, and every round
brings them closer. In an ordered array it finds the number of jobs above. -/
theorem bisect_spec (fSeqLimit : UInt64) (fuel : Nat) :
    ∀ iminmin iminmax imin : Nat, iminmin ≤ imin → imin ≤ iminmax → iminmax < jobs.length →
      (imin = (iminmin + iminmax) / 2 ∨ iminmax - iminmin + 1 < fuel) →
      (iminmin = 0 ∨ ∃ j, jobs[iminmin]? = some j ∧ j.fseq ≤ fSeqLimit) →
      (iminmax = jobs.length - 1 ∨ ∃ j, jobs[iminmax]? = some j ∧ fSeqLimit < j.fseq) →
      iminmax - iminmin < fuel →
      ∃ n, bisect jobs fSeqLimit fuel iminmin iminmax imin = .ok n
        ∧ (Ordered jobs → n = jobs.countP (fun j => fSeqLimit < j.fseq)) := by
  induction fuel with
  | zero => intro _ _ _ _ _ _ _ _ _ h; omega
  | succ fuel ih =>
    intro iminmin iminmax imin hle hl' hlt him hm hma hfu
    have hin : imin < jobs.length := by omega
    have hg : jobs[imin]? = some jobs[imin] := List.getElem?_eq_getElem hin
    have hne : jobs ≠ [] := by
      rintro rfl
      cases hin
    -- where the order puts the limit, the number of jobs after it is known
    have count : ∀ n, n ≤ jobs.length → (∀ j, jobs[n]? = some j → fSeqLimit < j.fseq) →
        (∀ i j, i + 1 = n → jobs[i]? = some j → j.fseq ≤ fSeqLimit) → Ordered jobs →
        jobs.length - n = jobs.countP (fun j => fSeqLimit < j.fseq) :=
      fun n hn hh hl ho => (ho.countP_above hn hh hl).symm
    simp only [bisect, hg]
    split
    · next ha =>
      by_cases hz : (iminmin + imin) / 2 = 0
      · have hf := List.head?_eq_getElem? (l := jobs)
        rw [if_pos hz, List.head?_eq_some_head hne]
        rw [List.head?_eq_some_head hne] at hf
        refine ⟨_, rfl, fun ho => ?_⟩
        split
        · next hfi =>
          have h1 : imin = 1 := by
            have h0 : imin ≠ 0 := by
              rintro rfl
              rw [hg, Option.some.injEq] at hf
              exact absurd (hf ▸ hfi) (not_le.mpr ha)
            omega
          subst h1
          refine count 1 (by omega) (fun j hj => ?_) (fun i j hi hj => ?_) ho
          · cases hg.symm.trans hj
            exact ha
          obtain rfl : i = 0 := by omega
          cases hf.trans hj
          exact hfi
        · next hfi =>
          refine count 0 (by omega) (fun j hj => ?_) (fun i j hi => by omega) ho
          cases hf.trans hj
          exact not_le.mp hfi
      · rw [if_neg hz]
        have hne : iminmin ≠ imin := by
          rintro rfl
          rcases hm with h0 | ⟨j, hj, hjle⟩
          · omega
          · cases hg.symm.trans hj
            exact absurd hjle (not_le.mpr ha)
        exact ih iminmin imin _ (by omega) (by omega) hin (.inl rfl) hm
          (.inr ⟨_, hg, ha⟩) (by omega)
    · next ha =>
      have hlo : ∀ j, jobs[imin]? = some j → j.fseq ≤ fSeqLimit := by
        intro j hj
        cases hg.symm.trans hj
        exact not_lt.mp ha
      by_cases he : imin ≥ jobs.length - 1
      · have hN : imin = jobs.length - 1 := by omega
        have hla : jobs[imin]? = jobs.getLast? := by rw [List.getLast?_eq_getElem?, hN]
        rw [if_pos he, ← hla, hg]
        refine ⟨_, rfl, fun ho => ?_⟩
        rw [if_pos (not_lt.mp ha), ← count jobs.length (Nat.le_refl _) (by simp) ?_ ho]
        · omega
        intro i j hi hj
        obtain rfl : i = imin := by omega
        exact hlo j hj
      · rw [if_neg he]
        have hi1 : imin + 1 < jobs.length := by omega
        have hg1 : jobs[imin + 1]? = some jobs[imin + 1] := List.getElem?_eq_getElem hi1
        simp only [hg1]
        split
        · next ha1 =>
          refine ⟨_, rfl, fun ho => ?_⟩
          rw [← count (imin + 1) hi1.le (fun j hj => ?_) (fun i j hi hj => ?_) ho]
          · omega
          · cases hg1.symm.trans hj
            exact ha1
          · obtain rfl : i = imin := by omega
            exact hlo j hj
        · next ha1 =>
          split
          · next hlast =>
            refine ⟨_, rfl, fun ho => ?_⟩
            rw [← count jobs.length (Nat.le_refl _) (by simp) (fun i j hi hj => ?_) ho]
            · omega
            obtain rfl : i = imin + 1 := by omega
            cases hg1.symm.trans hj
            exact not_lt.mp ha1
          · -- the job at `iminmax` is above the limit, those at `imin` and `imin + 1` are not
            have hga : imin + 1 < iminmax := by
              rcases hma with hN | ⟨j, hj, hjl⟩
              · omega
              have h0 : iminmax ≠ imin := by
                rintro rfl
                exact absurd hjl (not_lt.mpr (hlo j hj))
              have h1 : iminmax ≠ imin + 1 := by
                rintro rfl
                cases hg1.symm.trans hj
                exact ha1 hjl
              omega
            exact ih imin iminmax _ (by omega) (by omega) hlt (.inl rfl)
              (.inr ⟨_, hg, not_lt.mp ha⟩) hma (by omega)

theorem jobsAbove_spec (fSeqLimit : UInt64) :
    ∃ n, jobsAbove jobs fSeqLimit = .ok n
      ∧ (Ordered jobs → n = jobs.countP (fun j => fSeqLimit < j.fseq)) := by
  match jobs with
  | [] => exact ⟨_, rfl, fun _ => rfl⟩
  | [j] =>
    refine ⟨_, rfl, fun _ => ?_⟩
    by_cases h : j.fseq ≤ fSeqLimit
    · simp [h]
    · simp [h, not_le.mp h]
  | j :: j' :: rest =>
    -- the first index is half the length, which is not always the middle of the interval
    have hl : (j :: j' :: rest).length = rest.length + 2 := by simp
    exact bisect_spec _ fSeqLimit _ _ _ _ (by omega) (by omega) (by omega) (.inr (by omega))
      (.inl rfl) (.inl rfl) (by omega)

/-- **A batch insertion returns, and adds exactly the batch.** -/
theorem addJobsBatch_extends (jobs : List JobToAdd) :
    ∃ s', addJobsBatch s jobs = .ok s' ∧ Extends s s' (jobs.map (·.toPointer)) := by
  cases jobs with
  | nil => exact ⟨s, rfl, Extends.refl s⟩
  | cons j jobs =>
    obtain ⟨n, hn, -⟩ := jobsAbove_spec s.jobs j.fSeq
    simp only [addJobsBatch, hn, bind, Except.bind]
    split
    · exact ⟨_, rfl, addJobsThroughCopy_extends s (j :: jobs)⟩
    · exact ⟨_, rfl, addJobsInPlace_extends s (j :: jobs)⟩

theorem jobsToAddSet_perm (jobs : List JobToAdd) : (jobsToAddSet jobs).Perm jobs := by
  simpa [jobsToAddSet] using (foldl_orderedInsert_spec jobs []).1

/-- **A batch is inserted in order**, in either way; its bytes are recorded as long as they can
be counted in 64 bits. -/
theorem batch_inserted_in_order (jobs : List JobToAdd) (hord : Ordered s.jobs) :
    (∀ first rest, jobsToAddSet jobs = first :: rest → (∀ j ∈ jobs, first.fSeq ≤ j.fSeq)
      ∧ jobsAbove s.jobs first.fSeq = .ok (s.jobs.countP (fun j => first.fSeq < j.fseq)))
    ∧ (addJobsBatch s (jobsToAddSet jobs) = .ok (addJobsInPlace s (jobsToAddSet jobs))
      ∨ addJobsBatch s (jobsToAddSet jobs) = .ok (addJobsThroughCopy s (jobsToAddSet jobs)))
    ∧ ∀ s', s' = addJobsInPlace s (jobsToAddSet jobs) ∨ s' = addJobsThroughCopy s (jobsToAddSet jobs) →
      Ordered s'.jobs ∧ s'.jobs.Perm (s.jobs ++ jobs.map (·.toPointer))
      ∧ (s.jobstotalsize.toNat = natBytes s.jobs →
        natBytes s.jobs + natBytes (jobs.map (·.toPointer)) < 2 ^ 64 →
        s'.jobstotalsize.toNat = natBytes s.jobs + natBytes (jobs.map (·.toPointer))) := by
  have hp := jobsToAddSet_perm jobs
  refine ⟨?_, ?_, ?_⟩
  · intro first rest hse
    have hso : SortedBy JobToAdd.fSeq (jobsToAddSet jobs) :=
      (foldl_orderedInsert_spec jobs []).2 sortedBy_nil
    rw [hse, sortedBy_cons] at hso
    obtain ⟨n, hn, hc⟩ := jobsAbove_spec s.jobs first.fSeq
    refine ⟨fun j hj => ?_, by rw [hn, hc hord]⟩
    rw [← hp.mem_iff, hse] at hj
    rcases List.mem_cons.mp hj with rfl | hj
    · exact le_refl _
    · exact hso.1 j hj
  · cases jobsToAddSet jobs with
    | nil => exact .inl rfl
    | cons first rest =>
      obtain ⟨n, hn, -⟩ := jobsAbove_spec s.jobs first.fSeq
      simp only [addJobsBatch, hn, bind, Except.bind]
      split
      · exact .inr rfl
      · exact .inl rfl
  · intro s' hs
    have he : Extends s s' ((jobsToAddSet jobs).map (·.toPointer)) := by
      rcases hs with rfl | rfl
      · exact addJobsInPlace_extends s _
      · exact addJobsThroughCopy_extends s _
    refine ⟨he.ordered hord, he.perm.trans ((hp.map _).append_left _), fun hs hlt => ?_⟩
    have hnew : natBytes ((jobsToAddSet jobs).map (·.toPointer)) = natBytes (jobs.map (·.toPointer)) :=
      natBytes_perm (hp.map _)
    rw [he.bytes, UInt64.toNat_add, hs, toNat_bytesOf (by omega), hnew]
    exact Nat.mod_eq_of_lt hlt

/-- A job of 10 bytes. -/
def jobAt (fSeq : UInt64) : RetrieveJobPointer :=
  ⟨10, "request", 1, fSeq, 0, 0, 0, "policy", none, none⟩

theorem one_of_two_jobs_above : jobsAbove [jobAt 1, jobAt 4] 2 = .ok 1 :=
  ((batch_inserted_in_order ⟨[jobAt 1, jobAt 4], 20⟩ [JobToAdd.ofPointer (jobAt 2)]
    (by simp [jobAt, Ordered])).1 _ [] rfl).2

/-- **The recorded size wraps**: a job of 2^63 bytes is added to another one. -/
theorem oversized_batch_wraps :
    let old : RetrieveJobPointer := { jobAt 1 with size := 9223372036854775808 }
    let new : RetrieveJobPointer := { jobAt 2 with size := 9223372036854775808 }
    addJobsBatch ⟨[old], 9223372036854775808⟩ [JobToAdd.ofPointer new] = .ok ⟨[old, new], 0⟩
      ∧ natBytes [old, new] = 2 ^ 64 := by
  decide +kernel

/-! ## When a shard has a summary -/

variable {s : RetrieveQueueShard}

/-- An ordered shard that holds a job has a summary, read off its ends. -/
theorem getJobsSummary_ok (ho : Ordered s.jobs) (hne : s.jobs ≠ []) :
    ∃ sum, getJobsSummary s = .ok sum ∧ sum.jobs = UInt64.ofNat s.jobs.length
      ∧ sum.bytes = s.jobstotalsize ∧ sum.minFseq = (s.jobs.head hne).fseq
      ∧ sum.maxFseq = (s.jobs.getLast hne).fseq := by
  have hle := ho.head_le_getLast hne
  unfold getJobsSummary
  rw [List.head?_eq_some_head hne, List.getLast?_eq_some_getLast hne]
  dsimp only
  rw [if_neg (not_lt.mpr hle)]
  exact ⟨_, rfl, rfl, rfl, rfl, rfl⟩

/-- An empty shard has none: the code reads elements that do not exist. -/
theorem getJobsSummary_empty (h : s.jobs = []) :
    getJobsSummary s = .error (.undefined .emptyShardSummary) := by
  simp [getJobsSummary, h]

/-! ## The range of a shard -/

/-- The range goes from the lowest to the highest fSeq of the jobs. -/
structure HasRange (jobs : List RetrieveJobPointer) (range : FseqRange) : Prop where
  least : IsLeast {fseq | ∃ j ∈ jobs, j.fseq = fseq} range.minfseq
  greatest : IsGreatest {fseq | ∃ j ∈ jobs, j.fseq = fseq} range.maxfseq

variable {jobs : List RetrieveJobPointer} {j : RetrieveJobPointer} {range : FseqRange}

theorem HasRange.minfseq_le (h : HasRange jobs range) (hj : j ∈ jobs) : range.minfseq ≤ j.fseq :=
  h.least.2 ⟨j, hj, rfl⟩

theorem HasRange.le_maxfseq (h : HasRange jobs range) (hj : j ∈ jobs) : j.fseq ≤ range.maxfseq :=
  h.greatest.2 ⟨j, hj, rfl⟩

theorem hasRange_ends (ho : Ordered jobs) (hne : jobs ≠ []) :
    HasRange jobs ⟨(jobs.head hne).fseq, (jobs.getLast hne).fseq⟩ where
  least := by
    refine ⟨⟨_, head_mem hne, rfl⟩, ?_⟩
    rintro fseq ⟨j, hj, rfl⟩
    exact List.Pairwise.rel_head_of_rel_head_head ho hj (le_refl _)
  greatest := by
    refine ⟨⟨_, getLast_mem hne, rfl⟩, ?_⟩
    rintro fseq ⟨j, hj, rfl⟩
    exact List.Pairwise.rel_getLast_of_rel_getLast_getLast ho hj (le_refl _)

/-- The two loops of `rangeOf`. -/
theorem rangeOf_eq (jobs : List RetrieveJobPointer) : rangeOf jobs =
      { minfseq := jobs.foldl (fun t j => if j.fseq < t then j.fseq else t)
          (UInt64.ofNat (UInt64.size - 1))
        maxfseq := jobs.foldl (fun t j => if j.fseq > t then j.fseq else t) 0 } := by
  unfold rangeOf
  generalize UInt64.ofNat (UInt64.size - 1) = lowest
  generalize (0 : UInt64) = hi
  induction jobs generalizing lowest hi with
  | nil => rfl
  | cons j jobs ih => exact ih _ _

theorem rangeOf_hasRange (hne : jobs ≠ []) : HasRange jobs (rangeOf jobs) := by
  have htp : ∀ j ∈ jobs, j.fseq ≤ UInt64.ofNat (UInt64.size - 1) := by
    intro j _
    show _ ≤ 2 ^ 64 - 1
    omega
  rw [rangeOf_eq]
  exact ⟨isLeast_foldl RetrieveJobPointer.fseq hne htp,
    isGreatest_foldl RetrieveJobPointer.fseq hne (fun _ _ => UInt64.zero_le)⟩

end RetrieveQueueShard

end TapeArchive.Objectstore
