/-
  **THE SORTER AND THE PROMISES OF ITS JOBS** (`Sorter.cpp`, `Algorithms.hpp`).

  A flush queues one bucket of jobs. It remembers them in a map `succeededJobs`, whose key
  is the COPY NUMBER, and resolves the promises through that map. A bucket holds jobs of
  many requests: the map keeps the last job with a number, and the promises of the others
  are lost.
-/
import TapeArchive.Objectstore.RetrieveRequest

namespace TapeArchive.Objectstore.Sorter

open Std (TreeMap)
open Option (map_some some_inj)
open Lib List

/-! ## Jobs, promises and failures -/

/-- `SorterArchiveJob` and `Sorter::RetrieveJob`: what a flush reads of a job. -/
structure SorterJob where
  /-- The address of the request. -/
  request : String
  copyNb : UInt32
  deriving DecidableEq

/-- The exception an `AsyncJobOwnerUpdater` throws from `wait()`. -/
inductive SwitchFailure where
  | noSuchObject (message : String)
  /-- Any other `cta::exception::Exception`. -/
  | exception (message : String)
  /-- An exception that is not a `cta::exception::Exception`. -/
  | stdException (what : String)

inductive Resolution where
  | value
  | exception (failure : SwitchFailure)

/-- The promises of the jobs of a bucket, by position. -/
abbrev Promises := Nat → Option Resolution

/-- How a flush ends when it does not return. -/
inductive Crash where
  /-- `succeededJobs[copyNb]` made a null pointer, which is dereferenced. -/
  | nullDereference
  /-- `std::future_errc::promise_already_satisfied`. -/
  | promiseAlreadySatisfied
  /-- An exception that no clause catches. -/
  | stdException (what : String)
  /-- The `default` of the dispatch. -/
  | exception (message : String)

/-- `std::promise<void>::set_value` and `set_exception`. -/
def setPromise (promises : Promises) (job : Nat) (r : Resolution) : Except Crash Promises :=
  if (promises job).isSome then .error .promiseAlreadySatisfied
  else .ok (Function.update promises job (some r))

/-! ## One bucket -/

/-- The element, by what the sorter reads of it, and its exception. -/
structure OpFailure where
  copyNb : UInt32
  failure : SwitchFailure

/-- The failure of one element, from what its updater threw. -/
def opFailure (switched : Nat → Option SwitchFailure) (e : SorterJob × Nat) : Option OpFailure :=
  (switched e.2).map (fun failure => ⟨e.1.copyNb, failure⟩)

variable (jobs : List SorterJob)

/-- The failures in order; `switched i` is what the updater of element `i` threw. -/
def switchElementsOwnership (switched : Nat → Option SwitchFailure) :
    List OpFailure :=
  jobs.zipIdx.filterMap (opFailure switched)

/-- The map `succeededJobs` after the first loop: the last job with a copy number wins. -/
def succeededJobs : TreeMap UInt64 Nat :=
  jobs.zipIdx.foldl (fun m e => m.insert e.1.copyNb.toUInt64 e.2) ∅

/-- The local variables of `executeArchiveAlgorithm`. -/
structure Locals where
  promises : Promises
  succeededJobs : TreeMap UInt64 Nat

/-- One turn of the loop over `failure.failedElements`. -/
def reportFailure (l : Locals) (failed : OpFailure) : Except Crash Locals :=
  match failed.failure with
  | .noSuchObject _ => .ok l
  | .stdException what => .error (.stdException what)
  | .exception _ =>
      match l.succeededJobs[failed.copyNb.toUInt64]? with
      | none => .error .nullDereference
      | some job => do
          let promises ← setPromise l.promises job (.exception failed.failure)
          return ⟨promises, l.succeededJobs.erase failed.copyNb.toUInt64⟩

/-- The last loop of `executeArchiveAlgorithm`. -/
def reportSuccesses (l : Locals) : Except Crash Promises :=
  l.succeededJobs.toList.foldlM (fun promises kv => setPromise promises kv.2 .value) l.promises

/-- The body that `executeArchiveAlgorithm` and `executeRetrieveAlgorithm` share. -/
def executeAlgorithm (switched : Nat → Option SwitchFailure) :
    Except Crash Promises := do
  let l ← (switchElementsOwnership jobs switched).foldlM reportFailure
    ⟨fun _ => none, succeededJobs jobs⟩
  reportSuccesses l

def executeArchiveAlgorithm := executeAlgorithm

def executeRetrieveAlgorithm := executeAlgorithm

/-- `Sorter::dispatchArchiveAlgorithm`: every queue type has its case. -/
def dispatchArchiveAlgorithm (_ : JobQueueType) (jobs : List SorterJob)
    (switched : Nat → Option SwitchFailure) : Except Crash Promises :=
  executeArchiveAlgorithm jobs switched

/-- `Sorter::dispatchRetrieveAlgorithm`: there is no retrieve queue to transfer for repack. -/
def dispatchRetrieveAlgorithm (type : JobQueueType) (jobs : List SorterJob)
    (switched : Nat → Option SwitchFailure) : Except Crash Promises :=
  match type with
  | .jobsToTransferForRepack =>
      .error (.exception "In Sorter::dispatchRetrieveAlgorithm(), unknown JobQueueType")
  | _ => executeRetrieveAlgorithm jobs switched

/-! ## The buckets -/

/-- `MapArchive` and `MapRetrieve`: the buckets in the order of their keys. -/
abbrev Buckets := List ((String × JobQueueType) × List SorterJob)

inductive Half where
  | archive
  | retrieve

def Half.dispatch : Half → JobQueueType → List SorterJob → (Nat → Option SwitchFailure) →
    Except Crash Promises
  | .archive => dispatchArchiveAlgorithm
  | .retrieve => dispatchRetrieveAlgorithm

def firstBucket (buckets : Buckets) : Option ((String × JobQueueType) × List SorterJob) :=
  buckets.find? (fun kv => !kv.2.isEmpty)

variable (half : Half)

/-- How the flush of the first bucket ends; a bucket whose flush throws stays. -/
def flushOne (buckets : Buckets) (switched : Nat → Option SwitchFailure) :
    Option (Except Crash Promises) × Buckets :=
  match firstBucket buckets with
  | none => (none, buckets)
  | some kv =>
    match half.dispatch kv.1.2 kv.2 switched with
    | .ok promises => (some (.ok promises), buckets.filter (fun kv' => kv'.1 != kv.1))
    | .error crash => (some (.error crash), buckets)

/-! ## The fate of a job -/

/-- What the promise of a job has to be resolved with. -/
def fate : Option SwitchFailure → Resolution
  | none => .value
  | some (.noSuchObject _) => .value
  | some (.exception message) => .exception (.exception message)
  | some (.stdException what) => .exception (.stdException what)

/-- The flush returned and resolved the promise of every job with its fate. -/
def ReportsFates (switched : Nat → Option SwitchFailure) (flushed : Except Crash Promises) : Prop :=
  ∃ promises, flushed = .ok promises ∧
    ∀ i < jobs.length, promises i = some (fate (switched i))

def putsException : Option SwitchFailure → Bool
  | some (.exception _) => true
  | _ => false

def DistinctCopies : Prop := (jobs.map SorterJob.copyNb).Nodup

instance DistinctCopies.decidable (jobs : List SorterJob) : Decidable (DistinctCopies jobs) :=
  inferInstanceAs (Decidable (List.Nodup _))

/-- Every switch of the bucket that failed did so with a CTA exception. -/
def CtaFailuresOnly (switched : Nat → Option SwitchFailure) : Prop :=
  ∀ i < jobs.length, ∀ what, switched i ≠ some (.stdException what)

def Half.Knows : Half → JobQueueType → Prop
  | .archive, _ => True
  | .retrieve, type => type ≠ .jobsToTransferForRepack

/-! ## The map of the jobs by copy number -/

/-- **What the map holds**: under a copy number, the last position with that number. -/
theorem getElem?_succeededJobs (c : UInt64) (i : Nat) :
    (succeededJobs jobs)[c]? = some i ↔ (∃ job, jobs[i]? = some job ∧ job.copyNb.toUInt64 = c) ∧
        ∀ j job, jobs[j]? = some job → job.copyNb.toUInt64 = c → j ≤ i := by
  -- from the right: the insertion of the last job overwrites what was there
  induction jobs using List.reverseRecOn with
  | nil => simp [succeededJobs]
  | append_singleton jobs last ih =>
    have hs : succeededJobs (jobs ++ [last])
        = (succeededJobs jobs).insert last.copyNb.toUInt64 jobs.length := by
      unfold succeededJobs
      rw [zipIdx_append, foldl_append]
      simp
    rw [hs, TreeMap.getElem?_insert]
    by_cases hc : last.copyNb.toUInt64 = c
    · rw [if_pos (by simpa using hc), some_inj]
      constructor
      · intro hi
        subst hi
        refine ⟨⟨last, by simp, hc⟩, ?_⟩
        intro j job hj _
        have hlt := (List.getElem?_eq_some_iff.mp hj).1
        simp only [length_append, length_singleton] at hlt
        omega
      · intro h
        obtain ⟨⟨job, hjo, _⟩, hlast⟩ := h
        have hle := hlast jobs.length last (by simp) hc
        have hlt := (List.getElem?_eq_some_iff.mp hjo).1
        simp only [length_append, length_singleton] at hlt
        omega
    · rw [if_neg (by simpa using hc), ih]
      -- the last position does not have the number, the others are as before
      have hg : ∀ (j : Nat) (job : SorterJob), job.copyNb.toUInt64 = c →
          ((jobs ++ [last])[j]? = some job ↔ jobs[j]? = some job) := by
        intro j job hjo
        rw [List.getElem?_append]
        split
        · rfl
        next hj =>
        rw [List.getElem?_eq_none (by omega : jobs.length ≤ j)]
        constructor
        · intro h
          have hm := mem_of_getElem? h
          rw [mem_singleton] at hm
          exact absurd (hm ▸ hjo) hc
        · intro h
          cases h
      constructor
      · intro h
        obtain ⟨⟨job, hjo, hnb⟩, hlast⟩ := h
        exact ⟨⟨job, (hg i job hnb).mpr hjo, hnb⟩,
          fun j job' hj hn' => hlast j job' ((hg j job' hn').mp hj) hn'⟩
      · intro h
        obtain ⟨⟨job, hjo, hnb⟩, hlast⟩ := h
        exact ⟨⟨job, (hg i job hnb).mp hjo, hnb⟩,
          fun j job' hj hn' => hlast j job' ((hg j job' hn').mpr hj) hn'⟩

variable {jobs : List SorterJob} {a b : SorterJob}

/-- Two positions of a bucket with distinct copy numbers. -/
theorem DistinctCopies.eq_of_copyNb (h : DistinctCopies jobs)
    {i j : Nat} (ha : jobs[i]? = some a) (hb : jobs[j]? = some b) (hab : a.copyNb = b.copyNb) :
    i = j := by
  have hi := (List.getElem?_eq_some_iff.mp ha).1
  refine (List.getElem?_inj (by simpa using hi) h).mp ?_
  rw [List.getElem?_map, List.getElem?_map, ha, hb, map_some, map_some, hab]

variable {i : Nat} {job : SorterJob}

theorem DistinctCopies.getElem?_succeededJobs (h : DistinctCopies jobs) (hi : jobs[i]? = some job) :
    (succeededJobs jobs)[job.copyNb.toUInt64]? = some i := by
  rw [Sorter.getElem?_succeededJobs]
  refine ⟨⟨job, hi, rfl⟩, ?_⟩
  intro j job' hj hnb
  exact le_of_eq (h.eq_of_copyNb hj hi (UInt32.toUInt64_inj.mp hnb))

/-! ## Distinct copy numbers: every fate is reported -/

section Distinct

variable {jobs : List SorterJob} {switched : Nat → Option SwitchFailure}

/-- After the first `m` elements: the exceptions are in the promises. -/
structure FailuresReported (jobs : List SorterJob) (switched : Nat → Option SwitchFailure)
    (m : Nat) (l : Locals) : Prop where
  promises : ∀ i, l.promises i =
    if i < m ∧ putsException (switched i) then some (fate (switched i)) else none
  entries : ∀ c i, l.succeededJobs[c]? = some i ↔
    (∃ job, jobs[i]? = some job ∧ job.copyNb.toUInt64 = c) ∧
      ¬ (i < m ∧ putsException (switched i))

theorem FailuresReported.start (hd : DistinctCopies jobs) :
    FailuresReported jobs switched 0 ⟨fun _ => none, succeededJobs jobs⟩ where
  promises := by simp
  entries := by
    intro c i
    constructor
    · intro h
      exact ⟨((getElem?_succeededJobs jobs c i).mp h).1, by simp⟩
    intro h
    obtain ⟨⟨job, hi, hc⟩, _⟩ := h
    rw [← hc]
    exact hd.getElem?_succeededJobs hi

variable {l : Locals} {m : Nat}

/-- An element whose failure does not go into its promise changes nothing. -/
theorem FailuresReported.skip (h : FailuresReported jobs switched m l)
    (hm : putsException (switched m) = false) : FailuresReported jobs switched (m + 1) l := by
  have hif : ∀ i, (i < m + 1 ∧ putsException (switched i)) ↔
      (i < m ∧ putsException (switched i)) := by
    intro i
    constructor
    · intro hi
      obtain ⟨hlt, hp⟩ := hi
      have hne : i ≠ m := by
        intro he
        rw [he, hm] at hp
        cases hp
      exact ⟨by omega, hp⟩
    · intro hi
      exact ⟨by omega, hi.2⟩
  exact ⟨fun i => by simp only [hif, h.promises i], fun c i => by simp only [hif, h.entries c i]⟩

/-- **The turn of a failed element**: its own promise gets its exception. -/
theorem FailuresReported.turn (hd : DistinctCopies jobs)
    {message : String} (h : FailuresReported jobs switched m l) (hj : jobs[m]? = some job)
    (hm : switched m = some (.exception message)) :
    ∃ l', reportFailure l ⟨job.copyNb, .exception message⟩ = .ok l' ∧
      FailuresReported jobs switched (m + 1) l' := by
  have hen : l.succeededJobs[job.copyNb.toUInt64]? = some m :=
    (h.entries _ m).mpr ⟨⟨job, hj, rfl⟩, by omega⟩
  have hf : l.promises m = none := by
    rw [h.promises m, if_neg (by omega)]
  have hp : putsException (switched m) = true := by
    rw [hm]
    rfl
  refine ⟨⟨Function.update l.promises m (some (.exception (.exception message))),
    l.succeededJobs.erase job.copyNb.toUInt64⟩, ?_, ?_, ?_⟩
  · show (match l.succeededJobs[job.copyNb.toUInt64]? with | none => _ | some _ => _) = _
    rw [hen]
    show (setPromise l.promises m _ >>= _) = _
    unfold setPromise
    rw [hf]
    rfl
  · intro i
    show Function.update l.promises m _ i = _
    by_cases him : i = m
    · subst him
      rw [Function.update_self, if_pos ⟨by omega, hp⟩, hm]
      rfl
    · rw [Function.update_of_ne him, h.promises i]
      have hif : (i < m ∧ putsException (switched i)) ↔ (i < m + 1 ∧ putsException (switched i)) :=
        and_congr_left (fun _ => by omega)
      simp only [hif]
  · intro c i
    rw [TreeMap.getElem?_erase]
    by_cases hc : job.copyNb.toUInt64 = c
    · -- the only position with this number is `m`
      rw [if_pos (by simpa using hc)]
      constructor
      · intro hn
        cases hn
      intro hn
      obtain ⟨⟨job', hi, hnb⟩, hnot⟩ := hn
      have him : i = m := hd.eq_of_copyNb hi hj (UInt32.toUInt64_inj.mp (hnb.trans hc.symm))
      exact absurd ⟨by omega, him ▸ hp⟩ hnot
    · rw [if_neg (by simpa using hc), h.entries c i]
      refine and_congr_right (fun hi => not_congr (and_congr_left (fun _ => ?_)))
      obtain ⟨job', hi, hnb⟩ := hi
      have him : i ≠ m := by
        intro he
        rw [he, hj, some_inj] at hi
        exact hc (hi ▸ hnb)
      omega

/-- The loop over the failures of the elements from position `m` on. -/
theorem FailuresReported.loop (hd : DistinctCopies jobs) (hc : CtaFailuresOnly jobs switched)
    (rest : List SorterJob) (m : Nat) (hrest : jobs.drop m = rest)
    (h : FailuresReported jobs switched m l) :
    ∃ l', ((rest.zipIdx m).filterMap (opFailure switched)).foldlM reportFailure l = .ok l' ∧
      FailuresReported jobs switched (m + rest.length) l' := by
  induction rest generalizing m l with
  | nil => exact ⟨l, rfl, h⟩
  | cons job rest ih =>
    have hj : jobs[m]? = some job := by
      rw [← List.head?_drop, hrest]
      rfl
    have hnext : jobs.drop (m + 1) = rest := by
      rw [← tail_drop, hrest]
      rfl
    have hl : m + (job :: rest).length = m + 1 + rest.length := by
      rw [length_cons]
      omega
    rw [zipIdx_cons, hl]
    cases hs : switched m with
    | none =>
      rw [filterMap_cons_none (by simp [opFailure, hs])]
      exact ih (m + 1) hnext (h.skip (by rw [hs]; rfl))
    | some failure =>
      rw [filterMap_cons_some (b := ⟨job.copyNb, failure⟩) (by simp [opFailure, hs]), foldlM_cons]
      cases failure with
      | noSuchObject message =>
        exact ih (m + 1) hnext (h.skip (by rw [hs]; rfl))
      | stdException what =>
        exact absurd hs (hc m (List.getElem?_eq_some_iff.mp hj).1 what)
      | exception message =>
        obtain ⟨l1, hl1, h1⟩ := h.turn hd hj hs
        rw [hl1]
        exact ih (m + 1) hnext h1

/-- The last loop resolves the promises of all its entries. -/
theorem foldlM_setPromise (entries : List (UInt64 × Nat)) (promises : Promises)
    (hnd : (entries.map Prod.snd).Nodup) (hf : ∀ kv ∈ entries, promises kv.2 = none) :
    ∃ promises', entries.foldlM (fun p kv => setPromise p kv.2 .value) promises = .ok promises' ∧
      ∀ i, promises' i = if i ∈ entries.map Prod.snd then some .value else promises i := by
  induction entries generalizing promises with
  | nil => exact ⟨promises, rfl, fun i => by simp⟩
  | cons kv entries ih =>
    rw [map_cons, nodup_cons] at hnd
    have hs : setPromise promises kv.2 .value
        = .ok (Function.update promises kv.2 (some .value)) := by
      unfold setPromise
      rw [hf kv mem_cons_self]
      rfl
    have hf' : ∀ kv' ∈ entries,
        Function.update promises kv.2 (some Resolution.value) kv'.2 = none := by
      intro kv' hk'
      have hne : kv'.2 ≠ kv.2 := fun he => hnd.1 (he ▸ mem_map_of_mem hk')
      rw [Function.update_of_ne hne]
      exact hf kv' (.tail _ hk')
    obtain ⟨promises', hp', ha⟩ := ih _ hnd.2 hf'
    refine ⟨promises', ?_, ?_⟩
    · rw [foldlM_cons, hs]
      exact hp'
    intro i
    rw [ha i, map_cons]
    by_cases hi : i = kv.2
    · subst hi
      simp
    · simp [hi]

theorem FailuresReported.positions_nodup (h : FailuresReported jobs switched m l) :
    (l.succeededJobs.toList.map Prod.snd).Nodup := by
  refine List.Nodup.map_on ?_ (List.Nodup.of_map _ (toList_fst_nodup l.succeededJobs))
  intro a ha b hb hab
  have ha' := TreeMap.mem_toList_iff_getElem?_eq_some.mp ha
  have hb' := TreeMap.mem_toList_iff_getElem?_eq_some.mp hb
  obtain ⟨⟨job, hi, hca⟩, _⟩ := (h.entries _ _).mp ha'
  obtain ⟨⟨job', hi', hcb⟩, _⟩ := (h.entries _ _).mp hb'
  rw [hab, hi', some_inj] at hi
  exact Prod.ext (by rw [← hca, ← hcb, hi]) hab

theorem fate_of_not_putsException (hc : CtaFailuresOnly jobs switched)
    (hi : i < jobs.length) (hp : ¬ putsException (switched i) = true) :
    fate (switched i) = .value := by
  cases hs : switched i with
  | none => rfl
  | some failure =>
    cases failure with
    | noSuchObject message => rfl
    | exception message =>
      rw [hs] at hp
      exact absurd rfl hp
    | stdException what => exact absurd hs (hc i hi what)

theorem executeAlgorithm_reports (hd : DistinctCopies jobs) (hc : CtaFailuresOnly jobs switched) :
    ReportsFates jobs switched (executeAlgorithm jobs switched) := by
  have hs : FailuresReported jobs switched 0 ⟨fun _ => none, succeededJobs jobs⟩ :=
    FailuresReported.start hd
  obtain ⟨l, hl, h⟩ := hs.loop hd hc jobs 0 drop_zero
  rw [Nat.zero_add] at h
  obtain ⟨promises, hp, ha⟩ := foldlM_setPromise l.succeededJobs.toList l.promises
    h.positions_nodup (by
      intro kv hkv
      have hen := TreeMap.mem_toList_iff_getElem?_eq_some.mp hkv
      rw [h.promises, if_neg ((h.entries _ _).mp hen).2])
  refine ⟨promises, ?_, ?_⟩
  · unfold executeAlgorithm switchElementsOwnership
    rw [hl]
    exact hp
  · intro i hi
    rw [ha i]
    split
    · next hm =>
      -- still in the map: its failure did not go into the promise
      obtain ⟨kv, hkv, he⟩ := mem_map.mp hm
      have hen := ((h.entries _ _).mp (TreeMap.mem_toList_iff_getElem?_eq_some.mp hkv)).2
      rw [he] at hen
      rw [fate_of_not_putsException hc hi (fun hpu => hen ⟨hi, hpu⟩)]
    · next hm =>
      rw [h.promises i]
      by_cases hpu : putsException (switched i) = true
      · rw [if_pos ⟨hi, hpu⟩]
      have hj : jobs[i]? = some jobs[i] := List.getElem?_eq_getElem hi
      have hen := (h.entries _ i).mpr ⟨⟨jobs[i], hj, rfl⟩, fun hh => hpu hh.2⟩
      exact absurd (mem_map.mpr ⟨_, TreeMap.mem_toList_iff_getElem?_eq_some.mpr hen, rfl⟩) hm

end Distinct

/-! ## What a flush that reports every fate tells -/

section Converse

variable {jobs : List SorterJob} {switched : Nat → Option SwitchFailure}

theorem setPromise_other {p p' : Promises} {k i : Nat} {r : Resolution}
    (h : setPromise p k r = .ok p') (hik : i ≠ k) : p' i = p i := by
  unfold setPromise at h
  split at h
  · cases h
  · cases h
    exact Function.update_of_ne hik _ _

/-- A job that the map does not hold: no turn resolves its promise or puts it into the map. -/
theorem reportFailure_unlisted {l l' : Locals} {f : OpFailure} (h : reportFailure l f = .ok l')
    (hl : l.promises i = none ∧ ∀ c : UInt64, l.succeededJobs[c]? ≠ some i) :
    l'.promises i = none ∧ ∀ c : UInt64, l'.succeededJobs[c]? ≠ some i := by
  unfold reportFailure at h
  split at h
  · cases h
    exact hl
  · cases h
  · split at h
    · cases h
    · next job hj =>
      obtain ⟨p, hp, hret⟩ := bind_eq_ok.mp h
      cases hret
      have hij : i ≠ job := fun he => hl.2 _ (he ▸ hj)
      refine ⟨(setPromise_other hp hij).trans hl.1, ?_⟩
      intro c
      rw [TreeMap.getElem?_erase]
      split
      · simp
      · exact hl.2 c

variable {promises : Promises}

/-- A flush that returns met no foreign exception. -/
theorem ctaFailuresOnly_of_ok (h : executeAlgorithm jobs switched = .ok promises) :
    CtaFailuresOnly jobs switched := by
  obtain ⟨l, hl, _⟩ := bind_eq_ok.mp h
  intro i hi what hs
  have hm : (⟨jobs[i].copyNb, .stdException what⟩ : OpFailure)
      ∈ switchElementsOwnership jobs switched := by
    refine mem_filterMap.mpr ⟨(jobs[i], i), ?_, ?_⟩
    · exact mem_zipIdx_iff_getElem?.mpr (List.getElem?_eq_getElem hi)
    · simp [opFailure, hs]
  obtain ⟨front, back, hsp⟩ := append_of_mem hm
  rw [hsp, foldlM_append] at hl
  obtain ⟨l1, _, hl⟩ := bind_eq_ok.mp hl
  obtain ⟨l2, htu, _⟩ := bind_eq_ok.mp hl
  cases htu

/-- A job whose copy number comes back later keeps an unresolved promise. -/
theorem unresolved_of_later_copy {i j : Nat}
    (h : executeAlgorithm jobs switched = .ok promises) (hij : i < j)
    (ha : jobs[i]? = some a) (hb : jobs[j]? = some b) (hab : a.copyNb = b.copyNb) :
    promises i = none := by
  obtain ⟨l, hl, hs⟩ := bind_eq_ok.mp h
  have hsta : ∀ c : UInt64, (succeededJobs jobs)[c]? ≠ some i := by
    intro c hc
    obtain ⟨⟨job, hi, hnb⟩, hlast⟩ := (getElem?_succeededJobs jobs c i).mp hc
    rw [ha, some_inj] at hi
    have hle := hlast j b hb (by rw [← hab, hi, hnb])
    omega
  have hlo : l.promises i = none ∧ ∀ c : UInt64, l.succeededJobs[c]? ≠ some i :=
    foldlM_ok_invariant (P := fun l => l.promises i = none ∧ ∀ c : UInt64, l.succeededJobs[c]? ≠ some i)
      ⟨rfl, hsta⟩ hl (fun l l' f _ hl hf => reportFailure_unlisted hf hl)
  refine foldlM_ok_invariant (P := fun p : Promises => p i = none) hlo.1 hs ?_
  intro p p' kv hkv hp hse
  have hen := TreeMap.mem_toList_iff_getElem?_eq_some.mp hkv
  have hne : i ≠ kv.2 := fun he => hlo.2 kv.1 (he ▸ hen)
  exact (setPromise_other hse hne).trans hp

theorem distinctCopies_of_reports
    (h : ReportsFates jobs switched (executeAlgorithm jobs switched)) : DistinctCopies jobs := by
  obtain ⟨promises, hok, ha⟩ := h
  refine nodup_iff_getElem?_ne_getElem?.mpr ?_
  intro i j hij hj heq
  rw [length_map] at hj
  have hi : i < jobs.length := by omega
  rw [List.getElem?_map, List.getElem?_map, List.getElem?_eq_getElem hi,
    List.getElem?_eq_getElem hj, map_some, map_some, some_inj] at heq
  have hn := unresolved_of_later_copy hok hij (List.getElem?_eq_getElem hi)
    (List.getElem?_eq_getElem hj) heq
  rw [ha i hi] at hn
  cases hn

theorem executeAlgorithm_reports_iff : ReportsFates jobs switched (executeAlgorithm jobs switched) ↔
      DistinctCopies jobs ∧ CtaFailuresOnly jobs switched := by
  constructor
  · intro h
    refine ⟨distinctCopies_of_reports h, ?_⟩
    obtain ⟨promises, hok, _⟩ := h
    exact ctaFailuresOnly_of_ok hok
  · intro h
    exact executeAlgorithm_reports h.1 h.2

end Converse

/-! ## A flush -/

theorem dispatch_reports_iff (ha : Half) (type : JobQueueType) (jobs : List SorterJob)
    (switched : Nat → Option SwitchFailure) :
    ReportsFates jobs switched (ha.dispatch type jobs switched) ↔
      ha.Knows type ∧ DistinctCopies jobs ∧ CtaFailuresOnly jobs switched := by
  cases ha with
  | archive =>
    show ReportsFates jobs switched (executeAlgorithm jobs switched) ↔ True ∧ _
    rw [true_and, executeAlgorithm_reports_iff]
  | retrieve =>
    by_cases ht : type = .jobsToTransferForRepack
    · subst ht
      constructor
      · intro h
        obtain ⟨promises, hp, _⟩ := h
        cases hp
      · intro h
        exact absurd rfl h.1
    · have he : dispatchRetrieveAlgorithm type jobs switched = executeAlgorithm jobs switched := by
        cases type <;> first | rfl | exact absurd rfl ht
      show ReportsFates jobs switched (dispatchRetrieveAlgorithm type jobs switched) ↔ type ≠ _ ∧ _
      rw [he, executeAlgorithm_reports_iff]
      exact ⟨fun h => ⟨ht, h⟩, fun h => h.2⟩

/-- **A flush reports the fate of every job exactly when** the queue type is known, the copy
numbers are distinct and no switch failed with a foreign exception. -/
theorem flush_reports_fates_iff (buckets : Buckets)
    (switched : Nat → Option SwitchFailure) (container : String) (type : JobQueueType)
    (jobs : List SorterJob) (hb : firstBucket buckets = some ((container, type), jobs)) :
    (∃ flushed, (flushOne half buckets switched).1 = some flushed ∧
        ReportsFates jobs switched flushed) ↔
      half.Knows type ∧ DistinctCopies jobs ∧ CtaFailuresOnly jobs switched := by
  have hf : (flushOne half buckets switched).1 = some (half.dispatch type jobs switched) := by
    unfold flushOne
    rw [hb]
    show (match half.dispatch type jobs switched with | .ok _ => _ | .error _ => _ :
      Option (Except Crash Promises) × Buckets).1 = _
    split
    · next hd => exact hd ▸ rfl
    · next hd => exact hd ▸ rfl
  rw [hf, ← dispatch_reports_iff half type jobs switched]
  constructor
  · intro h
    obtain ⟨flushed, he, hr⟩ := h
    rw [some_inj] at he
    exact he ▸ hr
  · intro h
    exact ⟨_, rfl, h⟩

/-- Two copies of one request: one is gone, the other has another owner by now. -/
def twoCopies : Buckets :=
  [(("pool", .jobsToTransferForUser), []),
   (("pool2", .jobsToTransferForUser), [⟨"request1", 1⟩, ⟨"request1", 2⟩])]

def twoCopiesSwitched : Nat → Option SwitchFailure
  | 0 => some (.noSuchObject "gone")
  | 1 => some (.exception "wrong previous owner")
  | _ => none

theorem two_copies_reported :
    firstBucket twoCopies
        = some (("pool2", .jobsToTransferForUser), [⟨"request1", 1⟩, ⟨"request1", 2⟩]) ∧
      ∃ flushed, (flushOne .archive twoCopies twoCopiesSwitched).1 = some flushed ∧
        ReportsFates [⟨"request1", 1⟩, ⟨"request1", 2⟩] twoCopiesSwitched flushed := by
  refine ⟨by decide, ?_⟩
  refine (flush_reports_fates_iff .archive twoCopies twoCopiesSwitched "pool2"
    .jobsToTransferForUser _ (by decide)).mpr ⟨trivial, by decide, ?_⟩
  intro i hi what hs
  have hc : i = 0 ∨ i = 1 := by
    simp only [length_cons, length_nil] at hi
    omega
  obtain rfl | rfl := hc
  · cases hs
  · cases hs

/-- The first copies of two requests, in one bucket. -/
def sameCopyNumber : List SorterJob := [⟨"request1", 1⟩, ⟨"request2", 1⟩]

/-- **Two requests with the same copy number**: a promise that is never resolved, one that gets
the exception of the other, or a missing entry that is dereferenced. -/
theorem same_copy_number_loses_promise : (∀ half : Half, ∀ failures : Nat → Option SwitchFailure,
      ¬ ∃ flushed, (flushOne half [(("pool", .jobsToTransferForUser), sameCopyNumber)]
          failures).1 = some flushed ∧ ReportsFates sameCopyNumber failures flushed) ∧
    (∃ p, executeAlgorithm sameCopyNumber (fun _ => none) = .ok p ∧
      p 0 = none ∧ p 1 = some .value) ∧ (∃ p, executeAlgorithm sameCopyNumber
        (fun i => if i = 0 then some (.exception "wrong previous owner") else none) = .ok p ∧
      p 0 = none ∧ p 1 = some (.exception (.exception "wrong previous owner"))) ∧
    executeAlgorithm sameCopyNumber (fun _ => some (.exception "wrong previous owner"))
      = .error .nullDereference := by
  refine ⟨?_, ⟨_, rfl, rfl, rfl⟩, ⟨_, rfl, rfl, rfl⟩, rfl⟩
  intro half failures h
  obtain ⟨flushed, hf, hr⟩ := h
  have hfl : (flushOne half [(("pool", .jobsToTransferForUser), sameCopyNumber)] failures).1
      = some (half.dispatch .jobsToTransferForUser sameCopyNumber failures) := by
    show (match half.dispatch .jobsToTransferForUser sameCopyNumber failures with
      | .ok _ => _ | .error _ => _ : Option (Except Crash Promises) × Buckets).1 = _
    split
    · next hd => exact hd ▸ rfl
    · next hd => exact hd ▸ rfl
  rw [hfl, some_inj] at hf
  rw [← hf, dispatch_reports_iff] at hr
  exact absurd hr.2.1 (by decide)

/-! ## Whose jobs are moved. The jobs of a bucket are moved by one call with one previous
owner: the variable is overwritten by every job, so that of the last one is compared for all. -/

/-- A job as it is inserted, with its bucket and `previousOwner->getAgentAddress()`. -/
structure OwnedJob extends SorterJob where
  bucket : String × JobQueueType
  previousOwner : String

/-- An archive job has its own owner, a retrieve job that of its request. -/
def Half.ownerKey : Half → OwnedJob → String × Option UInt32
  | .archive, j => (j.request, some j.copyNb)
  | .retrieve, j => (j.request, none)

abbrev Owners := String × Option UInt32 → String

/-- `m_archiveQueuesAndRequests[…].emplace_back`, and for the retrieves. -/
def insertRequest (buckets : String × JobQueueType → List OwnedJob) (j : OwnedJob) :
    String × JobQueueType → List OwnedJob :=
  Function.update buckets j.bucket (buckets j.bucket ++ [j])

/-- The buckets of a sorter that the jobs were inserted in. -/
def inserted (jobs : List OwnedJob) : String × JobQueueType → List OwnedJob :=
  jobs.foldl insertRequest (fun _ => [])

/-- It throws where the owners stay; archive requests first ask whether all is done. -/
def updateJobOwner (addr previousOwner : String) (owners : Owners) (j : OwnedJob) : Owners :=
  let owner := owners (half.ownerKey j)
  match half with
  | .archive =>
    if owner ≠ addr then
      if owner ≠ previousOwner then owners
      else Function.update owners (Half.archive.ownerKey j) addr
    else owners
  | .retrieve =>
    if owner ≠ previousOwner then owners
    else Function.update owners (Half.retrieve.ownerKey j) addr

/-- The first loop of `executeArchiveAlgorithm` leaves the owner of the last job. -/
def previousOwnerOf (jobs : List OwnedJob) : String := jobs.foldl (fun _ j => j.previousOwner) ""

/-- The owners after `referenceAndSwitchOwnership` of a bucket. -/
def flushBucket (addr : String) (jobs : List OwnedJob) (owners : Owners) :
    Owners :=
  jobs.foldl (updateJobOwner half addr (previousOwnerOf jobs)) owners

theorem inserted_eq_filter (jobs : List OwnedJob) (k : String × JobQueueType) :
    inserted jobs k = jobs.filter (·.bucket = k) := by
  have loop : ∀ (jobs : List OwnedJob) buckets, (jobs.foldl insertRequest buckets) k
      = buckets k ++ jobs.filter (·.bucket = k) := by
    intro jobs
    induction jobs with
    | nil => simp
    | cons j jobs ih =>
      intro buckets
      rw [foldl_cons, ih, insertRequest]
      by_cases hk : j.bucket = k
      · simp [hk]
      · simp [hk, Function.update_of_ne (Ne.symm hk)]
  exact loop jobs _

theorem updateJobOwner_apply (ha : Half) (addr previousOwner : String) (owners : Owners)
    (j : OwnedJob) (key : String × Option UInt32) :
    updateJobOwner ha addr previousOwner owners j key
      = if ha.ownerKey j = key ∧ owners key = previousOwner then addr
        else owners key := by
  cases ha with
  | archive | retrieve =>
    dsimp only [updateJobOwner]
    split_ifs <;> simp_all [eq_comm]

/-- **One call** moves what the previous owner it is given owns. -/
theorem foldl_updateJobOwner_apply (ha : Half) (addr previousOwner : String)
    (key : String × Option UInt32) (jobs : List OwnedJob) : ∀ owners : Owners,
    jobs.foldl (updateJobOwner ha addr previousOwner) owners key
      = if (∃ j ∈ jobs, ha.ownerKey j = key) ∧ owners key = previousOwner then addr
        else owners key := by
  induction jobs with
  | nil => simp
  | cons j jobs ih =>
    intro owners
    rw [foldl_cons, ih, updateJobOwner_apply]
    by_cases ho : owners key = previousOwner
    · by_cases hk : ha.ownerKey j = key <;> simp [ho, hk]
    · simp [ho]

/-- **EVERY JOB IS TAKEN FROM ITS OWN PREVIOUS OWNER** exactly when it is that of the last job of
the bucket, or the queue has the job already. -/
theorem moved_from_own_owner_iff (addr : String) (jobs : List OwnedJob)
    (k : String × JobQueueType) (owners : Owners) :
    (∀ j ∈ jobs, j.bucket = k → owners (half.ownerKey j) = j.previousOwner →
        flushBucket half addr (inserted jobs k) owners (half.ownerKey j) = addr)
      ↔ ∀ j ∈ jobs, j.bucket = k → owners (half.ownerKey j) = j.previousOwner →
          j.previousOwner = previousOwnerOf (jobs.filter (·.bucket = k))
            ∨ j.previousOwner = addr := by
  refine forall₄_congr fun j hj hk ho => ?_
  have hm : ∃ j' ∈ jobs.filter (·.bucket = k), half.ownerKey j' = half.ownerKey j :=
    ⟨j, by simp [hj, hk], rfl⟩
  rw [flushBucket, inserted_eq_filter, foldl_updateJobOwner_apply, ho]
  by_cases hlast : j.previousOwner = previousOwnerOf (jobs.filter (·.bucket = k))
  · simp only [hlast, hm, and_self, if_true, true_or]
  · simp only [hlast, and_false, if_false, false_or]

/-- Two agents' archive jobs for the same queue. -/
def ofTwoAgents : List OwnedJob :=
  [⟨⟨"ArchiveRequest-1", 1⟩, ("pool", .jobsToTransferForUser), "agent-1"⟩,
   ⟨⟨"ArchiveRequest-2", 1⟩, ("pool", .jobsToTransferForUser), "agent-2"⟩]

/-- **THE JOB OF THE FIRST AGENT STAYS**: the other one's owner is compared. -/
theorem first_agent_keeps_job :
    flushBucket .archive "ArchiveQueue-1" (inserted ofTwoAgents ("pool", .jobsToTransferForUser))
        (fun key => if key.1 = "ArchiveRequest-1" then "agent-1" else "agent-2")
        ("ArchiveRequest-1", some 1) = "agent-1" := by
  decide

end TapeArchive.Objectstore.Sorter
