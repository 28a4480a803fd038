/-
  **REPORTING A BATCH OF ARCHIVED FILES** (`ArchiveMount::reportJobsBatchTransferred`,
  `OStoreDB::ArchiveMount::setJobBatchTransferred`,
  `MigrationReportPacker::ReportFlush::execute`).

      successfulArchiveJobs ──▶ validatedSuccessfulArchiveJobs
                 └──▶ validatedSuccessfulDBArchiveJobs ◀──┘
                                   └──▶ failedToReportArchiveJobs

  Three `catch` clauses end the function: the one for `NoSuchObject` looks into none of
  these places, the one for CTA exceptions into the two lists, the one for standard
  exceptions into the second.
-/
import TapeArchive.Lib.Keyed

namespace TapeArchive.Scheduler.ArchiveMountReport

open List

open Std (TreeMap)

/-! ## Jobs, exceptions and what the rest of the system answers -/

inductive Exn where
  | noSuchObject (message : String)
  /-- Any other `cta::exception::Exception`. -/
  | exception (message : String)
  /-- Any other `std::exception`. -/
  | std (what : String)
  deriving DecidableEq

/-- `cta::exception::NoSuchObject` or not. -/
def Exn.isNoSuchObject : Exn → Bool
  | .noSuchObject _ => true
  | _ => false

/-- `cta::ArchiveJob`; `m_dbJob` is the identity of the scheduler database job it owns. -/
structure ArchiveJob where
  m_dbJob : Nat

/-- `catalogue::TapeItemWritten`; the set of items is ordered by `fSeq`. -/
structure TapeItemWritten where
  fSeq : UInt64
  vid : String

/-- `std::set<TapeItemWrittenPointer>`. -/
abbrev TapeItems := TreeMap UInt64 TapeItemWritten

/-- `tapeItemsWritten.emplace`: an item with a file number that is there is not taken. -/
def TapeItems.emplace (items : TapeItems) (item : TapeItemWritten) : TapeItems :=
  TreeMap.insertIfNew items item.fSeq item

/-- How each failure point of the call behaves; `none` is a call that returns. -/
structure Env where
  validateAndGetTapeFileWritten : ArchiveJob → Except Exn TapeItemWritten
  filesWrittenToTape : TapeItems → Option Exn
  /-- Launches the update of the request of one database job. -/
  asyncSucceedTransfer : Nat → Option Exn
  /-- How the launched update ends. -/
  waitAsyncSucceed : Nat → Option Exn
  /-- The rest of `setJobBatchTransferred`: queueing the reports, removing ownership. -/
  queueForReporting : List Nat → Option Exn

/-! ## `OStoreDB::ArchiveMount::setJobBatchTransferred` -/

inductive LoopEnd where
  | done
  | threw (e : Exn)
  /-- The log line after an erasure reads the next job, also when there is none. -/
  | pastTheEnd
  deriving DecidableEq

/-- A job whose request does not exist is erased; another exception leaves the function. -/
def eraseMissing (call : Nat → Option Exn) : List Nat → List Nat × LoopEnd
  | [] => ([], .done)
  | job :: jobs =>
    match call job with
    | none => (job :: (eraseMissing call jobs).1, (eraseMissing call jobs).2)
    | some (.noSuchObject _) =>
        if jobs = [] then ([], .pastTheEnd) else eraseMissing call jobs
    | some e => (job :: jobs, .threw e)

/-- The list it was given, the jobs it recorded, and how it ended. -/
structure Recording where
  (jobsBatch recorded : List Nat)
  ending : LoopEnd

variable (env : Env)

/-- The jobs whose update was launched: those before a launch that threw. -/
def launched (jobs : List Nat) : List Nat :=
  (eraseMissing env.asyncSucceedTransfer jobs).1.takeWhile
    (fun job => (env.asyncSucceedTransfer job).isNone)

/-- A launched update that ends well is recorded, also if nobody waits for it any more. -/
def recordedOf (jobs : List Nat) : List Nat :=
  (launched env jobs).filter (fun job => (env.waitAsyncSucceed job).isNone)

/-- The loop that waits for the updates, and what follows it. -/
def waitAndQueue (recorded jobs : List Nat) : Recording :=
  match eraseMissing env.waitAsyncSucceed jobs with
  | (jobs', .done) =>
      match env.queueForReporting jobs' with
      | none => ⟨jobs', recorded, .done⟩
      | some e => ⟨jobs', recorded, .threw e⟩
  | (jobs', ending) => ⟨jobs', recorded, ending⟩

def setJobBatchTransferred (jobs : List Nat) : Recording :=
  match eraseMissing env.asyncSucceedTransfer jobs with
  | (jobs', .done) => waitAndQueue env (recordedOf env jobs) jobs'
  | (jobs', ending) => ⟨jobs', recordedOf env jobs, ending⟩

/-! ## `ArchiveMount::reportJobsBatchTransferred` -/

/-- The local variables of the function, and the queue it works on. -/
structure Locals where
  successfulArchiveJobs : List (Option ArchiveJob)
  tapeItemsWritten : TapeItems
  validatedSuccessfulArchiveJobs : List ArchiveJob
  validatedSuccessfulDBArchiveJobs : List Nat

/-- The `while` over the successful jobs. A CTA exception is thrown again as a copy of its base class,
so a `NoSuchObject` is none any more; a standard one leaves `job` to die with the function. -/
def validateJobs (env : Env) : List (Option ArchiveJob) → Locals → Locals × Option Exn
  | [], l => ({ l with successfulArchiveJobs := [] }, none)
  | none :: queue, l => validateJobs env queue l
  | some job :: queue, l =>
    match env.validateAndGetTapeFileWritten job with
    | .ok item => validateJobs env queue
        { l with
          tapeItemsWritten := l.tapeItemsWritten.emplace item
          validatedSuccessfulArchiveJobs := l.validatedSuccessfulArchiveJobs ++ [job] }
    | .error (.std what) => ({ l with successfulArchiveJobs := queue }, some (.std what))
    | .error (.noSuchObject message) | .error (.exception message) =>
        ({ l with
            successfulArchiveJobs := queue
            validatedSuccessfulDBArchiveJobs :=
              l.validatedSuccessfulDBArchiveJobs ++ [job.m_dbJob] },
          some (.exception message))

inductive Ending where
  | returned
  | failedReportCatalogueUpdate
  | failedReportMoveToQueue
  /-- Undefined behaviour. -/
  | pastTheEnd

structure Outcome where
  ending : Ending
  successfulArchiveJobs : List (Option ArchiveJob)
  (recorded failedToReportArchiveJobs : List Nat)
  catalogue_updated : Bool

/-- The exception with which the last two clauses end. -/
def rethrown (catalogue_updated : Bool) : Ending :=
  if catalogue_updated then .failedReportMoveToQueue else .failedReportCatalogueUpdate

/-- The three `catch` clauses. -/
def catchClauses (l : Locals) (recorded : List Nat) (catalogue_updated : Bool) : Exn → Outcome
  | .noSuchObject _ => ⟨.returned, l.successfulArchiveJobs, recorded, [], catalogue_updated⟩
  | .exception _ =>
      ⟨rethrown catalogue_updated, l.successfulArchiveJobs, recorded,
        l.validatedSuccessfulDBArchiveJobs
          ++ l.validatedSuccessfulArchiveJobs.map ArchiveJob.m_dbJob, catalogue_updated⟩
  | .std _ =>
      ⟨rethrown catalogue_updated, l.successfulArchiveJobs, recorded,
        l.validatedSuccessfulDBArchiveJobs, catalogue_updated⟩

/-- The `while` over the skipped files. -/
def addSkipped (items : TapeItems) (skippedFiles : List TapeItemWritten) : TapeItems :=
  skippedFiles.foldl TapeItems.emplace items

/-- The database jobs are taken out of the validated jobs. -/
def extractDBJobs (l : Locals) : Locals :=
  { l with
    validatedSuccessfulArchiveJobs := []
    validatedSuccessfulDBArchiveJobs := l.validatedSuccessfulDBArchiveJobs
      ++ l.validatedSuccessfulArchiveJobs.map ArchiveJob.m_dbJob }

/-- The call of `setJobBatchTransferred`, after the catalogue update. -/
def recordBatch (l : Locals) : Outcome :=
  let r := setJobBatchTransferred env l.validatedSuccessfulDBArchiveJobs
  match r.ending with
  | .done => ⟨.returned, l.successfulArchiveJobs, r.recorded, [], true⟩
  | .pastTheEnd => ⟨.pastTheEnd, l.successfulArchiveJobs, r.recorded, [], true⟩
  | .threw e =>
      catchClauses { l with validatedSuccessfulDBArchiveJobs := r.jobsBatch } r.recorded true e

def reportJobsBatchTransferred (successfulArchiveJobs : List (Option ArchiveJob))
    (skippedFiles : List TapeItemWritten) : Outcome :=
  match validateJobs env successfulArchiveJobs ⟨successfulArchiveJobs, ∅, [], []⟩ with
  | (l, some e) => catchClauses l [] false e
  | (l, none) =>
    match env.filesWrittenToTape (addSkipped l.tapeItemsWritten skippedFiles) with
    | some e => catchClauses (extractDBJobs l) [] false e
    | none => recordBatch env (extractDBJobs l)

/-! ## The report packer -/

/-! ## The property and the failures after which it holds -/

/-- A batch: two `unique_ptr`s never own the same database job. -/
structure Batch where
  successfulArchiveJobs : List (Option ArchiveJob)
  distinct : (successfulArchiveJobs.reduceOption.map ArchiveJob.m_dbJob).Nodup

/-- The jobs of the batch; the queue may hold null pointers. -/
def Batch.jobs (b : Batch) : List ArchiveJob := b.successfulArchiveJobs.reduceOption

def Batch.dbJobs (b : Batch) : List Nat := b.jobs.map ArchiveJob.m_dbJob

/-- Every job is recorded, after the catalogue was updated, or handed over to be failed. -/
structure Conserved (b : Batch) (o : Outcome) : Prop where
  defined : o.ending ≠ .pastTheEnd
  kept : ∀ job ∈ b.dbJobs, job ∈ o.recorded ∨ job ∈ o.failedToReportArchiveJobs
  catalogue : o.recorded ≠ [] → o.catalogue_updated = true

def Env.validates (job : ArchiveJob) : Bool :=
  match env.validateAndGetTapeFileWritten job with
  | .ok _ => true
  | .error _ => false

def Env.itemsOf (jobs : List ArchiveJob) (items : TapeItems) : TapeItems :=
  jobs.foldl (fun items job =>
    match env.validateAndGetTapeFileWritten job with
    | .ok item => items.emplace item
    | .error _ => items) items

/-- A loop of `setJobBatchTransferred` comes to a job whose request does not exist. -/
def meetsMissing (call : Nat → Option Exn) : List Nat → Bool
  | [] => false
  | job :: jobs =>
    match call job with
    | none => meetsMissing call jobs
    | some e => e.isNoSuchObject

/-- **The failures after which the batch is conserved.**  A validation fails for the last job only and
not with a standard exception, a catalogue update not with `NoSuchObject`, unless there is no job,
and no loop of the recording comes to a request that does not exist. -/
def Conserving (b : Batch) (skippedFiles : List TapeItemWritten) : Prop :=
  match b.jobs.dropWhile env.validates with
  | job :: later =>
      later = [] ∧ ∀ what, env.validateAndGetTapeFileWritten job ≠ .error (.std what)
  | [] =>
    match env.filesWrittenToTape (addSkipped (env.itemsOf b.jobs ∅) skippedFiles) with
    | some e => e.isNoSuchObject = true → b.jobs = []
    | none =>
        meetsMissing env.asyncSucceedTransfer b.dbJobs = false ∧
          ((∀ job ∈ b.dbJobs, env.asyncSucceedTransfer job = none) →
            meetsMissing env.waitAsyncSucceed b.dbJobs = false)

/-! ## The loops of the recording -/

section Recording

variable {call : Nat → Option Exn} {jobs : List Nat}

theorem eraseMissing_sublist (call : Nat → Option Exn) (jobs : List Nat) :
    (eraseMissing call jobs).1.Sublist jobs := by
  induction jobs with
  | nil => exact List.Sublist.refl _
  | cons job jobs ih =>
    unfold eraseMissing
    split
    · exact ih.cons_cons job
    · split
      · exact nil_sublist _
      · exact ih.cons job
    · exact List.Sublist.refl _

/-- A loop that comes to no missing request leaves the list as it is, and ends without an
exception only if every call returns. -/
theorem eraseMissing_keeps (h : meetsMissing call jobs = false) :
    (eraseMissing call jobs).1 = jobs ∧
      (((eraseMissing call jobs).2 = .done ∧ ∀ job ∈ jobs, call job = none) ∨
        ∃ e, (eraseMissing call jobs).2 = .threw e ∧ e.isNoSuchObject = false ∧
          ¬ ∀ job ∈ jobs, call job = none) := by
  induction jobs with
  | nil => exact ⟨rfl, .inl ⟨rfl, by simp⟩⟩
  | cons job jobs ih =>
    cases hc : call job with
    | none =>
      have hm : meetsMissing call jobs = false := by
        simpa [meetsMissing, hc] using h
      obtain ⟨hk, hen⟩ := ih hm
      have hs : eraseMissing call (job :: jobs)
          = (job :: (eraseMissing call jobs).1, (eraseMissing call jobs).2) := by
        simp [eraseMissing, hc]
      rw [hs]
      refine ⟨by rw [hk], ?_⟩
      obtain ⟨hd, ha⟩ | ⟨e, he, hne, hnot⟩ := hen
      · exact .inl ⟨hd, by simpa [hc] using ha⟩
      · exact .inr ⟨e, he, hne, fun ha => hnot (fun j hj => ha j (.tail _ hj))⟩
    | some e =>
      have he : e.isNoSuchObject = false := by
        simpa [meetsMissing, hc] using h
      cases e with
      | noSuchObject message => cases he
      | exception | std => simp [eraseMissing, hc, Exn.isNoSuchObject]

/-- A loop that comes to a missing request erases a job of the list. -/
theorem eraseMissing_loses (hnd : jobs.Nodup) (h : meetsMissing call jobs = true) :
    ∃ job ∈ jobs, job ∉ (eraseMissing call jobs).1 ∧ call job ≠ none := by
  induction jobs with
  | nil => cases h
  | cons job jobs ih =>
    rw [nodup_cons] at hnd
    cases hc : call job with
    | none =>
      have hm : meetsMissing call jobs = true := by
        simpa [meetsMissing, hc] using h
      obtain ⟨j, hj, ho, hca⟩ := ih hnd.2 hm
      refine ⟨j, .tail _ hj, ?_, hca⟩
      have hne : j ≠ job := fun he => hnd.1 (he ▸ hj)
      simp [eraseMissing, hc, hne, ho]
    | some e =>
      have he : e.isNoSuchObject = true := by
        simpa [meetsMissing, hc] using h
      refine ⟨job, mem_cons_self .., ?_, by simp [hc]⟩
      have ho : job ∉ (eraseMissing call jobs).1 :=
        fun hme => hnd.1 ((eraseMissing_sublist call jobs).subset hme)
      cases e with
      | noSuchObject message =>
        unfold eraseMissing
        simp only [hc]
        split
        · simp
        · exact ho
      | exception | std => cases he

variable (env : Env)

theorem recordedOf_subset (jobs : List Nat) :
    ∀ job ∈ recordedOf env jobs, job ∈ (eraseMissing env.asyncSucceedTransfer jobs).1 ∧
      env.waitAsyncSucceed job = none := by
  intro job hj
  unfold recordedOf at hj
  rw [mem_filter, Option.isNone_iff_eq_none] at hj
  exact ⟨(takeWhile_sublist _).subset hj.1, hj.2⟩

variable {jobs : List Nat}

/-- When every launch and every update goes well, every job is recorded. -/
theorem recordedOf_all (hl : ∀ job ∈ jobs, env.asyncSucceedTransfer job = none)
    (hw : ∀ job ∈ jobs, env.waitAsyncSucceed job = none)
    (hk : (eraseMissing env.asyncSucceedTransfer jobs).1 = jobs) :
    recordedOf env jobs = jobs := by
  unfold recordedOf launched
  rw [hk, takeWhile_eq_self_iff.mpr (by simpa using hl), filter_eq_self.mpr (by simpa using hw)]

theorem setJobBatchTransferred_recorded (jobs : List Nat) :
    (setJobBatchTransferred env jobs).recorded = recordedOf env jobs := by
  unfold setJobBatchTransferred
  split
  · unfold waitAndQueue
    split
    · split <;> rfl
    · rfl
  · rfl

/-- The list that the recording leaves is part of what either loop left. -/
theorem setJobBatchTransferred_jobsBatch_subset (jobs : List Nat) :
    ∀ job ∈ (setJobBatchTransferred env jobs).jobsBatch,
      job ∈ (eraseMissing env.asyncSucceedTransfer jobs).1 := by
  intro job hj
  unfold setJobBatchTransferred at hj
  split at hj
  · next jobs' he =>
    rw [he]
    refine (eraseMissing_sublist env.waitAsyncSucceed jobs').subset ?_
    unfold waitAndQueue at hj
    split at hj
    · next hw =>
      rw [hw]
      split at hj <;> exact hj
    · next hw =>
      rw [hw]
      exact hj
  · next he =>
    rw [he]
    exact hj

/-- **The recording without missing requests**: it throws with the whole list in place, or it
recorded the whole list. -/
theorem setJobBatchTransferred_conserves (hl : meetsMissing env.asyncSucceedTransfer jobs = false)
    (hw : (∀ job ∈ jobs, env.asyncSucceedTransfer job = none) →
      meetsMissing env.waitAsyncSucceed jobs = false) :
    (∃ e, (setJobBatchTransferred env jobs).ending = .threw e ∧ e.isNoSuchObject = false ∧
        (setJobBatchTransferred env jobs).jobsBatch = jobs) ∨
      ((setJobBatchTransferred env jobs).ending ≠ .pastTheEnd ∧
        (setJobBatchTransferred env jobs).recorded = jobs) := by
  rw [setJobBatchTransferred_recorded]
  obtain ⟨hk, hen⟩ := eraseMissing_keeps hl
  obtain ⟨hd, ha⟩ | ⟨e, he, hne, _⟩ := hen
  · -- every update was launched
    obtain ⟨hk', he'⟩ := eraseMissing_keeps (hw ha)
    have hs : setJobBatchTransferred env jobs = waitAndQueue env (recordedOf env jobs) jobs := by
      unfold setJobBatchTransferred
      rw [← Prod.mk.eta (p := eraseMissing env.asyncSucceedTransfer jobs), hk, hd]
    obtain ⟨hd', ha'⟩ | ⟨e, he, hne, _⟩ := he'
    · refine .inr ⟨?_, recordedOf_all env ha ha' hk⟩
      rw [hs]
      unfold waitAndQueue
      rw [← Prod.mk.eta (p := eraseMissing env.waitAsyncSucceed jobs), hk', hd']
      show (match env.queueForReporting jobs with | none => _ | some _ => _ : Recording).ending ≠ _
      split <;> simp
    · refine .inl ⟨e, ?_, hne, ?_⟩
      · rw [hs]
        unfold waitAndQueue
        rw [← Prod.mk.eta (p := eraseMissing env.waitAsyncSucceed jobs), he]
      · rw [hs]
        unfold waitAndQueue
        rw [← Prod.mk.eta (p := eraseMissing env.waitAsyncSucceed jobs), hk', he]
  · have hs : setJobBatchTransferred env jobs = ⟨jobs, recordedOf env jobs, .threw e⟩ := by
      unfold setJobBatchTransferred
      rw [← Prod.mk.eta (p := eraseMissing env.asyncSucceedTransfer jobs), hk, he]
    exact .inl ⟨e, by rw [hs], hne, by rw [hs]⟩

/-- **The recording with a missing request**: a job is neither recorded nor left in the
list. -/
theorem setJobBatchTransferred_loses (hnd : jobs.Nodup)
    (h : ¬ (meetsMissing env.asyncSucceedTransfer jobs = false ∧
      ((∀ job ∈ jobs, env.asyncSucceedTransfer job = none) →
        meetsMissing env.waitAsyncSucceed jobs = false))) :
    ∃ job ∈ jobs, job ∉ (setJobBatchTransferred env jobs).recorded ∧
      job ∉ (setJobBatchTransferred env jobs).jobsBatch := by
  rw [setJobBatchTransferred_recorded]
  by_cases hl : meetsMissing env.asyncSucceedTransfer jobs = true
  · obtain ⟨job, hj, ho, _⟩ := eraseMissing_loses hnd hl
    exact ⟨job, hj, fun hr => ho (recordedOf_subset env jobs job hr).1,
      fun hb => ho (setJobBatchTransferred_jobsBatch_subset env jobs job hb)⟩
  · have hl' : meetsMissing env.asyncSucceedTransfer jobs = false := by simpa using hl
    have hbo : (∀ job ∈ jobs, env.asyncSucceedTransfer job = none) ∧
        meetsMissing env.waitAsyncSucceed jobs = true := by
      by_contra hn
      exact h ⟨hl', fun ha => by
        by_contra hm
        exact hn ⟨ha, by simpa using hm⟩⟩
    obtain ⟨ha, hm⟩ := hbo
    obtain ⟨hk, he⟩ := eraseMissing_keeps hl'
    have hd : (eraseMissing env.asyncSucceedTransfer jobs).2 = .done := by
      obtain ⟨hd, _⟩ | ⟨_, _, _, hnot⟩ := he
      · exact hd
      · exact absurd ha hnot
    obtain ⟨job, hj, ho, hc⟩ := eraseMissing_loses hnd hm
    refine ⟨job, hj, fun hr => hc (recordedOf_subset env jobs job hr).2, fun hb => ho ?_⟩
    unfold setJobBatchTransferred at hb
    rw [← Prod.mk.eta (p := eraseMissing env.asyncSucceedTransfer jobs), hk, hd] at hb
    change job ∈ (waitAndQueue env (recordedOf env jobs) jobs).jobsBatch at hb
    unfold waitAndQueue at hb
    split at hb
    · next hw =>
      rw [hw]
      split at hb <;> exact hb
    · next hw =>
      rw [hw]
      exact hb

end Recording

/-! ## The validation -/

section Validation

variable (env : Env)

/-- Null pointers are passed over; only what is left in the queue can differ. -/
theorem validateJobs_reduceOption (queue : List (Option ArchiveJob)) (l : Locals) :
    ∃ left, validateJobs env queue l
      = ({ (validateJobs env (queue.reduceOption.map some) l).1 with
            successfulArchiveJobs := left },
          (validateJobs env (queue.reduceOption.map some) l).2) := by
  induction queue generalizing l with
  | nil => exact ⟨_, rfl⟩
  | cons job queue ih =>
    cases job with
    | none => exact ih l
    | some job =>
      rw [reduceOption_cons_of_some, map_cons]
      unfold validateJobs
      split
      · exact ih _
      · exact ⟨queue, rfl⟩
      · exact ⟨queue, rfl⟩
      · exact ⟨queue, rfl⟩

/-- The jobs before the first failed validation move to the validated ones. -/
theorem validateJobs_append {front : List ArchiveJob} (rest : List (Option ArchiveJob))
    (hf : ∀ job ∈ front, env.validates job = true) (l : Locals) :
    validateJobs env (front.map some ++ rest) l = validateJobs env rest
          { l with
            tapeItemsWritten := env.itemsOf front l.tapeItemsWritten
            validatedSuccessfulArchiveJobs := l.validatedSuccessfulArchiveJobs ++ front } := by
  induction front generalizing l with
  | nil => simp [Env.itemsOf]
  | cons job front ih =>
    have hjo := hf job mem_cons_self
    unfold Env.validates at hjo
    split at hjo
    · next item hv =>
      rw [map_cons, cons_append]
      have hs : validateJobs env (some job :: (front.map some ++ rest)) l
          = validateJobs env (front.map some ++ rest)
            { l with
              tapeItemsWritten := l.tapeItemsWritten.emplace item
              validatedSuccessfulArchiveJobs := l.validatedSuccessfulArchiveJobs ++ [job] } := by
        rw [validateJobs.eq_3, hv]
      rw [hs, ih (fun j hj => hf j (.tail _ hj))]
      simp [Env.itemsOf, hv]
    · cases hjo

variable {queue : List (Option ArchiveJob)}

/-- The validation of a whole batch. -/
theorem validateJobs_returns (h : ∀ job ∈ queue.reduceOption, env.validates job = true) :
    ∃ left, validateJobs env queue ⟨queue, ∅, [], []⟩
      = (⟨left, env.itemsOf queue.reduceOption ∅, queue.reduceOption, []⟩, none) := by
  obtain ⟨left, hl⟩ := validateJobs_reduceOption env queue ⟨queue, ∅, [], []⟩
  refine ⟨left, ?_⟩
  have ha := validateJobs_append env [] h ⟨queue, ∅, [], []⟩
  rw [append_nil] at ha
  rw [hl, ha]
  rfl

/-- The validation up to the first job that fails. -/
theorem validateJobs_stops {front later : List ArchiveJob}
    {job : ArchiveJob} {e : Exn} (hq : queue.reduceOption = front ++ job :: later)
    (hf : ∀ j ∈ front, env.validates j = true)
    (he : env.validateAndGetTapeFileWritten job = .error e) :
    ∃ left items, validateJobs env queue ⟨queue, ∅, [], []⟩ = match e with
      | .std what => (⟨left, items, front, []⟩, some (.std what))
      | .noSuchObject message | .exception message =>
          (⟨left, items, front, [job.m_dbJob]⟩, some (.exception message)) := by
  obtain ⟨left, hl⟩ := validateJobs_reduceOption env queue ⟨queue, ∅, [], []⟩
  refine ⟨left, env.itemsOf front ∅, ?_⟩
  rw [hl, hq, map_append, map_cons, validateJobs_append env _ hf, validateJobs.eq_3, he]
  cases e <;> rfl

end Validation

/-! ## The batch -/

theorem recordBatch_conserved_iff (env : Env) (b : Batch) (left : List (Option ArchiveJob))
    (items : TapeItems) :
    Conserved b (recordBatch env ⟨left, items, [], b.dbJobs⟩) ↔
      (meetsMissing env.asyncSucceedTransfer b.dbJobs = false ∧
        ((∀ job ∈ b.dbJobs, env.asyncSucceedTransfer job = none) →
          meetsMissing env.waitAsyncSucceed b.dbJobs = false)) := by
  constructor
  · intro h
    by_contra hn
    -- the lost job is in no list, whichever way the recording ended
    have hnd : b.dbJobs.Nodup := b.distinct
    obtain ⟨job, hj, hr, hb⟩ := setJobBatchTransferred_loses env hnd hn
    have hk := h.kept job hj
    unfold recordBatch at hk
    simp only at hk
    split at hk
    · exact hk.elim hr (by simp)
    · exact hk.elim hr (by simp)
    · next e _ =>
      cases e with
      | noSuchObject message => exact hk.elim hr (by simp [catchClauses])
      | exception message => exact hk.elim hr (by simpa [catchClauses] using hb)
      | std what => exact hk.elim hr hb
  · intro h
    obtain ⟨e, he, hne, hl⟩ | ⟨he, hr⟩ := setJobBatchTransferred_conserves env h.1 h.2
    · unfold recordBatch
      simp only [he]
      refine ⟨?_, ?_, fun _ => ?_⟩
      · cases e <;> simp [catchClauses, rethrown]
      · intro job hj
        refine .inr ?_
        cases e with
        | noSuchObject message => cases hne
        | exception | std => simpa [catchClauses, hl] using hj
      · cases e <;> rfl
    · have hin : ∀ job ∈ b.dbJobs, job ∈ (setJobBatchTransferred env b.dbJobs).recorded := by
        intro job hj
        rw [hr]
        exact hj
      unfold recordBatch
      simp only
      split
      · exact ⟨by simp, fun job hj => .inl (hin job hj), fun _ => rfl⟩
      · next hp => exact absurd hp he
      · next e _ =>
        refine ⟨?_, fun job hj => .inl ?_, fun _ => ?_⟩
        · cases e <;> simp [catchClauses, rethrown]
        · cases e <;> exact hin job hj
        · cases e <;> rfl

/-- The clauses before anything was recorded: what counts is what they hand over. -/
theorem catchClauses_conserved_iff (b : Batch) (l : Locals) (e : Exn) :
    Conserved b (catchClauses l [] false e) ↔
      ∀ job ∈ b.dbJobs, job ∈ (catchClauses l [] false e).failedToReportArchiveJobs := by
  constructor
  · intro h job hj
    obtain hre | hf := h.kept job hj
    · cases e <;> cases hre
    · exact hf
  · intro h
    refine ⟨?_, fun job hj => .inr (h job hj), ?_⟩
    · cases e <;> simp [catchClauses, rethrown]
    · intro hr
      cases e <;> exact absurd rfl hr

section FailedValidation

variable {b : Batch} {front later : List ArchiveJob} {job : ArchiveJob}
  {left : List (Option ArchiveJob)} {items : TapeItems}

/-- A CTA exception of a validation: the validated jobs and the failed one are handed over, the
later ones stay in the queue. -/
theorem ctaFailure_conserved_iff {message : String} (hjo : b.jobs = front ++ job :: later) :
    Conserved b (catchClauses ⟨left, items, front, [job.m_dbJob]⟩ [] false (.exception message)) ↔
      later = [] := by
  have hdb : b.dbJobs = front.map ArchiveJob.m_dbJob
      ++ job.m_dbJob :: later.map ArchiveJob.m_dbJob := by
    unfold Batch.dbJobs
    rw [hjo, map_append, map_cons]
  have hnd : b.dbJobs.Nodup := b.distinct
  rw [hdb, nodup_append, nodup_cons] at hnd
  obtain ⟨_, ⟨hnl, _⟩, hd⟩ := hnd
  rw [catchClauses_conserved_iff, hdb]
  constructor
  · intro h
    by_contra hne
    obtain ⟨j, hj⟩ := exists_mem_of_ne_nil later hne
    have hj' : j.m_dbJob ∈ later.map ArchiveJob.m_dbJob := mem_map_of_mem hj
    have hm := h j.m_dbJob (mem_append_right _ (.tail _ hj'))
    simp only [catchClauses, mem_append, mem_singleton] at hm
    obtain heq | hin := hm
    · exact hnl (heq ▸ hj')
    · exact hd _ hin _ (.tail _ hj') rfl
  · intro hn j hj
    subst hn
    simpa [catchClauses, or_comm] using hj

/-- A standard exception of a validation: the failed job is in no list. -/
theorem stdFailure_not_conserved {what : String} (hj : b.jobs = front ++ job :: later) :
    ¬ Conserved b (catchClauses ⟨left, items, front, []⟩ [] false (.std what)) := by
  rw [catchClauses_conserved_iff]
  intro h
  have hjo : job.m_dbJob ∈ b.dbJobs := by
    unfold Batch.dbJobs
    rw [hj]
    simp
  have hm := h job.m_dbJob hjo
  simp [catchClauses] at hm

end FailedValidation

/-- **Every job of a batch is recorded as transferred or handed over to be failed, after the
catalogue was updated, exactly when** the failures it met are conserving. -/
theorem batch_conserved_iff (env : Env) (b : Batch) (skippedFiles : List TapeItemWritten) :
    Conserved b (reportJobsBatchTransferred env b.successfulArchiveJobs skippedFiles) ↔
      Conserving env b skippedFiles := by
  have hs : b.jobs = b.jobs.takeWhile env.validates ++ b.jobs.dropWhile env.validates :=
    takeWhile_append_dropWhile.symm
  have hf : ∀ j ∈ b.jobs.takeWhile env.validates, env.validates j = true :=
    fun j hj => mem_takeWhile_imp hj
  unfold Conserving
  cases hd : b.jobs.dropWhile env.validates with
  | nil =>
    rw [hd, append_nil] at hs
    obtain ⟨left, hv⟩ := validateJobs_returns env
      (show ∀ j ∈ b.successfulArchiveJobs.reduceOption, _ from fun j hj =>
        hf j (hs ▸ hj))
    unfold reportJobsBatchTransferred
    rw [hv]
    show Conserved b (match env.filesWrittenToTape
      (addSkipped (env.itemsOf b.jobs ∅) skippedFiles) with | some _ => _ | none => _) ↔ _
    cases env.filesWrittenToTape (addSkipped (env.itemsOf b.jobs ∅) skippedFiles) with
    | none => exact recordBatch_conserved_iff env b left _
    | some e =>
      show Conserved b (catchClauses ⟨left, _, [], [] ++ b.dbJobs⟩ [] false e) ↔ _
      rw [nil_append, catchClauses_conserved_iff]
      cases e with
      | noSuchObject message =>
        simp [catchClauses, Exn.isNoSuchObject, Batch.dbJobs, eq_nil_iff_forall_not_mem]
      | exception | std => simp [catchClauses, Exn.isNoSuchObject]
  | cons job later =>
    rw [hd] at hs
    have hi : env.validates job = false := by
      have hh := List.head?_dropWhile_not env.validates b.jobs
      rw [hd] at hh
      simpa using hh
    obtain ⟨e, he⟩ : ∃ e, env.validateAndGetTapeFileWritten job = .error e := by
      unfold Env.validates at hi
      split at hi
      · cases hi
      · next e he => exact ⟨e, he⟩
    obtain ⟨left, items, hv⟩ := validateJobs_stops env hs hf he
    unfold reportJobsBatchTransferred
    show _ ↔ later = [] ∧ ∀ what, env.validateAndGetTapeFileWritten job ≠ .error (.std what)
    rw [hv, he]
    -- the class of a CTA exception is lost on the way to the clauses
    cases e with
    | noSuchObject message | exception message =>
      rw [ctaFailure_conserved_iff hs]
      simp
    | std what =>
      constructor
      · intro h
        exact absurd h (stdFailure_not_conserved hs)
      · intro h
        exact absurd rfl (h.2 what)

/-! ## Jobs that are dropped -/

def quietEnv : Env where
  validateAndGetTapeFileWritten := fun job => .ok ⟨job.m_dbJob.toUInt64, "V1"⟩
  filesWrittenToTape := fun _ => none
  asyncSucceedTransfer := fun _ => none
  waitAsyncSucceed := fun _ => none
  queueForReporting := fun _ => none

def twoJobs : Batch := ⟨[some ⟨1⟩, some ⟨2⟩], by decide⟩

/-- **Jobs dropped at each stage**: a checksum that does not match, a `NoSuchObject` of the
catalogue, a request that is gone when it is to be recorded. -/
theorem dropped_archive_jobs : ¬ Conserved twoJobs (reportJobsBatchTransferred
        { quietEnv with
          validateAndGetTapeFileWritten := fun job =>
            if job.m_dbJob = 1 then .error (.exception "checksum mismatch")
            else quietEnv.validateAndGetTapeFileWritten job }
        twoJobs.successfulArchiveJobs []) ∧
      ¬ Conserved twoJobs (reportJobsBatchTransferred
        { quietEnv with filesWrittenToTape := fun _ => some (.noSuchObject "no such tape") }
        twoJobs.successfulArchiveJobs []) ∧
      ¬ Conserved twoJobs (reportJobsBatchTransferred
        { quietEnv with
          waitAsyncSucceed := fun job => if job = 1 then some (.noSuchObject "gone") else none }
        twoJobs.successfulArchiveJobs []) := by
  refine ⟨?_, ?_, ?_⟩
  · intro h
    exact absurd (h.kept 2 (by decide)) (by decide)
  · intro h
    exact absurd (h.kept 1 (by decide)) (by decide)
  · intro h
    exact absurd (h.kept 1 (by decide)) (by decide)

/-! ## Requests that vanish -/

/-- The request of a job is there for the launch and for the end of its update. -/
def Env.survives (env : Env) (job : Nat) : Bool :=
  (env.asyncSucceedTransfer job).isNone && (env.waitAsyncSucceed job).isNone

/-- The rest of the call for the jobs of the batch whose requests are there. -/
def processed (env : Env) (jobs : List Nat) : Recording :=
  match env.queueForReporting jobs with
  | none => ⟨jobs, jobs, .done⟩
  | some e => ⟨jobs, jobs, .threw e⟩

/-- A loop that meets no other exception erases the missing jobs, and reads past the end exactly
after the last one. -/
theorem eraseMissing_vanishing {call : Nat → Option Exn} (jobs : List Nat)
    (h : ∀ job ∈ jobs, ∀ e ∈ call job, e.isNoSuchObject = true) :
    eraseMissing call jobs = (jobs.filter (fun job => (call job).isNone),
      if ∀ job ∈ jobs.getLast?, (call job).isNone = true then .done else .pastTheEnd) := by
  induction jobs with
  | nil => rfl
  | cons job jobs ih =>
    have hrest := ih (fun j hj => h j (.tail _ hj))
    unfold eraseMissing
    cases hc : call job with
    | none => cases jobs <;> simp [hrest, hc]
    | some e =>
      have he := h job mem_cons_self e hc
      cases e with
      | noSuchObject message => cases jobs <;> simp [hrest, hc]
      | exception | std => cases he

theorem getLast?_filter_of_last {p : Nat → Bool} {jobs : List Nat}
    (h : ∀ job ∈ jobs.getLast?, p job = true) : (jobs.filter p).getLast? = jobs.getLast? := by
  rcases eq_nil_or_concat jobs with rfl | ⟨init, job, rfl⟩
  · rfl
  rw [concat_eq_append] at h ⊢
  rw [filter_append, filter_singleton, h job (by simp)]
  simp

/-- **EXACTLY THE VANISHED JOBS LEAVE THE BATCH** and all others are processed, if and only if the
last job of the batch has not vanished. -/
theorem vanished_jobs_iff (env : Env) (jobs : List Nat)
    (hlaunch : ∀ job ∈ jobs, ∀ e ∈ env.asyncSucceedTransfer job, e.isNoSuchObject = true)
    (hwait : ∀ job ∈ jobs, ∀ e ∈ env.waitAsyncSucceed job, e.isNoSuchObject = true) :
    setJobBatchTransferred env jobs = processed env (jobs.filter env.survives)
      ↔ ∀ job ∈ jobs.getLast?, env.survives job = true := by
  have hp : (processed env (jobs.filter env.survives)).ending ≠ .pastTheEnd := by
    unfold processed
    split <;> exact LoopEnd.noConfusion
  have hb : (jobs.filter (fun j => (env.asyncSucceedTransfer j).isNone)).filter
      (fun j => (env.waitAsyncSucceed j).isNone) = jobs.filter env.survives := by
    rw [filter_filter]
    exact filter_congr (fun j _ => Bool.and_comm ..)
  have hr : recordedOf env jobs = jobs.filter env.survives := by
    unfold recordedOf launched
    rw [eraseMissing_vanishing jobs hlaunch, takeWhile_eq_self_iff.mpr (by simp), hb]
  unfold setJobBatchTransferred
  rw [eraseMissing_vanishing jobs hlaunch, hr]
  by_cases hl : ∀ job ∈ jobs.getLast?, (env.asyncSucceedTransfer job).isNone = true
  · -- the last job is also the last one that is waited for
    rw [if_pos hl]
    dsimp only
    unfold waitAndQueue
    rw [eraseMissing_vanishing _ (fun j hj => hwait j (mem_of_mem_filter hj)), hb,
      getLast?_filter_of_last hl]
    by_cases hw : ∀ job ∈ jobs.getLast?, (env.waitAsyncSucceed job).isNone = true
    · rw [if_pos hw]
      exact iff_of_true rfl (fun j hj => Bool.and_eq_true_iff.mpr ⟨hl j hj, hw j hj⟩)
    rw [if_neg hw]
    refine iff_of_false (fun heq => hp (heq ▸ rfl)) (fun hs => hw fun j hj => ?_)
    exact (Bool.and_eq_true_iff.mp (hs j hj)).2
  · rw [if_neg hl]
    refine iff_of_false (fun heq => hp (heq ▸ rfl)) (fun hs => hl fun j hj => ?_)
    exact (Bool.and_eq_true_iff.mp (hs j hj)).1

/-- The first of two jobs vanishes before it is recorded. -/
def firstVanishes : Env :=
  { quietEnv with
    asyncSucceedTransfer := fun job => if job = 1 then some (.noSuchObject "gone") else none }

theorem first_vanished_job_leaves :
    setJobBatchTransferred firstVanishes [1, 2] = processed firstVanishes [2] :=
  (vanished_jobs_iff firstVanishes [1, 2] (by decide) (by decide)).mpr (by decide)

/-- **A batch whose only job has vanished is read past its end.** -/
theorem only_job_vanished : (setJobBatchTransferred firstVanishes [1]).ending = .pastTheEnd := by
  decide

/-! ## The reports to a repack request are queued again -/

/-- How `referenceAndSwitchOwnership` ends for the jobs of one repack request. -/
inductive Attempt where
  | queued
  | noSuchObject
  /-- With the jobs that are left. -/
  | ownershipSwitchFailure (failedElements : List Nat)
  | exception
  | stdException

def Attempt.isSwitchFailure : Attempt → Bool
  | .ownershipSwitchFailure _ => true
  | _ => false

def maxRetries : Nat := 10

/-- From the label `retry` on; `none` when an attempt was not the last. -/
def retry (attempts : Nat → Attempt) : (fuel made : Nat) → List Nat → Option (List Nat × Bool)
  | 0, _, _ => none
  | fuel + 1, made, elements =>
      -- the counter is declared after the label: every attempt starts from 0
      let currentTotalRetries := 0
      match attempts made with
      | .ownershipSwitchFailure failedElements =>
          let elements := elements.filter (· ∈ failedElements)
          let currentTotalRetries := currentTotalRetries + 1
          if currentTotalRetries ≤ maxRetries then retry attempts fuel (made + 1) elements
          else some (elements, true)
      -- no clause catches it
      | .stdException => some (elements, true)
      | _ => some (elements, false)

/-- The loop ends with the first attempt that is no failure to switch the ownership. -/
theorem retry_isSome_iff (attempts : Nat → Attempt) (fuel : Nat) :
    ∀ made elements, (retry attempts fuel made elements).isSome = true
      ↔ ∃ n < fuel, (attempts (made + n)).isSwitchFailure = false := by
  induction fuel with
  | zero => simp [retry]
  | succ fuel ih =>
    intro made elements
    rw [Nat.exists_lt_succ_left, Nat.add_zero]
    cases ha : attempts made with
    | ownershipSwitchFailure failed =>
      have hnext : retry attempts (fuel + 1) made elements
          = retry attempts fuel (made + 1) (elements.filter (· ∈ failed)) := by
        simp [retry, ha, maxRetries]
      rw [hnext, ih]
      simp [Attempt.isSwitchFailure, Nat.add_right_comm, Nat.add_assoc]
    | queued | noSuchObject | exception | stdException => simp [retry, ha, Attempt.isSwitchFailure]

/-- **THE RETRIES ARE BOUNDED** exactly when one of the first eleven attempts does not fail to
switch the ownership. -/
theorem attempts_bounded_iff (attempts : Nat → Attempt) (elements : List Nat) :
    (retry attempts (maxRetries + 1) 0 elements).isSome = true
      ↔ ∃ n ≤ maxRetries, (attempts n).isSwitchFailure = false := by
  simp only [retry_isSome_iff, Nat.zero_add, Nat.lt_succ_iff]

/-- **A FAILURE THAT PERSISTS IS RETRIED FOR EVER.** -/
theorem persistent_failure_never_ends : ¬ ∃ fuel,
    (retry (fun _ => .ownershipSwitchFailure [1]) fuel 0 [1]).isSome = true := by
  rintro ⟨fuel, he⟩
  obtain ⟨n, -, hn⟩ := (retry_isSome_iff _ fuel 0 [1]).mp he
  cases hn

end TapeArchive.Scheduler.ArchiveMountReport
