/-
  **ONE REPORT PER USER ARCHIVE REQUEST.**  A session ends its job in one of two ways,
  both atomic on the stored object:

      failTransfer          decides on the FETCHED flag `reportdecided`
      asyncSucceedTransfer  decides on the flag in the MEMORY of its handle

  As long as the two agree when the last job succeeds, a request passes through at most
  one of two decisions:

      undecided ──▶ success (last job transferred, nothing failed)
          └───────▶ failure (first job that failed for good)
-/
import TapeArchive.Lib.Run
import TapeArchive.Objectstore.ArchiveRequest

namespace TapeArchive.Objectstore

open Lib

namespace ArchiveReports

/-! ## The sessions and the stored object -/

/-- The stored request, the payload in each handle, and the reports that were decided. -/
structure World (S : Type) where
  stored : ArchiveRequest
  m_payload : S → ArchiveRequest
  reported : List UInt32

/-- How a session ends, or interrupts, the transfer of its job. -/
inductive Event (S : Type) where
  | asyncSucceedTransfer (session : S) (copyNb : UInt32) (vid : String)
  | failTransfer (session : S) (copyNb : UInt32) (mountId : UInt64) (failureLog : String)

variable {S : Type}

def Event.copyNb : Event S → UInt32
  | .asyncSucceedTransfer _ copyNb _ => copyNb
  | .failTransfer _ copyNb _ _ => copyNb

/-- The two statuses under which a job is queued for a report to the user. -/
def toReportToUser (status : ArchiveJobStatus) : Bool :=
  status == .toReportToUserForTransfer || status == .toReportToUserForFailure

/-- Whether the job with a copy number is to be reported to the user. -/
def reports (r : ArchiveRequest) (copyNb : UInt32) : Bool :=
  (r.findJob copyNb).any (fun j => toReportToUser j.status)

variable [DecidableEq S]

namespace World

variable (w : World S)

def write (copyNb : UInt32) (r : ArchiveRequest) : World S :=
  { w with stored := r, reported := if reports r copyNb then copyNb :: w.reported else w.reported }

def remember (session : S) (r : ArchiveRequest) : World S :=
  { w with m_payload := Function.update w.m_payload session r }

/-- `OStoreDB::ArchiveJob::failTransfer` under the lock; an exception commits nothing. -/
def failTransfer (session : S) (copyNb : UInt32) (mountId : UInt64)
    (failureLog : String) : World S :=
  match w.stored.addTransferFailure copyNb mountId failureLog with
  | .error _ => w.remember session w.stored
  | .ok (r, next) =>
    match r.setJobStatus copyNb next.nextStatus with
    | .error _ => w.remember session r
    | .ok r =>
      match r.checkCommit with
      | .error _ => w.remember session r
      | .ok () => (w.remember session r).write copyNb r

def asyncSucceedTransfer (session : S) (copyNb : UInt32) (vid : String) : World S :=
  match ArchiveRequest.asyncUpdateTransferSuccessful (w.m_payload session) w.stored vid copyNb with
  | .error _ => w
  | .ok (r, _) => w.write copyNb r

def step : Event S → World S
  | .asyncSucceedTransfer session copyNb vid => w.asyncSucceedTransfer session copyNb vid
  | .failTransfer session copyNb mountId failureLog =>
      w.failTransfer session copyNb mountId failureLog

end World

/-! ## Requests at the start and events in their place -/

/-- A user request as it is queued: a job per copy number, all to be transferred. -/
structure Queued (r : ArchiveRequest) : Prop where
  isrepack : r.isrepack = false
  reportdecided : r.reportdecided = false
  nonempty : r.jobs ≠ []
  copynbs : (r.jobs.map (·.copynb)).Nodup
  statuses : ∀ j ∈ r.jobs, j.status = .toTransferForUser

/-- The job with a copy number is waiting for its transfer. -/
def waits (r : ArchiveRequest) (copyNb : UInt32) : Bool :=
  (r.findJob copyNb).any (fun j => j.status == .toTransferForUser)

/-- No job of the request is waiting for its transfer. -/
def AllFinal (r : ArchiveRequest) : Prop := ∀ j ∈ r.jobs, j.status ≠ .toTransferForUser

/-- An event is that of a job that is still to be transferred. -/
def Expected (w : World S) (e : Event S) : Prop := waits w.stored e.copyNb = true

/-- The handle of the last success knows whether a failure report was decided. -/
def Informed (w : World S) : Event S → Prop
  | .asyncSucceedTransfer session copyNb _ =>
      w.stored.otherJobsToTransfer copyNb = false →
        (w.m_payload session).reportdecided = w.stored.reportdecided
  | .failTransfer .. => True

instance (r : ArchiveRequest) : Decidable (AllFinal r) := List.decidableBAll _ _

instance (w : World S) (e : Event S) : Decidable (Expected w e) :=
  inferInstanceAs (Decidable (_ = true))

instance (w : World S) : (e : Event S) → Decidable (Informed w e)
  | .asyncSucceedTransfer _ _ _ => inferInstanceAs (Decidable (_ → _))
  | .failTransfer .. => isTrue trivial

/-! ## What one event does to the stored request -/

/-- `r'` is `r` with the job `c` in status `status`; its retry counters may differ too. -/
structure StatusSet (c : UInt32) (status : ArchiveJobStatus) (r r' : ArchiveRequest) : Prop where
  isrepack : r'.isrepack = r.isrepack
  copynbs : r'.jobs.map (·.copynb) = r.jobs.map (·.copynb)
  same : ∃ j, r'.findJob c = some j ∧ j.status = status
  others : ∀ c' ≠ c, r'.findJob c' = r.findJob c'

variable {r : ArchiveRequest} {c : UInt32} {status : ArchiveJobStatus}

theorem StatusSet.updateJob
    {f : ArchiveJob → ArchiveJob} {j : ArchiveJob} (hj : r.findJob c = some j)
    (hco : ∀ j, (f j).copynb = j.copynb) (hs : (f j).status = status) :
    StatusSet c status r (r.updateJob c f) where
  isrepack := rfl
  copynbs := updateKey_keys hco r.jobs
  same := by
    have hf : (r.updateJob c f).findJob c = (r.findJob c).map f := findKey_updateKey_same hco r.jobs
    exact ⟨f j, by rw [hf, hj]; rfl, hs⟩
  others := fun _ hc => findKey_updateKey_of_ne hco r.jobs hc

theorem StatusSet.reports {r r' : ArchiveRequest} (h : StatusSet c status r r') :
    reports r' c = toReportToUser status := by
  obtain ⟨j, hj, rfl⟩ := h.same
  unfold ArchiveReports.reports
  rw [hj]
  rfl

/-- Try again, report the first failure for good, or store a further one. -/
inductive FailureDecision : Bool → Bool → ArchiveJobStatus → Prop
  | retry (decided : Bool) : FailureDecision decided decided .toTransferForUser
  | report : FailureDecision false true .toReportToUserForFailure
  | store : FailureDecision true true .failed

theorem StatusSet.trans {s₁ s₂ : ArchiveJobStatus} {r r₁ r₂ : ArchiveRequest}
    (h₁ : StatusSet c s₁ r r₁) (h₂ : StatusSet c s₂ r₁ r₂) : StatusSet c s₂ r r₂ where
  isrepack := h₂.isrepack.trans h₁.isrepack
  copynbs := h₂.copynbs.trans h₁.copynbs
  same := h₂.same
  others := fun c' hc => (h₂.others c' hc).trans (h₁.others c' hc)

theorem StatusSet.setReportdecided
    {r r' : ArchiveRequest} (h : StatusSet c status r r') (decided : Bool) :
    StatusSet c status r { r' with reportdecided := decided } where
  __ := h

theorem setJobStatus_ok {j : ArchiveJob} (hj : r.findJob c = some j) (status : ArchiveJobStatus) :
    ∃ r', r.setJobStatus c status = .ok r' ∧ StatusSet c status r r'
      ∧ r'.reportdecided = r.reportdecided := by
  unfold ArchiveRequest.setJobStatus
  rw [hj]
  exact ⟨_, rfl, .updateJob hj (fun _ => rfl) rfl, rfl⟩

theorem addTransferFailure_ok (hr : r.isrepack = false)
    {j : ArchiveJob} (hj : r.findJob c = some j) (mountId : UInt64) (failureLog : String) :
    ∃ r' next, r.addTransferFailure c mountId failureLog = .ok (r', next)
      ∧ StatusSet c j.status r r'
      ∧ FailureDecision r.reportdecided r'.reportdecided next.nextStatus := by
  have hs : (ArchiveRequest.countTransferFailure mountId failureLog j).status = j.status := by
    unfold ArchiveRequest.countTransferFailure
    split <;> rfl
  have hc : StatusSet c j.status r
      (r.updateJob c (ArchiveRequest.countTransferFailure mountId failureLog)) :=
    .updateJob hj (ArchiveRequest.countTransferFailure_copynb mountId failureLog) hs
  obtain ⟨j', hj', -⟩ := hc.same
  unfold ArchiveRequest.addTransferFailure
  rw [hj]
  dsimp only
  split
  · -- no try left: `determineNextStep` looks at the flag
    unfold ArchiveRequest.determineNextStep
    rw [hj']
    rw [ArchiveRequest.updateJob_reportdecided, ArchiveRequest.updateJob_isrepack]
    cases hflag : r.reportdecided with
    | false =>
      refine ⟨_, _, rfl, hc.setReportdecided true, ?_⟩
      simpa [hr] using FailureDecision.report
    | true =>
      refine ⟨_, _, rfl, hc, ?_⟩
      simpa [hr, hflag] using FailureDecision.store
  · refine ⟨_, _, rfl, hc, ?_⟩
    simpa [hr] using FailureDecision.retry r.reportdecided

/-! ## What one event does to the world -/

/-- The possible effects of an event of the job `c`. -/
inductive Change (c : UInt32) (w w' : World S) : Prop
  | thrown (hst : w'.stored = w.stored) (hrep : w'.reported = w.reported)
  | retry (hst : StatusSet c .toTransferForUser w.stored w'.stored)
      (hflag : w'.stored.reportdecided = w.stored.reportdecided)
      (hrep : w'.reported = w.reported)
  | failure (hst : StatusSet c .toReportToUserForFailure w.stored w'.stored)
      (hold : w.stored.reportdecided = false) (hnew : w'.stored.reportdecided = true)
      (hrep : w'.reported = c :: w.reported)
  | failed (hst : StatusSet c .failed w.stored w'.stored)
      (hold : w.stored.reportdecided = true) (hnew : w'.stored.reportdecided = true)
      (hrep : w'.reported = w.reported)
  | complete (hst : StatusSet c .complete w.stored w'.stored)
      (hnot : w.stored.otherJobsToTransfer c = true ∨ w.stored.reportdecided = true)
      (hflag : w'.stored.reportdecided = w.stored.reportdecided)
      (hrep : w'.reported = w.reported)
  | success (hst : StatusSet c .toReportToUserForTransfer w.stored w'.stored)
      (hlast : w.stored.otherJobsToTransfer c = false) (hold : w.stored.reportdecided = false)
      (hnew : w'.stored.reportdecided = false) (hrep : w'.reported = c :: w.reported)

omit [DecidableEq S] in
theorem write_reported {w : World S} (h : StatusSet c status w.stored r) :
    (w.write c r).reported = if toReportToUser status then c :: w.reported else w.reported := by
  unfold World.write
  rw [h.reports]

theorem write_decision {old new : Bool} {w : World S}
    (session : S) (h : StatusSet c status w.stored r)
    (hd : FailureDecision old new status) (hold : w.stored.reportdecided = old)
    (hnew : r.reportdecided = new) : Change c w ((w.remember session r).write c r) := by
  have hrep := write_reported (w := w.remember session r) h
  cases hd with
  | retry => exact .retry h (hnew.trans hold.symm) hrep
  | report => exact .failure h hold hnew hrep
  | store => exact .failed h hold hnew hrep

theorem failTransfer_change {w : World S} (hw : w.stored.isrepack = false) (session : S)
    (mountId : UInt64) (failureLog : String) (hc : waits w.stored c = true) :
    Change c w (w.failTransfer session c mountId failureLog) := by
  obtain ⟨j, hj, -⟩ := (Option.any_eq_true _ _).mp hc
  obtain ⟨r1, next, ha, hs1, hd⟩ := addTransferFailure_ok hw hj mountId failureLog
  obtain ⟨j1, hj1, -⟩ := hs1.same
  obtain ⟨r2, hs, hs2, hflag⟩ := setJobStatus_ok hj1 next.nextStatus
  unfold World.failTransfer
  simp only [ha, hs]
  cases r2.checkCommit with
  | error e => exact .thrown rfl rfl
  | ok u => exact write_decision session (hs1.trans hs2) hd rfl hflag

omit [DecidableEq S] in
theorem asyncSucceedTransfer_change {w : World S} (hw : w.stored.isrepack = false) {session : S}
    {vid : String} (hc : waits w.stored c = true)
    (hi : Informed w (.asyncSucceedTransfer session c vid)) :
    Change c w (w.asyncSucceedTransfer session c vid) := by
  obtain ⟨j, hj, -⟩ := (Option.any_eq_true _ _).mp hc
  have hco : StatusSet c .complete w.stored
      (w.stored.updateJob c (fun j => { j with status := .complete, owner := "" })) :=
    .updateJob hj (fun _ => rfl) rfl
  have hs : StatusSet c .toReportToUserForTransfer w.stored
      (w.stored.updateJob c (fun j => { j with status := .toReportToUserForTransfer })) :=
    .updateJob hj (fun _ => rfl) rfl
  unfold World.asyncSucceedTransfer ArchiveRequest.asyncUpdateTransferSuccessful
  simp only [hj, hw, Bool.not_false, if_true]
  cases ho : w.stored.otherJobsToTransfer c with
  | true => exact .complete hco (.inl ho) rfl (write_reported hco)
  | false =>
    -- the last job: here the flag in memory stands for the stored one
    rw [hi ho]
    cases hflag : w.stored.reportdecided with
    | true => exact .complete hco (.inr hflag) rfl (write_reported hco)
    | false => exact .success hs ho hflag hflag (write_reported hs)

theorem step_change {w : World S} {e : Event S} (hw : w.stored.isrepack = false)
    (he : Expected w e) (hi : Informed w e) : Change e.copyNb w (w.step e) := by
  cases e with
  | asyncSucceedTransfer session copyNb vid => exact asyncSucceedTransfer_change hw he hi
  | failTransfer session copyNb mountId failureLog =>
    exact failTransfer_change hw session mountId failureLog he

/-! ## The three phases of a request -/

/-- Where a request stands with its report. -/
inductive Phase (w : World S) : Prop
  | undecided (hflag : w.stored.reportdecided = false) (hrep : w.reported = [])
      (hwaits : ∃ c, waits w.stored c = true)
  | success (hflag : w.stored.reportdecided = false) (hrep : w.reported.length = 1)
      (hwaits : ∀ c, waits w.stored c = false)
  | failure (hflag : w.stored.reportdecided = true) (hrep : w.reported.length = 1)

/-- A user request, one job per copy number, in one of its phases. -/
structure Inv (w : World S) : Prop where
  isrepack : w.stored.isrepack = false
  copynbs : (w.stored.jobs.map (·.copynb)).Nodup
  phase : Phase w

theorem StatusSet.waits_of_ne {c c' : UInt32}
    {r r' : ArchiveRequest} (h : StatusSet c status r r') (hc : c' ≠ c) :
    waits r' c' = waits r c' := by
  unfold waits
  rw [h.others c' hc]

theorem StatusSet.waits_same {r r' : ArchiveRequest} (h : StatusSet c status r r') :
    waits r' c = (status == .toTransferForUser) := by
  obtain ⟨j, hj, rfl⟩ := h.same
  unfold waits
  rw [hj]
  rfl

theorem otherJobsToTransfer_iff (hr : (r.jobs.map (·.copynb)).Nodup) :
    r.otherJobsToTransfer c = true ↔ ∃ c' ≠ c, waits r c' = true := by
  unfold ArchiveRequest.otherJobsToTransfer waits
  simp only [List.any_eq_true, Bool.and_eq_true, bne_iff_ne, beq_iff_eq, Option.any_eq_true]
  constructor
  · rintro ⟨j, hj, hne, hs⟩
    exact ⟨j.copynb, hne, j, findKey_of_mem hr hj, hs⟩
  rintro ⟨c', hne, j, hj, hs⟩
  have hk : j.copynb = c' := key_of_findKey hj
  exact ⟨j, mem_of_findKey hj, hk ▸ hne, hs⟩

omit [DecidableEq S] in
/-- An event of a waiting job moves a request from phase to phase. -/
theorem Phase.change {w w' : World S} (h : Phase w)
    (hr : (w.stored.jobs.map (·.copynb)).Nodup) (hc : waits w.stored c = true)
    (hch : Change c w w') : Phase w' := by
  cases h with
  | undecided hflag hrep hwaits =>
    cases hch with
    | thrown hst hr' => exact .undecided (hst ▸ hflag) (hr'.trans hrep) (hst ▸ hwaits)
    | retry hst hf' hr' =>
      exact .undecided (hf'.trans hflag) (hr'.trans hrep) ⟨c, hst.waits_same⟩
    | failure hst hold hnew hr' => exact .failure hnew (by rw [hr', hrep]; rfl)
    | failed hst hold hnew hr' => exact absurd (hold.symm.trans hflag) (by decide)
    | complete hst hnot hf' hr' =>
      -- nothing is decided, so it was another job that kept this one from reporting
      have ho : w.stored.otherJobsToTransfer c = true := hnot.resolve_right (by simp [hflag])
      obtain ⟨c', hne, hc'⟩ := (otherJobsToTransfer_iff hr).mp ho
      exact .undecided (hf'.trans hflag) (hr'.trans hrep) ⟨c', (hst.waits_of_ne hne).trans hc'⟩
    | success hst hlast hold hnew hr' =>
      refine .success hnew (by rw [hr', hrep]; rfl) ?_
      intro c'
      by_cases hne : c' = c
      · rw [hne]
        exact hst.waits_same
      rw [hst.waits_of_ne hne]
      by_contra hc'
      have ho := (otherJobsToTransfer_iff hr).mpr ⟨c', hne, Bool.not_eq_false _ ▸ hc'⟩
      exact absurd (hlast.symm.trans ho) (by decide)
  | success hflag hrep hwaits => exact absurd (hc.symm.trans (hwaits c)) (by decide)
  | failure hflag hrep =>
    cases hch with
    | thrown hst hr' => exact .failure (hst ▸ hflag) (hr' ▸ hrep)
    | retry hst hf' hr' => exact .failure (hf'.trans hflag) (hr' ▸ hrep)
    | failure hst hold hnew hr' => exact absurd (hold.symm.trans hflag) (by decide)
    | failed hst hold hnew hr' => exact .failure hnew (hr' ▸ hrep)
    | complete hst hnot hf' hr' => exact .failure (hf'.trans hflag) (hr' ▸ hrep)
    | success hst hlast hold hnew hr' => exact absurd (hold.symm.trans hflag) (by decide)

omit [DecidableEq S] in
/-- Neither the kind of the request nor its copy numbers change. -/
theorem Change.frame {w w' : World S} (h : Change c w w') : w'.stored.isrepack = w.stored.isrepack
      ∧ w'.stored.jobs.map (·.copynb) = w.stored.jobs.map (·.copynb) := by
  cases h with
  | thrown hst _ => exact ⟨by rw [hst], by rw [hst]⟩
  | retry hst | failure hst | failed hst | complete hst | success hst =>
    exact ⟨hst.isrepack, hst.copynbs⟩

/-- **One event keeps the invariant.** -/
theorem Inv.step (w : World S) (e : Event S) (h : Inv w) (he : Expected w e ∧ Informed w e) :
    Inv (w.step e) := by
  have hc := step_change h.isrepack he.1 he.2
  obtain ⟨hr, hco⟩ := hc.frame
  exact ⟨hr.trans h.isrepack, hco ▸ h.copynbs, h.phase.change h.copynbs he.1 hc⟩

omit [DecidableEq S] in
theorem Queued.inv (h : Queued r) (m_payload : S → ArchiveRequest) : Inv ⟨r, m_payload, []⟩ where
  __ := h
  phase := by
    obtain ⟨j, hj⟩ := List.exists_mem_of_ne_nil _ h.nonempty
    refine .undecided h.reportdecided rfl ⟨j.copynb, ?_⟩
    show (r.findJob j.copynb).any _ = true
    have hf : r.findJob j.copynb = some j := findKey_of_mem h.copynbs hj
    rw [hf]
    simpa using h.statuses j hj

/-! ## Over every interleaving -/

/-- **One report decision per request**, and exactly one once no job is waiting for its transfer,
if the handle of the last success knows whether a failure report was decided. -/
theorem one_report_decision {r : ArchiveRequest} (hr : Queued r) (m_payload : S → ArchiveRequest)
    (es : List (Event S))
    (hes : Along World.step (fun w e => Expected w e ∧ Informed w e) ⟨r, m_payload, []⟩ es) :
    (run World.step ⟨r, m_payload, []⟩ es).reported.length ≤ 1
      ∧ (AllFinal (run World.step ⟨r, m_payload, []⟩ es).stored →
          (run World.step ⟨r, m_payload, []⟩ es).reported.length = 1) := by
  have hi : Inv (run World.step ⟨r, m_payload, []⟩ es) :=
    run_invariant Inv.step (hr.inv m_payload) hes
  cases hi.phase with
  | undecided hflag hrep hwaits =>
    refine ⟨by rw [hrep]; decide, fun hf => ?_⟩
    obtain ⟨c, hc⟩ := hwaits
    obtain ⟨j, hj, hs⟩ := (Option.any_eq_true _ _).mp hc
    exact absurd (by simpa using hs) (hf j (mem_of_findKey hj))
  | success hflag hrep | failure hflag hrep => exact ⟨hrep.le, fun _ => hrep⟩

/-- Two copies; the retries are those `OStoreDB::queueArchive` sets. -/
def twoCopies : ArchiveRequest :=
  (((ArchiveRequest.initial 7).addJob 1 "pool1" "agent" 2 2 2).addJob 2 "pool2" "agent" 2 2 2)

theorem twoCopies_queued : Queued twoCopies := by
  constructor <;> decide

/-- Both sessions hold handles that were never fetched. -/
def twoSessions : World Bool := ⟨twoCopies, fun _ => .unfetched, []⟩

/-- The first copy is written to tape, then the second one fails for good. -/
def successThenFailure : List (Event Bool) :=
  [.asyncSucceedTransfer false 1 "V00001", .failTransfer true 2 100 "drive error",
    .failTransfer true 2 100 "drive error"]

theorem one_report_after_success : AllFinal (run World.step twoSessions successThenFailure).stored
      ∧ (run World.step twoSessions successThenFailure).reported.length = 1 :=
  have hfinal : AllFinal (run World.step twoSessions successThenFailure).stored := by decide
  ⟨hfinal, (one_report_decision twoCopies_queued _ successThenFailure (by decide)).2 hfinal⟩

/-- The same two ends in the other order. -/
def failureThenSuccess : List (Event Bool) :=
  [.failTransfer true 2 100 "drive error", .failTransfer true 2 100 "drive error",
    .asyncSucceedTransfer false 1 "V00001"]

/-- **Two reports**: the handle of the last success was never fetched, so its flag is unset. -/
theorem failure_and_success_reported :
    Queued twoCopies ∧ Along World.step Expected twoSessions failureThenSuccess
      ∧ (run World.step twoSessions failureThenSuccess).reported = [1, 2]
      ∧ (run World.step twoSessions failureThenSuccess).stored.jobs.map (·.status)
          = [.toReportToUserForTransfer, .toReportToUserForFailure] := by
  refine ⟨twoCopies_queued, ?_, ?_, ?_⟩ <;> decide

end ArchiveReports

end TapeArchive.Objectstore
