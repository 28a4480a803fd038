/-
  **WHEN A REPACK ARCHIVE REQUEST IS DELETED**
  (`OStoreDB::RepackArchiveReportBatch::report`).

  A batch decides, copy by copy, whether the request can be deleted: every OTHER copy has
  to be finished in the statuses captured when the copy was popped, or to be updated by the
  same batch. The updates and deletions it launches are performed later, in any order,
  while other batches run. An event is one atomic step of one party.
-/
import TapeArchive.Lib.Lists
import TapeArchive.Lib.Machine
import TapeArchive.Lib.Run
import TapeArchive.Objectstore.ArchiveRequest

namespace TapeArchive.Scheduler.RepackReports

open Std (TreeMap)
open Lib Objectstore List

/-! ## Batches and copies -/

/-- The two subclasses of `RepackArchiveReportBatch`. -/
inductive ReportKind where
  | successes
  | failures

def ReportKind.getNewStatus : ReportKind → ArchiveJobStatus
  | .successes => .complete
  | .failures => .failed

/-- The status with which a copy comes into the queue of that kind of report. -/
def ReportKind.toReport : ReportKind → ArchiveJobStatus
  | .successes => .toReportToRepackForSuccess
  | .failures => .toReportToRepackForFailure

/-- A status that counts as finished for the sibling copies. -/
def Finished (status : ArchiveJobStatus) : Prop := status = .complete ∨ status = .failed

instance (status : ArchiveJobStatus) : Decidable (Finished status) :=
  inferInstanceAs (Decidable (_ ∨ _))

/-- The agent, the queue, and whether `recordReport` has been called. -/
structure ReportBatch where
  (agent queue : String)
  kind : ReportKind
  recorded : Bool

/-- What a batch has done about one of its copies. -/
inductive Phase where
  /-- Not looked at yet. -/
  | undecided
  /-- The update of its job is launched. -/
  | updating
  /-- That update has been performed. -/
  | updated
  /-- More jobs to do, but the request does not exist any more. -/
  | skipped
  /-- The deletion of the request is launched. -/
  | deleting
  /-- That deletion has been performed. -/
  | deleted
  deriving DecidableEq

/-- An entry of `m_subrequestList` of the batch with a number. -/
structure SubrequestInfo where
  batch : Nat
  address : String
  archiveFileID : UInt64
  archivedCopyNb : UInt32
  archiveJobsStatusMap : TreeMap UInt32 ArchiveJobStatus
  phase : Phase

def SubrequestInfo.copy (sri : SubrequestInfo) : String × UInt32 :=
  (sri.address, sri.archivedCopyNb)

/-- The entries of `jobOwnerUpdatersList`. -/
def SubrequestInfo.isUpdater (sri : SubrequestInfo) : Bool :=
  sri.phase == .updating || sri.phase == .updated

structure QueuedJob where
  (queue address : String)
  copyNb : UInt32
  deriving DecidableEq

def QueuedJob.copy (q : QueuedJob) : String × UInt32 := (q.address, q.copyNb)

/-- The archive requests of the object store, the report queues and the batches. -/
structure World where
  store : String → Option ArchiveRequest
  queued : List QueuedJob
  batches : List ReportBatch
  /-- The `m_subrequestList`s of all the batches. -/
  subrequests : List SubrequestInfo

namespace World

/-- Whether `recordReport` of a batch has been called. -/
def recorded (w : World) (batch : Nat) : Bool :=
  (w.batches[batch]?.map (·.recorded)).getD false

variable (w : World)

/-- A sibling is neither finished nor about to be updated by this batch. -/
def moreJobsToDo (sri : SubrequestInfo) : Bool :=
  sri.archiveJobsStatusMap.toList.any (fun (copyNb, status) =>
    copyNb != sri.archivedCopyNb && !decide (Finished status)
      && !(w.subrequests.any (fun jou => jou.batch == sri.batch && jou.isUpdater
        && jou.archiveFileID == sri.archiveFileID && jou.archivedCopyNb == copyNb)))

/-- What `report` launches for a copy. -/
def decision (sri : SubrequestInfo) : Phase :=
  if w.moreJobsToDo sri then
    if (w.store sri.address).isSome then .updating else .skipped
  else .deleting

variable (copy : String × UInt32)

def setPhase (phase : Phase) : World :=
  { w with subrequests :=
      updateKey SubrequestInfo.copy copy (fun sri => { sri with phase := phase }) w.subrequests }

def put (address : String) (r : Option ArchiveRequest) : World :=
  { w with store := Function.update w.store address r }

inductive Event where
  /-- A transfer of a copy has ended, and its job is put into a report queue. -/
  | transferred (address : String) (copyNb : UInt32) (kind : ReportKind) (queue : String)
  /-- A copy is popped into a batch that is being collected. -/
  | pop (batch : Nat) (address : String) (copyNb : UInt32)
  /-- `report` calls `recordReport`. -/
  | record (batch : Nat)
  /-- `report` decides about the next copy of the batch. -/
  | launch (batch : Nat)
  /-- A launched update or deletion is performed. -/
  | perform (address : String) (copyNb : UInt32)

/-- The job of a copy leaves the transfer queues. -/
def transferred (address : String) (copyNb : UInt32) (kind : ReportKind) (queue : String) : World :=
  match w.store address with
  | none => w
  | some r =>
    if r.statusOf copyNb = some .toTransferForRepack then
      { w.put address (some (r.updateJob copyNb (fun j =>
            { j with owner := queue, status := kind.toReport }))) with
        queued := w.queued ++ [⟨queue, address, copyNb⟩] }
    else w

/-- A job whose owner could not be switched leaves the queue and is in no batch. -/
def pop (batch : Nat) (address : String) (copyNb : UInt32) : World :=
  match w.batches[batch]? with
  | none => w
  | some b =>
    if b.recorded = true ∨ ⟨b.queue, address, copyNb⟩ ∉ w.queued then w
    else
      let w := { w with queued := w.queued.erase ⟨b.queue, address, copyNb⟩ }
      match w.store address with
      | none => w
      | some r =>
        match r.asyncUpdateJobOwner copyNb b.agent b.queue none with
        | .error _ => w
        | .ok r =>
          { w.put address (some r) with
            subrequests := w.subrequests ++
              [⟨batch, address, r.archivefileid, copyNb, r.getJobsStatusMap, .undecided⟩] }

/-- `recordReport`. -/
def record (batch : Nat) : World :=
  { w with batches := w.batches.modify batch (fun b => { b with recorded := true }) }

/-- One turn of the loop over `m_subrequestList`. -/
def launch (batch : Nat) : World :=
  if w.recorded batch then
    match w.subrequests.find? (fun sri => sri.batch == batch && sri.phase == .undecided) with
    | none => w
    | some sri => w.setPhase sri.copy (w.decision sri)
  else w

/-- The update of a stored job by its batch; a failure is only logged. -/
def updateStored (sri : SubrequestInfo) : World :=
  match w.batches[sri.batch]?, w.store sri.address with
  | some b, some r =>
    match r.asyncUpdateJobOwner sri.archivedCopyNb "" b.agent (some b.kind.getNewStatus) with
    | .ok r => w.put sri.address (some r)
    | .error _ => w
  | _, _ => w

/-- The launched operation of a copy takes place. -/
def perform : World :=
  match findKey SubrequestInfo.copy copy w.subrequests with
  | none => w
  | some sri =>
    match sri.phase with
    | .updating => (w.updateStored sri).setPhase copy .updated
    | .deleting => (w.put sri.address none).setPhase copy .deleted
    | _ => w

def step : Event → World
  | .transferred address copyNb kind queue => w.transferred address copyNb kind queue
  | .pop batch address copyNb => w.pop batch address copyNb
  | .record batch => w.record batch
  | .launch batch => w.launch batch
  | .perform address copyNb => w.perform (address, copyNb)

/-! ## What is to be shown -/

/-- The statistics of the report of a copy have been recorded. -/
def Reported : Prop :=
  ∃ sri ∈ w.subrequests, sri.copy = copy ∧ w.recorded sri.batch = true

/-- The report of a batch has finished: nothing is left to decide or to perform. -/
def BatchDone (batch : Nat) : Prop :=
  w.recorded batch = true ∧ ∀ sri ∈ w.subrequests, sri.batch = batch →
    sri.phase = .updated ∨ sri.phase = .skipped ∨ sri.phase = .deleted

def ReportDone : Prop :=
  ∃ sri ∈ w.subrequests, sri.copy = copy ∧ w.BatchDone sri.batch

/-- Nothing has been transferred yet, and the copies of each request have different numbers. -/
structure Initial (w : World) : Prop where
  queued : w.queued = []
  subrequests : w.subrequests = []
  distinct : ∀ address r, w.store address = some r → (r.jobs.map (·.copynb)).Nodup
  untransferred : ∀ address r, w.store address = some r →
    ∀ j ∈ r.jobs, j.status = .toTransferForRepack

def StoredFinished : Prop :=
  ∃ r status, w.store copy.1 = some r ∧ r.statusOf copy.2 = some status ∧ Finished status

/-- A copy is popped when the copies of its request that other batches hold have been updated,
and no other request of the batch is about the same file. -/
def PoppedAlone : Event → Prop
  | .pop batch address _ => ∀ sri ∈ w.subrequests,
      (sri.address = address → sri.batch ≠ batch → w.StoredFinished sri.copy)
        ∧ (sri.batch = batch → ∀ r ∈ w.store address,
          sri.archiveFileID = r.archivefileid → sri.address = address)
  | _ => True

instance (w : World) (copy : String × UInt32) : Decidable (w.StoredFinished copy) :=
  decidable_of_iff
    (∃ status ∈ (w.store copy.1).bind (fun r => r.statusOf copy.2), Finished status) (by
      simp only [StoredFinished, Option.mem_def, Option.bind_eq_some_iff]
      constructor
      · rintro ⟨status, ⟨r, hr, hs⟩, hfin⟩
        exact ⟨r, status, hr, hs, hfin⟩
      · rintro ⟨r, status, hr, hs, hfin⟩
        exact ⟨status, ⟨r, hr, hs⟩, hfin⟩)

instance (w : World) : (e : Event) → Decidable (w.PoppedAlone e)
  | .pop _ _ _ => inferInstanceAs (Decidable (∀ sri ∈ w.subrequests, _))
  | .transferred _ _ _ _ | .record _ | .launch _ | .perform _ _ =>
      isTrue trivial

/-! ## The invariant -/

def copies (address : String) : List UInt32 :=
  ((w.store address).map (fun r => r.jobs.map (·.copynb))).getD []

/-- A popped copy that is not just waiting for its batch to decide. -/
def Decided : Prop :=
  ∃ sri ∈ w.subrequests, sri.copy = copy ∧ sri.phase ≠ .undecided

/-- The update of a copy has at least been launched. -/
def Updated : Prop :=
  ∃ sri ∈ w.subrequests, sri.copy = copy ∧ sri.isUpdater = true

/-- The request is gone or going, or a copy is still to be popped or decided about. -/
def Pending (w₀ w : World) (address : String) : Prop :=
  w.store address = none
    ∨ (∃ sri ∈ w.subrequests, sri.address = address ∧ sri.phase = .deleting)
    ∨ (∃ c ∈ w₀.copies address, (address, c) ∉ w.subrequests.map SubrequestInfo.copy)
    ∨ (∃ sri ∈ w.subrequests, sri.address = address ∧ sri.phase = .undecided)

/-- What holds after every event of a run from `w₀`. -/
structure Inv (w₀ w : World) : Prop where
  /-- A copy is in one place: in a queue once, or in one batch once. -/
  distinct : (w.subrequests.map SubrequestInfo.copy ++ w.queued.map QueuedJob.copy).Nodup
  /-- The copies that were queued have left their transfer. -/
  left : ∀ copy ∈ w.subrequests.map SubrequestInfo.copy ++ w.queued.map QueuedJob.copy,
    ∀ r, w.store copy.1 = some r → r.statusOf copy.2 ≠ some .toTransferForRepack
  /-- The stored requests keep their copies and files. -/
  kept : ∀ address r, w.store address = some r → ∃ r₀, w₀.store address = some r₀
    ∧ r.jobs.map (·.copynb) = r₀.jobs.map (·.copynb) ∧ r.archivefileid = r₀.archivefileid
  /-- A popped copy knows the file and the copies of its request. -/
  captured : ∀ sri ∈ w.subrequests, ∃ r₀, w₀.store sri.address = some r₀
    ∧ sri.archiveFileID = r₀.archivefileid ∧ sri.archivedCopyNb ∈ w₀.copies sri.address
    ∧ ∀ c, c ∈ w₀.copies sri.address ↔ sri.archiveJobsStatusMap[c]?.isSome = true
  /-- Nothing is decided before the report is recorded. -/
  begun : ∀ sri ∈ w.subrequests, sri.phase ≠ .undecided → w.recorded sri.batch = true
  /-- Only updates finish a copy ... -/
  finished : ∀ copy, w.StoredFinished copy → w.Updated copy
  /-- ... also one that was seen finished. -/
  seen : ∀ sri ∈ w.subrequests, ∀ c status, sri.archiveJobsStatusMap[c]? = some status →
    Finished status → w.Updated (sri.address, c)
  /-- In a batch, a file stands for one request. -/
  files : ∀ sri ∈ w.subrequests, ∀ sri' ∈ w.subrequests, sri.batch = sri'.batch →
    sri.archiveFileID = sri'.archiveFileID → sri.address = sri'.address
  /-- The copies that an undecided one saw unfinished are in no other batch. -/
  together : ∀ sri ∈ w.subrequests, sri.phase = .undecided → ∀ c status,
    sri.archiveJobsStatusMap[c]? = some status → ¬ Finished status → c ≠ sri.archivedCopyNb →
    ∀ sri' ∈ w.subrequests, sri'.copy = (sri.address, c) → sri'.batch = sri.batch
  gone : ∀ sri ∈ w.subrequests, sri.phase = .skipped ∨ sri.phase = .deleted →
    w.store sri.address = none
  /-- A request is only deleted after its copies were decided about. -/
  decided : ∀ address, w.store address = none
      ∨ (∃ sri ∈ w.subrequests, sri.address = address ∧ sri.phase = .deleting) →
    ∀ c ∈ w₀.copies address, w.Decided (address, c)
  pending : ∀ address, w₀.copies address ≠ [] → Pending w₀ w address

/-- The first state. -/
theorem Initial.inv {w : World} (h : w.Initial) : Inv w w where
  distinct := by simp [h.queued, h.subrequests]
  left := by simp [h.queued, h.subrequests]
  kept := fun address r hr => ⟨r, hr, rfl, rfl⟩
  captured := by simp [h.subrequests]
  begun := by simp [h.subrequests]
  finished := by
    rintro copy ⟨r, status, hr, hs, hf⟩
    obtain ⟨j, hj, rfl⟩ := Option.map_eq_some_iff.mp hs
    have hss := h.untransferred _ r hr j (mem_of_findKey hj)
    rcases hf with hf | hf <;> rw [hss] at hf <;> cases hf
  seen := by simp [h.subrequests]
  files := by simp [h.subrequests]
  together := by simp [h.subrequests]
  gone := by simp [h.subrequests]
  decided := by
    intro address hn c hc
    rcases hn with hn | ⟨sri, hsr, _⟩
    · simp [copies, hn] at hc
    · simp [h.subrequests] at hsr
  pending := by
    intro address hne
    obtain ⟨c, hc⟩ := exists_mem_of_ne_nil _ hne
    exact .inr (.inr (.inl ⟨c, hc, by simp [h.subrequests]⟩))

/-! ## The parts of the steps -/

section Parts

variable {w₀ w : World} (h : Inv w₀ w)
include h

theorem Inv.copy_inj {sri sri' : SubrequestInfo} (hs : sri ∈ w.subrequests)
    (hs' : sri' ∈ w.subrequests) (heq : sri.copy = sri'.copy) : sri = sri' := by
  have hnd := (nodup_append.mp h.distinct).1
  exact Option.some.inj ((findKey_of_mem hnd hs).symm.trans (heq ▸ findKey_of_mem hnd hs'))

variable {address : String} {r : ArchiveRequest}

theorem Inv.copies_eq (hr : w.store address = some r) :
    w₀.copies address = r.jobs.map (·.copynb) := by
  obtain ⟨r0, hr0, hj, _⟩ := h.kept address r hr
  simp [copies, hr0, hj]

/-- A stored request is overwritten: every status stays, or becomes one outside the transfer
that is finished only for a copy that is updated. -/
theorem Inv.put {r r' : ArchiveRequest} (hr : w.store address = some r)
    (hj : r'.jobs.map (·.copynb) = r.jobs.map (·.copynb)) (hf : r'.archivefileid = r.archivefileid)
    (hss : ∀ c status, r'.statusOf c = some status → r.statusOf c = some status
      ∨ status ≠ .toTransferForRepack ∧ (Finished status → w.Updated (address, c))) :
    Inv w₀ (w.put address (some r')) := by
  have hs : ∀ {a : String} {r1 : ArchiveRequest},
      (w.put address (some r')).store a = some r1 → a = address ∧ r1 = r' ∨ w.store a = some r1 := by
    intro a r1 hr1
    by_cases ha : a = address
    · exact .inl ⟨ha, by simpa [World.put, ha, eq_comm] using hr1⟩
    · exact .inr (by simpa [World.put, ha] using hr1)
  have hn : ∀ {a : String}, (w.put address (some r')).store a = none ↔ w.store a = none := by
    intro a
    by_cases ha : a = address <;> simp [World.put, ha, hr]
  exact { h with
    left := by
      intro copy hc r1 hr1 hs1
      rcases hs hr1 with ⟨ha, rfl⟩ | hr1
      · rcases hss _ _ hs1 with heq | ⟨hne, _⟩
        · exact h.left copy hc r (ha ▸ hr) heq
        · exact hne rfl
      · exact h.left copy hc r1 hr1 hs1
    kept := by
      intro a r1 hr1
      rcases hs hr1 with ⟨rfl, rfl⟩ | hr1
      · rw [hj, hf]
        exact h.kept a r hr
      · exact h.kept a r1 hr1
    finished := by
      rintro ⟨a, c⟩ ⟨r1, status, hr1, hs1, hfi⟩
      rcases hs hr1 with ⟨rfl, rfl⟩ | hr1
      · rcases hss _ _ hs1 with heq | ⟨_, hup⟩
        · exact h.finished (a, c) ⟨r, status, hr, heq, hfi⟩
        · exact hup hfi
      · exact h.finished (a, c) ⟨r1, status, hr1, hs1, hfi⟩
    gone := fun sri hsr hp => hn.mpr (h.gone sri hsr hp)
    decided := fun a hor => h.decided a (hor.imp_left hn.mp)
    pending := fun a hne => (h.pending a hne).imp_left hn.mpr }

variable {sri : SubrequestInfo}

/-- A request is deleted by the copy that launched the deletion. -/
theorem Inv.delete (hsri : sri ∈ w.subrequests) (hph : sri.phase = .deleting) :
    Inv w₀ (w.put sri.address none) := by
  have hsr : ∀ {a : String} {r : ArchiveRequest},
      (w.put sri.address none).store a = some r → w.store a = some r := by
    intro a r hr
    by_cases ha : a = sri.address
    · simp [World.put, ha] at hr
    · simpa [World.put, ha] using hr
  have hno : ∀ {a : String}, w.store a = none → (w.put sri.address none).store a = none := by
    intro a ha
    by_cases hx : a = sri.address
    · simp [World.put, hx]
    · simpa [World.put, hx] using ha
  exact { h with
    left := fun copy hc r hr => h.left copy hc r (hsr hr)
    kept := fun a r hr => h.kept a r (hsr hr)
    finished := fun copy ⟨r, s, hr, hs, hfin⟩ => h.finished copy ⟨r, s, hsr hr, hs, hfin⟩
    gone := fun s hs hp => hno (h.gone s hs hp)
    decided := by
      intro a hor
      refine h.decided a ?_
      by_cases ha : a = sri.address
      · exact .inr ⟨sri, hsri, ha.symm, hph⟩
      · exact hor.imp_left (fun hn => by simpa [World.put, ha] using hn)
    pending := fun a hne => (h.pending a hne).imp_left hno }

/-- A pointer is added to a queue. -/
theorem Inv.enqueue {q : QueuedJob}
    (hq : q.copy ∉ w.subrequests.map SubrequestInfo.copy ++ w.queued.map QueuedJob.copy)
    (hl : ∀ r, w.store q.address = some r → r.statusOf q.copyNb ≠ some .toTransferForRepack) :
    Inv w₀ { w with queued := w.queued ++ [q] } where
  __ := h
  distinct := by
    rw [map_append, ← append_assoc, map_singleton]
    exact concat_eq_append ▸ h.distinct.concat hq
  left := by
    intro copy hc
    rw [map_append, ← append_assoc] at hc
    rcases mem_concat_iff.mp hc with hc | rfl
    · exact h.left copy hc
    · exact hl

/-- A pointer is removed from a queue. -/
theorem Inv.dequeue (q : QueuedJob) : Inv w₀ { w with queued := w.queued.erase q } where
  __ := h
  distinct := by
    refine h.distinct.sublist (List.Sublist.append_left ?_ _)
    exact erase_sublist.map _
  left := by
    intro copy hco
    refine h.left copy ?_
    rw [mem_append] at hco ⊢
    exact hco.imp_right (fun hc => (erase_sublist.map _).subset hc)

/-- `recordReport`. -/
theorem Inv.record (batch : Nat) : Inv w₀ (w.record batch) where
  __ := h
  begun := by
    intro sri hs hp
    have hr := h.begun sri hs hp
    unfold World.recorded World.record at *
    rw [List.getElem?_modify]
    cases hb : w.batches[sri.batch]? with
    | none => simp [hb] at hr
    | some b =>
      by_cases hi : batch = sri.batch
      · simp [hi]
      · simpa [hi, hb] using hr

/-- A copy is popped into a batch. -/
theorem Inv.append {batch : Nat} {c : UInt32}
    (hr : w.store address = some r) (hnd : (r.jobs.map (·.copynb)).Nodup)
    (hc : c ∈ r.jobs.map (·.copynb))
    (hnew : (address, c) ∉ w.subrequests.map SubrequestInfo.copy ++ w.queued.map QueuedJob.copy)
    (hl : r.statusOf c ≠ some .toTransferForRepack)
    (ho : ∀ sri ∈ w.subrequests, sri.address = address → sri.batch ≠ batch →
      w.StoredFinished sri.copy)
    (hf : ∀ sri ∈ w.subrequests, sri.batch = batch → sri.archiveFileID = r.archivefileid →
      sri.address = address) :
    Inv w₀ { w with subrequests := w.subrequests ++
      [⟨batch, address, r.archivefileid, c, r.getJobsStatusMap, .undecided⟩] } := by
  have hca := ArchiveRequest.getElem?_getJobsStatusMap hnd
  have hm : ∀ {copy : String × UInt32}, w.Updated copy → World.Updated { w with
      subrequests := w.subrequests ++
        [⟨batch, address, r.archivefileid, c, r.getJobsStatusMap, .undecided⟩] } copy :=
    fun ⟨sri, hsr, hco, hup⟩ => ⟨sri, mem_append_left _ hsr, hco, hup⟩
  have hcs := h.copies_eq hr
  constructor
  case distinct =>
    refine (List.Perm.nodup_iff ?_).mpr (concat_eq_append ▸ h.distinct.concat hnew)
    rw [map_append, append_assoc, append_assoc]
    exact List.Perm.append_left _ perm_append_comm
  case left =>
    intro copy hco r1 hr1
    rw [map_append, append_assoc, mem_append, mem_append] at hco
    rcases hco with hco | hco | hco
    · exact h.left copy (mem_append_left _ hco) r1 hr1
    · obtain rfl : copy = (address, c) := by simpa [SubrequestInfo.copy] using hco
      obtain rfl := Option.some.inj (hr.symm.trans hr1)
      exact hl
    · exact h.left copy (mem_append_right _ hco) r1 hr1
  case kept => exact h.kept
  case captured =>
    intro sri hsr
    rcases mem_concat_iff.mp hsr with hsr | rfl
    · exact h.captured sri hsr
    obtain ⟨r0, hr0, _, hid⟩ := h.kept address r hr
    refine ⟨r0, hr0, hid, hcs ▸ hc, fun c' => ?_⟩
    rw [hcs, hca c']
    simp [ArchiveRequest.statusOf, ArchiveRequest.findJob, findKey]
  case begun =>
    intro sri hsr hp
    rcases mem_concat_iff.mp hsr with hsr | rfl
    · exact h.begun sri hsr hp
    · exact absurd rfl hp
  case finished => exact fun copy hfi => hm (h.finished copy hfi)
  case seen =>
    intro sri hsr c' status hss hfi
    rcases mem_concat_iff.mp hsr with hsr | rfl
    · exact hm (h.seen sri hsr c' status hss hfi)
    · -- seen finished now means stored finished now
      exact hm (h.finished (address, c') ⟨r, status, hr, (hca c').symm.trans hss, hfi⟩)
  case files =>
    intro sri hsr sri' hs' hba hid
    rcases mem_concat_iff.mp hsr with hsr | rfl <;>
      rcases mem_concat_iff.mp hs' with hs' | rfl
    · exact h.files sri hsr sri' hs' hba hid
    · exact hf sri hsr hba hid
    · exact (hf sri' hs' hba.symm hid.symm).symm
    · rfl
  case together =>
    intro sri hsr hp c' status hss hu hc' sri' hs' hco'
    rcases mem_concat_iff.mp hsr with hsr | rfl <;>
      rcases mem_concat_iff.mp hs' with hs' | rfl
    · exact h.together sri hsr hp c' status hss hu hc' sri' hs' hco'
    · -- the new copy would leave `sri`, which is not updated yet, in another batch
      by_contra hba
      have har : sri.address = address := (Prod.mk.inj hco').1.symm
      obtain ⟨s, hs, hsc, hsu⟩ := h.finished sri.copy (ho sri hsr har (fun hb => hba hb.symm))
      rw [h.copy_inj hs hsr hsc] at hsu
      simp [SubrequestInfo.isUpdater, hp] at hsu
    · -- the copies in other batches were seen finished
      by_contra hba
      obtain ⟨ha, hc⟩ := Prod.mk.inj hco'
      obtain ⟨r1, status1, hr1, hs1, hfi⟩ := ho sri' hs' ha hba
      rw [hco'] at hr1 hs1
      obtain rfl := Option.some.inj (hr.symm.trans hr1)
      obtain rfl := Option.some.inj (hs1.symm.trans ((hca c').symm.trans hss))
      exact hu hfi
    · rfl
  case gone =>
    intro sri hsr hp
    rcases mem_concat_iff.mp hsr with hsr | rfl
    · exact h.gone sri hsr hp
    · rcases hp with hp | hp <;> cases hp
  case decided =>
    intro a hor c' hc'
    have ho' : w.store a = none
        ∨ ∃ sri ∈ w.subrequests, sri.address = a ∧ sri.phase = .deleting := by
      refine hor.imp_right ?_
      rintro ⟨sri, hsr, ha, hp⟩
      rcases mem_concat_iff.mp hsr with hsr | rfl
      · exact ⟨sri, hsr, ha, hp⟩
      · cases hp
    obtain ⟨sri, hsr, hco, hp⟩ := h.decided a ho' c' hc'
    exact ⟨sri, mem_append_left _ hsr, hco, hp⟩
  case pending =>
    intro a hne
    by_cases ha : a = address
    · -- the new copy is still to be decided about
      exact .inr (.inr (.inr ⟨_, mem_append_right _ (mem_singleton_self _), ha.symm, rfl⟩))
    rcases h.pending a hne with hn | ⟨sri, hsr, hx⟩ | ⟨c', hc', hx⟩ | ⟨sri, hsr, hx⟩
    · exact .inl hn
    · exact .inr (.inl ⟨sri, mem_append_left _ hsr, hx⟩)
    · refine .inr (.inr (.inl ⟨c', hc', ?_⟩))
      rw [map_append, mem_append, not_or]
      exact ⟨hx, by simp [SubrequestInfo.copy, ha]⟩
    · exact .inr (.inr (.inr ⟨sri, mem_append_left _ hsr, hx⟩))

omit h in
@[simp] theorem setPhase_copies (copy : String × UInt32) (phase : Phase) :
    (w.setPhase copy phase).subrequests.map SubrequestInfo.copy
      = w.subrequests.map SubrequestInfo.copy :=
  updateKey_keys (fun _ => by rfl) w.subrequests

variable {phase : Phase}

theorem Inv.mem_setPhase (hsr : sri ∈ w.subrequests) {s : SubrequestInfo} :
    s ∈ (w.setPhase sri.copy phase).subrequests
      ↔ (s ∈ w.subrequests ∧ s.copy ≠ sri.copy) ∨ s = { sri with phase := phase } := by
  have hnd := (nodup_append.mp h.distinct).1
  unfold setPhase
  rw [mem_updateKey hnd]
  refine or_congr_right ⟨?_, fun hs => ⟨sri, hsr, rfl, hs⟩⟩
  rintro ⟨s0, hs0, hc, rfl⟩
  rw [h.copy_inj hs0 hsr hc]

theorem Inv.setPhase (hsr : sri ∈ w.subrequests)
    (hr : w.recorded sri.batch = true) (hne : phase ≠ .undecided)
    (hup : sri.isUpdater = true → phase = .updated)
    (hg : phase = .skipped ∨ phase = .deleted → w.store sri.address = none)
    (hde : phase = .deleting → ∀ c ∈ w₀.copies sri.address,
      (sri.address, c) = sri.copy ∨ w.Decided (sri.address, c))
    (hpe : w₀.copies sri.address ≠ [] → Pending w₀ (w.setPhase sri.copy phase) sri.address) :
    Inv w₀ (w.setPhase sri.copy phase) := by
  have hse : { sri with phase := phase } ∈ (w.setPhase sri.copy phase).subrequests :=
    (h.mem_setPhase hsr).mpr (.inr rfl)
  have hk : ∀ {s : SubrequestInfo}, s ∈ w.subrequests → s.copy ≠ sri.copy →
      s ∈ (w.setPhase sri.copy phase).subrequests :=
    fun hs hco => (h.mem_setPhase hsr).mpr (.inl ⟨hs, hco⟩)
  have hud : ∀ {copy : String × UInt32}, w.Updated copy →
      (w.setPhase sri.copy phase).Updated copy := by
    rintro copy ⟨s, hs, hco, hsu⟩
    by_cases heq : s.copy = sri.copy
    · rw [h.copy_inj hs hsr heq] at hco hsu
      exact ⟨_, hse, hco, by simp [SubrequestInfo.isUpdater, hup hsu]⟩
    · exact ⟨s, hk hs heq, hco, hsu⟩
  have hd : ∀ {copy : String × UInt32}, copy = sri.copy ∨ w.Decided copy →
      (w.setPhase sri.copy phase).Decided copy := by
    rintro copy (rfl | ⟨s, hs, hco, hsp⟩)
    · exact ⟨_, hse, rfl, hne⟩
    by_cases heq : s.copy = sri.copy
    · exact ⟨_, hse, heq.symm.trans hco, hne⟩
    · exact ⟨s, hk hs heq, hco, hsp⟩
  -- every entry comes from one that differs in the phase at most
  have ho : ∀ {s : SubrequestInfo}, s ∈ (w.setPhase sri.copy phase).subrequests →
      ∃ s0 ∈ w.subrequests, ∃ ph, s = { s0 with phase := ph }
        ∧ (ph = s0.phase ∨ ph = phase ∧ s0 = sri) := by
    intro s hs
    rcases (h.mem_setPhase hsr).mp hs with ⟨hs, _⟩ | rfl
    · exact ⟨s, hs, _, rfl, .inl rfl⟩
    · exact ⟨sri, hsr, _, rfl, .inr ⟨rfl, rfl⟩⟩
  constructor
  case distinct =>
    rw [setPhase_copies]
    exact h.distinct
  case left =>
    rw [setPhase_copies]
    exact h.left
  case kept => exact h.kept
  case captured =>
    intro s hs
    obtain ⟨s0, hs0, ph, rfl, -⟩ := ho hs
    exact h.captured s0 hs0
  case begun =>
    intro s hs hph
    obtain ⟨s0, hs0, ph, rfl, rfl | ⟨-, rfl⟩⟩ := ho hs
    · exact h.begun s0 hs0 hph
    · exact hr
  case finished => exact fun copy hf => hud (h.finished copy hf)
  case seen =>
    intro s hs c status hss hf
    obtain ⟨s0, hs0, ph, rfl, -⟩ := ho hs
    exact hud (h.seen s0 hs0 c status hss hf)
  case files =>
    intro s hs s' hs' hb hid
    obtain ⟨s0, hs0, ph, rfl, -⟩ := ho hs
    obtain ⟨s1, hs1, ph', rfl, -⟩ := ho hs'
    exact h.files s0 hs0 s1 hs1 hb hid
  case together =>
    intro s hs hph c status hss hu hc s' hs' hc'
    obtain ⟨s0, hs0, ph, rfl, rfl | ⟨hp, -⟩⟩ := ho hs
    · obtain ⟨s1, hs1, ph', rfl, -⟩ := ho hs'
      exact h.together s0 hs0 hph c status hss hu hc s1 hs1 hc'
    · exact absurd (hp.symm.trans hph) hne
  case gone =>
    intro s hs hph
    obtain ⟨s0, hs0, ph, rfl, rfl | ⟨hp, rfl⟩⟩ := ho hs
    · exact h.gone s0 hs0 hph
    · exact hg (hp ▸ hph)
  case decided =>
    intro a hor c hc
    rcases hor with hn | ⟨s, hs, ha, hph⟩
    · exact hd (.inr (h.decided a (.inl hn) c hc))
    obtain ⟨s0, hs0, ph, rfl, rfl | ⟨hp, rfl⟩⟩ := ho hs
    · exact hd (.inr (h.decided a (.inr ⟨s0, hs0, ha, hph⟩) c hc))
    · subst ha
      exact hd (hde (hp.symm.trans hph) c hc)
  case pending =>
    intro a hcs
    by_cases ha : a = sri.address
    · rw [ha] at hcs ⊢
      exact hpe hcs
    have hk' : ∀ {s : SubrequestInfo}, s ∈ w.subrequests → s.address = a →
        s ∈ (w.setPhase sri.copy phase).subrequests := by
      intro s hs hsa
      refine hk hs (fun hco => ha ?_)
      rw [← hsa]
      exact (Prod.mk.inj hco).1
    rcases h.pending a hcs with hn | ⟨s, hs, hx⟩ | ⟨c, hc, hx⟩ | ⟨s, hs, hx⟩
    · exact .inl hn
    · exact .inr (.inl ⟨s, hk' hs hx.1, hx⟩)
    · refine .inr (.inr (.inl ⟨c, hc, ?_⟩))
      rw [setPhase_copies]
      exact hx
    · exact .inr (.inr (.inr ⟨s, hk' hs hx.1, hx⟩))

end Parts

/-! ## The steps -/

section Steps

variable {w₀ w : World}

@[simp] theorem put_store_same (w : World) (address : String) (r : Option ArchiveRequest) :
    (w.put address r).store address = r := by
  simp [World.put]

theorem Inv.transferred (h : Inv w₀ w) (address : String) (c : UInt32) (kind : ReportKind)
    (queue : String) : Inv w₀ (w.transferred address c kind queue) := by
  unfold World.transferred
  split
  · exact h
  next r hr =>
  split
  · next hss =>
    have hnew : (address, c)
        ∉ w.subrequests.map SubrequestInfo.copy ++ w.queued.map QueuedJob.copy :=
      fun hm => h.left _ hm r hr hss
    have hk : kind.toReport ≠ .toTransferForRepack ∧ ¬ Finished kind.toReport := by
      cases kind <;> decide
    have hp : ∀ c', (r.updateJob c (fun j =>
        { j with owner := queue, status := kind.toReport })).statusOf c'
        = if c' = c then some kind.toReport else r.statusOf c' := by
      intro c'
      unfold ArchiveRequest.statusOf at hss ⊢
      rw [ArchiveRequest.findJob_updateJob (fun _ => by rfl)]
      obtain ⟨j, hj, _⟩ := Option.map_eq_some_iff.mp hss
      split
      · rw [hj]
        rfl
      · rfl
    refine Inv.enqueue (h.put hr (ArchiveRequest.updateJob_copynbs fun _ => by rfl) rfl ?_)
      hnew ?_
    · intro c' status hs
      rw [hp c'] at hs
      split at hs
      · rw [← Option.some.inj hs]
        exact .inr ⟨hk.1, fun hf => absurd hf hk.2⟩
      · exact .inl hs
    · intro r1 hr1
      rw [← Option.some.inj ((put_store_same w address _).symm.trans hr1), hp c, if_pos rfl]
      exact fun heq => hk.1 (Option.some.inj heq)
  · exact h

theorem Inv.not_mem_of_queued (h : Inv w₀ w) {q : QueuedJob} (hq : q ∈ w.queued) :
    q.copy ∉ w.subrequests.map SubrequestInfo.copy ++ (w.queued.erase q).map QueuedJob.copy := by
  have hp : (w.subrequests.map SubrequestInfo.copy ++ w.queued.map QueuedJob.copy).Perm
      (q.copy :: (w.subrequests.map SubrequestInfo.copy
        ++ (w.queued.erase q).map QueuedJob.copy)) := by
    refine ((perm_cons_erase hq).map QueuedJob.copy).append_left _ |>.trans ?_
    exact perm_middle
  exact (nodup_cons.mp (hp.nodup_iff.mp h.distinct)).1

variable {address : String}

theorem Inv.pop (h : Inv w₀ w) (hw₀ : w₀.Initial) {batch : Nat} {c : UInt32}
    (ha : w.PoppedAlone (.pop batch address c)) : Inv w₀ (w.pop batch address c) := by
  unfold World.pop
  split
  · exact h
  next b hb =>
  split
  · exact h
  next hg =>
  have hq : (⟨b.queue, address, c⟩ : QueuedJob) ∈ w.queued := by
    by_contra hq
    exact hg (.inr hq)
  have hd := h.dequeue ⟨b.queue, address, c⟩
  dsimp only
  split
  · exact hd
  next r hr =>
  split
  · exact hd
  next r' ho =>
  obtain ⟨hj, hf, hss⟩ := ArchiveRequest.asyncUpdateJobOwner_ok ho
  -- only the owner changed
  have hsa : ∀ c', r'.statusOf c' = r.statusOf c' := by
    intro c'
    rw [hss c']
    split
    · next hc =>
      rw [hc]
      cases r.statusOf c <;> rfl
    · rfl
  have hp := hd.put hr hj hf (fun c' s hs => .inl ((hsa c').symm.trans hs))
  obtain ⟨r0, hr0, hnb, _⟩ := h.kept address r hr
  have hm := ArchiveRequest.mem_of_asyncUpdateJobOwner ho
  refine hp.append (put_store_same _ address _) ?_ (hj ▸ hm) (h.not_mem_of_queued hq) ?_ ?_ ?_
  · rw [hj, hnb]
    exact hw₀.distinct address r0 hr0
  · rw [hsa c]
    exact h.left (address, c) (mem_append_right _ (mem_map.mpr ⟨_, hq, rfl⟩)) r hr
  · intro sri hsr har hba
    obtain ⟨r1, status, hr1, hs, hfi⟩ := (ha sri hsr).1 har hba
    subst har
    obtain rfl := Option.some.inj (hr.symm.trans hr1)
    exact ⟨r', status, put_store_same _ _ _, (hsa _).trans hs, hfi⟩
  · intro sri hsr hba hid
    exact (ha sri hsr).2 hba r hr (hid.trans hf)

variable {sri : SubrequestInfo}

/-- Nothing more to do: each sibling was seen finished, or is updated by this batch. -/
theorem updater_of_moreJobsToDo_eq_false
    (hm : w.moreJobsToDo sri = false) {c : UInt32} {status : ArchiveJobStatus}
    (hc : sri.archiveJobsStatusMap[c]? = some status) (hne : c ≠ sri.archivedCopyNb)
    (hu : ¬ Finished status) :
    ∃ jou ∈ w.subrequests, jou.batch = sri.batch ∧ jou.isUpdater = true
      ∧ jou.archiveFileID = sri.archiveFileID ∧ jou.archivedCopyNb = c := by
  unfold moreJobsToDo at hm
  rw [any_eq_false] at hm
  have := hm (c, status) (Std.TreeMap.mem_toList_iff_getElem?_eq_some.mpr hc)
  simpa [hne, hu, and_assoc] using this

theorem sibling_of_moreJobsToDo (hm : w.moreJobsToDo sri = true) :
    ∃ c status, sri.archiveJobsStatusMap[c]? = some status ∧ c ≠ sri.archivedCopyNb
      ∧ ¬ Finished status ∧ ∀ jou ∈ w.subrequests, jou.batch = sri.batch → jou.isUpdater = true →
        jou.archiveFileID = sri.archiveFileID → jou.archivedCopyNb ≠ c := by
  unfold moreJobsToDo at hm
  rw [any_eq_true] at hm
  obtain ⟨⟨c, status⟩, hme, hc⟩ := hm
  refine ⟨c, status, Std.TreeMap.mem_toList_iff_getElem?_eq_some.mp hme, ?_⟩
  simpa [and_assoc] using hc

/-- Two popped copies of a request have the same file. -/
theorem Inv.archiveFileID_eq (h : Inv w₀ w) {sri sri' : SubrequestInfo}
    (hs : sri ∈ w.subrequests) (hs' : sri' ∈ w.subrequests)
    (ha : sri.address = sri'.address) : sri.archiveFileID = sri'.archiveFileID := by
  obtain ⟨r0, hr0, hid, _⟩ := h.captured sri hs
  obtain ⟨r1, hr1, hi', _⟩ := h.captured sri' hs'
  rw [ha, hr1] at hr0
  rw [hid, hi', Option.some.inj hr0]

/-- The decision about a copy does not leave the request behind: a missing sibling has not been popped,
or it is in the same batch and not decided yet. -/
theorem Inv.pending_launch (h : Inv w₀ w) (hsri : sri ∈ w.subrequests)
    (hp : sri.phase = .undecided) :
    Pending w₀ (w.setPhase sri.copy (w.decision sri)) sri.address := by
  have hse : { sri with phase := w.decision sri }
      ∈ (w.setPhase sri.copy (w.decision sri)).subrequests :=
    (h.mem_setPhase hsri).mpr (.inr rfl)
  by_cases hm : w.moreJobsToDo sri = true
  · cases hsr : w.store sri.address with
    | none => exact .inl hsr
    | some r =>
      obtain ⟨c, status, hss, hne, hu, hno⟩ := sibling_of_moreJobsToDo hm
      obtain ⟨r0, _, _, _, hca⟩ := h.captured sri hsri
      have hc : c ∈ w₀.copies sri.address := (hca c).mpr (by rw [hss]; rfl)
      by_cases hpo : (sri.address, c) ∈ w.subrequests.map SubrequestInfo.copy
      · obtain ⟨s, hs, hco⟩ := mem_map.mp hpo
        obtain ⟨ha, hcn⟩ := Prod.mk.inj hco
        have hk : s ∈ (w.setPhase sri.copy (w.decision sri)).subrequests :=
          (h.mem_setPhase hsri).mpr
            (.inl ⟨hs, fun heq => hne (by rw [← hcn]; exact (Prod.mk.inj heq).2)⟩)
        have hb := h.together sri hsri hp c status hss hu hne s hs hco
        cases hsp : s.phase with
        | undecided => exact .inr (.inr (.inr ⟨s, hk, ha, hsp⟩))
        | deleting => exact .inr (.inl ⟨s, hk, ha, hsp⟩)
        | skipped | deleted =>
          have hn := h.gone s hs (by simp [hsp])
          rw [ha, hsr] at hn
          cases hn
        | updating | updated =>
          exact absurd hcn (hno s hs hb (by simp [SubrequestInfo.isUpdater, hsp])
            (h.archiveFileID_eq hs hsri ha))
      · refine .inr (.inr (.inl ⟨c, hc, ?_⟩))
        rw [setPhase_copies]
        exact hpo
  · exact .inr (.inl ⟨_, hse, rfl, by simp [decision, hm]⟩)

theorem Inv.launch (h : Inv w₀ w) (batch : Nat) : Inv w₀ (w.launch batch) := by
  unfold World.launch
  split
  · next hr =>
    split
    · exact h
    next sri hf =>
    have hsr := mem_of_find?_eq_some hf
    obtain ⟨hba, hph⟩ : sri.batch = batch ∧ sri.phase = .undecided := by
      simpa using List.find?_some hf
    obtain ⟨r0, hr0, _, _, hca⟩ := h.captured sri hsr
    apply h.setPhase hsr
    · rw [hba]
      exact hr
    · unfold decision
      split
      · split <;> simp
      · simp
    · intro hup
      simp [SubrequestInfo.isUpdater, hph] at hup
    · unfold decision
      split
      · split
        · simp
        · next hn => exact fun _ => by simpa using hn
      · simp
    · -- a deletion is launched when every sibling was seen finished or is updated here
      intro hd c hc
      have hmo : w.moreJobsToDo sri = false := by
        unfold decision at hd
        split at hd
        · split at hd <;> cases hd
        · next hm => simpa using hm
      by_cases ho : c = sri.archivedCopyNb
      · exact .inl (by rw [ho]; rfl)
      right
      obtain ⟨status, hss⟩ := Option.isSome_iff_exists.mp ((hca c).mp hc)
      by_cases hfi : Finished status
      · obtain ⟨s, hs, hco, hup⟩ := h.seen sri hsr c status hss hfi
        exact ⟨s, hs, hco, fun hp => by simp [SubrequestInfo.isUpdater, hp] at hup⟩
      obtain ⟨jou, hj, hb, hup, hid, hcn⟩ := updater_of_moreJobsToDo_eq_false hmo hss ho hfi
      refine ⟨jou, hj, Prod.ext (h.files jou hj sri hsr hb hid) hcn, fun hp => ?_⟩
      simp [SubrequestInfo.isUpdater, hp] at hup
    · exact fun _ => h.pending_launch hsr hph
  · exact h

/-- The update of a stored job by the batch that launched it. -/
theorem Inv.updateStored (h : Inv w₀ w) (hsr : sri ∈ w.subrequests)
    (hp : sri.phase = .updating) : Inv w₀ (w.updateStored sri) := by
  unfold World.updateStored
  split
  · next b r hb hr =>
    split
    · next r' ho =>
      obtain ⟨hj, hf, hss⟩ := ArchiveRequest.asyncUpdateJobOwner_ok ho
      refine h.put hr hj hf ?_
      intro c status hs
      rw [hss c] at hs
      split at hs
      · next hc =>
        right
        obtain ⟨_, _, hnew⟩ := Option.map_eq_some_iff.mp hs
        constructor
        · rw [← hnew]
          cases b.kind <;> simp [ReportKind.getNewStatus]
        · intro _
          exact ⟨sri, hsr, by rw [hc]; rfl, by simp [SubrequestInfo.isUpdater, hp]⟩
      · exact .inl hs
    · exact h
  · exact h

theorem updateStored_subrequests (w : World) (sri : SubrequestInfo) :
    (w.updateStored sri).subrequests = w.subrequests
      ∧ (w.updateStored sri).batches = w.batches := by
  unfold updateStored
  split
  · split <;> exact ⟨rfl, rfl⟩
  · exact ⟨rfl, rfl⟩

theorem Inv.perform (h : Inv w₀ w) (copy : String × UInt32) : Inv w₀ (w.perform copy) := by
  unfold World.perform
  split
  · exact h
  next sri hf =>
  have hsr := mem_of_findKey hf
  obtain rfl : sri.copy = copy := key_of_findKey hf
  have hr : sri.phase ≠ .undecided → w.recorded sri.batch = true := h.begun sri hsr
  split
  · next hp =>
    have hup := h.updateStored hsr hp
    obtain ⟨hsu, hb⟩ := w.updateStored_subrequests sri
    have hs' : sri ∈ (w.updateStored sri).subrequests := hsu ▸ hsr
    apply hup.setPhase hs'
    · unfold World.recorded at hr ⊢
      rw [hb]
      exact hr (by simp [hp])
    · simp
    · simp
    · simp
    · simp
    · -- neither the deletion nor the missing copy that the request waits for is this one
      intro hne
      have hk : ∀ {s : SubrequestInfo}, s ∈ (w.updateStored sri).subrequests → s.phase ≠ .updating →
          s ∈ ((w.updateStored sri).setPhase sri.copy .updated).subrequests := by
        intro s hs hsp
        refine (hup.mem_setPhase hs').mpr (.inl ⟨hs, fun hco => hsp ?_⟩)
        rw [hup.copy_inj hs hs' hco]
        exact hp
      rcases hup.pending sri.address hne with hn | ⟨s, hs, hx⟩ | ⟨c, hc, hx⟩ | ⟨s, hs, hx⟩
      · exact .inl hn
      · exact .inr (.inl ⟨s, hk hs (by simp [hx.2]), hx⟩)
      · refine .inr (.inr (.inl ⟨c, hc, ?_⟩))
        rw [setPhase_copies]
        exact hx
      · exact .inr (.inr (.inr ⟨s, hk hs (by simp [hx.2]), hx⟩))
  · next hp =>
    apply (h.delete hsr hp).setPhase hsr
    · exact hr (by simp [hp])
    · simp
    · simp [SubrequestInfo.isUpdater, hp]
    · exact fun _ => put_store_same w sri.address none
    · simp
    · exact fun _ => .inl (put_store_same w sri.address none)
  · exact h

/-- **One step**: the invariant is kept by every event that meets the condition. -/
theorem Inv.step (hw₀ : w₀.Initial) (w : World) (e : Event) (h : Inv w₀ w)
    (ha : w.PoppedAlone e) : Inv w₀ (w.step e) := by
  cases e with
  | transferred address copyNb kind queue => exact h.transferred address copyNb kind queue
  | pop batch address copyNb => exact h.pop hw₀ ha
  | record batch => exact h.record batch
  | launch batch => exact h.launch batch
  | perform address copyNb => exact h.perform (address, copyNb)

theorem Inv.deleted_of_done (h : Inv w₀ w) (hne : w₀.copies address ≠ [])
    (hd : ∀ c ∈ w₀.copies address, w.ReportDone (address, c)) : w.store address = none := by
  -- an entry about this request is one of a finished batch
  have hph : ∀ s ∈ w.subrequests, s.address = address →
      s.phase = .updated ∨ s.phase = .skipped ∨ s.phase = .deleted := by
    intro s hs ha
    have hc : s.archivedCopyNb ∈ w₀.copies address := by
      obtain ⟨_, _, _, hc, _⟩ := h.captured s hs
      exact ha ▸ hc
    obtain ⟨s', hs', hco, _, hal⟩ := hd _ hc
    obtain rfl := h.copy_inj hs hs' (by rw [hco, ← ha]; rfl)
    exact hal s hs rfl
  rcases h.pending address hne with hn | ⟨s, hs, ha, hp⟩ | ⟨c, hc, hx⟩ | ⟨s, hs, ha, hp⟩
  · exact hn
  · have := hph s hs ha
    simp [hp] at this
  · obtain ⟨s, hs, hco, _⟩ := hd c hc
    exact absurd (hco ▸ mem_map_of_mem hs) hx
  · have := hph s hs ha
    simp [hp] at this

/-- A request that is gone had all its copies recorded. -/
theorem Inv.reported_of_deleted (h : Inv w₀ w) (hn : w.store address = none) :
    ∀ c ∈ w₀.copies address, w.Reported (address, c) := by
  intro c hc
  obtain ⟨sri, hs, hco, hp⟩ := h.decided address (.inl hn) c hc
  exact ⟨sri, hs, hco, h.begun sri hs hp⟩

end Steps

/-! ## Whole runs -/

/-- **A request is deleted exactly when its last copy is reported**, in every run in which its copies are
not in two batches at once. -/
theorem deleted_with_last_report (w₀ : World) (events : List Event) (hw₀ : w₀.Initial)
    (halone : Along step PoppedAlone w₀ events) (address : String) (r₀ : ArchiveRequest)
    (hr₀ : w₀.store address = some r₀) (hjobs : r₀.jobs ≠ []) :
    ((∀ j ∈ r₀.jobs, (run step w₀ events).ReportDone (address, j.copynb)) →
        (run step w₀ events).store address = none)
      ∧ ((run step w₀ events).store address = none →
        ∀ j ∈ r₀.jobs, (run step w₀ events).Reported (address, j.copynb)) := by
  have h : Inv w₀ (run step w₀ events) := run_invariant (Inv.step hw₀) hw₀.inv halone
  have hco : w₀.copies address = r₀.jobs.map (·.copynb) := by simp [copies, hr₀]
  constructor
  · intro hd
    refine h.deleted_of_done (by simpa [hco] using hjobs) ?_
    intro c hc
    rw [hco] at hc
    obtain ⟨j, hj, rfl⟩ := mem_map.mp hc
    exact hd j hj
  · intro hn j hj
    exact h.reported_of_deleted hn _ (hco ▸ mem_map_of_mem hj)

/-- A job of a repack request, owned by a tape session. -/
def sessionJob (copynb : UInt32) : ArchiveJob where
  copynb := copynb
  tapepool := "pool"
  archivequeueaddress := ""
  owner := "session"
  status := .toTransferForRepack
  totalretries := 0
  retrieswithinmount := 0
  lastmountwithfailure := 0
  maxtotalretries := 2
  maxretrieswithinmount := 2
  failurelogs := []
  maxreportretries := 2
  totalreportretries := 0
  reportfailurelogs := []

/-- One request with two copies, and two batches of successes. -/
def twoCopies : World where
  store address := if address = "request" then
      some ⟨7, [sessionJob 1, sessionJob 2], false, true, none⟩
    else none
  queued := []
  batches := [⟨"agent0", "queue", .successes, false⟩, ⟨"agent1", "queue", .successes, false⟩]
  subrequests := []

theorem twoCopies_initial : twoCopies.Initial where
  queued := rfl
  subrequests := rfl
  distinct := by
    intro address r hr
    simp only [twoCopies] at hr
    split at hr
    · rw [← Option.some.inj hr]
      decide
    · cases hr
  untransferred := by
    intro address r hr
    simp only [twoCopies] at hr
    split at hr
    · rw [← Option.some.inj hr]
      decide
    · cases hr

def bothTransferred : List Event :=
  [.transferred "request" 1 .successes "queue", .transferred "request" 2 .successes "queue"]

/-- The second copy is popped after the report of the first. -/
def oneAfterTheOther : List Event :=
  bothTransferred ++
    [.pop 0 "request" 1, .record 0, .launch 0, .perform "request" 1,
     .pop 1 "request" 2, .record 1, .launch 1, .perform "request" 2]

/-- Both copies are popped before either report. -/
def sideBySide : List Event :=
  bothTransferred ++
    [.pop 0 "request" 1, .pop 1 "request" 2, .record 0, .launch 0, .record 1, .launch 1,
     .perform "request" 1, .perform "request" 2]

/-- A state in which every popped copy is settled, to be evaluated. -/
theorem reportDone_of_settled {w : World} (hd : w.subrequests.all (fun sri => w.recorded sri.batch
      && (sri.phase == .updated || sri.phase == .skipped || sri.phase == .deleted)) = true)
    {copy : String × UInt32} (hc : copy ∈ w.subrequests.map SubrequestInfo.copy) :
    w.ReportDone copy := by
  obtain ⟨sri, hsr, rfl⟩ := mem_map.mp hc
  have ha : ∀ s ∈ w.subrequests, w.recorded s.batch = true
      ∧ ((s.phase = .updated ∨ s.phase = .skipped) ∨ s.phase = .deleted) := by
    simpa using hd
  refine ⟨sri, hsr, rfl, (ha sri hsr).1, ?_⟩
  intro s hs _
  exact or_assoc.mp (ha s hs).2

theorem deleted_after_second_report :
    (run step twoCopies oneAfterTheOther).ReportDone ("request", 1)
      ∧ (run step twoCopies oneAfterTheOther).ReportDone ("request", 2)
      ∧ (run step twoCopies oneAfterTheOther).store "request" = none := by
  have h1 : (run step twoCopies oneAfterTheOther).ReportDone ("request", 1) :=
    reportDone_of_settled (by decide +kernel) (by decide +kernel)
  have h2 : (run step twoCopies oneAfterTheOther).ReportDone ("request", 2) :=
    reportDone_of_settled (by decide +kernel) (by decide +kernel)
  refine ⟨h1, h2, ?_⟩
  refine (deleted_with_last_report twoCopies oneAfterTheOther twoCopies_initial
    (by decide +kernel) "request" _ rfl (by simp)).1 ?_
  intro j hj
  simp only [mem_cons, not_mem_nil, or_false] at hj
  rcases hj with rfl | rfl
  · exact h1
  · exact h2

/-- Each copy is updated because the other was seen unfinished, and the request stays. -/
theorem copies_in_two_batches_leave_request :
    (run step twoCopies sideBySide).ReportDone ("request", 1)
      ∧ (run step twoCopies sideBySide).ReportDone ("request", 2)
      ∧ (run step twoCopies sideBySide).store "request" ≠ none := by
  refine ⟨reportDone_of_settled (by decide +kernel) (by decide +kernel),
    reportDone_of_settled (by decide +kernel) (by decide +kernel), by decide +kernel⟩

end World

end TapeArchive.Scheduler.RepackReports
