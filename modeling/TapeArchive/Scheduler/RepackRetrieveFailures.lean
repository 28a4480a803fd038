/-
  **REPORTING FAILED RETRIEVES A SECOND TIME**
  (`OStoreDB::RepackRetrieveFailureReportBatch::report`).

  A process that dies between the commit of the repack request and the deletion of the
  subrequests leaves them to be reported again.  The deletion flags and the accounted flags
  make that harmless; the archive requests that will not be created are added again.
-/
import TapeArchive.Objectstore.RepackMarks

namespace TapeArchive.Scheduler

open Std Lib Common Objectstore
open Objectstore.RepackRequest

/-! ## The batch -/

/-- An element of `m_subrequestList` of a batch of retrieve subrequests. -/
structure RetrieveSubrequestInfo where
  archiveFile : ArchiveFile
  fSeq : UInt64
  copyNbsToRearchive : TreeSet UInt32

def failureStatistics (rr : RetrieveSubrequestInfo) : SubrequestStatistics :=
  { fSeq := rr.fSeq, files := 1, bytes := rr.archiveFile.fileSize, copyNb := 0,
    subrequestDeleted := false, hasUserProvidedFile := false, destinationVid := "" }

/-- The archive requests that the batch keeps from being created. -/
def failedToCreateArchiveReq (batch : List RetrieveSubrequestInfo) : UInt64 :=
  batch.foldl (fun n rr => rr.copyNbsToRearchive.toList.foldl (fun n _ => n + 1) n) 0

/-- `RepackRetrieveFailureReportBatch::report` under the lock of the repack request. -/
def RepackRetrieveFailureReportBatch.report (env : Surroundings)
    (batch : List RetrieveSubrequestInfo) (r : RepackRequest) :
    Except RequestExn RepackRequest := do
  let r ← r.reportSubRequestsForDeletion (batch.map (·.fSeq))
  let r := r.reportArchiveCreationFailures (failedToCreateArchiveReq batch)
  reportRetriveFailures.run env (batch.map failureStatistics) r

def statistics (r : RepackRequest) : RepackRequestStatus × List UInt64 :=
  (r.status, [r.totalfilestoretrieve, r.totalbytestoretrieve, r.totalfilestoarchive,
    r.totalbytestoarchive, r.userprovidedfiles, r.userprovidedbytes, r.retrievedfiles,
    r.retrievedbytes, r.archivedfiles, r.archivedbytes, r.failedtoretrievefiles,
    r.failedtoretrievebytes, r.failedtocreatearchivereq, r.failedtoarchivefiles,
    r.failedtoarchivebytes, r.lastexpandedfseq])

/-! ## The deletion flags -/

variable {m : PointerMap} {fSeqs : List UInt64} {r r' : RepackRequest}

theorem deleted_of_reportSubRequestsForDeletion
    (h : r.reportSubRequestsForDeletion fSeqs = .ok r') :
    ∀ f ∈ fSeqs, mapDeleted r'.readMap f = true :=
  fun f hf => ((reportSubRequestsForDeletion_ok h).1 f).mpr (.inr hf)

theorem reportSubRequestsForDeletion_of_deleted (h : ∀ f ∈ fSeqs, mapDeleted r.readMap f = true) :
    r.reportSubRequestsForDeletion fSeqs = .ok r := by
  have hl : fSeqs.foldlM markDeleted (r.readMap, false) = .ok (r.readMap, false) := by
    refine foldlM_eq_self (fun f hf => ?_)
    obtain ⟨p, hp, hd⟩ := (Option.any_eq_true _ _).mp (h f hf)
    unfold markDeleted
    rw [hp]
    simp [hd]
  unfold reportSubRequestsForDeletion
  rw [hl]
  rfl

/-! ## The accounted flags -/

variable {s : SubrequestStatistics} {k : Kind}

theorem known_of_mapFlag (h : mapFlag m (Entry.key ⟨k, s⟩) = true) : ∃ p, m[s.fSeq]? = some p := by
  cases k <;> exact ((Option.any_eq_true _ _).mp h).imp (fun _ hp => hp.1)

variable {stats : List SubrequestStatistics}

/-- A report on what is accounted already changes nothing. -/
theorem run_of_accounted (env : Surroundings)
    (h : ∀ s ∈ stats, mapFlag r.readMap (Entry.key ⟨k, s⟩) = true) :
    k.report.run env stats r = .ok r := by
  have hl : stats.foldlM (k.report.countOne env) ⟨r.readMap, r, false⟩
      = .ok ⟨r.readMap, r, false⟩ := by
    refine foldlM_eq_self (fun s hs => ?_)
    obtain ⟨p, hp⟩ := known_of_mapFlag (h s hs)
    unfold Report.countOne
    rw [hp]
    simp only [accounted_eq_mapFlag hp, h s hs]
    rfl
  unfold Report.run Report.counting
  rw [hl]
  rfl

variable {env : Surroundings}

theorem accounted_of_run (h : k.report.run env stats r = .ok r') :
    ∀ s ∈ stats, mapFlag r'.readMap (Entry.key ⟨k, s⟩) = true := by
  obtain ⟨c, -, hc, hca⟩ := run_cases h
  have hflag : mapFlag r'.readMap = mapFlag c.pointerMap := by
    rcases hca with ⟨r1, -, rfl⟩ | ⟨rfl, rfl⟩
    · rw [mapFlag_readMap (distinctFSeqs_writeMap hc.aligned r1), flag_writeMap hc.aligned]
    · rfl
  intro s hs
  rw [hflag, hc.flags]
  simp only [mark, Bool.or_eq_true, List.any_eq_true, beq_iff_eq]
  exact .inr ⟨⟨k, s⟩, List.mem_map_of_mem hs, rfl⟩

/-- One turn of `reportRetriveFailures` keeps the deletion flags. -/
theorem mapDeleted_countOne {c c' : Counting}
    (h : reportRetriveFailures.countOne env c s = .ok c') :
    mapDeleted c'.pointerMap = mapDeleted c.pointerMap := by
  obtain ⟨p, hp, ⟨-, rfl⟩ | ⟨-, payload, -, rfl⟩⟩ := countOne_cases (k := .retrieveFailure) h
  · rfl
  funext f
  refine (mapDeleted_insert ..).trans ?_
  by_cases hf : s.fSeq = f
  · subst hf
    simp [mapDeleted, hp, Kind.report, reportRetriveFailures]
  · simp [hf]

theorem deleted_of_run (h : reportRetriveFailures.run env stats r = .ok r') :
    mapDeleted r'.readMap = mapDeleted r.readMap := by
  obtain ⟨c, hc, hd⟩ := deleted_run (k := .retrieveFailure) h
  have hde : mapDeleted c.pointerMap = mapDeleted r.readMap :=
    foldlM_ok_preserves (fun c : Counting => mapDeleted c.pointerMap)
      (fun _ _ _ ho => mapDeleted_countOne ho) stats hc
  exact (funext hd).trans hde

/-! ## The second run -/

open RepackRetrieveFailureReportBatch in
/-- The second run of a batch returns, and only adds the archive requests once more. -/
theorem report_again {env env' : Surroundings} {batch : List RetrieveSubrequestInfo}
    {r r₁ : RepackRequest} (h : report env batch r = .ok r₁) :
    report env' batch r₁ = .ok (r₁.reportArchiveCreationFailures (failedToCreateArchiveReq batch))
    := by
  obtain ⟨ra, hd, hr⟩ := bind_eq_ok.mp h
  have hde : ∀ f ∈ batch.map (·.fSeq), mapDeleted r₁.readMap f = true := by
    intro f hf
    rw [deleted_of_run hr]
    exact deleted_of_reportSubRequestsForDeletion hd f hf
  have ha := accounted_of_run (k := .retrieveFailure) hr
  unfold report
  rw [reportSubRequestsForDeletion_of_deleted hde]
  -- the creation failures touch no pointer, so everything is still accounted
  exact run_of_accounted (k := .retrieveFailure) env' ha

open RepackRetrieveFailureReportBatch in
/-- **Reporting failed retrieves again** leaves the status and all counters exactly when the
batch keeps no archive request from being created. -/
theorem report_twice_iff {env env' : Surroundings} {batch : List RetrieveSubrequestInfo}
    {r r₁ : RepackRequest} (h : report env batch r = .ok r₁) :
    ∃ r₂, report env' batch r₁ = .ok r₂
      ∧ (statistics r₂ = statistics r₁ ↔ failedToCreateArchiveReq batch = 0) := by
  refine ⟨_, report_again h, ?_⟩
  constructor
  · intro hs
    simp only [statistics, reportArchiveCreationFailures, Prod.mk.injEq, List.cons.injEq,
      true_and, and_true] at hs
    exact (UInt64.add_eq_left).mp hs
  · intro hz
    rw [hz]
    simp [statistics, reportArchiveCreationFailures]

/-- One failed retrieve of a file without copies to archive again. -/
def retrieveOnly : List RetrieveSubrequestInfo := [⟨⟨7, 100, "single", []⟩, 1, ∅⟩]

/-- One failed retrieve of a file with a copy to archive again. -/
def retrieveForOneCopy : List RetrieveSubrequestInfo :=
  [⟨⟨7, 100, "single", []⟩, 1, TreeSet.ofList [(1 : UInt32)]⟩]

open RepackRetrieveFailureReportBatch in
theorem report_twice_retrieveOnly : ∃ r₁ r₂, report calm retrieveOnly onePointer = .ok r₁
      ∧ report calm retrieveOnly r₁ = .ok r₂ ∧ statistics r₂ = statistics r₁ := by
  obtain ⟨r₁, h1⟩ : ∃ r₁, report calm retrieveOnly onePointer = .ok r₁ := ⟨_, rfl⟩
  obtain ⟨r₂, h2, hi⟩ := @report_twice_iff calm calm _ _ _ h1
  exact ⟨r₁, r₂, h1, h2, hi.mpr (by decide)⟩

open RepackRetrieveFailureReportBatch in
/-- **The archive requests are counted twice.** -/
theorem archive_creation_failures_doubled :
    (report calm retrieveForOneCopy onePointer).map (·.failedtocreatearchivereq) = .ok 1
      ∧ (report calm retrieveForOneCopy onePointer >>= report calm retrieveForOneCopy).map
          (·.failedtocreatearchivereq) = .ok 2 :=
  ⟨by rfl, by rfl⟩

end TapeArchive.Scheduler
