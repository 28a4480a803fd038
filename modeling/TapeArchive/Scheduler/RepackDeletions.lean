/-
  **THE MARK BEFORE THE DELETION**
  (`OStoreDB::RepackArchiveReportBatch::prepareReport` and `report`).

      prepareReport   marked iff there is a sibling, and the one with the LOWEST
                      copy number is Complete or Failed
      report          deleted iff EVERY sibling is Complete or Failed, or is
                      updated by this batch

  A request with one copy has no sibling: it is deleted and not marked.
-/
import TapeArchive.Objectstore.RepackMarks
import TapeArchive.Scheduler.RepackReportBatches

namespace TapeArchive.Scheduler.RepackDeletions

open Std (TreeMap)
open Lib Objectstore Objectstore.RepackRequest
open Scheduler.RepackReports (Finished)

/-! ## The batch -/

/-- A copy that was archived, and the statuses of all the copies when it was popped. -/
structure ArchivedCopy where
  (archiveFileID fileSize fSeq : UInt64)
  jobsDestination : TreeMap UInt32 String
  archivedCopyNb : UInt32
  archiveJobsStatusMap : TreeMap UInt32 ArchiveJobStatus
  /-- `ar.exists()`. -/
  stored : Bool

variable (sri : ArchivedCopy)

/-- The other copies of the request, by their numbers. -/
def ArchivedCopy.siblings : List (UInt32 × ArchiveJobStatus) :=
  sri.archiveJobsStatusMap.toList.filter (fun j => j.1 != sri.archivedCopyNb)

/-- Both branches of the loop in `prepareReport` leave it at the first sibling. -/
def ArchivedCopy.subrequestDeleted : Bool :=
  match sri.siblings with
  | [] => false
  | j :: _ => Decidable.decide (Finished j.2)

/-- One turn of `prepareReport`. -/
def ArchivedCopy.statistics : SubrequestStatistics :=
  { fSeq := sri.fSeq, files := 1, bytes := sri.fileSize, copyNb := sri.archivedCopyNb,
    subrequestDeleted := sri.subrequestDeleted, hasUserProvidedFile := false,
    destinationVid := sri.jobsDestination.getD sri.archivedCopyNb "" }

def prepareReport (m_subrequestList : List ArchivedCopy) : List SubrequestStatistics :=
  m_subrequestList.map ArchivedCopy.statistics

/-- A sibling is neither finished nor in `jobOwnerUpdatersList`. -/
def moreJobsToDo (jobOwnerUpdatersList : List ArchivedCopy) (sri : ArchivedCopy) : Bool :=
  sri.siblings.any (fun j => !Decidable.decide (Finished j.2)
    && !jobOwnerUpdatersList.any (fun jou =>
      jou.archiveFileID == sri.archiveFileID && jou.archivedCopyNb == j.1))

/-- The loop over `m_subrequestList` in `report`: the copies whose requests are deleted. -/
def deletions (jobOwnerUpdatersList : List ArchivedCopy) : List ArchivedCopy → List ArchivedCopy
  | [] => []
  | sri :: rest =>
      if moreJobsToDo jobOwnerUpdatersList sri then
        deletions (if sri.stored then jobOwnerUpdatersList ++ [sri] else jobOwnerUpdatersList) rest
      else sri :: deletions jobOwnerUpdatersList rest

/-- The repack request a batch of successes commits, and the copies it deletes. -/
def report (env : Surroundings) (r : RepackRequest) (m_subrequestList : List ArchivedCopy) :
    Except RequestExn (RepackRequest × List ArchivedCopy) := do
  let r' ← reportArchiveSuccesses.run env (prepareReport m_subrequestList) r
  pure (r', deletions [] m_subrequestList)

/-! ## The mark that a report leaves -/

/-- The mark of an fSeq after some successes are accounted, one after the other. -/
def markAfter (fSeq : UInt64) (marked : Bool) (counted : List Entry) : Bool :=
  counted.foldl (fun b e => if e.stat.fSeq = fSeq then e.stat.subrequestDeleted else b) marked

variable {env : Surroundings} {c c' : Counting}

theorem countOne_mark {s : SubrequestStatistics}
    (h : Kind.archiveSuccess.report.countOne env c s = .ok c') (fSeq : UInt64) :
    mapDeleted c'.pointerMap fSeq = markAfter fSeq (mapDeleted c.pointerMap fSeq)
      (firsts Entry.key (mapFlag c.pointerMap) [⟨.archiveSuccess, s⟩]) := by
  obtain ⟨p, -, ⟨hflag, rfl⟩ | ⟨hflag, payload, -, rfl⟩⟩ := countOne_cases h
  · simp [firsts, hflag, markAfter]
  show mapDeleted (c.pointerMap.insert s.fSeq _) fSeq = _
  rw [mapDeleted_insert, account_deleted]
  simp [firsts, hflag, markAfter]

variable {stats : List SubrequestStatistics}

/-- The loop of `reportArchiveSuccesses`. -/
theorem counting_mark
    (h : stats.foldlM (Kind.archiveSuccess.report.countOne env) c = .ok c') (fSeq : UInt64) :
    mapDeleted c'.pointerMap fSeq = markAfter fSeq (mapDeleted c.pointerMap fSeq)
      (firsts Entry.key (mapFlag c.pointerMap) (stats.map (Entry.mk .archiveSuccess))) := by
  induction stats generalizing c with
  | nil =>
    cases h
    rfl
  | cons s stats ih =>
    rw [List.foldlM_cons] at h
    obtain ⟨c1, ho, hrest⟩ := bind_eq_ok.mp h
    have hc : (s :: stats).map (Entry.mk .archiveSuccess)
        = [⟨.archiveSuccess, s⟩] ++ stats.map (Entry.mk .archiveSuccess) := rfl
    rw [ih hrest, countOne_mark ho, (countOne_ok ho).flags, hc, firsts_append]
    exact (List.foldl_append ..).symm

/-- **The committed mark**: that of the last success of the fSeq that the report accounts, and the
old one if there is none. -/
theorem deleted_of_run
    {r r' : RepackRequest} (h : reportArchiveSuccesses.run env stats r = .ok r') (fSeq : UInt64) :
    r'.deleted fSeq = markAfter fSeq (r.deleted fSeq)
      (firsts Entry.key (mapFlag r.readMap) (stats.map (Entry.mk .archiveSuccess))) := by
  obtain ⟨c, hc, hd⟩ := deleted_run (k := .archiveSuccess) h
  rw [hd]
  exact counting_mark hc fSeq

/-- The mark is that of the last entry of the fSeq. -/
theorem markAfter_eq (fSeq : UInt64) (marked : Bool) (counted : List Entry) :
    markAfter fSeq marked counted
      = ((counted.reverse.find? (·.stat.fSeq = fSeq)).map (·.stat.subrequestDeleted)).getD marked := by
  induction counted using List.reverseRecOn with
  | nil => rfl
  | append_singleton counted e ih =>
    have hf : markAfter fSeq marked (counted ++ [e])
        = if e.stat.fSeq = fSeq then e.stat.subrequestDeleted else markAfter fSeq marked counted :=
      List.foldl_append ..
    rw [hf, ih, List.reverse_append, List.reverse_singleton, List.singleton_append, List.find?_cons]
    by_cases he : e.stat.fSeq = fSeq <;> simp [he]

/-! ## The mark and the deletion -/

/-- The last copy of an fSeq in a batch, of those that the repack request has not accounted. -/
def lastNewCopy (r : RepackRequest) (m_subrequestList : List ArchivedCopy) (fSeq : UInt64) :
    Option ArchivedCopy :=
  (firsts (fun sri => Key.archive sri.fSeq sri.archivedCopyNb) (mapFlag r.readMap)
    m_subrequestList).reverse.find? (·.fSeq = fSeq)

/-- The lowest sibling of the last new copy is finished, or there is none and the mark is set. -/
def MarkDue (r : RepackRequest) (m_subrequestList : List ArchivedCopy) (fSeq : UInt64) : Prop :=
  match lastNewCopy r m_subrequestList fSeq with
  | none => r.deleted fSeq = true
  | some sri => ∃ j ∈ sri.siblings.head?, Finished j.2

/-- Each sibling is finished, or is a copy of the same file that stands earlier in the batch. -/
def FinishedWith (before : List ArchivedCopy) (sri : ArchivedCopy) : Prop :=
  ∀ j ∈ sri.siblings, Finished j.2
    ∨ ∃ k ∈ before, k.stored = true ∧ k.archiveFileID = sri.archiveFileID ∧ k.archivedCopyNb = j.1

theorem subrequestDeleted_iff :
    sri.subrequestDeleted = true ↔ ∃ j ∈ sri.siblings.head?, Finished j.2 := by
  unfold ArchivedCopy.subrequestDeleted
  cases sri.siblings <;> simp

/-- The mark that a batch commits, on its copies and the flags before it. -/
theorem deleted_of_report {r r' : RepackRequest} {m_subrequestList : List ArchivedCopy}
    (h : reportArchiveSuccesses.run env (prepareReport m_subrequestList) r = .ok r')
    (fSeq : UInt64) : r'.deleted fSeq = true ↔ MarkDue r m_subrequestList fSeq := by
  have hm : (prepareReport m_subrequestList).map (Entry.mk .archiveSuccess)
      = m_subrequestList.map (fun sri => ⟨.archiveSuccess, sri.statistics⟩) := List.map_map ..
  have hn : (((firsts (fun sri : ArchivedCopy => Key.archive sri.fSeq sri.archivedCopyNb)
        (mapFlag r.readMap) m_subrequestList).map
          (fun sri => (⟨.archiveSuccess, sri.statistics⟩ : Entry))).reverse.find?
            (·.stat.fSeq = fSeq))
      = (lastNewCopy r m_subrequestList fSeq).map (fun sri => ⟨.archiveSuccess, sri.statistics⟩) := by
    rw [← List.map_reverse, List.find?_map]
    rfl
  rw [deleted_of_run h, hm, firsts_map, markAfter_eq]
  unfold MarkDue
  rw [show Entry.key ∘ _ = fun sri : ArchivedCopy => Key.archive sri.fSeq sri.archivedCopyNb from rfl, hn]
  cases lastNewCopy r m_subrequestList fSeq with
  | none => rfl
  | some sri => exact subrequestDeleted_iff sri

section Deletions

variable {seen jobOwnerUpdatersList : List ArchivedCopy} {sri : ArchivedCopy} {P : UInt64 → Prop}

/-- A copy is deleted with its siblings finished or updated. -/
theorem finishedWith_of_no_more (hupd : ∀ k ∈ jobOwnerUpdatersList, k ∈ seen ∧ k.stored = true)
    (hmore : moreJobsToDo jobOwnerUpdatersList sri ≠ true) : FinishedWith seen sri := by
  intro j hj
  by_contra hno
  rw [not_or] at hno
  refine hmore (List.any_eq_true.mpr ⟨j, hj, ?_⟩)
  simp only [Bool.and_eq_true, Bool.not_eq_true', decide_eq_false_iff_not]
  refine ⟨hno.1, List.any_eq_false.mpr fun k hk he => ?_⟩
  rw [Bool.and_eq_true, beq_iff_eq, beq_iff_eq] at he
  exact hno.2 ⟨k, (hupd k hk).1, (hupd k hk).2, he.1, he.2⟩

/-- A copy is left although its siblings are finished or stand earlier: an earlier copy of its file
is not among the updated ones. -/
theorem exists_of_more (hmore : moreJobsToDo jobOwnerUpdatersList sri = true)
    (hf : FinishedWith seen sri) :
    ∃ k ∈ seen, k.stored = true ∧ k ∉ jobOwnerUpdatersList ∧ k.archiveFileID = sri.archiveFileID := by
  obtain ⟨j, hj, hopen⟩ := List.any_eq_true.mp hmore
  simp only [Bool.and_eq_true, Bool.not_eq_true', decide_eq_false_iff_not] at hopen
  obtain hfin | ⟨k, hk, hst, hid, hnb⟩ := hf j hj
  · exact absurd hfin hopen.1
  · refine ⟨k, hk, hst, fun hu => ?_, hid⟩
    have hany := List.any_eq_false.mp hopen.2 k hu
    simp [hid, hnb] at hany

/-- `P` holds of the deleted copies exactly if it holds of all those whose siblings are finished
or stand earlier: in place of such a copy an earlier one of its file is deleted. -/
theorem deletions_forall_iff {rest : List ArchivedCopy}
    (hone : ∀ k ∈ seen ++ rest, ∀ sri ∈ seen ++ rest,
      k.archiveFileID = sri.archiveFileID → k.fSeq = sri.fSeq)
    (hupd : ∀ k ∈ jobOwnerUpdatersList, k ∈ seen ∧ k.stored = true)
    (hdel : ∀ k ∈ seen, k.stored = true → k ∈ jobOwnerUpdatersList ∨ P k.fSeq) :
    (∀ sri ∈ deletions jobOwnerUpdatersList rest, P sri.fSeq)
      ↔ ∀ before sri after, rest = before ++ sri :: after → FinishedWith (seen ++ before) sri
        → P sri.fSeq := by
  -- `seen` are the copies behind the loop: each is updated, gone from the store, or deleted
  induction rest generalizing seen jobOwnerUpdatersList with
  | nil => simp [deletions]
  | cons sri rest ih =>
    have hseen : seen ++ sri :: rest = (seen ++ [sri]) ++ rest := by rw [List.append_assoc]; rfl
    have hupd' : ∀ k ∈ jobOwnerUpdatersList, k ∈ seen ++ [sri] ∧ k.stored = true :=
      fun k hk => ⟨List.mem_append_left _ (hupd k hk).1, (hupd k hk).2⟩
    have hrest : (∀ before x after, rest = before ++ x :: after
          → FinishedWith (seen ++ sri :: before) x → P x.fSeq)
        ↔ ∀ before x after, rest = before ++ x :: after
          → FinishedWith ((seen ++ [sri]) ++ before) x → P x.fSeq := by
      simp only [List.append_assoc, List.singleton_append]
    rw [forall_split_cons (P := fun before sri => FinishedWith (seen ++ before) sri → P sri.fSeq),
      deletions, List.append_nil, hrest]
    by_cases hmore : moreJobsToDo jobOwnerUpdatersList sri = true
    · have hP : FinishedWith seen sri → P sri.fSeq := by
        intro hf
        obtain ⟨k, hk, hst, hu, hid⟩ := exists_of_more hmore hf
        rw [← hone k (List.mem_append_left _ hk) sri (List.mem_append_right _ List.mem_cons_self) hid]
        exact (hdel k hk hst).resolve_left hu
      rw [if_pos hmore, and_iff_right hP]
      refine ih (hseen ▸ hone) ?_ ?_
      · intro k hk
        split at hk
        case isTrue hst =>
          obtain hk | hk := List.mem_append.mp hk
          · exact hupd' k hk
          · exact ⟨List.mem_append_right _ hk, List.mem_singleton.mp hk ▸ hst⟩
        case isFalse => exact hupd' k hk
      · intro k hk hst
        obtain hk | hk := List.mem_append.mp hk
        · refine (hdel k hk hst).imp_left fun hu => ?_
          split
          · exact List.mem_append_left _ hu
          · exact hu
        · rw [List.mem_singleton.mp hk] at hst ⊢
          rw [if_pos hst]
          exact Or.inl (List.mem_append_right _ (List.mem_singleton_self _))
    · have hf := finishedWith_of_no_more hupd hmore
      rw [if_neg hmore, List.forall_mem_cons, imp_iff_right hf]
      refine and_congr_right fun hs => ih (hseen ▸ hone) hupd' fun k hk hst => ?_
      obtain hk | hk := List.mem_append.mp hk
      · exact hdel k hk hst
      · exact Or.inr (List.mem_singleton.mp hk ▸ hs)

end Deletions

/-- **Mark before delete.** The requests that a batch deletes are marked in the repack request
exactly when the mark is due for every copy whose siblings are finished or stand earlier. -/
theorem mark_before_delete_iff (env : Surroundings) (r r' : RepackRequest)
    (m_subrequestList deleted : List ArchivedCopy)
    (hone : ∀ k ∈ m_subrequestList, ∀ sri ∈ m_subrequestList,
      k.archiveFileID = sri.archiveFileID → k.fSeq = sri.fSeq)
    (h : report env r m_subrequestList = .ok (r', deleted)) :
    (∀ sri ∈ deleted, r'.deleted sri.fSeq = true)
      ↔ ∀ before sri after, m_subrequestList = before ++ sri :: after → FinishedWith before sri
        → MarkDue r m_subrequestList sri.fSeq := by
  obtain ⟨r1, hr, hp⟩ := bind_eq_ok.mp h
  cases hp
  simp only [deleted_of_report hr]
  exact @deletions_forall_iff [] [] _ _ hone nofun nofun

/-- A copy of a file, with the statuses of the copies of its request. -/
def copyOf (archivedCopyNb : UInt32) (statuses : List (UInt32 × ArchiveJobStatus)) :
    ArchivedCopy where
  archiveFileID := 12
  fileSize := 100
  fSeq := 1
  jobsDestination := ∅
  archivedCopyNb := archivedCopyNb
  archiveJobsStatusMap := TreeMap.ofList statuses
  stored := true

/-- The second copy of a file whose first one is complete. -/
def lastCopy : ArchivedCopy := copyOf 2 [(1, .complete), (2, .toReportToRepackForSuccess)]

theorem last_copy_marked : ∃ r', report calm onePointer [lastCopy] = .ok (r', [lastCopy])
    ∧ ∀ sri ∈ [lastCopy], r'.deleted sri.fSeq = true := by
  have hr : ∃ r', report calm onePointer [lastCopy] = .ok (r', [lastCopy]) := ⟨_, rfl⟩
  obtain ⟨r', hr'⟩ := hr
  have hdue : MarkDue onePointer [lastCopy] lastCopy.fSeq :=
    ⟨(1, .complete), by decide +kernel, by decide⟩
  refine ⟨r', hr', (mark_before_delete_iff calm onePointer r' [lastCopy] [lastCopy]
    (by simp) hr').mpr fun before sri after he _ => ?_⟩
  have hm : sri ∈ [lastCopy] := he ▸ List.mem_append_right _ List.mem_cons_self
  rw [List.mem_singleton.mp hm]
  exact hdue

/-- **Deleted without a mark**: the only copy of a file. -/
theorem single_copy_not_marked :
    ∃ r', report calm onePointer [copyOf 1 [(1, .toReportToRepackForSuccess)]]
        = .ok (r', [copyOf 1 [(1, .toReportToRepackForSuccess)]])
      ∧ r'.deleted 1 = false := by
  refine ⟨_, rfl, ?_⟩
  decide +kernel

end TapeArchive.Scheduler.RepackDeletions
