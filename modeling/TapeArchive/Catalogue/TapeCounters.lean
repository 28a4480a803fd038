/-
  The counters of the tapes over whole histories of the catalogue. A tape is *honest*
  when it is flagged `DIRTY`, or its counters are those of its rows in `TAPE_FILE`:

      filesWrittenToTape           adds to one tape, takes replaced copies off others
      moveArchiveFileToRecycleLog  takes off, and flags the tapes it takes from
      deleteTapeFileCopy           takes off, and flags the tapes of the archive file
      restoreFileInRecycleLog      adds, and neither counts nor flags
-/
import TapeArchive.Catalogue.Deletion
import TapeArchive.Catalogue.FilesWritten
import TapeArchive.Catalogue.Restore
import TapeArchive.Lib.Run

namespace TapeArchive.Catalogue

open Lib List

/-! ## Honest tapes -/

def Tables.filesOn (t : Tables) (vid : String) : List TapeFileRow :=
  t.tapeFile.filter (fun f => f.vid == vid)

def sizeOnTape (files : List TapeFileRow) : Nat := (files.map (·.logicalSizeInBytes.toNat)).sum

/-- The counters of the tape are exact, or it is flagged. -/
def TapeRow.Honest (r : TapeRow) (files : List TapeFileRow) : Prop :=
  r.dirty = true ∨ r.nbMasterFiles = files.length ∧ r.masterDataInBytes = sizeOnTape files

instance (r : TapeRow) (files : List TapeFileRow) : Decidable (r.Honest files) :=
  inferInstanceAs (Decidable (_ ∨ _ ∧ _))

def Tables.AllHonest (t : Tables) : Prop := ∀ r ∈ t.tape, r.Honest (t.filesOn r.vid)

instance (t : Tables) : Decidable t.AllHonest :=
  inferInstanceAs (Decidable (∀ r ∈ t.tape, r.Honest (t.filesOn r.vid)))

def Tables.Dirty (t : Tables) (vid : String) : Prop := ∀ r ∈ t.tape, r.vid = vid → r.dirty = true

instance (t : Tables) (vid : String) : Decidable (t.Dirty vid) :=
  inferInstanceAs (Decidable (∀ r ∈ t.tape, r.vid = vid → r.dirty = true))

/-! ## The operations -/

inductive CatalogueCall where
  | filesWrittenToTape (now : UInt64) (events : WrittenItems)
  | moveArchiveFileToRecycleLog (now : UInt64) (request : DeleteArchiveRequest)
  | deleteTapeFileCopy (now : UInt64) (file : ArchiveFile) (reason : String)
  | restoreFileInRecycleLog (now : UInt64) (searchCriteria : RecycleTapeFileSearchCriteria)
      (newFid : String)

namespace CatalogueCall

def body : CatalogueCall → EStateM Exn RdbmsCatalogue Unit
  | .filesWrittenToTape now events => Catalogue.filesWrittenToTape now events
  | .moveArchiveFileToRecycleLog now request => Catalogue.moveArchiveFileToRecycleLog now request
  | .deleteTapeFileCopy now file reason => Catalogue.deleteTapeFileCopy now file reason
  | .restoreFileInRecycleLog now criteria newFid =>
      Catalogue.restoreFileInRecycleLog now criteria newFid

def step (c : RdbmsCatalogue) (k : CatalogueCall) : RdbmsCatalogue :=
  match k.body c with
  | .ok _ c' => c'
  | .error _ c' => c'

/-- Rows go off flagged tapes only, and no more bytes are counted than fit. -/
def Safe (t : Tables) : CatalogueCall → Prop
  | .filesWrittenToTape _ events =>
      (∀ r ∈ t.tapeFile, (∃ f ∈ filesOf events.items, f.copy = r.copy) → t.Dirty r.vid)
        ∧ (bytesOf (filesOf events.items) < 2 ^ 64
          ∨ ∀ item ∈ events.items, t.Dirty item.item.vid)
  | .moveArchiveFileToRecycleLog _ _ => True
  | .deleteTapeFileCopy _ file _ =>
      ∀ r ∈ t.tapeFile, r.position ∈ file.tapeFiles.map TapeFile.position →
        t.Dirty r.vid ∨ ∃ f ∈ t.tapeFile, f.archiveFileId = file.archiveFileID ∧ f.vid = r.vid
  | .restoreFileInRecycleLog _ criteria _ =>
      ∀ l ∈ t.selectFileRecycleLogs criteria, t.Dirty l.vid

instance (t : Tables) : (k : CatalogueCall) → Decidable (k.Safe t)
  | .filesWrittenToTape _ _ => inferInstanceAs (Decidable (_ ∧ _))
  | .moveArchiveFileToRecycleLog _ _ => isTrue trivial
  | .deleteTapeFileCopy _ file _ => inferInstanceAs (Decidable
      (∀ r ∈ t.tapeFile, r.position ∈ file.tapeFiles.map TapeFile.position →
        t.Dirty r.vid ∨ ∃ f ∈ t.tapeFile, f.archiveFileId = file.archiveFileID ∧ f.vid = r.vid))
  | .restoreFileInRecycleLog _ criteria _ =>
      inferInstanceAs (Decidable (∀ l ∈ t.selectFileRecycleLogs criteria, t.Dirty l.vid))

def Succeeds (c : RdbmsCatalogue) (k : CatalogueCall) : Prop := returns k.body c = true

instance (c : RdbmsCatalogue) (k : CatalogueCall) : Decidable (k.Succeeds c) :=
  inferInstanceAs (Decidable (_ = true))

end CatalogueCall

/-! ## Each of them keeps honest tapes honest -/

section Steps

variable {t t' : Tables}

/-- A tape whose row and files are left alone stays honest, and so does one that is flagged. -/
theorem Tables.AllHonest.of_eq (h : t.AllHonest)
    (he : ∀ r' ∈ t'.tape, r'.dirty = true ∨ r' ∈ t.tape ∧ t'.filesOn r'.vid = t.filesOn r'.vid) :
    t'.AllHonest := by
  intro r' hr'
  obtain hd | ⟨hr, hf⟩ := he r' hr'
  · exact Or.inl hd
  · rw [hf]
    exact h r' hr

variable {vid : String}

/-- The files of a tape that a deletion spares. -/
theorem filesOn_filter {keep : TapeFileRow → Bool} (htf : t'.tapeFile = t.tapeFile.filter keep)
    (hk : ∀ f ∈ t.tapeFile, f.vid = vid → keep f = true) : t'.filesOn vid = t.filesOn vid := by
  unfold Tables.filesOn
  rw [htf, filter_filter]
  apply filter_congr
  intro f hf
  by_cases hv : f.vid = vid
  · rw [hk f hf hv, Bool.and_true]
  · rw [beq_eq_false_iff_ne.mpr hv, Bool.false_and]

variable {archiveFileId : UInt64}

/-- A row of `TAPE` after `setTapeDirty`: it is flagged, or it was there and the tape has no copy of
the archive file. -/
theorem mem_tapeDirty {r' : TapeRow} (h : r' ∈ (t.tapeDirty archiveFileId).tape) :
    r'.dirty = true ∨ r' ∈ t.tape
      ∧ ∀ f ∈ t.tapeFile, f.archiveFileId = archiveFileId → f.vid ≠ r'.vid := by
  obtain ⟨r, hr, heq⟩ := List.mem_map.mp h
  by_cases ha : t.tapeFile.any (fun f => f.archiveFileId == archiveFileId && f.vid == r.vid) = true
  · rw [if_pos ha] at heq
    rw [← heq]
    exact Or.inl rfl
  · rw [if_neg ha] at heq
    subst heq
    refine Or.inr ⟨hr, ?_⟩
    intro f hf hid hv
    apply ha
    refine List.any_eq_true.mpr ⟨f, hf, ?_⟩
    rw [hid, hv, beq_self_eq_true, beq_self_eq_true]
    rfl

theorem moved_honest (h : t.AllHonest) (hta : t'.tape = (t.tapeDirty archiveFileId).tape)
    (htf : t'.tapeFile = t.tapeFile.filter (fun f => !(f.archiveFileId == archiveFileId))) :
    t'.AllHonest := by
  refine h.of_eq ?_
  intro r' hr'
  rw [hta] at hr'
  obtain hd | ⟨hr, hn⟩ := mem_tapeDirty hr'
  · exact Or.inl hd
  refine Or.inr ⟨hr, filesOn_filter htf ?_⟩
  intro f hf hv
  rw [Bool.not_eq_true', beq_eq_false_iff_ne]
  intro hid
  exact hn f hf hid hv

theorem deleted_honest {file : ArchiveFile} (h : t.AllHonest)
    (hs : ∀ r ∈ t.tapeFile, r.position ∈ file.tapeFiles.map TapeFile.position →
      t.Dirty r.vid ∨ ∃ f ∈ t.tapeFile, f.archiveFileId = file.archiveFileID ∧ f.vid = r.vid)
    (hta : t'.tape = (t.tapeDirty file.archiveFileID).tape) (htf : t'.tapeFile = t.tapeFile.filter
      (fun f => !(file.tapeFiles.map TapeFile.position).contains f.position)) :
    t'.AllHonest := by
  refine h.of_eq ?_
  intro r' hr'
  rw [hta] at hr'
  obtain hd | ⟨hr, hn⟩ := mem_tapeDirty hr'
  · exact Or.inl hd
  -- a tape that is not flagged has no copy of the file, so what is deleted from it was flagged
  by_cases hflag : r'.dirty = true
  · exact Or.inl hflag
  refine Or.inr ⟨hr, filesOn_filter htf ?_⟩
  intro f hf hv
  rw [Bool.not_eq_true', ← Bool.not_eq_true, contains_iff_mem]
  intro hp
  obtain hd | ⟨g, hg, hid, hgv⟩ := hs f hf hp
  · exact hflag (hd r' hr hv.symm)
  · exact hn g hg hid (hgv.trans hv)

theorem restored_honest {l : FileRecycleLog} {now : UInt64} (h : t.AllHonest) (hs : t.Dirty l.vid)
    (hta : t'.tape = t.tape)
    (htf : t'.tapeFile = t.tapeFile ++ [l.tapeFile.insertedRow now l.archiveFileId]) :
    t'.AllHonest := by
  refine h.of_eq ?_
  intro r' hr'
  rw [hta] at hr'
  by_cases hv : r'.vid = l.vid
  · exact Or.inl (hs r' hr' hv)
  refine Or.inr ⟨hr', ?_⟩
  unfold Tables.filesOn
  have ho : (l.tapeFile.insertedRow now l.archiveFileId).vid ≠ r'.vid := fun heq => hv heq.symm
  rw [htf, filter_append, filter_singleton, beq_eq_false_iff_ne.mpr ho]
  exact append_nil _

/-! The batch of `filesWrittenToTape`. -/

section Written

variable {now : UInt64} {items : List WrittenItem} {tape : TapeRow} {last : WrittenItem}

theorem vid_of_mem_filesOf (h : ItemsRecorded now items tape last t t') {f : TapeFileWritten}
    (hf : f ∈ filesOf items) : f.vid = tape.vid := by
  obtain ⟨item, hi, hfi⟩ := List.mem_filterMap.mp hf
  have hv := h.oneTape item hi
  cases item with
  | placeholder p => cases hfi
  | file g =>
    cases hfi
    exact hv

/-- The files of a tape from which the batch replaces nothing: those it had, and the batch if it
is the tape of the batch. -/
theorem filesOn_written (h : ItemsRecorded now items tape last t t')
    (hk : ∀ r ∈ t.tapeFile, r.vid = vid → ∀ f ∈ filesOf items, f.copy ≠ r.copy) :
    t'.filesOn vid = t.filesOn vid
      ++ if tape.vid = vid then (filesOf items).map (TapeFileWritten.row now) else [] := by
  unfold Tables.filesOn
  rw [h.files.tapeFile, filter_append, filter_filter]
  congr 1
  · apply filter_congr
    intro r hr
    by_cases hv : r.vid = vid
    · have hn : (filesOf items).any (fun f => f.copy == r.copy) = false := by
        rw [← Bool.not_eq_true, any_eq_true]
        intro ⟨f, hf, hcopy⟩
        exact hk r hr hv f hf (beq_iff_eq.mp hcopy)
      rw [hn, Bool.not_false, Bool.and_true]
    · rw [beq_eq_false_iff_ne.mpr hv, Bool.false_and]
  · split
    · next hv =>
      apply List.filter_eq_self.mpr
      intro r hr
      obtain ⟨f, hf, rfl⟩ := List.mem_map.mp hr
      exact beq_iff_eq.mpr ((vid_of_mem_filesOf h hf).trans hv)
    · next hv =>
      apply List.filter_eq_nil_iff.mpr
      intro r hr hrv
      obtain ⟨f, hf, rfl⟩ := List.mem_map.mp hr
      exact hv ((vid_of_mem_filesOf h hf).symm.trans (beq_iff_eq.mp hrv))

theorem sizeOnTape_rows (files : List TapeFileWritten) :
    sizeOnTape (files.map (TapeFileWritten.row now)) = bytesOf files := by
  unfold sizeOnTape bytesOf
  rw [map_map]
  rfl

theorem written_honest (h : ItemsRecorded now items tape last t t') (hi : t.Immediate)
    (hh : t.AllHonest)
    (hre : ∀ r ∈ t.tapeFile, (∃ f ∈ filesOf items, f.copy = r.copy) → t.Dirty r.vid)
    (hb : bytesOf (filesOf items) < 2 ^ 64 ∨ ∀ item ∈ items, t.Dirty item.item.vid) :
    t'.AllHonest := by
  -- from a tape that is not flagged nothing is replaced
  have hk : ∀ q ∈ t.tape, q.dirty ≠ true →
      ∀ r ∈ t.tapeFile, r.vid = q.vid → ∀ f ∈ filesOf items, f.copy ≠ r.copy := by
    intro q hq hc r hr hv f hf hco
    exact hc (hre r hr ⟨f, hf, hco⟩ q hq hv.symm)
  intro r' hr'
  obtain rfl | ⟨hr, ho⟩ := (h.mem_tape hi).mp hr'
  · by_cases hd : tape.dirty = true
    · exact Or.inl hd
    · obtain hflag | ⟨hfi, hs⟩ := hh tape h.tape_mem
      · exact absurd hflag hd
      have hlt : bytesOf (filesOf items) < 2 ^ 64 := by
        obtain hlt | hfl := hb
        · exact hlt
        · have hlast := mem_of_getLast? h.last_eq
          exact absurd (hfl last hlast tape h.tape_mem h.last_vid.symm) hd
      have ha := h.tapeAdvanced hlt
      have hon := filesOn_written h (hk tape h.tape_mem hd)
      rw [if_pos rfl] at hon
      refine Or.inr ⟨?_, ?_⟩
      · rw [ha.nbMasterFiles, ha.vid, hon, length_append, length_map, hfi]
      rw [ha.masterDataInBytes, ha.vid, hon, hs]
      unfold sizeOnTape
      rw [map_append, sum_append]
      congr 1
      exact (sizeOnTape_rows (filesOf items)).symm
  · by_cases hd : r'.dirty = true
    · exact Or.inl hd
    · have hon := filesOn_written h (hk r' hr hd)
      rw [if_neg (fun heq => ho heq.symm), append_nil] at hon
      rw [hon]
      exact hh r' hr

end Written

end Steps

/-! ## Histories -/

/-- **One call** that returns. -/
theorem step_honest {c : RdbmsCatalogue} {k : CatalogueCall} (h : c.tables.AllHonest)
    (hsu : k.Succeeds c) (hs : k.Safe c.tables) :
    (CatalogueCall.step c k).tables.AllHonest := by
  obtain ⟨u, c', hru⟩ := exists_ok_of_returns hsu
  have hsp : CatalogueCall.step c k = c' := by
    unfold CatalogueCall.step
    rw [hru]
  rw [hsp]
  cases k with
  | filesWrittenToTape now events =>
    obtain ⟨rfl, -⟩ | ⟨tape, last, hr⟩ := filesWrittenToTape_ok hru
    · exact h
    · exact written_honest hr c.consistent.1 h hs.1 hs.2
  | moveArchiveFileToRecycleLog now request =>
    obtain rfl | ⟨hta, htf⟩ := moveArchiveFileToRecycleLog_ok hru
    · exact h
    · exact moved_honest h hta htf
  | deleteTapeFileCopy now file reason =>
    obtain ⟨hta, htf⟩ := deleteTapeFileCopy_ok hru
    exact deleted_honest h hs hta htf
  | restoreFileInRecycleLog now criteria newFid =>
    obtain ⟨hta, hsa | ⟨l, he, htf⟩⟩ := restoreFileInRecycleLog_ok hru
    · refine h.of_eq ?_
      intro r' hr'
      rw [hta] at hr'
      refine Or.inr ⟨hr', ?_⟩
      unfold Tables.filesOn
      rw [hsa]
    · refine restored_honest h (hs l ?_) hta htf
      rw [he]
      exact mem_singleton_self l

/-- **Counters are exact or flagged** after every history in which rows are taken off and put on
flagged tapes only, and no more bytes are counted than fit. -/
theorem honest_after_safe_history (c : RdbmsCatalogue) (history : List CatalogueCall)
    (hstart : c.tables.AllHonest)
    (hhistory : Along CatalogueCall.step (fun c k => k.Succeeds c ∧ k.Safe c.tables) c history) :
    (run CatalogueCall.step c history).tables.AllHonest :=
  @run_invariant _ _ CatalogueCall.step (fun c k => k.Succeeds c ∧ k.Safe c.tables)
    (fun c => c.tables.AllHonest) (fun _ _ h hk => step_honest h hk.1 hk.2) history c hstart hhistory

namespace TwoTapes

def tape (vid : String) (lastFSeq : UInt64) (bytes files : Nat) : TapeRow :=
  ⟨vid, .active, lastFSeq, bytes, files, bytes, false, none, none⟩

def archiveFile : ArchiveFileRow :=
  ⟨7, "eos", "0x7", 1001, 1001, 100, some ⟨[(.adler32, [1, 0, 0, 0])]⟩, 1, 1, 0, 0, none⟩

/-- One file, with its copy on the first of two tapes. -/
def tables : Tables where
  diskInstance := ["eos"]
  storageClass := [⟨1, "single"⟩]
  tape := [tape "V00001" 1 100 1, tape "V00002" 0 0 0]
  archiveFile := [archiveFile]
  tapeFile := [⟨"V00001", 1, 0, 100, 1, 0, 7⟩]
  fileRecycleLog := []

def start : RdbmsCatalogue := ⟨tables, by decide +kernel, { fileRecycleLogIdSeq := 1 }⟩

/-- The copy is written again, on the second tape. -/
def copyOnSecond : TapeFileWritten where
  vid := "V00002"
  fSeq := 1
  tapeDrive := "DRIVE0"
  archiveFileId := 7
  diskInstance := "eos"
  diskFileId := "0x7"
  diskFileOwnerUid := 1001
  diskFileGid := 1001
  size := 100
  checksumBlob := ⟨[(.adler32, [1, 0, 0, 0])]⟩
  storageClassName := "single"
  blockId := 0
  copyNb := 1

def rewritten : WrittenItems := ⟨[.file copyOnSecond], by decide +kernel⟩

def deletion : DeleteArchiveRequest where
  requesterName := "user"
  archiveFileID := 7
  diskFilePath := "/eos/file"
  diskInstance := "eos"
  archiveFile := some ⟨7, "0x7", "eos", 100, ⟨[(.adler32, [1, 0, 0, 0])]⟩, "single",
    { owner_uid := 1001, gid := 1001 }, [⟨"V00001", 1, 0, 100, 1, 0⟩], 0, 0⟩

def deleteAndRestore : List CatalogueCall :=
  [.moveArchiveFileToRecycleLog 3 deletion,
    .restoreFileInRecycleLog 5 { archiveFileId := some 7 } "0x17"]

def rewrite : List CatalogueCall := [.filesWrittenToTape 5 rewritten]

end TwoTapes

theorem deleted_and_restored_is_honest :
    Along CatalogueCall.step (fun c k => k.Succeeds c ∧ k.Safe c.tables) TwoTapes.start
        TwoTapes.deleteAndRestore
      ∧ (run CatalogueCall.step TwoTapes.start TwoTapes.deleteAndRestore).tables.AllHonest := by
  have hs : Along CatalogueCall.step (fun c k => k.Succeeds c ∧ k.Safe c.tables) TwoTapes.start
      TwoTapes.deleteAndRestore := by decide +kernel
  exact ⟨hs, honest_after_safe_history TwoTapes.start TwoTapes.deleteAndRestore
    (by decide +kernel) hs⟩

/-- **A replaced copy is still counted** on the first tape, which gets no flag. -/
theorem replaced_copy_is_still_counted : TwoTapes.start.tables.AllHonest
      ∧ Along CatalogueCall.step (fun c k => k.Succeeds c) TwoTapes.start TwoTapes.rewrite
      ∧ ¬ (run CatalogueCall.step TwoTapes.start TwoTapes.rewrite).tables.AllHonest := by
  refine ⟨by decide +kernel, by decide +kernel, by decide +kernel⟩

/-! ## The numbers on a tape -/

/-- The numbers of the items on a tape that a call records. -/
def CatalogueCall.fSeqsOn (vid : String) : CatalogueCall → List Nat
  | .filesWrittenToTape _ events =>
      (events.items.filter (·.item.vid == vid)).map (·.item.fSeq.toNat)
  | _ => []

/-- The numbers follow the tape's last one, up to the one it has in `t`. -/
def Tables.Continues (t : Tables) (tape : TapeRow) (fSeqs : List Nat) : Prop :=
  ∃ tape' ∈ t.tape, tape'.vid = tape.vid
    ∧ tape'.lastFSeq.toNat = tape.lastFSeq.toNat + fSeqs.length
    ∧ fSeqs = range' (tape.lastFSeq.toNat + 1) fSeqs.length

section Numbers

variable {t t' : Tables} {tape : TapeRow}

theorem continues_of_mem (h : tape ∈ t.tape) : t.Continues tape [] :=
  ⟨tape, h, rfl, rfl, rfl⟩

theorem continues_tapeDirty {archiveFileId : UInt64} (h : tape ∈ t.tape)
    (ht : t'.tape = (t.tapeDirty archiveFileId).tape) : t'.Continues tape [] := by
  unfold Tables.Continues
  rw [ht]
  refine ⟨_, mem_map_of_mem h, ?_⟩
  split <;> exact ⟨rfl, rfl, rfl⟩

theorem ItemsRecorded.last_fSeq {now : UInt64} {items : List WrittenItem} {last : WrittenItem}
    (hr : ItemsRecorded now items tape last t t') :
    last.item.fSeq.toNat = tape.lastFSeq.toNat + items.length := by
  have hl := congrArg getLast? hr.noGap
  rw [getLast?_map, hr.last_eq, getLast?_range'] at hl
  split at hl
  · cases hl
  · have hs : last.item.fSeq.toNat = tape.lastFSeq.toNat + 1 + items.length - 1 :=
      Option.some.inj hl
    omega

theorem continues_written {now : UInt64} {events : WrittenItems} {row : TapeRow}
    {last : WrittenItem} (hr : ItemsRecorded now events.items row last t t') (hi : t.Immediate)
    (h : tape ∈ t.tape) :
    t'.Continues tape ((CatalogueCall.filesWrittenToTape now events).fSeqsOn tape.vid) := by
  change t'.Continues tape ((events.items.filter (·.item.vid == tape.vid)).map _)
  by_cases hv : tape.vid = row.vid
  · obtain rfl := hi.tape_pk.eq_of_key h hr.tape_mem hv
    rw [filter_eq_self.mpr fun i hm => beq_iff_eq.mpr (hr.oneTape i hm)]
    refine ⟨_, (hr.mem_tape hi).mpr (.inl rfl), rfl, ?_, ?_⟩
    · rw [length_map]
      exact hr.last_fSeq
    · rw [length_map]
      exact hr.noGap
  · rw [filter_eq_nil_iff.mpr fun i hm he => hv ((beq_iff_eq.mp he).symm.trans (hr.oneTape i hm))]
    exact continues_of_mem ((hr.mem_tape hi).mpr (.inr ⟨h, hv⟩))

/-- **One call** that returns. -/
theorem step_continues {c : RdbmsCatalogue} {k : CatalogueCall} (hsu : k.Succeeds c)
    (h : tape ∈ c.tables.tape) :
    (CatalogueCall.step c k).tables.Continues tape (k.fSeqsOn tape.vid) := by
  obtain ⟨u, c', hru⟩ := exists_ok_of_returns hsu
  have hsp : CatalogueCall.step c k = c' := by
    unfold CatalogueCall.step
    rw [hru]
  rw [hsp]
  cases k with
  | filesWrittenToTape now events =>
    obtain ⟨rfl, he⟩ | ⟨row, last, hr⟩ := filesWrittenToTape_ok hru
    · unfold CatalogueCall.fSeqsOn
      simp only [he, filter_nil, map_nil]
      exact continues_of_mem h
    · exact continues_written hr c.consistent.1 h
  | moveArchiveFileToRecycleLog now request =>
    obtain rfl | ⟨hta, -⟩ := moveArchiveFileToRecycleLog_ok hru
    · exact continues_of_mem h
    · exact continues_tapeDirty h hta
  | deleteTapeFileCopy now file reason => exact continues_tapeDirty h (deleteTapeFileCopy_ok hru).1
  | restoreFileInRecycleLog now criteria newFid =>
    exact continues_of_mem ((restoreFileInRecycleLog_ok hru).1 ▸ h)

theorem Tables.Continues.trans {l l' : List Nat} (h : t.Continues tape l)
    (h' : ∀ r ∈ t.tape, r.vid = tape.vid → t'.Continues r l') : t'.Continues tape (l ++ l') := by
  obtain ⟨r, hr, hv, hn, hl⟩ := h
  obtain ⟨r', hr', hv', hn', hl'⟩ := h' r hr hv
  refine ⟨r', hr', hv'.trans hv, ?_, ?_⟩
  · rw [length_append]
    omega
  · rw [length_append, ← range'_append_1, ← hl, hl', hn, length_range', Nat.add_right_comm]

/-- **File sequence numbers are given once, in order and without a gap**, whatever was deleted or
restored between the writes. -/
theorem fSeqs_consecutive (c : RdbmsCatalogue) (history : List CatalogueCall)
    (hhistory : Along CatalogueCall.step (fun c k => k.Succeeds c) c history)
    (tape : TapeRow) (htape : tape ∈ c.tables.tape) :
    (run CatalogueCall.step c history).tables.Continues tape
      (history.flatMap (·.fSeqsOn tape.vid)) := by
  induction history generalizing c tape with
  | nil => exact continues_of_mem htape
  | cons k history ih =>
    refine (step_continues hhistory.1 htape).trans ?_
    intro r hr hv
    rw [← hv]
    exact ih _ hhistory.2 r hr

end Numbers

/-- The second tape gets its first number after a deletion and a restore on the first one. -/
theorem written_after_restore :
    Along CatalogueCall.step (fun c k => k.Succeeds c) TwoTapes.start
        (TwoTapes.deleteAndRestore ++ TwoTapes.rewrite)
      ∧ (run CatalogueCall.step TwoTapes.start
          (TwoTapes.deleteAndRestore ++ TwoTapes.rewrite)).tables.Continues
        (TwoTapes.tape "V00002" 0 0 0) [1] := by
  have hs : Along CatalogueCall.step (fun c k => k.Succeeds c) TwoTapes.start
      (TwoTapes.deleteAndRestore ++ TwoTapes.rewrite) := by decide +kernel
  exact ⟨hs, fSeqs_consecutive TwoTapes.start _ hs (TwoTapes.tape "V00002" 0 0 0)
    (by decide +kernel)⟩

end TapeArchive.Catalogue
