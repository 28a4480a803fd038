/-
  The recycle log: what the catalogue writes down of a tape copy before it deletes
  the row of the copy (`RdbmsCatalogue::insertFileInFileRecycleLog` and its callers).
-/
import TapeArchive.Catalogue.Tables

namespace TapeArchive.Catalogue

open Lib List

/-! ## Entries -/

structure InsertFileRecycleLog where
  vid : String
  (fSeq blockId : UInt64)
  copyNb : UInt8
  (tapeFileCreationTime archiveFileId : UInt64)
  diskFilePath : Option String := none
  reasonLog : String
  recycleLogTime : UInt64

def InsertFileRecycleLog.getRepackReasonLog : String := "REPACK"

def InsertFileRecycleLog.getDeletionReasonLog (deleterName diskInstanceName : String) : String :=
  "File deleted by " ++ deleterName ++ " from the " ++ diskInstanceName ++ " instance"

def InsertFileRecycleLog.position (l : InsertFileRecycleLog) : String × UInt64 := (l.vid, l.fSeq)

/-- The row that `INSERT … SELECT` makes of an entry and of the row of its archive file. -/
def InsertFileRecycleLog.row (l : InsertFileRecycleLog) (fileRecycleLogId : UInt64)
    (a : ArchiveFileRow) : FileRecycleLogRow where
  fileRecycleLogId := fileRecycleLogId
  vid := l.vid
  fSeq := l.fSeq
  blockId := l.blockId
  copyNb := l.copyNb
  tapeFileCreationTime := l.tapeFileCreationTime
  archiveFileId := l.archiveFileId
  diskInstanceName := a.diskInstanceName
  diskFileId := a.diskFileId
  diskFileIdWhenDeleted := a.diskFileId
  diskFileUid := a.diskFileUid
  diskFileGid := a.diskFileGid
  sizeInBytes := a.sizeInBytes
  checksumBlob := a.checksumBlob
  checksumAdler32 := a.checksumAdler32
  storageClassId := a.storageClassId
  archiveFileCreationTime := a.creationTime
  reconciliationTime := a.reconciliationTime
  collocationHint := a.collocationHint
  diskFilePath := l.diskFilePath
  reasonLog := l.reasonLog
  recycleLogTime := l.recycleLogTime

structure FileRecycleLogRow.IsAbout (l : FileRecycleLogRow) (r : TapeFileRow) : Prop where
  vid : l.vid = r.vid
  fSeq : l.fSeq = r.fSeq
  blockId : l.blockId = r.blockId
  copyNb : l.copyNb = r.copyNb
  creationTime : l.tapeFileCreationTime = r.creationTime
  archiveFileId : l.archiveFileId = r.archiveFileId

/-! ## The statements -/

def getNextFileRecyleLogId : Conn UInt64 := do
  call
  nextValue fun k =>
    (k.fileRecycleLogIdSeq, { k with fileRecycleLogIdSeq := k.fileRecycleLogIdSeq + 1 })

def insertFileInFileRecycleLog (l : InsertFileRecycleLog) : Conn Unit :=
  inFunction "insertFileInFileRecycleLog" do
    let fileRecycleLogId ← getNextFileRecyleLogId
    executeNonQuery fun t => { t with
      fileRecycleLog := t.fileRecycleLog ++
        (t.archiveFile.filter (fun a => a.archiveFileId == l.archiveFileId)).map
          (l.row fileRecycleLogId) }

/-- The entry for a copy that a newer one replaces. -/
def TapeFileRow.recycled (now : UInt64) (r : TapeFileRow) : InsertFileRecycleLog where
  vid := r.vid
  fSeq := r.fSeq
  blockId := r.blockId
  copyNb := r.copyNb
  tapeFileCreationTime := r.creationTime
  archiveFileId := r.archiveFileId
  reasonLog := InsertFileRecycleLog.getRepackReasonLog
  recycleLogTime := now

/-- The body that the overloads of `insertOldCopiesOfFilesIfAnyOnFileRecycleLog` share. -/
def insertOldCopies (now : UInt64) (select : Tables → List TapeFileRow) :
    Conn (List InsertFileRecycleLog) :=
  inFunction "insertOldCopiesOfFilesIfAnyOnFileRecycleLog" do
    let rows ← executeQuery select
    let fileRecycleLogsToInsert := rows.map (·.recycled now)
    fileRecycleLogsToInsert.forM insertFileInFileRecycleLog
    return fileRecycleLogsToInsert

/-- The copies that are in the batch as well, at another place. -/
def Tables.oldCopiesOfBatch (t : Tables) (batch : List TapeFileRow) : List TapeFileRow :=
  t.tapeFile.flatMap fun r => (batch.filter fun b =>
    b.archiveFileId == r.archiveFileId && b.copyNb == r.copyNb
      && (r.vid != b.vid || r.fSeq != b.fSeq)).map fun _ => r

/-- The copies with the number of the tape file, at another place. -/
def Tables.oldCopiesOfFile (t : Tables) (tapefile : TapeFile) (archiveFileId : UInt64) :
    List TapeFileRow :=
  t.tapeFile.filter fun r => r.copyNb == tapefile.copyNb && r.archiveFileId == archiveFileId
    && (r.vid != tapefile.vid || r.fSeq != tapefile.fSeq)

/-- `insertOldCopiesOfFilesIfAnyOnFileRecycleLog`, on `TEMP_TAPE_FILE_INSERTION_BATCH`. -/
def insertOldCopiesOfBatch (now : UInt64) (batch : List TapeFileRow) :
    Conn (List InsertFileRecycleLog) :=
  insertOldCopies now fun t => t.oldCopiesOfBatch batch

/-- `RdbmsCatalogue::insertOldCopiesOfFilesIfAnyOnFileRecycleLog`. -/
def insertOldCopiesOfFile (now : UInt64) (tapefile : TapeFile) (archiveFileId : UInt64) :
    Conn (List InsertFileRecycleLog) :=
  insertOldCopies now fun t => t.oldCopiesOfFile tapefile archiveFileId

/-- `DELETE FROM TAPE_FILE WHERE VID = … AND FSEQ = …`. -/
def deleteTapeFileAt (vid : String) (fSeq : UInt64) : Conn Unit :=
  executeNonQuery fun t => { t with
    tapeFile := t.tapeFile.filter fun r => !(r.vid == vid && r.fSeq == fSeq) }

/-- Old copies go to the log, the new ones are inserted, the old ones are deleted. -/
def insertReplacing (recycle : Conn (List InsertFileRecycleLog)) (rows : List TapeFileRow) :
    Conn Unit := do
  let recycledFiles ← recycle
  executeNonQuery fun t => { t with tapeFile := t.tapeFile ++ rows }
  recycledFiles.forM fun l => deleteTapeFileAt l.position.1 l.position.2

theorem Tables.mem_oldCopiesOfBatch {t : Tables} {batch : List TapeFileRow} {r : TapeFileRow} :
    r ∈ t.oldCopiesOfBatch batch
      ↔ r ∈ t.tapeFile ∧ ∃ b ∈ batch, b.copy = r.copy ∧ r.position ≠ b.position := by
  unfold Tables.oldCopiesOfBatch TapeFileRow.copy TapeFileRow.position
  simp only [mem_flatMap, mem_map, mem_filter, Bool.and_eq_true, Bool.or_eq_true,
    beq_iff_eq, bne_iff_ne, Prod.mk.injEq, ne_eq, not_and_or]
  constructor
  · rintro ⟨q, hq, b, ⟨hb, hc, hp⟩, rfl⟩
    exact ⟨hq, b, hb, hc, hp⟩
  · rintro ⟨hr, b, hb, hc, hp⟩
    exact ⟨r, hr, b, ⟨hb, hc, hp⟩, rfl⟩

/-! ## What they do when they return -/

/-- The entries, at least those with an archive file, went to the log; all else is kept. -/
def Logged (logs : List InsertFileRecycleLog) (t t' : Tables) : Prop :=
  ∃ added, t' = { t with fileRecycleLog := t.fileRecycleLog ++ added }
    ∧ ∀ l ∈ logs, ∀ a ∈ t.archiveFile, a.archiveFileId = l.archiveFileId → ∃ id, l.row id a ∈ added

theorem Logged.nil (t : Tables) : Logged [] t t := by
  refine ⟨[], ?_, fun l hl => nomatch hl⟩
  rw [append_nil]

variable {l : InsertFileRecycleLog} {logs : List InsertFileRecycleLog}

theorem Logged.cons {t t₁ t' : Tables} (h : Logged [l] t t₁) (h' : Logged logs t₁ t') :
    Logged (l :: logs) t t' := by
  obtain ⟨added, rfl, hl⟩ := h
  obtain ⟨added', rfl, hlo⟩ := h'
  refine ⟨added ++ added', by rw [append_assoc], ?_⟩
  intro e he a ha hid
  obtain rfl | he := List.mem_cons.mp he
  · obtain ⟨id, hr⟩ := hl e mem_cons_self a ha hid
    exact ⟨id, mem_append_left _ hr⟩
  · obtain ⟨id, hr⟩ := hlo e he a ha hid
    exact ⟨id, mem_append_right _ hr⟩

section Runs

variable {s s' : Session Tables Counters}

theorem getNextFileRecyleLogId_ok {id : UInt64} (h : getNextFileRecyleLogId s = .ok id s') :
    s'.tables = s.tables := by
  obtain ⟨_, s1, hc, hnext⟩ := exists_of_bind_ok h
  obtain ⟨-, rfl⟩ := nextValue_ok hnext
  exact (call_ok hc).1

variable {u : Unit}

theorem insertFileInFileRecycleLog_ok (h : insertFileInFileRecycleLog l s = .ok u s') :
    Logged [l] s.tables s'.tables := by
  obtain ⟨id, s1, hid, hin⟩ := exists_of_bind_ok (inFunction_ok h)
  obtain ⟨hi, -⟩ := executeNonQuery_ok hin
  rw [getNextFileRecyleLogId_ok hid] at hi
  refine ⟨_, hi, ?_⟩
  intro e he a ha hf
  obtain rfl := List.mem_singleton.mp he
  refine ⟨id, List.mem_map.mpr ⟨a, List.mem_filter.mpr ⟨ha, ?_⟩, rfl⟩⟩
  exact beq_iff_eq.mpr hf

theorem forM_insertFileInFileRecycleLog_ok : ∀ {s s' : Session Tables Counters} {u : PUnit},
      (logs.forM insertFileInFileRecycleLog : Conn PUnit) s = .ok u s' →
      Logged logs s.tables s'.tables := by
  induction logs with
  | nil =>
    intro s s' u h
    cases h
    exact Logged.nil _
  | cons l logs ih =>
    intro s s' u h
    obtain ⟨s1, hl, hlo⟩ := exists_of_forM_ok h
    exact (insertFileInFileRecycleLog_ok hl).cons (ih hlo)

variable {select : Tables → List TapeFileRow} {now : UInt64}

theorem insertOldCopies_ok (h : insertOldCopies now select s = .ok logs s') :
    logs = (select s.tables).map (·.recycled now) ∧ Logged logs s.tables s'.tables := by
  obtain ⟨rows, s1, hqu, hrest⟩ := exists_of_bind_ok (inFunction_ok h)
  obtain ⟨rfl, hta⟩ := executeQuery_ok hqu
  obtain ⟨u, s2, hi, hr⟩ := exists_of_bind_ok hrest
  cases hr
  have hl := forM_insertFileInFileRecycleLog_ok hi
  rw [hta] at hl
  exact ⟨rfl, hl⟩

/-- The rows at the positions are gone, and nothing else changed. -/
def Deleted (positions : List (String × UInt64)) (t t' : Tables) : Prop :=
  t' = { t with tapeFile := t.tapeFile.filter fun r => !positions.contains r.position }

theorem deleteTapeFileAt_ok {vid : String} {fSeq : UInt64}
    (h : deleteTapeFileAt vid fSeq s = .ok u s') : Deleted [(vid, fSeq)] s.tables s'.tables := by
  obtain ⟨hd, -⟩ := executeNonQuery_ok h
  unfold Deleted
  rw [hd]
  congr 1
  apply filter_congr
  intro r _
  rw [contains_cons, contains_nil, Bool.or_false]
  rfl

/-- A loop of such deletions. -/
theorem forM_deleteTapeFileAt_ok {α : Type} {position : α → String × UInt64} {xs : List α} :
    ∀ {s s' : Session Tables Counters} {u : PUnit},
      (xs.forM (fun x => deleteTapeFileAt (position x).1 (position x).2) : Conn PUnit) s = .ok u s' →
      Deleted (xs.map position) s.tables s'.tables := by
  induction xs with
  | nil =>
    intro s s' u h
    cases h
    unfold Deleted
    rw [map_nil]
    have ha : s.tables.tapeFile.filter (fun r => !([] : List (String × UInt64)).contains r.position)
        = s.tables.tapeFile := List.filter_eq_self.mpr (fun r _ => rfl)
    rw [ha]
  | cons x xs ih =>
    intro s s' u h
    obtain ⟨s1, hx, hxs⟩ := exists_of_forM_ok h
    have hf := deleteTapeFileAt_ok hx
    have hrest := ih hxs
    unfold Deleted at hf hrest ⊢
    rw [hrest, hf, map_cons]
    dsimp only
    rw [filter_filter]
    congr 1
    apply filter_congr
    intro r _
    rw [contains_cons, contains_cons, contains_nil, Bool.or_false, Bool.not_or, Bool.and_comm]

theorem isAbout_row_recycled (now id : UInt64) (r : TapeFileRow) (a : ArchiveFileRow) :
    ((r.recycled now).row id a).IsAbout r := ⟨rfl, rfl, rfl, rfl, rfl, rfl⟩

theorem insertReplacing_ok {rows : List TapeFileRow}
    (h : insertReplacing (insertOldCopies now select) rows s = .ok u s') :
    ∃ added, s'.tables = { s.tables with
        tapeFile := (s.tables.tapeFile ++ rows).filter
          (fun r => !((select s.tables).map TapeFileRow.position).contains r.position)
        fileRecycleLog := s.tables.fileRecycleLog ++ added }
      ∧ UniqueKey TapeFileRow.position (s.tables.tapeFile ++ rows)
      ∧ ∀ r ∈ select s.tables, ∀ a ∈ s.tables.archiveFile, a.archiveFileId = r.archiveFileId →
          ∃ l ∈ added, l.IsAbout r := by
  obtain ⟨logs, s1, hold, h⟩ := exists_of_bind_ok h
  obtain ⟨_, s2, hin, hde⟩ := exists_of_bind_ok h
  obtain ⟨rfl, added, ht1, hadd⟩ := insertOldCopies_ok hold
  obtain ⟨ht2, hi⟩ := executeNonQuery_ok hin
  have hd := forM_deleteTapeFileAt_ok hde
  have hu := hi.tape_file_pk
  unfold Deleted at hd
  rw [map_map, ht2, ht1] at hd
  rw [ht1] at hu
  refine ⟨added, hd, hu, ?_⟩
  intro r hr a ha hid
  obtain ⟨id, hro⟩ := hadd (r.recycled now) (mem_map_of_mem hr) a ha hid
  exact ⟨_, hro, isAbout_row_recycled now id r a⟩

end Runs

end TapeArchive.Catalogue
