/-
  Deleting an archive file, or single copies of one, into the recycle log
  (`RdbmsCatalogue::moveArchiveFileToRecycleLog`, `RdbmsCatalogue::deleteTapeFileCopy`).
-/
import TapeArchive.Catalogue.Connection
import TapeArchive.Catalogue.RecycleLog

namespace TapeArchive.Catalogue

open Lib

/-! ## The requests -/

/-- `common::dataStructures::DeleteArchiveRequest`, with what the deletion reads. -/
structure DeleteArchiveRequest where
  requesterName : String
  archiveFileID : UInt64
  (diskFilePath diskInstance : String)
  archiveFile : Option ArchiveFile

def checkDeleteRequestConsistency (request : DeleteArchiveRequest) (archiveFile : ArchiveFile) :
    Except Exn Unit :=
  if request.diskInstance ≠ archiveFile.diskInstance then
    .error ⟨.exception, "Failed to move archive file with ID " ++ toString request.archiveFileID
      ++ " to the recycle-bin because the disk instance of the request does not match that of the"
      ++ " archived file: archiveFileId=" ++ toString archiveFile.archiveFileID
      ++ " requestDiskInstance=" ++ request.diskInstance ++ " archiveFileDiskInstance="
      ++ archiveFile.diskInstance⟩
  else if request.diskFilePath.isEmpty then
    .error ⟨.exception, "Failed to move archive file with ID " ++ toString request.archiveFileID
      ++ " to the recycle-bin because the disk file path has not been provided."⟩
  else .ok ()

/-- The entry of the log for a copy that is deleted. -/
def TapeFile.deleted (tapeFile : TapeFile) (now archiveFileID : UInt64) (diskFilePath : String)
    (reasonLog : String) : InsertFileRecycleLog where
  vid := tapeFile.vid
  fSeq := tapeFile.fSeq
  blockId := tapeFile.blockId
  copyNb := tapeFile.copyNb
  tapeFileCreationTime := tapeFile.creationTime
  archiveFileId := archiveFileID
  diskFilePath := some diskFilePath
  reasonLog := reasonLog
  recycleLogTime := now

def copyArchiveFileToFileRecycleLog (now : UInt64) (request : DeleteArchiveRequest) : Conn Unit :=
  inFunction "copyArchiveFileToFileRecycleLog" do
    match request.archiveFile with
    | none => throw ⟨.exception, "No archiveFile object has been set in the DeleteArchiveRequest object."⟩
    | some archiveFile =>
        (archiveFile.tapeFiles.map fun tapeFile =>
          tapeFile.deleted now archiveFile.archiveFileID request.diskFilePath
            (InsertFileRecycleLog.getDeletionReasonLog request.requesterName
              request.diskInstance)).forM insertFileInFileRecycleLog

def copyTapeFilesToFileRecycleLog (now : UInt64) (archiveFile : ArchiveFile) (reason : String) :
    Conn Unit :=
  inFunction "copyTapeFilesToFileRecycleLog"
    ((archiveFile.tapeFiles.map fun tapeFile =>
      tapeFile.deleted now archiveFile.archiveFileID archiveFile.diskFileInfo.path
        ("(Deleted using cta-admin tf rm) " ++ reason)).forM insertFileInFileRecycleLog)

/-- The tapes with a copy of the archive file get `DIRTY='1'`. -/
def Tables.tapeDirty (t : Tables) (archiveFileId : UInt64) : Tables :=
  { t with tape := t.tape.map fun r =>
      if t.tapeFile.any (fun f => f.archiveFileId == archiveFileId && f.vid == r.vid) then
        { r with dirty := true }
      else r }

def setTapeDirty (archiveFileId : UInt64) : Conn Unit :=
  inFunction "setTapeDirty" (executeNonQuery fun t => t.tapeDirty archiveFileId)

def deleteTapeFilesOfRequest (request : DeleteArchiveRequest) : Conn Unit :=
  inFunction "deleteTapeFiles" (executeNonQuery fun t =>
    { t with tapeFile := t.tapeFile.filter (fun f => !(f.archiveFileId == request.archiveFileID)) })

def TapeFile.position (tapeFile : TapeFile) : String × UInt64 := (tapeFile.vid, tapeFile.fSeq)

def deleteTapeFilesOfFile (file : ArchiveFile) : Conn Unit :=
  inFunction "deleteTapeFiles"
    (file.tapeFiles.forM fun tapeFile => deleteTapeFileAt tapeFile.position.1 tapeFile.position.2)

def deleteArchiveFile (request : DeleteArchiveRequest) : Conn Unit :=
  inFunction "deleteArchiveFile" (executeNonQuery fun t =>
    { t with archiveFile :=
        t.archiveFile.filter (fun a => !(a.archiveFileId == request.archiveFileID)) })

def copyArchiveFileToFileRecyleLogAndDelete (now : UInt64) (request : DeleteArchiveRequest) :
    OnConnection Unit :=
  inFunction "copyArchiveFileToFileRecyleLogAndDelete" (beginAndCommit do
    copyArchiveFileToFileRecycleLog now request
    setTapeDirty request.archiveFileID
    deleteTapeFilesOfRequest request
    deleteArchiveFile request)

def copyTapeFileToFileRecyleLogAndDelete (now : UInt64) (file : ArchiveFile) (reason : String) :
    OnConnection Unit :=
  inFunction "copyTapeFileToFileRecyleLogAndDelete" (beginAndCommit do
    copyTapeFilesToFileRecycleLog now file reason
    setTapeDirty file.archiveFileID
    deleteTapeFilesOfFile file)

def moveArchiveFileToRecycleLog (now : UInt64) (request : DeleteArchiveRequest) :
    EStateM Exn RdbmsCatalogue Unit :=
  match request.archiveFile with
  | none => pure ()
  | some archiveFile =>
      match checkDeleteRequestConsistency request archiveFile with
      | .error e => throw ⟨.userError, "Failed to move archive file with ID "
          ++ toString request.archiveFileID ++ " to the file-recycle-log. errorMessage="
          ++ e.message⟩
      | .ok () =>
          inFunction "moveArchiveFileToRecycleLog" (withConn (autoRollback
            (copyArchiveFileToFileRecyleLogAndDelete now request)))

def deleteTapeFileCopy (now : UInt64) (file : ArchiveFile) (reason : String) :
    EStateM Exn RdbmsCatalogue Unit :=
  withConn (copyTapeFileToFileRecyleLogAndDelete now file reason)

/-! ## What they leave on the tapes -/

section Runs

variable {s s' : Session Tables Counters} {u : Unit} {now : UInt64} {c c' : RdbmsCatalogue}

/-- The log is the only table that entries are copied to. -/
theorem Logged.tables {logs : List InsertFileRecycleLog} {t t' : Tables} (h : Logged logs t t') :
    t'.tape = t.tape ∧ t'.tapeFile = t.tapeFile := by
  obtain ⟨added, rfl, -⟩ := h
  exact ⟨rfl, rfl⟩

variable {request : DeleteArchiveRequest}

theorem copyArchiveFileToFileRecycleLog_ok
    (h : copyArchiveFileToFileRecycleLog now request s = .ok u s') :
    s'.tables.tape = s.tables.tape ∧ s'.tables.tapeFile = s.tables.tapeFile := by
  have hb := inFunction_ok h
  cases hf : request.archiveFile with
  | none =>
    rw [hf] at hb
    cases hb
  | some archiveFile =>
    rw [hf] at hb
    exact (forM_insertFileInFileRecycleLog_ok hb).tables

theorem setTapeDirty_ok {archiveFileId : UInt64} (h : setTapeDirty archiveFileId s = .ok u s') :
    s'.tables = s.tables.tapeDirty archiveFileId :=
  (executeNonQuery_ok (inFunction_ok h)).1

theorem moveArchiveFileToRecycleLog_ok (h : moveArchiveFileToRecycleLog now request c = .ok u c') :
    c' = c ∨ c'.tables.tape = (c.tables.tapeDirty request.archiveFileID).tape ∧ c'.tables.tapeFile
        = c.tables.tapeFile.filter (fun f => !(f.archiveFileId == request.archiveFileID)) := by
  unfold moveArchiveFileToRecycleLog at h
  cases hf : request.archiveFile with
  | none =>
    rw [hf] at h
    cases h
    exact Or.inl rfl
  | some archiveFile =>
    rw [hf] at h
    dsimp only at h
    cases hc : checkDeleteRequestConsistency request archiveFile with
    | error e =>
      rw [hc] at h
      cases h
    | ok v =>
      rw [hc] at h
      obtain ⟨c2, hr, hta⟩ := withConn_ok (inFunction_ok h)
      obtain ⟨c1, hb, hk⟩ := autoRollback_ok hr
      obtain ⟨s, s4, hru, hs, hcl⟩ := beginAndCommit_ok (inFunction_ok hb)
      rw [hta s4.tables (hk _ hcl), ← hs]
      obtain ⟨_, s1, hco, hru⟩ := exists_of_bind_ok hru
      obtain ⟨_, s2, hd, hru⟩ := exists_of_bind_ok hru
      obtain ⟨_, s3, hfi, ha⟩ := exists_of_bind_ok hru
      obtain ⟨ht1, hf1⟩ := copyArchiveFileToFileRecycleLog_ok hco
      have ht2 := setTapeDirty_ok hd
      obtain ⟨ht3, -⟩ := executeNonQuery_ok (inFunction_ok hfi)
      obtain ⟨ht4, -⟩ := executeNonQuery_ok (inFunction_ok ha)
      rw [ht4, ht3, ht2]
      refine Or.inr ⟨?_, ?_⟩
      · unfold Tables.tapeDirty
        dsimp only
        rw [ht1, hf1]
      · unfold Tables.tapeDirty
        dsimp only
        rw [hf1]

theorem deleteTapeFileCopy_ok {file : ArchiveFile} {reason : String}
    (h : deleteTapeFileCopy now file reason c = .ok u c') :
    c'.tables.tape = (c.tables.tapeDirty file.archiveFileID).tape
      ∧ c'.tables.tapeFile = c.tables.tapeFile.filter
          (fun f => !(file.tapeFiles.map TapeFile.position).contains f.position) := by
  obtain ⟨c1, hb, hta⟩ := withConn_ok h
  obtain ⟨s, s3, hr, hs, hc⟩ := beginAndCommit_ok (inFunction_ok hb)
  rw [hta s3.tables hc, ← hs]
  obtain ⟨_, s1, hco, hr⟩ := exists_of_bind_ok hr
  obtain ⟨_, s2, hdi, hf⟩ := exists_of_bind_ok hr
  obtain ⟨ht1, hf1⟩ := (forM_insertFileInFileRecycleLog_ok (inFunction_ok hco)).tables
  have ht2 := setTapeDirty_ok hdi
  have hd := forM_deleteTapeFileAt_ok (inFunction_ok hf)
  unfold Deleted at hd
  rw [hd, ht2]
  unfold Tables.tapeDirty
  dsimp only
  rw [ht1, hf1]
  exact ⟨rfl, rfl⟩

end Runs

end TapeArchive.Catalogue
