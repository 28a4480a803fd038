/-
  Restoring a deleted copy from the recycle log
  (`PostgresCatalogue::restoreEntryInRecycleLog`).

      BEGIN … INSERT TAPE_FILE … COMMIT │ ROLLBACK │ DELETE FILE_RECYCLE_LOG │ COMMIT
      └──────── insertTapeFile ──────────────────┘

  The transaction that `restoreEntryInRecycleLog` opens is committed by
  `insertTapeFile`, so the entry of the log is deleted outside of it.
-/
import TapeArchive.Catalogue.Connection
import TapeArchive.Catalogue.RecycleLog

namespace TapeArchive.Catalogue

open Lib List

/-! ## Looking for entries of the log -/

structure RecycleTapeFileSearchCriteria where
  archiveFileId : Option UInt64 := none
  diskInstance : Option String := none
  vid : Option String := none
  diskFileIds : Option (List String) := none
  copynb : Option UInt64 := none

/-- The `WHERE` clause of `RdbmsCatalogueGetFileRecycleLogItor`. -/
def RecycleTapeFileSearchCriteria.selects (c : RecycleTapeFileSearchCriteria)
    (r : FileRecycleLogRow) : Bool :=
  c.vid.all (fun vid => r.vid == vid)
    && c.archiveFileId.all (fun id => r.archiveFileId == id)
    && c.diskFileIds.all (fun ids => ids.contains r.diskFileId)
    && c.diskInstance.all (fun name => r.diskInstanceName == name)
    && c.copynb.all (fun n => r.copyNb.toUInt64 == n)

/-- `common::dataStructures::FileRecycleLog`, with what the restore reads. -/
structure FileRecycleLog where
  vid : String
  (fSeq blockId : UInt64)
  copyNb : UInt8
  (tapeFileCreationTime archiveFileId : UInt64)
  diskInstanceName : String
  (diskFileUid diskFileGid : UInt32)
  sizeInBytes : UInt64
  checksumBlob : ChecksumBlob
  storageClassName : String

/-- `populateFileRecycleLog`; the name of the storage class is joined to the row. -/
def FileRecycleLogRow.populate (r : FileRecycleLogRow) (storageClassName : String) :
    FileRecycleLog where
  vid := r.vid
  fSeq := r.fSeq
  blockId := r.blockId
  copyNb := r.copyNb
  tapeFileCreationTime := r.tapeFileCreationTime
  archiveFileId := r.archiveFileId
  diskInstanceName := r.diskInstanceName
  diskFileUid := r.diskFileUid
  diskFileGid := r.diskFileGid
  sizeInBytes := r.sizeInBytes
  checksumBlob := ChecksumBlob.deserializeOrSetAdler32 r.checksumBlob r.checksumAdler32
  storageClassName := storageClassName

/-- The result set of the iterator; the restore refuses more than one row. -/
def Tables.selectFileRecycleLogs (t : Tables) (c : RecycleTapeFileSearchCriteria) :
    List FileRecycleLog :=
  (t.fileRecycleLog.filter c.selects).flatMap fun r =>
    (t.storageClass.filter (fun sc => sc.storageClassId == r.storageClassId)).map fun sc =>
      r.populate sc.storageClassName

def checkRecycleTapeFileSearchCriteria (c : RecycleTapeFileSearchCriteria) : Conn Unit :=
  match c.vid with
  | none => pure ()
  | some vid => do
      let tapeExists ← executeQuery fun t => t.tape.any (fun r => r.vid == vid)
      if tapeExists then pure ()
      else throw ⟨.userError, "Tape " ++ vid ++ " does not exist"⟩

/-- `getFileRecycleLogItor`, with the rows it iterates over. -/
def getFileRecycleLogItor (c : RecycleTapeFileSearchCriteria) : Conn (List FileRecycleLog) :=
  inFunction "getFileRecycleLogItor" do
    checkRecycleTapeFileSearchCriteria c
    executeQuery fun t => t.selectFileRecycleLogs c

/-! ## Restoring -/

def storageClassExists (storageClassName : String) : Conn Bool :=
  inFunction "storageClassExists" (executeQuery fun t =>
    t.storageClass.any (fun sc => sc.storageClassName == storageClassName))

/-- The row that `insertArchiveFile` makes of an entry, for the storage class of the given id. -/
def FileRecycleLog.archiveFileRow (l : FileRecycleLog) (now : UInt64) (newFid : String)
    (storageClassId : UInt64) : ArchiveFileRow where
  archiveFileId := l.archiveFileId
  diskInstanceName := l.diskInstanceName
  diskFileId := newFid
  diskFileUid := l.diskFileUid
  diskFileGid := l.diskFileGid
  sizeInBytes := l.sizeInBytes
  checksumBlob := l.checksumBlob.serialize
  checksumAdler32 := l.checksumBlob.adler32
  storageClassId := storageClassId
  creationTime := now
  reconciliationTime := now

variable (now : UInt64)

/-- `restoreArchiveFileInRecycleLog`, which is `insertArchiveFile` of this row. -/
def restoreArchiveFileInRecycleLog (l : FileRecycleLog) (newFid : String) :
    Conn Unit :=
  inFunction ("insertArchiveFile failed: archiveFileId=" ++ toString l.archiveFileId) do
    let known ← storageClassExists l.storageClassName
    if known then
      executeNonQuery fun t => { t with
        archiveFile := t.archiveFile ++
          (t.storageClass.filter (fun sc => sc.storageClassName == l.storageClassName)).map
            (fun sc => l.archiveFileRow now newFid sc.storageClassId) }
    else throw ⟨.userError, "Storage class " ++ l.diskInstanceName ++ ":" ++ l.storageClassName
      ++ " does not exist"⟩

/-- The archive file is restored if it is gone; if it is there, the copy must not be. -/
def restoreArchiveFile (l : FileRecycleLog) (newFid : String) : Conn Unit := do
  let archiveFile ← getArchiveFileById l.archiveFileId
  match archiveFile with
  | none => restoreArchiveFileInRecycleLog now l newFid
  | some file =>
      match findCopy file.tapeFiles l.copyNb with
      | none => pure ()
      | some _ => throw ⟨.userSpecifiedExistingDeletedFileCopy,
          "Cannot restore file copy with archiveFileId " ++ toString l.archiveFileId
            ++ " and copy_nb " ++ toString l.copyNb
            ++ " because a tapefile with same archiveFileId and copy_nb already exists"⟩

/-- The first part of `restoreEntryInRecycleLog`. -/
def prepareRestore (l : FileRecycleLog) (newFid : String) : OnConnection Unit := do
  beginTransaction
  onConn (restoreArchiveFile now l newFid)

/-- The tape file of `restoreFileCopyInRecycleLog`. -/
def FileRecycleLog.tapeFile (l : FileRecycleLog) : TapeFile :=
  ⟨l.vid, l.fSeq, l.blockId, l.sizeInBytes, l.copyNb, l.tapeFileCreationTime⟩

/-- The row that `insertTapeFile` inserts; its creation time is the time of the restore. -/
def TapeFile.insertedRow (tapeFile : TapeFile) (now archiveFileId : UInt64) : TapeFileRow :=
  ⟨tapeFile.vid, tapeFile.fSeq, tapeFile.blockId, tapeFile.fileSize, tapeFile.copyNb, now,
    archiveFileId⟩

/-- The body of `insertTapeFile`, which ends with a commit. -/
def insertTapeFileAndCommit (tapeFile : TapeFile) (archiveFileId : UInt64) :
    OnConnection Unit :=
  inFunction "insertTapeFile" do
    onConn (insertReplacing (insertOldCopiesOfFile now tapeFile archiveFileId)
      [tapeFile.insertedRow now archiveFileId])
    commit

/-- `RdbmsCatalogue::insertTapeFile`. Its `AutoRollback` is not cancelled after the commit. -/
def insertTapeFile (tapeFile : TapeFile) (archiveFileId : UInt64) :
    OnConnection Unit :=
  autoRollback (insertTapeFileAndCommit now tapeFile archiveFileId)

/-- The rows that `deleteTapeFileCopyFromRecycleBin` deletes. -/
def FileRecycleLog.deletes (l : FileRecycleLog) (r : FileRecycleLogRow) : Bool :=
  r.archiveFileId == l.archiveFileId && r.vid == l.vid && r.fSeq == l.fSeq
    && r.copyNb == l.copyNb && r.diskInstanceName == l.diskInstanceName

def Tables.withoutEntry (t : Tables) (l : FileRecycleLog) : Tables :=
  { t with fileRecycleLog := t.fileRecycleLog.filter (fun r => !l.deletes r) }

def deleteTapeFileCopyFromRecycleBin (l : FileRecycleLog) : Conn Unit :=
  inFunction "deleteTapeFileCopyFromRecycleBin" (executeNonQuery fun t => t.withoutEntry l)

def restoreFileCopyInRecycleLog (now : UInt64) (l : FileRecycleLog) : OnConnection Unit :=
  inFunction "restoreFileCopyInRecycleLog" do
    insertTapeFile now l.tapeFile l.archiveFileId
    onConn (deleteTapeFileCopyFromRecycleBin l)

def restoreEntryInRecycleLog (now : UInt64) (fileRecycleLogItor : List FileRecycleLog)
    (newFid : String) : OnConnection Unit :=
  inFunction "restoreEntryInRecycleLog" do
    match fileRecycleLogItor with
    | [] => throw ⟨.userError, "No file in the recycle bin matches the parameters passed"⟩
    | _ :: _ :: _ =>
        throw ⟨.userError, "More than one recycle bin file matches the parameters passed"⟩
    | [fileRecycleLog] =>
        prepareRestore now fileRecycleLog newFid
        restoreFileCopyInRecycleLog now fileRecycleLog
        commit

def restoreFileInRecycleLog (now : UInt64) (searchCriteria : RecycleTapeFileSearchCriteria)
    (newFid : String) : EStateM Exn RdbmsCatalogue Unit :=
  inFunction "restoreFileInRecycleLog" do
    let fileRecycleLogItor ← transaction violation (getFileRecycleLogItor searchCriteria)
    withConn (restoreEntryInRecycleLog now fileRecycleLogItor newFid)

/-! ## Up to the commit of `insertTapeFile` -/

/-- The calls of the restore from its `BEGIN` to the `COMMIT` of `insertTapeFile`. -/
def untilCommitted (l : FileRecycleLog) (newFid : String) : OnConnection Unit := do
  prepareRestore now l newFid
  insertTapeFileAndCommit now l.tapeFile l.archiveFileId

/-- The archive file is there, and no copy of it with the number of the entry is. -/
structure ReadyForCopy (l : FileRecycleLog) (t t' : Tables) : Prop where
  archiveFile : ∃ a ∈ t'.archiveFile, a.archiveFileId = l.archiveFileId
  noCopy : ∀ r ∈ t.tapeFile, r.copy ≠ (l.archiveFileId, l.copyNb)
  rest : ∃ added, t' = { t with archiveFile := t.archiveFile ++ added }

variable {rows : List JoinedRow}

theorem archiveFileOf_eq_none (h : archiveFileOf rows = none) : rows = [] := by
  cases rows with
  | nil => rfl
  | cons row rows => cases h

/-- The copies of a file are those of the joined rows, and they are joined to a row of it. -/
theorem archiveFileOf_eq_some_tapeFiles {file : ArchiveFile} (h : archiveFileOf rows = some file) :
    file.tapeFiles = rows.map (fun r => r.tapeFile.tapeFileOf) ∧ ∃ row, row ∈ rows := by
  cases rows with
  | nil => cases h
  | cons row rows =>
    cases h
    exact ⟨rfl, row, mem_cons_self⟩

section Runs

variable {now : UInt64} {l : FileRecycleLog} {newFid : String} {s s' : Session Tables Counters}
  {u : Unit} {c c' : Connection} {e : Exn}

theorem restoreArchiveFileInRecycleLog_ok
    (h : restoreArchiveFileInRecycleLog now l newFid s = .ok u s') :
    ∃ added, s'.tables = { s.tables with archiveFile := s.tables.archiveFile ++ added }
      ∧ ∃ a ∈ added, a.archiveFileId = l.archiveFileId := by
  obtain ⟨known, s1, he, hi⟩ := exists_of_bind_ok (inFunction_ok h)
  obtain ⟨rfl, hta⟩ := executeQuery_ok (inFunction_ok he)
  split at hi
  next hk =>
    obtain ⟨sc, hsc, hn⟩ := List.any_eq_true.mp hk
    obtain ⟨hin, -⟩ := executeNonQuery_ok hi
    rw [hta] at hin
    refine ⟨_, hin, l.archiveFileRow now newFid sc.storageClassId, ?_, rfl⟩
    exact List.mem_map.mpr ⟨sc, List.mem_filter.mpr ⟨hsc, hn⟩, rfl⟩
  next => cases hi

theorem restoreArchiveFile_ok (hs : s.tables.Immediate)
    (h : restoreArchiveFile now l newFid s = .ok u s') : ReadyForCopy l s.tables s'.tables := by
  obtain ⟨archiveFile, s1, hg, hrest⟩ := exists_of_bind_ok h
  obtain ⟨rfl, hta⟩ := executeQuery_ok (inFunction_ok hg)
  -- a copy of the archive file is one of the joined rows
  have hj : ∀ r ∈ s.tables.tapeFile, r.archiveFileId = l.archiveFileId →
      ∃ row ∈ orderByCreationTime (s.tables.join l.archiveFileId), row.tapeFile = r := by
    intro r hr hid
    obtain ⟨row, hro, hf⟩ := hs.exists_join hr
    rw [hid] at hro
    exact ⟨row, mem_orderByCreationTime.mpr hro, hf⟩
  cases hf : archiveFileOf (orderByCreationTime (s.tables.join l.archiveFileId)) with
  | none =>
    rw [hf] at hrest
    obtain ⟨added, hadd, a, ha, hid⟩ := restoreArchiveFileInRecycleLog_ok hrest
    rw [hta] at hadd
    refine ⟨⟨a, ?_, hid⟩, ?_, added, hadd⟩
    · rw [hadd]
      exact mem_append_right _ ha
    intro r hr hc
    obtain ⟨row, hro, -⟩ := hj r hr (congrArg Prod.fst hc)
    rw [archiveFileOf_eq_none hf] at hro
    cases hro
  | some file =>
    rw [hf] at hrest
    obtain ⟨hco, row, hro⟩ := archiveFileOf_eq_some_tapeFiles hf
    dsimp only at hrest
    cases hfi : findCopy file.tapeFiles l.copyNb with
    | some tapeFile =>
      rw [hfi] at hrest
      cases hrest
    | none =>
      rw [hfi] at hrest
      cases hrest
      rw [hta]
      refine ⟨?_, ?_, [], ?_⟩
      · obtain ⟨ha, hid, -⟩ := Tables.mem_join.mp (mem_orderByCreationTime.mp hro)
        exact ⟨row.archiveFile, ha, hid⟩
      · intro r hr hc
        obtain ⟨row', hr', rfl⟩ := hj r hr (congrArg Prod.fst hc)
        have hm : row'.tapeFile.tapeFileOf ∈ file.tapeFiles := by
          rw [hco]
          exact mem_map_of_mem hr'
        have hnb := List.find?_eq_none.mp hfi _ hm
        exact hnb (beq_iff_eq.mpr (congrArg Prod.snd hc))
      · rw [append_nil]

/-- Without a copy of that number there is nothing for the new row to replace. -/
theorem oldCopiesOfFile_eq_nil {t : Tables}
    (h : ∀ r ∈ t.tapeFile, r.copy ≠ (l.archiveFileId, l.copyNb)) :
    t.oldCopiesOfFile l.tapeFile l.archiveFileId = [] := by
  refine List.filter_eq_nil_iff.mpr ?_
  intro r hr hold
  have hc := (Bool.and_eq_true_iff.mp (Bool.and_eq_true_iff.mp hold).1)
  refine h r hr ?_
  show (r.archiveFileId, r.copyNb) = (l.archiveFileId, l.copyNb)
  rw [beq_iff_eq.mp hc.2, beq_iff_eq.mp hc.1]
  rfl

variable {d : RdbmsCatalogue}

theorem prepareRestore_error (h : prepareRestore now l newFid ⟨d, none⟩ = .error e c') :
    Clean d.tables c' := by
  obtain hb | ⟨_, c1, hb, ha⟩ := of_bind_error h
  · obtain hc | ⟨_, c1, -, hm⟩ := of_bind_error hb
    · exact onConn_error hc
    · cases hm
  · obtain ⟨_, c0, hc, hm⟩ := exists_of_bind_ok hb
    cases hm
    have hcl := onConn_error ha
    rw [show c0.database.tables = d.tables from (onConn_call_ok hc).1] at hcl
    exact hcl

theorem prepareRestore_ok (h : prepareRestore now l newFid ⟨d, none⟩ = .ok u c') :
    ∃ w, c'.transaction = some w ∧ c'.database.tables = d.tables ∧ ReadyForCopy l d.tables w := by
  obtain ⟨_, c1, hb, ha⟩ := exists_of_bind_ok h
  obtain ⟨_, c0, hc, hm⟩ := exists_of_bind_ok hb
  cases hm
  have hd : c0.database.tables = d.tables := (onConn_call_ok hc).1
  obtain ⟨s1, hru, htr, hta⟩ := onConn_ok rfl ha
  have hi : Tables.Immediate c0.database.tables := c0.database.consistent.1
  have hr := restoreArchiveFile_ok hi hru
  refine ⟨s1.tables, htr, hta.trans hd, ?_⟩
  rw [← hd]
  exact hr

theorem insertTapeFileAndCommit_error {tapeFile : TapeFile} {archiveFileId : UInt64}
    (h : insertTapeFileAndCommit now tapeFile archiveFileId c = .error e c')
    {w : Tables} (hw : c.transaction = some w) : Clean c.database.tables c' := by
  obtain ⟨e0, h0⟩ := inFunction_error h
  obtain hi | ⟨_, c1, hi, hco⟩ := of_bind_error h0
  · exact onConn_error hi
  obtain ⟨s1, -, -, hd⟩ := onConn_ok hw hi
  have hc := commit_error hco
  rw [hd] at hc
  exact hc

/-- What the commit of `insertTapeFile` takes over. -/
structure Inserted (now : UInt64) (l : FileRecycleLog) (t t' : Tables) : Prop where
  archiveFile : ∃ a ∈ t'.archiveFile, a.archiveFileId = l.archiveFileId
  tapeFile : t'.tapeFile = t.tapeFile ++ [l.tapeFile.insertedRow now l.archiveFileId]
  unique : UniqueKey TapeFileRow.position t'.tapeFile
  tape : t'.tape = t.tape
  log : ∀ r ∈ t.fileRecycleLog, r ∈ t'.fileRecycleLog

theorem untilCommitted_ok (h : untilCommitted now l newFid ⟨d, none⟩ = .ok u c') :
    c'.transaction = none ∧ Inserted now l d.tables c'.database.tables := by
  obtain ⟨_, c1, hp, hi⟩ := exists_of_bind_ok h
  obtain ⟨w, hw, hd, hre⟩ := prepareRestore_ok hp
  obtain ⟨_, c2, hrc, hc⟩ := exists_of_bind_ok (inFunction_ok hi)
  obtain ⟨s2, hru, hw2, -⟩ := onConn_ok hw hrc
  obtain ⟨hid, hta⟩ := commit_ok hw2 hc
  obtain ⟨added, hs2, hu, -⟩ := insertReplacing_ok hru
  obtain ⟨archived, rfl⟩ := hre.rest
  -- nothing is replaced, so the deletions have nothing to delete
  have hn : Tables.oldCopiesOfFile { d.tables with archiveFile := d.tables.archiveFile ++ archived }
      l.tapeFile l.archiveFileId = [] := oldCopiesOfFile_eq_nil hre.noCopy
  rw [hn, map_nil] at hs2
  have ha : ∀ rows : List TapeFileRow,
      rows.filter (fun r => !([] : List (String × UInt64)).contains r.position) = rows :=
    fun rows => List.filter_eq_self.mpr (fun r _ => rfl)
  rw [ha] at hs2
  refine ⟨hid, ?_⟩
  rw [hta, hs2]
  exact ⟨hre.archiveFile, rfl, hu, rfl, fun r hr => mem_append_left _ hr⟩

end Runs

/-! ## After that commit -/

theorem deletes_populate (r : FileRecycleLogRow) (storageClassName : String) :
    (r.populate storageClassName).deletes r = true := by
  unfold FileRecycleLog.deletes FileRecycleLogRow.populate
  simp only [beq_self_eq_true, Bool.and_self]

/-- Deleting entries of the log violates no constraint. -/
theorem withoutEntry_consistent {t : Tables} (h : catalogueSchema.Consistent t)
    (l : FileRecycleLog) : catalogueSchema.Consistent (t.withoutEntry l) := by
  obtain ⟨him, hd⟩ := h
  have hi : t.Immediate := him
  refine ⟨?_, hd⟩
  exact { hi with
    file_recycle_log_pk := hi.file_recycle_log_pk.sublist (List.filter_sublist.map _)
    file_recycle_log_vid_fk := fun r hr =>
      hi.file_recycle_log_vid_fk r (mem_of_mem_filter hr)
    file_recycle_log_sc_fk := fun r hr =>
      hi.file_recycle_log_sc_fk r (mem_of_mem_filter hr) }

/-- The process dies at the next call, or a fault of either kind comes at the call after it. -/
def Counters.stopsBeforeDeletion (k : Counters) : Prop :=
  k.stop = some (0, .crash) ∨ ∃ kind, k.stop = some (1, kind)

section Rest

variable {d : RdbmsCatalogue} {l : FileRecycleLog}

/-- Only the death of the process goes past the handler. -/
theorem swallowing_error {x : OnConnection Unit} {e : Exn} {c c' : Connection}
    (h : x c = .error e c') :
    swallowing x c = (if e.kind = .crash then throw e else pure () : OnConnection Unit) c' := by
  show EStateM.tryCatch _ _ _ = _
  unfold EStateM.tryCatch
  rw [h]
  rfl

/-- The rollback of nothing, when no fault is in store for it and for the deletion. -/
theorem rollback_passes (h : ¬ d.counters.stopsBeforeDeletion) : Ends (swallowing rollback)
      (fun _ c => ∃ d' : RdbmsCatalogue, c = ⟨d', none⟩ ∧ d'.tables = d.tables
        ∧ ∀ kind, d'.counters.stop ≠ some (0, kind))
      (fun _ _ => False) ⟨d, none⟩ := by
  have hi := onConn_call_idle d
  unfold Ends
  cases hs : d.counters.stop with
  | none =>
    rw [hs] at hi
    have hr : rollback ⟨d, none⟩ = .ok () ⟨d, none⟩ := bind_ok hi
    rw [swallowing, tryCatch_ok hr]
    refine ⟨d, rfl, rfl, ?_⟩
    intro kind hk
    rw [hs] at hk
    cases hk
  | some stop =>
    obtain ⟨n, kind⟩ := stop
    rw [hs] at hi
    cases n with
    | zero =>
      cases kind with
      | crash => exact absurd (Or.inl hs) h
      | exception =>
        have hr : rollback ⟨d, none⟩ = .error StopKind.exception.exn
            ⟨{ d with counters := { d.counters with stop := none } }, none⟩ := bind_error hi
        rw [swallowing_error hr]
        exact ⟨_, rfl, rfl, fun kind hk => nomatch hk⟩
    | succ n =>
      have hr : rollback ⟨d, none⟩ = .ok ()
          ⟨{ d with counters := { d.counters with stop := some (n, kind) } }, none⟩ := bind_ok hi
      rw [swallowing, tryCatch_ok hr]
      refine ⟨_, rfl, rfl, ?_⟩
      intro kind' hk
      cases hk
      exact h (Or.inr ⟨kind, hs⟩)

/-- The rollback of nothing: the process dies in it, or the deletion is the next to fail. -/
theorem rollback_stops (h : d.counters.stopsBeforeDeletion) : Ends (swallowing rollback)
      (fun _ c => ∃ (d' : RdbmsCatalogue) (kind : StopKind), c = ⟨d', none⟩
        ∧ d'.tables = d.tables ∧ d'.counters.stop = some (0, kind))
      (fun _ c => Clean d.tables c) ⟨d, none⟩ := by
  have hi := onConn_call_idle d
  obtain hs | ⟨kind, hs⟩ := h
  · rw [hs] at hi
    have hr : rollback ⟨d, none⟩ = .error StopKind.crash.exn
        ⟨{ d with counters := { d.counters with stop := none } }, none⟩ := bind_error hi
    unfold Ends
    rw [swallowing_error hr]
    exact ⟨rfl, fun w hw => nomatch hw⟩
  · rw [hs] at hi
    have hr : rollback ⟨d, none⟩ = .ok ()
        ⟨{ d with counters := { d.counters with stop := some (0, kind) } }, none⟩ := bind_ok hi
    unfold Ends swallowing
    rw [tryCatch_ok hr]
    exact ⟨_, kind, rfl, rfl, rfl⟩

/-- The deletion outside of a transaction, when no fault is in store for it. -/
theorem deletion_passes (h : ∀ kind, d.counters.stop ≠ some (0, kind)) :
    Ends (onConn (deleteTapeFileCopyFromRecycleBin l))
      (fun _ c => Clean (d.tables.withoutEntry l) c) (fun _ _ => False) ⟨d, none⟩ := by
  have hc := withoutEntry_consistent d.consistent l
  have ha : catalogueSchema.Allows false (d.tables.withoutEntry l) := ⟨hc.1, Or.inr hc.2⟩
  have hr : ∀ s : Session Tables Counters, call d.open = .ok () s → s.tables = d.tables →
      s.deferred = false → deleteTapeFileCopyFromRecycleBin l d.open
        = .ok () { s with tables := d.tables.withoutEntry l } := by
    intro s hca hta hd
    refine tryCatch_ok ?_
    refine (bind_ok hca).trans ?_
    unfold execute
    rw [hta, hd, if_pos ha]
  have hdo : ∀ s : Session Tables Counters, call d.open = .ok () s → s.tables = d.tables →
      s.deferred = false → Ends (onConn (deleteTapeFileCopyFromRecycleBin l))
        (fun _ c => Clean (d.tables.withoutEntry l) c) (fun _ _ => False) ⟨d, none⟩ := by
    intro s hca hta hd
    unfold Ends onConn transaction
    simp only [hr s hca hta hd, dif_pos hc]
    exact ⟨rfl, fun w hw => by cases hw⟩
  cases hs : d.counters.stop with
  | none =>
    have hca : call d.open = .ok () d.open := by
      unfold call
      rw [show d.open.counters.stop = none from hs]
    exact hdo _ hca rfl rfl
  | some stop =>
    obtain ⟨n, kind⟩ := stop
    cases n with
    | zero => exact absurd hs (h kind)
    | succ n =>
      have hca : call d.open = .ok () { d.open with
          counters := { d.counters with stop := some (n, kind) } } := by
        unfold call
        rw [show d.open.counters.stop = some (n + 1, kind) from hs]
        rfl
      exact hdo _ hca rfl rfl

/-- The deletion outside of a transaction, when it is the call to fail. -/
theorem deletion_stops {kind : StopKind} (h : d.counters.stop = some (0, kind)) :
    Ends (onConn (deleteTapeFileCopyFromRecycleBin l))
      (fun _ _ => False) (fun _ c => Clean d.tables c) ⟨d, none⟩ := by
  unfold Ends
  cases hx : onConn (deleteTapeFileCopyFromRecycleBin l) ⟨d, none⟩ with
  | error e c => exact onConn_error hx
  | ok u c =>
    unfold onConn at hx
    cases ht : transaction violation (deleteTapeFileCopyFromRecycleBin l) d with
    | error e d' =>
      rw [ht] at hx
      cases hx
    | ok u' d' =>
      obtain ⟨s, hr, -⟩ := transaction_ok ht
      obtain ⟨_, s1, hc, -⟩ := exists_of_bind_ok (inFunction_ok hr)
      unfold call at hc
      rw [show d.open.counters.stop = some (0, kind) from h] at hc
      cases hc

end Rest

/-! ## All or nothing -/

/-- The copy is on its tape again, its archive file exists, and the entry is gone. -/
structure Restored (r : FileRecycleLogRow) (t : Tables) : Prop where
  copy : ∃ f ∈ t.tapeFile, f.vid = r.vid ∧ f.fSeq = r.fSeq ∧ f.blockId = r.blockId
    ∧ f.logicalSizeInBytes = r.sizeInBytes ∧ f.copyNb = r.copyNb
    ∧ f.archiveFileId = r.archiveFileId
  archiveFile : ∃ a ∈ t.archiveFile, a.archiveFileId = r.archiveFileId
  entry : r ∉ t.fileRecycleLog

section Outcome

variable {now : UInt64} {l : FileRecycleLog} {newFid : String} {d : RdbmsCatalogue} {c : Connection}

/-- A restore that does not come to the commit of `insertTapeFile` changes nothing. -/
theorem unchanged_of_not_committed {e : Exn}
    (h : untilCommitted now l newFid ⟨d, none⟩ = .error e c) :
    finalTables (withConn (restoreEntryInRecycleLog now [l] newFid)) d = d.tables := by
  refine finalTables_withConn (ends_inFunction ?_)
  obtain hp | ⟨_, c1, hp, hi⟩ := of_bind_error h
  · refine Ends.bind ?_
    unfold Ends
    rw [hp]
    exact prepareRestore_error hp
  · obtain ⟨w, hw, hd, -⟩ := prepareRestore_ok hp
    have hc := insertTapeFileAndCommit_error hi hw
    rw [hd] at hc
    refine Ends.bind ?_
    unfold Ends
    rw [hp]
    -- the rollback finds the transaction aborted, and the exception goes on
    have hth : Ends (insertTapeFile now l.tapeFile l.archiveFileId) (fun _ _ => False)
        (fun _ c' => Clean d.tables c') c1 := by
      unfold insertTapeFile autoRollback Ends leaving
      rw [hi]
      dsimp only
      by_cases hcr : e.kind = .crash
      · rw [if_pos hcr]
        exact hc
      rw [if_neg hcr]
      have he : Ends (swallowing rollback >>= fun _ => (throw e : OnConnection Unit))
          (fun _ _ => False) (fun _ c' => Clean d.tables c') c :=
        (Clean.swallowing hc.rollback).seq (fun _ c' hc' => hc')
      exact he
    have hco : Ends (restoreFileCopyInRecycleLog now l) (fun _ _ => False)
        (fun _ c' => Clean d.tables c') c1 :=
      ends_inFunction (hth.seq (fun _ _ hf => hf.elim))
    exact hco.seq (fun _ _ hf => hf.elim)

/-- What follows the commit of `insertTapeFile`, by how the rollback behind it and the deletion
end. -/
theorem finalTables_of_committed {t : Tables} {d₁ : RdbmsCatalogue}
    (h : untilCommitted now l newFid ⟨d, none⟩ = .ok () c) (hc : c = ⟨d₁, none⟩)
    (hrest : Ends (swallowing rollback >>= fun _ => onConn (deleteTapeFileCopyFromRecycleBin l))
      (fun _ c' => Clean t c') (fun _ c' => Clean t c') ⟨d₁, none⟩) :
    finalTables (withConn (restoreEntryInRecycleLog now [l] newFid)) d = t := by
  obtain ⟨_, c1, hp, hi⟩ := exists_of_bind_ok h
  rw [hc] at hi
  refine finalTables_withConn (ends_inFunction ?_)
  refine Ends.bind ?_
  unfold Ends
  rw [hp]
  have hl : insertTapeFile now l.tapeFile l.archiveFileId c1
      = (swallowing rollback >>= fun _ => (pure () : OnConnection Unit)) ⟨d₁, none⟩ := by
    unfold insertTapeFile autoRollback leaving
    rw [hi]
  have hs : (insertTapeFile now l.tapeFile l.archiveFileId >>=
      fun _ => onConn (deleteTapeFileCopyFromRecycleBin l)) c1
      = (swallowing rollback >>= fun _ => onConn (deleteTapeFileCopyFromRecycleBin l)) ⟨d₁, none⟩ := by
    cases hr : swallowing rollback ⟨d₁, none⟩ with
    | ok u c2 =>
      have hpu : insertTapeFile now l.tapeFile l.archiveFileId c1 = .ok () c2 := by
        rw [hl, bind_ok hr]
        rfl
      rw [bind_ok hpu, bind_ok hr]
    | error e c2 =>
      have hth : insertTapeFile now l.tapeFile l.archiveFileId c1 = .error e c2 := by
        rw [hl, bind_error hr]
      rw [bind_error hth, bind_error hr]
  have hco : Ends (restoreFileCopyInRecycleLog now l) (fun _ c' => Clean t c')
      (fun _ c' => Clean t c') c1 := by
    refine ends_inFunction ?_
    unfold Ends at hrest ⊢
    rw [hs]
    exact hrest
  exact hco.seq (fun _ c' hc' => hc'.commit)

/-- Without a fault in store for the rollback and the deletion, the entry goes. -/
theorem restored_of_committed (h : untilCommitted now l newFid ⟨d, none⟩ = .ok () c)
    (hs : ¬ c.database.counters.stopsBeforeDeletion) :
    finalTables (withConn (restoreEntryInRecycleLog now [l] newFid)) d
      = c.database.tables.withoutEntry l := by
  obtain ⟨hi, -⟩ := untilCommitted_ok h
  obtain ⟨d1, w⟩ := c
  obtain rfl : w = none := hi
  refine finalTables_of_committed h rfl (Ends.bind ?_)
  refine (rollback_passes hs).mono ?_ (fun _ _ hf => hf.elim)
  rintro _ c' ⟨d', rfl, hta, hnext⟩
  have hd := deletion_passes (l := l) hnext
  rw [hta] at hd
  exact hd.mono (fun _ _ hc => hc) (fun _ _ hf => hf.elim)

/-- With one, the copy is there and the entry is as well. -/
theorem stuck_of_stop (h : untilCommitted now l newFid ⟨d, none⟩ = .ok () c)
    (hs : c.database.counters.stopsBeforeDeletion) :
    finalTables (withConn (restoreEntryInRecycleLog now [l] newFid)) d = c.database.tables := by
  obtain ⟨hi, -⟩ := untilCommitted_ok h
  obtain ⟨d1, w⟩ := c
  obtain rfl : w = none := hi
  refine finalTables_of_committed h rfl (Ends.bind ?_)
  refine (rollback_stops hs).mono ?_ (fun _ _ hc => hc)
  rintro _ c' ⟨d', kind, rfl, hta, hnext⟩
  have hd := deletion_stops (l := l) hnext
  rw [hta] at hd
  exact hd.mono (fun _ _ hf => hf.elim) (fun _ _ hc => hc)

end Outcome

variable {criteria : RecycleTapeFileSearchCriteria} {d d' : RdbmsCatalogue}

theorem getFileRecycleLogItor_ok {entries : List FileRecycleLog}
    (h : transaction violation (getFileRecycleLogItor criteria) d = .ok entries d') :
    entries = d.tables.selectFileRecycleLogs criteria ∧ d'.tables = d.tables := by
  obtain ⟨s, hr, hta⟩ := transaction_ok h
  obtain ⟨_, s1, hc, hqu⟩ := exists_of_bind_ok (inFunction_ok hr)
  obtain ⟨rfl, hs⟩ := executeQuery_ok hqu
  have hs1 : s1.tables = d.tables := by
    unfold checkRecycleTapeFileSearchCriteria at hc
    cases hv : criteria.vid with
    | none =>
      rw [hv] at hc
      cases hc
      rfl
    | some vid =>
      rw [hv] at hc
      obtain ⟨tapeExists, s0, he, hth⟩ := exists_of_bind_ok hc
      obtain ⟨-, hs0⟩ := executeQuery_ok he
      split at hth
      next =>
        cases hth
        exact hs0
      next => cases hth
  rw [hta, hs, hs1]
  exact ⟨rfl, rfl⟩

theorem restoreFileInRecycleLog_ok {now : UInt64} {newFid : String} {u : Unit}
    (h : restoreFileInRecycleLog now criteria newFid d = .ok u d') :
    d'.tables.tape = d.tables.tape ∧ (d'.tables.tapeFile = d.tables.tapeFile
        ∨ ∃ l, d.tables.selectFileRecycleLogs criteria = [l] ∧ d'.tables.tapeFile
            = d.tables.tapeFile ++ [l.tapeFile.insertedRow now l.archiveFileId]) := by
  obtain ⟨entries, d1, hit, hr⟩ := exists_of_bind_ok (inFunction_ok h)
  obtain ⟨he, hd1⟩ := getFileRecycleLogItor_ok hit
  have hf : finalTables (withConn (restoreEntryInRecycleLog now entries newFid)) d1
      = d'.tables := by
    unfold finalTables
    rw [hr]
  obtain ⟨c, hen, -⟩ := withConn_ok hr
  have hb := inFunction_ok hen
  -- more than one entry is refused, and so is none
  obtain ⟨l, hl⟩ : ∃ l, entries = [l] := by
    cases entries with
    | nil => cases hb
    | cons l others =>
      cases others with
      | nil => exact ⟨l, rfl⟩
      | cons l' others => cases hb
  rw [hl] at hf he
  cases hru : untilCommitted now l newFid ⟨d1, none⟩ with
  | error e c1 =>
    rw [unchanged_of_not_committed hru, hd1] at hf
    rw [← hf]
    exact ⟨rfl, Or.inl rfl⟩
  | ok v c1 =>
    obtain ⟨-, hi⟩ := untilCommitted_ok hru
    rw [hd1] at hi
    have hs : d'.tables.tape = c1.database.tables.tape
        ∧ d'.tables.tapeFile = c1.database.tables.tapeFile := by
      by_cases hsp : c1.database.counters.stopsBeforeDeletion
      · rw [← hf, stuck_of_stop hru hsp]
        exact ⟨rfl, rfl⟩
      · rw [← hf, restored_of_committed hru hsp]
        exact ⟨rfl, rfl⟩
    exact ⟨hs.1.trans hi.tape, Or.inr ⟨l, he.symm, hs.2.trans hi.tapeFile⟩⟩

/-- **The restore is all or nothing, except for a stop between its two commits**: the process
dies right after the commit of `insertTapeFile`, or the deletion of the entry fails. -/
theorem restore_atomic_iff (now : UInt64) (newFid storageClassName : String) (d : RdbmsCatalogue)
    (r : FileRecycleLogRow) (hr : r ∈ d.tables.fileRecycleLog) :
    (finalTables (withConn (restoreEntryInRecycleLog now [r.populate storageClassName] newFid)) d
          = d.tables
        ∨ Restored r (finalTables
            (withConn (restoreEntryInRecycleLog now [r.populate storageClassName] newFid)) d))
      ↔ ∀ c, untilCommitted now (r.populate storageClassName) newFid ⟨d, none⟩ = .ok () c →
          ¬ c.database.counters.stopsBeforeDeletion := by
  constructor
  · intro ha c hc hsp
    obtain ⟨-, hi⟩ := untilCommitted_ok hc
    rw [stuck_of_stop hc hsp] at ha
    obtain hsa | hre := ha
    · -- the tables differ by a row
      have hl := congrArg List.length hi.tapeFile
      rw [hsa, length_append, length_singleton] at hl
      omega
    · exact hre.entry (hi.log r hr)
  · intro hs
    cases hru : untilCommitted now (r.populate storageClassName) newFid ⟨d, none⟩ with
    | error e c => exact Or.inl (unchanged_of_not_committed hru)
    | ok u c =>
      obtain ⟨-, hi⟩ := untilCommitted_ok hru
      refine Or.inr ?_
      rw [restored_of_committed hru (hs c hru)]
      refine ⟨?_, hi.archiveFile, ?_⟩
      · refine ⟨(r.populate storageClassName).tapeFile.insertedRow now r.archiveFileId, ?_,
          rfl, rfl, rfl, rfl, rfl, rfl⟩
        show _ ∈ c.database.tables.tapeFile
        rw [hi.tapeFile]
        exact mem_append_right _ (mem_singleton_self _)
      · intro hm
        have hk := (List.mem_filter.mp hm).2
        rw [deletes_populate] at hk
        cases hk

namespace DeletedFile

/-- The only copy of a file, in the log. -/
def entry : FileRecycleLogRow where
  fileRecycleLogId := 1
  vid := "V00001"
  fSeq := 1
  blockId := 0
  copyNb := 1
  tapeFileCreationTime := 0
  archiveFileId := 7
  diskInstanceName := "eos"
  diskFileId := "0x7"
  diskFileIdWhenDeleted := "0x7"
  diskFileUid := 1001
  diskFileGid := 1001
  sizeInBytes := 100
  checksumBlob := some ⟨[(.adler32, [1, 0, 0, 0])]⟩
  checksumAdler32 := 1
  storageClassId := 1
  archiveFileCreationTime := 0
  reconciliationTime := 0
  collocationHint := none
  diskFilePath := some "/eos/file"
  reasonLog := "File deleted by user from the eos instance"
  recycleLogTime := 3

def tables : Tables where
  diskInstance := ["eos"]
  storageClass := [⟨1, "single"⟩]
  tape := [⟨"V00001", .active, 1, 100, 1, 100, true, none, none⟩]
  archiveFile := []
  tapeFile := []
  fileRecycleLog := [entry]

variable (stop : Option (Nat × StopKind))

def start : RdbmsCatalogue :=
  ⟨tables, by decide +kernel, { fileRecycleLogIdSeq := 2, stop := stop }⟩

def after : Tables :=
  finalTables (withConn (restoreEntryInRecycleLog 5 [entry.populate "single"] "0x17")) (start stop)

/-- The fault that is in store after the first commit. -/
def stopAfterCommit : Option (Option (Nat × StopKind)) :=
  match untilCommitted 5 (entry.populate "single") "0x17" ⟨start stop, none⟩ with
  | .ok _ c => some c.database.counters.stop
  | .error _ _ => none

end DeletedFile

theorem undisturbed_restore_restores : Restored DeletedFile.entry (DeletedFile.after none) := by
  have hch : DeletedFile.after none ≠ (DeletedFile.start none).tables := by decide +kernel
  have hs : DeletedFile.stopAfterCommit none = some none := by decide +kernel
  have he := restore_atomic_iff 5 "0x17" "single" (DeletedFile.start none) DeletedFile.entry
    (mem_singleton_self _)
  obtain hsa | hr := he.mpr (by
    intro c hc hss
    unfold DeletedFile.stopAfterCommit at hs
    rw [hc] at hs
    obtain hcr | ⟨kind, hk⟩ := hss
    · rw [Option.some.inj hs] at hcr
      cases hcr
    · rw [Option.some.inj hs] at hk
      cases hk)
  · exact absurd hsa hch
  · exact hr

/-- **Both entries**: the deletion of the entry fails, when the copy is back in `TAPE_FILE`. -/
theorem copy_is_listed_and_deleted : ((DeletedFile.after (some (8, .exception))).tapeFile.map
        (fun f => (f.vid, f.fSeq, f.copyNb, f.archiveFileId)) = [("V00001", 1, 1, 7)]
      ∧ (DeletedFile.after (some (8, .exception))).fileRecycleLog = [DeletedFile.entry])
    ∧ ¬ (DeletedFile.after (some (8, .exception)) = (DeletedFile.start (some (8, .exception))).tables
      ∨ Restored DeletedFile.entry (DeletedFile.after (some (8, .exception)))) := by
  have htf : (DeletedFile.after (some (8, .exception))).tapeFile.map
      (fun f => (f.vid, f.fSeq, f.copyNb, f.archiveFileId)) = [("V00001", 1, 1, 7)] := by
    decide +kernel
  have hl : (DeletedFile.after (some (8, .exception))).fileRecycleLog = [DeletedFile.entry] := by
    decide +kernel
  refine ⟨⟨htf, hl⟩, ?_⟩
  rintro (hs | hr)
  · rw [hs] at htf
    cases htf
  apply hr.entry
  rw [hl]
  exact mem_singleton_self _

end TapeArchive.Catalogue
