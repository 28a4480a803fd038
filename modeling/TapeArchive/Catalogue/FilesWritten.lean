/-
  **FILES WRITTEN TO TAPE ARE RECORDED COMPLETELY OR NOT AT ALL**
  (`PostgresCatalogue::filesWrittenToTape`), in one transaction:

      checkItems ─▶ updateTape ─▶ idempotentBatchInsertArchiveFiles
                      ─▶ selectArchiveFileSizesAndChecksums ─▶ checkSizesAndChecksums
                      ─▶ insertOldCopiesOfBatch ─▶ INSERT INTO TAPE_FILE ─▶ DELETE old copies

  A `SELECT` without `ORDER BY` gives its rows in the order of the table.
-/
import TapeArchive.Catalogue.RecycleLog

namespace TapeArchive.Catalogue

open Lib List

/-! ## Written items -/

structure TapeItemWritten where
  vid : String
  fSeq : UInt64
  tapeDrive : String

structure TapeFileWritten extends TapeItemWritten where
  archiveFileId : UInt64
  (diskInstance diskFileId : String)
  (diskFileOwnerUid diskFileGid : UInt32)
  size : UInt64
  checksumBlob : ChecksumBlob
  storageClassName : String
  blockId : UInt64
  copyNb : UInt8

/-- What a `TapeItemWrittenPointer` points to. -/
inductive WrittenItem where
  | placeholder (item : TapeItemWritten)
  | file (file : TapeFileWritten)

def WrittenItem.item : WrittenItem → TapeItemWritten
  | .placeholder p => p
  | .file f => f.toTapeItemWritten

/-- The `dynamic_cast` to `TapeFileWritten`. -/
def WrittenItem.file? : WrittenItem → Option TapeFileWritten
  | .placeholder _ => none
  | .file f => some f

/-- `std::set<TapeItemWrittenPointer>`: in the order of the file sequence numbers. -/
structure WrittenItems where
  items : List WrittenItem
  sorted : items.Pairwise (fun i j => i.item.fSeq < j.item.fSeq)

def filesOf (items : List WrittenItem) : List TapeFileWritten := items.filterMap WrittenItem.file?

def bytesOf (files : List TapeFileWritten) : Nat := (files.map (·.size.toNat)).sum

/-- `checkTapeItemWrittenFieldsAreSet`: the first field that is not set. -/
def checkTapeItemWrittenFieldsAreSet (callingFunc : String) (event : TapeItemWritten) :
    Except Exn Unit :=
  let invalid (what : String) : Except Exn Unit :=
    .error ⟨.exception, callingFunc ++ " failed: TapeItemWrittenEvent is invalid: " ++ what⟩
  if event.vid = "" then invalid "vid is an empty string"
  else if event.fSeq = 0 then invalid "fSeq is 0"
  else if event.tapeDrive = "" then invalid "tapeDrive is an empty string"
  else .ok ()

/-- `checkTapeFileWrittenFieldsAreSet`: the first field that is not set. -/
def checkTapeFileWrittenFieldsAreSet (callingFunc : String) (event : TapeFileWritten) :
    Except Exn Unit :=
  let invalid (what : String) : Except Exn Unit :=
    .error ⟨.exception, callingFunc ++ " failed: TapeFileWrittenEvent is invalid: " ++ what⟩
  if event.diskInstance = "" then invalid "diskInstance is an empty string"
  else if event.diskFileId = "" then invalid "diskFileId is an empty string"
  else if event.diskFileOwnerUid = 0 then invalid "diskFileOwnerUid is 0"
  else if event.size = 0 then invalid "size is 0"
  else if event.checksumBlob.m_cs.isEmpty then invalid "checksumBlob is an empty string"
  else if event.storageClassName = "" then invalid "storageClassName is an empty string"
  else if event.vid = "" then invalid "vid is an empty string"
  else if event.fSeq = 0 then invalid "fSeq is 0"
  else if event.blockId = 0 ∧ event.fSeq ≠ 1 then invalid "blockId is 0 and fSeq is not 1"
  else if event.copyNb = 0 then invalid "copyNb is 0"
  else if event.tapeDrive = "" then invalid "tapeDrive is an empty string"
  else .ok ()

/-! ## The statements -/

def selectTapeForUpdateAndGetLastFSeq (vid : String) : Conn UInt64 :=
  inFunction "selectTapeForUpdateAndGetLastFSeq" do
    let row ← executeQuery fun t => t.tape.find? (fun r => r.vid == vid)
    match row with
    | some tape => return tape.lastFSeq
    | none => throw ⟨.exception, "The tape with VID " ++ vid ++ " does not exist"⟩

/-- The tests of the loop over the items: the fields are set, one tape, no gap. -/
def checkItem (vid : String) (expectedFSeq : UInt64) (event : WrittenItem) : Except Exn Unit := do
  checkTapeItemWrittenFieldsAreSet "filesWrittenToTape" event.item
  if event.item.vid ≠ vid then
    throw ⟨.exception, "VID mismatch: expected=" ++ vid ++ " actual=" ++ event.item.vid⟩
  else if expectedFSeq ≠ event.item.fSeq then
    throw ⟨.tapeFseqMismatch, "FSeq mismatch for tape " ++ vid ++ ": expected="
      ++ toString expectedFSeq ++ " actual=" ++ toString event.item.fSeq⟩
  else
    match event with
    | .placeholder _ => return ()
    | .file file => checkTapeFileWrittenFieldsAreSet "filesWrittenToTape" file

/-- The loop over the items: it adds up `totalLogicalBytesWritten`. -/
def checkItems (vid : String) : UInt64 → UInt64 → List WrittenItem → Except Exn UInt64
  | _, totalLogicalBytesWritten, [] => .ok totalLogicalBytesWritten
  | expectedFSeq, totalLogicalBytesWritten, event :: events => do
      checkItem vid expectedFSeq event
      checkItems vid (expectedFSeq + 1)
        (match event with
          | .placeholder _ => totalLogicalBytesWritten
          | .file file => totalLogicalBytesWritten + file.size) events

/-- The row after `UPDATE TAPE`. -/
def TapeRow.written (r : TapeRow) (lastFSeq compressedBytesWritten : UInt64) (filesWritten : Nat)
    (tapeDrive : String) (now : UInt64) : TapeRow :=
  { r with
    lastFSeq := lastFSeq
    dataInBytes := r.dataInBytes + compressedBytesWritten.toNat
    masterDataInBytes := r.masterDataInBytes + compressedBytesWritten.toNat
    nbMasterFiles := r.nbMasterFiles + filesWritten
    lastWriteDrive := some tapeDrive
    lastWriteTime := some now }

def updateTape (vid : String) (lastFSeq compressedBytesWritten : UInt64) (filesWritten : Nat)
    (tapeDrive : String) (now : UInt64) : Conn Unit :=
  inFunction "updateTape" (executeNonQuery fun t => { t with
    tape := t.tape.map fun r =>
      if r.vid = vid then r.written lastFSeq compressedBytesWritten filesWritten tapeDrive now
      else r })

/-- The row of `TEMP_ARCHIVE_FILE_BATCH` joined with a storage class. -/
def TapeFileWritten.archiveFileRow (event : TapeFileWritten) (now storageClassId : UInt64) :
    ArchiveFileRow where
  archiveFileId := event.archiveFileId
  diskInstanceName := event.diskInstance
  diskFileId := event.diskFileId
  diskFileUid := event.diskFileOwnerUid
  diskFileGid := event.diskFileGid
  sizeInBytes := event.size
  checksumBlob := event.checksumBlob.serialize
  checksumAdler32 := event.checksumBlob.adler32
  storageClassId := storageClassId
  creationTime := now
  reconciliationTime := now

/-- `idempotentBatchInsertArchiveFiles`; `ON CONFLICT (ARCHIVE_FILE_ID) DO NOTHING`. -/
def idempotentBatchInsertArchiveFiles (now : UInt64) (events : List TapeFileWritten) : Conn Unit :=
  inFunction "idempotentBatchInsertArchiveFiles" do
    -- `COPY TEMP_ARCHIVE_FILE_BATCH`
    call
    executeNonQuery fun t => { t with
      archiveFile := insertNew (·.archiveFileId) t.archiveFile
        ((events.flatMap fun event =>
          (t.storageClass.filter (fun c => c.storageClassName == event.storageClassName)).map
            fun c => event.archiveFileRow now c.storageClassId).insertionSort
              (fun a b => a.archiveFileId ≤ b.archiveFileId)) }

structure FileSizeAndChecksum where
  fileSize : UInt64
  checksumBlob : ChecksumBlob

/-- The loop over the result set; the map is a list of its entries. -/
def collectFileSizes : List ArchiveFileRow → List (UInt64 × FileSizeAndChecksum) →
    Except Exn (List (UInt64 × FileSizeAndChecksum))
  | [], entries => .ok entries
  | a :: rows, entries =>
      if entries.any (fun entry => entry.1 == a.archiveFileId) then
        .error ⟨.exception, "selectArchiveFileSizesAndChecksums failed: Found duplicate archive "
          ++ "file identifier in batch of files written to tape: archiveFileId="
          ++ toString a.archiveFileId⟩
      else collectFileSizes rows (entries ++ [(a.archiveFileId, ⟨a.sizeInBytes,
        ChecksumBlob.deserializeOrSetAdler32 a.checksumBlob a.checksumAdler32⟩)])

/-- `ARCHIVE_FILE INNER JOIN TEMP_TAPE_FILE_BATCH`. -/
def Tables.joinBatch (t : Tables) (events : List TapeFileWritten) : List ArchiveFileRow :=
  events.flatMap fun event => t.archiveFile.filter (fun a => a.archiveFileId == event.archiveFileId)

def selectArchiveFileSizesAndChecksums (events : List TapeFileWritten) :
    Conn (List (UInt64 × FileSizeAndChecksum)) :=
  inFunction "selectArchiveFileSizesAndChecksums" do
    let rows ← executeQuery fun t => t.joinBatch events
    liftExcept (collectFileSizes rows [])

/-- The test of a file event against the entry of its archive file. -/
def checkSizeAndChecksum (fileSizesAndChecksums : List (UInt64 × FileSizeAndChecksum))
    (event : TapeFileWritten) : Except Exn Unit :=
  let fileContext := "archiveFileId=" ++ toString event.archiveFileId ++ ", diskInstanceName="
    ++ event.diskInstance ++ ", diskFileId=" ++ event.diskFileId
  match fileSizesAndChecksums.find? (fun entry => entry.1 == event.archiveFileId) with
  | none => .error ⟨.exception, "filesWrittenToTape: Failed to find archive file entry in the "
      ++ "catalogue: " ++ fileContext⟩
  | some entry =>
      if entry.2.fileSize ≠ event.size then
        .error ⟨.fileSizeMismatch, "filesWrittenToTape: File size mismatch: expected="
          ++ toString entry.2.fileSize ++ ", actual=" ++ toString event.size ++ ": " ++ fileContext⟩
      else entry.2.checksumBlob.validate event.checksumBlob

/-- The loop of these tests. -/
def checkSizesAndChecksums (fileSizesAndChecksums : List (UInt64 × FileSizeAndChecksum)) :
    List TapeFileWritten → Except Exn Unit
  | [] => .ok ()
  | event :: events => do
      checkSizeAndChecksum fileSizesAndChecksums event
      checkSizesAndChecksums fileSizesAndChecksums events

/-- The row of `TEMP_TAPE_FILE_INSERTION_BATCH` for a file. -/
def TapeFileWritten.row (now : UInt64) (event : TapeFileWritten) : TapeFileRow where
  vid := event.vid
  fSeq := event.fSeq
  blockId := event.blockId
  logicalSizeInBytes := event.size
  copyNb := event.copyNb
  creationTime := now
  archiveFileId := event.archiveFileId

/-- The part of `filesWrittenToTape` that records the files. -/
def recordFiles (now : UInt64) (fileEvents : List TapeFileWritten) : Conn Unit := do
  idempotentBatchInsertArchiveFiles now fileEvents
  -- `insertTapeFileBatchIntoTempTable`
  call
  let fileSizesAndChecksums ← selectArchiveFileSizesAndChecksums fileEvents
  liftExcept (checkSizesAndChecksums fileSizesAndChecksums fileEvents)
  let batch := fileEvents.map (TapeFileWritten.row now)
  -- `COPY TEMP_TAPE_FILE_INSERTION_BATCH`
  call
  insertReplacing (insertOldCopiesOfBatch now batch) batch

/-- After the `BEGIN`: the temporary tables, and the constraint that waits for the commit. -/
def beginCreateTemporarySetDeferred : Conn Unit := do
  call
  deferConstraints

/-- The transaction of `filesWrittenToTape`; the events come with ascending numbers. -/
def recordItems (now : UInt64) (firstEvent : WrittenItem) (others : List WrittenItem) : Conn Unit := do
  beginCreateTemporarySetDeferred
  let lastFSeq ← selectTapeForUpdateAndGetLastFSeq firstEvent.item.vid
  let totalLogicalBytesWritten ← liftExcept
    (checkItems firstEvent.item.vid (lastFSeq + 1) 0 (firstEvent :: others))
  let lastEvent := others.getLastD firstEvent
  let fileEvents := filesOf (firstEvent :: others)
  updateTape lastEvent.item.vid lastEvent.item.fSeq totalLogicalBytesWritten fileEvents.length
    lastEvent.item.tapeDrive now
  -- only placeholders: the new last number is all there is to record
  if fileEvents.isEmpty then pure () else recordFiles now fileEvents

def filesWrittenToTape (now : UInt64) (events : WrittenItems) : EStateM Exn RdbmsCatalogue Unit :=
  inFunction "filesWrittenToTape" do
    match events.items with
    | [] => pure ()
    | firstEvent :: others =>
        liftExcept (checkTapeItemWrittenFieldsAreSet "filesWrittenToTape" firstEvent.item)
        inTransaction (recordItems now firstEvent others)

/-! ## The loop over the items -/

theorem checkTapeItemWritten_fSeq {callingFunc : String} {event : TapeItemWritten}
    (h : checkTapeItemWrittenFieldsAreSet callingFunc event = .ok ()) : event.fSeq ≠ 0 := by
  intro hz
  unfold checkTapeItemWrittenFieldsAreSet at h
  by_cases hv : event.vid = ""
  · rw [if_pos hv] at h
    cases h
  · rw [if_neg hv, if_pos hz] at h
    cases h

variable {vid : String} {event : WrittenItem}

theorem checkItem_ok {expectedFSeq : UInt64} (h : checkItem vid expectedFSeq event = .ok ()) :
    event.item.vid = vid ∧ event.item.fSeq = expectedFSeq ∧ event.item.fSeq ≠ 0 := by
  unfold checkItem at h
  cases hs : checkTapeItemWrittenFieldsAreSet "filesWrittenToTape" event.item with
  | error e =>
    rw [hs] at h
    cases h
  | ok u =>
    rw [hs] at h
    have h' : (if event.item.vid ≠ vid then _ else _ : Except Exn Unit) = .ok () := h
    by_cases hv : event.item.vid ≠ vid
    · rw [if_pos hv] at h'
      cases h'
    rw [if_neg hv] at h'
    by_cases hse : expectedFSeq ≠ event.item.fSeq
    · rw [if_pos hse] at h'
      cases h'
    · exact ⟨not_not.mp hv, (not_not.mp hse).symm, checkTapeItemWritten_fSeq hs⟩

variable {events : List WrittenItem}

theorem checkItems_cons {expectedFSeq total total' : UInt64}
    (h : checkItems vid expectedFSeq total (event :: events) = .ok total') :
    checkItem vid expectedFSeq event = .ok () ∧ checkItems vid (expectedFSeq + 1)
          (total + UInt64.ofNat (bytesOf event.file?.toList)) events = .ok total' := by
  unfold checkItems at h
  cases hi : checkItem vid expectedFSeq event with
  | error e =>
    rw [hi] at h
    cases h
  | ok u =>
    rw [hi] at h
    refine ⟨rfl, ?_⟩
    cases event with
    | placeholder item =>
      have hz : total + UInt64.ofNat (bytesOf (WrittenItem.placeholder item).file?.toList) = total := by
        exact UInt64.add_zero total
      rw [hz]
      exact h
    | file file =>
      have hs : UInt64.ofNat (bytesOf (WrittenItem.file file).file?.toList) = file.size := by
        show UInt64.ofNat ((file.size.toNat + 0)) = file.size
        rw [Nat.add_zero, UInt64.ofNat_toNat]
      rw [hs]
      exact h

theorem toNat_add_one {n : UInt64} (h : n + 1 ≠ 0) : (n + 1).toNat = n.toNat + 1 := by
  have hne : (n + 1).toNat ≠ 0 := fun hz => h (UInt64.toNat_inj.mp hz)
  have hlt := n.toNat_lt
  have ho : (1 : UInt64).toNat = 1 := rfl
  rw [UInt64.toNat_add, ho] at hne ⊢
  omega

theorem bytesOf_append (fs gs : List TapeFileWritten) :
    bytesOf (fs ++ gs) = bytesOf fs + bytesOf gs := by
  unfold bytesOf
  rw [map_append, sum_append]

theorem filesOf_cons (event : WrittenItem) (events : List WrittenItem) :
    filesOf (event :: events) = event.file?.toList ++ filesOf events := by
  unfold filesOf
  rw [filterMap_cons]
  cases event.file? with
  | none | some => rfl

/-- **The loop**: one tape, numbers without a gap, and the sum of the sizes as far as 64 bits
hold it. -/
theorem checkItems_ok : ∀ {expectedFSeq total total' : UInt64},
      checkItems vid expectedFSeq total events = .ok total' →
      (∀ event ∈ events, event.item.vid = vid)
        ∧ events.map (·.item.fSeq.toNat) = List.range' expectedFSeq.toNat events.length
        ∧ total' = total + UInt64.ofNat (bytesOf (filesOf events)) := by
  induction events with
  | nil =>
    intro expectedFSeq total total' h
    cases h
    refine ⟨fun event he => (nomatch he), rfl, ?_⟩
    exact (UInt64.add_zero total).symm
  | cons event events ih =>
    intro expectedFSeq total total' h
    obtain ⟨hi, hrest⟩ := checkItems_cons h
    obtain ⟨hvi, hse, -⟩ := checkItem_ok hi
    obtain ⟨hv, hs, htl⟩ := ih hrest
    refine ⟨?_, ?_, ?_⟩
    · intro e he
      obtain rfl | he := mem_cons.mp he
      · exact hvi
      · exact hv e he
    · rw [map_cons, hs, hse, length_cons, List.range'_succ]
      congr 1
      -- the number after the last one may not fit, but then there is no item left
      cases events with
      | nil => rfl
      | cons next events =>
        obtain ⟨hnext, -⟩ := checkItems_cons hrest
        obtain ⟨-, hns, hn⟩ := checkItem_ok hnext
        rw [hns] at hn
        rw [toNat_add_one hn]
    · rw [htl, filesOf_cons, bytesOf_append, UInt64.ofNat_add, UInt64.add_assoc]

/-! ## The files -/

def TapeFileWritten.copy (f : TapeFileWritten) : UInt64 × UInt8 := (f.archiveFileId, f.copyNb)

theorem collectFileSizes_ok {rows : List ArchiveFileRow} :
    ∀ {entries entries' : List (UInt64 × FileSizeAndChecksum)},
      collectFileSizes rows entries = .ok entries' → (entries.map Prod.fst).Nodup →
      entries'.map Prod.fst = entries.map Prod.fst ++ rows.map (·.archiveFileId)
        ∧ (entries'.map Prod.fst).Nodup := by
  induction rows with
  | nil =>
    intro entries entries' h hn
    cases h
    exact ⟨(append_nil _).symm, hn⟩
  | cons a rows ih =>
    intro entries entries' h hn
    unfold collectFileSizes at h
    by_cases hdu : entries.any (fun entry => entry.1 == a.archiveFileId) = true
    · rw [if_pos hdu] at h
      cases h
    rw [if_neg hdu] at h
    have hnew : a.archiveFileId ∉ entries.map Prod.fst := by
      intro hm
      obtain ⟨entry, hen, hid⟩ := mem_map.mp hm
      exact hdu (any_eq_true.mpr ⟨entry, hen, beq_iff_eq.mpr hid⟩)
    have he : (entries.map Prod.fst ++ [a.archiveFileId]).Nodup := by
      refine nodup_append.mpr ⟨hn, nodup_singleton _, ?_⟩
      intro x hx y hy hxy
      obtain rfl := mem_singleton.mp hy
      obtain rfl := hxy
      exact hnew hx
    obtain ⟨hk, hd⟩ := ih h (by
      rw [map_append]
      exact he)
    refine ⟨?_, hd⟩
    rw [hk, map_append, map_cons, append_assoc]
    rfl

variable {events : List TapeFileWritten} {s s' : Session Tables Counters}
  {entries : List (UInt64 × FileSizeAndChecksum)}

theorem selectArchiveFileSizesAndChecksums_ok
    (h : selectArchiveFileSizesAndChecksums events s = .ok entries s') :
    s'.tables = s.tables ∧ entries.map Prod.fst = (s.tables.joinBatch events).map (·.archiveFileId)
      ∧ (entries.map Prod.fst).Nodup := by
  obtain ⟨rows, s1, hqu, hc⟩ := exists_of_bind_ok (inFunction_ok h)
  obtain ⟨rfl, hta⟩ := executeQuery_ok hqu
  obtain ⟨he, rfl⟩ := liftExcept_ok hc
  obtain ⟨hk, hn⟩ := collectFileSizes_ok he nodup_nil
  exact ⟨hta, hk, hn⟩

theorem checkSizesAndChecksums_ok (h : checkSizesAndChecksums entries events = .ok ()) :
    ∀ event ∈ events, event.archiveFileId ∈ entries.map Prod.fst := by
  induction events with
  | nil => exact fun event he => nomatch he
  | cons first events ih =>
    unfold checkSizesAndChecksums at h
    cases hf : checkSizeAndChecksum entries first with
    | error e =>
      rw [hf] at h
      cases h
    | ok u =>
      rw [hf] at h
      intro event he
      obtain rfl | he := mem_cons.mp he
      · unfold checkSizeAndChecksum at hf
        cases hfi : entries.find? (fun entry => entry.1 == event.archiveFileId) with
        | none =>
          rw [hfi] at hf
          cases hf
        | some entry =>
          have hid := List.find?_some hfi
          rw [← beq_iff_eq.mp hid]
          exact mem_map_of_mem (mem_of_find?_eq_some hfi)
      · exact ih h event he

variable {t : Tables}

theorem sublist_joinBatch
    (h : ∀ event ∈ events, ∃ a ∈ t.archiveFile, a.archiveFileId = event.archiveFileId) :
    (events.map (·.archiveFileId)).Sublist ((t.joinBatch events).map (·.archiveFileId)) := by
  induction events with
  | nil => exact List.Sublist.refl _
  | cons event events ih =>
    obtain ⟨a, ha, hid⟩ := h event mem_cons_self
    have hf : [event.archiveFileId].Sublist ((t.archiveFile.filter
        (fun a => a.archiveFileId == event.archiveFileId)).map (·.archiveFileId)) := by
      rw [singleton_sublist, ← hid]
      exact mem_map_of_mem (mem_filter.mpr ⟨ha, beq_iff_eq.mpr rfl⟩)
    have hrest := ih (fun e he => h e (.tail _ he))
    unfold Tables.joinBatch at hrest ⊢
    rw [flatMap_cons, map_append, map_cons]
    exact hf.append hrest

theorem mem_joinBatch {id : UInt64} (h : id ∈ (t.joinBatch events).map (·.archiveFileId)) :
    ∃ a ∈ t.archiveFile, a.archiveFileId = id := by
  obtain ⟨a, ha, rfl⟩ := mem_map.mp h
  obtain ⟨event, -, ha⟩ := mem_flatMap.mp ha
  exact ⟨a, (mem_filter.mp ha).1, rfl⟩

/-- **Replacing old copies**: what is left are the rows of other copies, and the batch. -/
theorem filter_oldCopies {batch : List TapeFileRow}
    (hu : UniqueKey TapeFileRow.position (t.tapeFile ++ batch)) :
    (t.tapeFile ++ batch).filter
        (fun r => !((t.oldCopiesOfBatch batch).map TapeFileRow.position).contains r.position)
      = t.tapeFile.filter (fun r => !batch.any (fun b => b.copy == r.copy)) ++ batch := by
  rw [filter_append]
  congr 1
  · apply filter_congr
    intro r hr
    congr 1
    rw [Bool.eq_iff_iff, contains_iff_mem, any_eq_true]
    constructor
    · intro hm
      obtain ⟨q, hq, hp⟩ := mem_map.mp hm
      obtain ⟨hq, b, hb, hc, -⟩ := Tables.mem_oldCopiesOfBatch.mp hq
      obtain rfl := hu.of_append.eq_of_key hq hr hp
      exact ⟨b, hb, beq_iff_eq.mpr hc⟩
    · rintro ⟨b, hb, hc⟩
      refine mem_map_of_mem (Tables.mem_oldCopiesOfBatch.mpr ⟨hr, b, hb, ?_, ?_⟩)
      · exact beq_iff_eq.mp hc
      · exact hu.append_disjoint hr hb
  · apply filter_eq_self.mpr
    intro b hb
    rw [Bool.not_eq_true', ← Bool.not_eq_true, contains_iff_mem]
    intro hm
    obtain ⟨q, hq, hp⟩ := mem_map.mp hm
    obtain ⟨hq, -⟩ := Tables.mem_oldCopiesOfBatch.mp hq
    exact hu.append_disjoint hq hb hp

structure FilesRecorded (now : UInt64) (files : List TapeFileWritten) (t t' : Tables) : Prop where
  tape : t'.tape = t.tape
  tapeFile : t'.tapeFile
    = t.tapeFile.filter (fun r => !files.any (fun f => f.copy == r.copy))
      ++ files.map (TapeFileWritten.row now)
  distinct : (files.map (·.archiveFileId)).Nodup
  log : ∃ added, t'.fileRecycleLog = t.fileRecycleLog ++ added
    ∧ ∀ r ∈ t.tapeFile, (∃ f ∈ files, f.copy = r.copy) → ∃ l ∈ added, l.IsAbout r

theorem FilesRecorded.nil (now : UInt64) (t : Tables) : FilesRecorded now [] t t where
  tape := rfl
  tapeFile := by
    rw [map_nil, append_nil]
    exact (filter_eq_self.mpr (fun r _ => rfl)).symm
  distinct := nodup_nil
  log := ⟨[], (append_nil _).symm, fun r _ ⟨f, hf, _⟩ => nomatch hf⟩

variable {now : UInt64} {u : Unit}

theorem idempotentBatchInsertArchiveFiles_ok
    (h : idempotentBatchInsertArchiveFiles now events s = .ok u s') :
    ∃ rows, s'.tables = { s.tables with archiveFile := rows } ∧ s'.tables.Immediate := by
  obtain ⟨_, s1, hc, hin⟩ := exists_of_bind_ok (inFunction_ok h)
  obtain ⟨hta, hi⟩ := executeNonQuery_ok hin
  rw [← hta] at hi
  rw [(call_ok hc).1] at hta
  exact ⟨_, hta, hi⟩

theorem recordFiles_ok {files : List TapeFileWritten} (h : recordFiles now files s = .ok u s') :
    FilesRecorded now files s.tables s'.tables := by
  obtain ⟨_, s1, har, h⟩ := exists_of_bind_ok h
  obtain ⟨_, s2, hte, h⟩ := exists_of_bind_ok h
  obtain ⟨entries, s3, hs, h⟩ := exists_of_bind_ok h
  obtain ⟨_, s4, hl, h⟩ := exists_of_bind_ok h
  obtain ⟨_, s5, hc, hin⟩ := exists_of_bind_ok h
  obtain ⟨archiveFiles, ht1, hi⟩ := idempotentBatchInsertArchiveFiles_ok har
  obtain ⟨ht3, hk, hn⟩ := selectArchiveFileSizesAndChecksums_ok hs
  obtain ⟨hch, rfl⟩ := liftExcept_ok hl
  obtain ⟨added, ht', hu, hadd⟩ := insertReplacing_ok hin
  -- only the archive files have changed before the insertion
  rw [(call_ok hte).1] at ht3 hk
  have ht5 : s5.tables = s1.tables := (call_ok hc).1.trans ht3
  rw [ht5] at ht' hu hadd
  rw [hk] at hn
  have hfo : ∀ f ∈ files, ∃ a ∈ s1.tables.archiveFile, a.archiveFileId = f.archiveFileId := by
    intro f hf
    have hm := checkSizesAndChecksums_ok hch f hf
    rw [hk] at hm
    exact mem_joinBatch hm
  have hro : s1.tables.tapeFile = s.tables.tapeFile := by rw [ht1]
  rw [filter_oldCopies hu] at ht'
  refine ⟨by rw [ht', ht1], ?_, hn.sublist (sublist_joinBatch hfo), added, ?_, ?_⟩
  · rw [ht', ← hro]
    dsimp only
    congr 1
    apply filter_congr
    intro r _
    rw [any_map]
    rfl
  · rw [ht', ht1]
  · intro r hr hre
    obtain ⟨f, hf, hc⟩ := hre
    rw [← hro] at hr
    have hrw : f.row now ∈ files.map (TapeFileWritten.row now) := mem_map_of_mem hf
    have hold : r ∈ s1.tables.oldCopiesOfBatch (files.map (TapeFileWritten.row now)) :=
      Tables.mem_oldCopiesOfBatch.mpr ⟨hr, f.row now, hrw, hc, hu.append_disjoint hr hrw⟩
    obtain ⟨a, ha, hid⟩ := hi.tape_file_archive_file_fk r hr
    exact hadd r hold a ha hid

/-! ## The transaction -/

/-- The tables after `updateTape` for a batch. -/
def Tables.tapeWritten (t : Tables) (now : UInt64) (last : TapeItemWritten)
    (files : List TapeFileWritten) : Tables :=
  { t with tape := t.tape.map fun r =>
      if r.vid = last.vid then
        r.written last.fSeq (UInt64.ofNat (bytesOf files)) files.length last.tapeDrive now
      else r }

/-- What a call that returns has checked and done. -/
structure ItemsRecorded (now : UInt64) (items : List WrittenItem) (tape : TapeRow)
    (last : WrittenItem) (t t' : Tables) : Prop where
  tape_mem : tape ∈ t.tape
  oneTape : ∀ item ∈ items, item.item.vid = tape.vid
  noGap : items.map (·.item.fSeq.toNat) = List.range' (tape.lastFSeq.toNat + 1) items.length
  last_eq : items.getLast? = some last
  files : FilesRecorded now (filesOf items) (t.tapeWritten now last.item (filesOf items)) t'

theorem selectTapeForUpdate_ok {lastFSeq : UInt64}
    (h : selectTapeForUpdateAndGetLastFSeq vid s = .ok lastFSeq s') :
    s'.tables = s.tables ∧ ∃ tape ∈ s.tables.tape, tape.vid = vid ∧ tape.lastFSeq = lastFSeq := by
  obtain ⟨row, s1, hqu, h⟩ := exists_of_bind_ok (inFunction_ok h)
  obtain ⟨hr, hta⟩ := executeQuery_ok hqu
  cases row with
  | none => cases h
  | some tape =>
    cases h
    have hv := List.find?_some hr.symm
    exact ⟨hta, tape, mem_of_find?_eq_some hr.symm, beq_iff_eq.mp hv, rfl⟩

theorem updateTape_ok {vid tapeDrive : String} {lastFSeq bytes now : UInt64} {files : Nat}
    (h : updateTape vid lastFSeq bytes files tapeDrive now s = .ok u s') :
    s'.tables = { s.tables with tape := s.tables.tape.map fun r =>
      if r.vid = vid then r.written lastFSeq bytes files tapeDrive now else r } := by
  exact (executeNonQuery_ok (inFunction_ok h)).1

theorem beginCreateTemporarySetDeferred_ok (h : beginCreateTemporarySetDeferred s = .ok u s') :
    s'.tables = s.tables := by
  obtain ⟨_, s1, hc, hd⟩ := exists_of_bind_ok h
  cases hd
  exact (call_ok hc).1

theorem recordItems_ok {first : WrittenItem} {others : List WrittenItem}
    (h : recordItems now first others s = .ok u s') :
    ∃ tape last, ItemsRecorded now (first :: others) tape last s.tables s'.tables := by
  obtain ⟨_, s1, hd, h⟩ := exists_of_bind_ok h
  obtain ⟨lastFSeq, s2, htp, h⟩ := exists_of_bind_ok h
  obtain ⟨total, s3, hl, h⟩ := exists_of_bind_ok h
  obtain ⟨_, s4, hup, hr⟩ := exists_of_bind_ok h
  obtain ⟨ht2, tape, hm, hvi, rfl⟩ := selectTapeForUpdate_ok htp
  obtain ⟨hc, rfl⟩ := liftExcept_ok hl
  obtain ⟨hv, hs, rfl⟩ := checkItems_ok hc
  have hu := updateTape_ok hup
  have ht1 := beginCreateTemporarySetDeferred_ok hd
  rw [ht1] at ht2 hm
  rw [ht2] at hu
  refine ⟨tape, others.getLastD first, hm, ?_, ?_, ?_, ?_⟩
  · intro item hi
    rw [hvi]
    exact hv item hi
  · obtain ⟨-, hf, hn⟩ := checkItem_ok (checkItems_cons hc).1
    rw [hf] at hn
    rw [hs, toNat_add_one hn]
  · rw [List.getLast?_cons, getLastD_eq_getLast?]
  · have hta : s4.tables = s.tables.tapeWritten now (others.getLastD first).item
        (filesOf (first :: others)) := by
      rw [hu, UInt64.zero_add]
      rfl
    rw [← hta]
    by_cases he : (filesOf (first :: others)).isEmpty = true
    · rw [if_pos he] at hr
      cases hr
      rw [isEmpty_iff.mp he]
      exact FilesRecorded.nil now _
    · rw [if_neg he] at hr
      exact recordFiles_ok hr

variable {c c' : RdbmsCatalogue} {events : WrittenItems}

theorem filesWrittenToTape_ok (h : filesWrittenToTape now events c = .ok u c') :
    c' = c ∧ events.items = []
      ∨ ∃ tape last, ItemsRecorded now events.items tape last c.tables c'.tables := by
  obtain ⟨items, sorted⟩ := events
  have hb := inFunction_ok h
  cases items with
  | nil =>
    cases hb
    exact Or.inl ⟨rfl, rfl⟩
  | cons first others =>
    obtain ⟨_, c1, hc, htr⟩ := exists_of_bind_ok hb
    obtain ⟨-, rfl⟩ := liftExcept_ok hc
    obtain ⟨s, s', hr, hbe, ha⟩ := inTransaction_ok htr
    rw [← hbe, ha]
    exact Or.inr (recordItems_ok hr)

theorem filesWrittenToTape_error {e : Exn} (h : filesWrittenToTape now events c = .error e c') :
    c'.tables = c.tables := by
  obtain ⟨items, sorted⟩ := events
  obtain ⟨e0, hb⟩ := inFunction_error h
  cases items with
  | nil => cases hb
  | cons first others =>
    obtain hc | ⟨_, c1, hc, htr⟩ := of_bind_error hb
    · rw [liftExcept_error hc]
    · obtain ⟨-, rfl⟩ := liftExcept_ok hc
      exact transaction_error htr

/-! ## Complete or not at all -/

/-- The items follow the last file of their tape, whose row has taken them in. -/
structure TapeAdvanced (items : List WrittenItem) (tape tape' : TapeRow) : Prop where
  vid : tape'.vid = tape.vid
  oneTape : ∀ item ∈ items, item.item.vid = tape.vid
  noGap : items.map (·.item.fSeq.toNat) = List.range' (tape.lastFSeq.toNat + 1) items.length
  lastFSeq : items.getLast?.map (·.item.fSeq) = some tape'.lastFSeq
  nbMasterFiles : tape'.nbMasterFiles = tape.nbMasterFiles + (filesOf items).length
  masterDataInBytes : tape'.masterDataInBytes = tape.masterDataInBytes + bytesOf (filesOf items)
  dataInBytes : tape'.dataInBytes = tape.dataInBytes + bytesOf (filesOf items)

structure Recorded (items : List WrittenItem) (t t' : Tables) : Prop where
  tape : ∃ tape ∈ t.tape, ∃ tape' ∈ t'.tape, TapeAdvanced items tape tape'
    ∧ ∀ other ∈ t.tape, other.vid ≠ tape.vid → other ∈ t'.tape
  /-- Every file has its row. -/
  written : ∀ f ∈ filesOf items, ∃ r ∈ t'.tapeFile, r.position = (f.vid, f.fSeq)
    ∧ r.copy = f.copy ∧ r.blockId = f.blockId ∧ r.logicalSizeInBytes = f.size
  /-- No other row has its archive file and copy number. -/
  unique : ∀ f ∈ filesOf items, (t'.tapeFile.filter (fun r => r.copy == f.copy)).length = 1
  /-- The rows of other copies stay. -/
  kept : ∀ r ∈ t.tapeFile, (∀ f ∈ filesOf items, f.copy ≠ r.copy) → r ∈ t'.tapeFile
  /-- A row that is replaced is in the recycle log. -/
  replaced : ∀ r ∈ t.tapeFile, r ∉ t'.tapeFile → ∃ l ∈ t'.fileRecycleLog, l.IsAbout r

namespace FilesRecorded

variable {now : UInt64} {files : List TapeFileWritten} {t t' : Tables} {r : TapeFileRow}

theorem mem_of_other (h : FilesRecorded now files t t') (hr : r ∈ t.tapeFile)
    (ho : ∀ f ∈ files, f.copy ≠ r.copy) : r ∈ t'.tapeFile := by
  rw [h.tapeFile]
  refine mem_append_left _ (mem_filter.mpr ⟨hr, ?_⟩)
  rw [Bool.not_eq_true', ← Bool.not_eq_true, any_eq_true]
  intro ⟨f, hf, hcopy⟩
  exact ho f hf (beq_iff_eq.mp hcopy)

variable {f : TapeFileWritten}

theorem row_mem (h : FilesRecorded now files t t') (hf : f ∈ files) : f.row now ∈ t'.tapeFile := by
  rw [h.tapeFile]
  exact mem_append_right _ (mem_map_of_mem hf)

theorem length_filter_copy (h : FilesRecorded now files t t') (hf : f ∈ files) :
    (t'.tapeFile.filter (fun r => r.copy == f.copy)).length = 1 := by
  have hold : (t.tapeFile.filter (fun r => !files.any (fun f => f.copy == r.copy))).filter
      (fun r => r.copy == f.copy) = [] := by
    apply filter_eq_nil_iff.mpr
    intro r hr hc
    have hnot := (mem_filter.mp hr).2
    rw [Bool.not_eq_true', ← Bool.not_eq_true, any_eq_true] at hnot
    exact hnot ⟨f, hf, beq_iff_eq.mpr (beq_iff_eq.mp hc).symm⟩
  -- the archive files of the batch are distinct, so its copies are
  have hu : UniqueKey TapeFileRow.copy (files.map (TapeFileWritten.row now)) := by
    unfold UniqueKey
    have hd := h.distinct
    rw [map_map]
    apply List.Nodup.of_map Prod.fst
    rw [map_map]
    exact hd
  rw [h.tapeFile, filter_append, hold, nil_append]
  exact hu.length_filter (mem_map_of_mem hf)

theorem log_of_replaced (h : FilesRecorded now files t t') (hr : r ∈ t.tapeFile)
    (hg : r ∉ t'.tapeFile) : ∃ l ∈ t'.fileRecycleLog, l.IsAbout r := by
  obtain ⟨added, hlo, ha⟩ := h.log
  have hre : ∃ f ∈ files, f.copy = r.copy := by
    by_contra hnone
    exact hg (h.mem_of_other hr (fun f hf hc => hnone ⟨f, hf, hc⟩))
  obtain ⟨l, hl, hab⟩ := ha r hr hre
  rw [hlo]
  exact ⟨l, mem_append_right _ hl, hab⟩

end FilesRecorded

namespace ItemsRecorded

variable {now : UInt64} {items : List WrittenItem} {tape : TapeRow} {last : WrittenItem}
  {t t' : Tables}

def tapeAfter (now : UInt64) (items : List WrittenItem) (last : WrittenItem) (tape : TapeRow) :
    TapeRow :=
  tape.written last.item.fSeq (UInt64.ofNat (bytesOf (filesOf items))) (filesOf items).length
    last.item.tapeDrive now

theorem last_vid (h : ItemsRecorded now items tape last t t') : last.item.vid = tape.vid :=
  h.oneTape last (mem_of_getLast? h.last_eq)

/-- The rows of `TAPE` after the call: that of the tape is written, the others are as before. -/
theorem mem_tape (h : ItemsRecorded now items tape last t t') (ht : t.Immediate) {r : TapeRow} :
    r ∈ t'.tape ↔ r = tapeAfter now items last tape ∨ r ∈ t.tape ∧ r.vid ≠ tape.vid := by
  rw [h.files.tape]
  unfold Tables.tapeWritten
  rw [mem_map]
  constructor
  · rintro ⟨q, hq, rfl⟩
    split
    · next hv =>
      rw [h.last_vid] at hv
      obtain rfl := ht.tape_pk.eq_of_key hq h.tape_mem hv
      exact Or.inl rfl
    · next hv =>
      rw [h.last_vid] at hv
      exact Or.inr ⟨hq, hv⟩
  · rintro (rfl | ⟨hr, hv⟩)
    · exact ⟨tape, h.tape_mem, if_pos h.last_vid.symm⟩
    · rw [← h.last_vid] at hv
      exact ⟨r, hr, if_neg hv⟩

/-- The counters grow by the number of the files, and by their size as far as 64 bits hold it. -/
theorem tapeAdvanced (h : ItemsRecorded now items tape last t t')
    (hb : bytesOf (filesOf items) < 2 ^ 64) :
    TapeAdvanced items tape (tapeAfter now items last tape) := by
  have hf : (UInt64.ofNat (bytesOf (filesOf items))).toNat = bytesOf (filesOf items) := by
    exact Nat.mod_eq_of_lt hb
  refine ⟨rfl, h.oneTape, h.noGap, ?_, rfl, ?_, ?_⟩
  · rw [h.last_eq]
    rfl
  · show tape.masterDataInBytes + _ = _
    rw [hf]
  · show tape.dataInBytes + _ = _
    rw [hf]

/-- **What is recorded.** -/
theorem recorded_iff (h : ItemsRecorded now items tape last t t') (ht : t.Immediate) :
    Recorded items t t' ↔ bytesOf (filesOf items) < 2 ^ 64 := by
  constructor
  · intro hre
    obtain ⟨tape1, hm1, tape1', hm1', ha, -⟩ := hre.tape
    have hlast := mem_of_getLast? h.last_eq
    have hv : tape1.vid = tape.vid := (ha.oneTape last hlast).symm.trans (h.oneTape last hlast)
    obtain rfl := ht.tape_pk.eq_of_key hm1 h.tape_mem hv
    obtain rfl | ⟨-, hne⟩ := (h.mem_tape ht).mp hm1'
    · -- the counter grew by the size modulo 2 ^ 64, and by the size
      have hc := ha.masterDataInBytes
      have hgr : (tapeAfter now items last tape1).masterDataInBytes
          = tape1.masterDataInBytes + bytesOf (filesOf items) % 2 ^ 64 := by
        show tape1.masterDataInBytes + _ = _
        rw [UInt64.toNat_ofNat']
      omega
    · exact absurd ha.vid hne
  · intro hb
    refine ⟨⟨tape, h.tape_mem, _, (h.mem_tape ht).mpr (Or.inl rfl), h.tapeAdvanced hb, ?_⟩,
      ?_, ?_, ?_, ?_⟩
    · intro other ho hne
      exact (h.mem_tape ht).mpr (Or.inr ⟨ho, hne⟩)
    · intro f hf
      exact ⟨f.row now, h.files.row_mem hf, rfl, rfl, rfl, rfl⟩
    · intro f hf
      exact h.files.length_filter_copy hf
    · intro r hr ho
      exact h.files.mem_of_other hr ho
    · intro r hr hg
      exact h.files.log_of_replaced hr hg

end ItemsRecorded

/-- **Completely or not at all.** A call that throws changes no table, and a call that returns
has recorded the set exactly when its sizes add up to less than `2 ^ 64`. -/
theorem files_recorded_iff (now : UInt64) (events : WrittenItems) (hevents : events.items ≠ [])
    (c : RdbmsCatalogue) :
    Ends (filesWrittenToTape now events) (fun _ c' => Recorded events.items c.tables c'.tables
        ↔ bytesOf (filesOf events.items) < 2 ^ 64)
      (fun _ c' => c'.tables = c.tables) c := by
  unfold Ends
  cases hc : filesWrittenToTape now events c with
  | ok u c' =>
    obtain ⟨-, he⟩ | ⟨tape, last, hr⟩ := filesWrittenToTape_ok hc
    · exact absurd he hevents
    · exact hr.recorded_iff c.consistent.1
  | error e c' => exact filesWrittenToTape_error hc

/-! ## Two batches -/

namespace Batches

def archiveFile (archiveFileId size : UInt64) (diskFileId : String) : ArchiveFileRow where
  archiveFileId := archiveFileId
  diskInstanceName := "eos"
  diskFileId := diskFileId
  diskFileUid := 1001
  diskFileGid := 1001
  sizeInBytes := size
  checksumBlob := some ⟨[(.adler32, [1, 0, 0, 0])]⟩
  checksumAdler32 := 1
  storageClassId := 1
  creationTime := 0
  reconciliationTime := 0

def tape (vid : String) (lastFSeq : UInt64) (bytes files : Nat) : TapeRow where
  vid := vid
  tapeState := .active
  lastFSeq := lastFSeq
  dataInBytes := bytes
  nbMasterFiles := files
  masterDataInBytes := bytes
  dirty := false
  lastWriteDrive := none
  lastWriteTime := none

/-- One file with a copy on the first of two tapes. -/
def tables : Tables where
  diskInstance := ["eos"]
  storageClass := [⟨1, "single"⟩]
  tape := [tape "V00001" 1 100 1, tape "V00002" 0 0 0]
  archiveFile := [archiveFile 7 100 "0x7"]
  tapeFile := [⟨"V00001", 1, 0, 100, 1, 0, 7⟩]
  fileRecycleLog := []

def start : RdbmsCatalogue := ⟨tables, by decide +kernel, { fileRecycleLogIdSeq := 1 }⟩

def written (archiveFileId size fSeq blockId : UInt64) (diskFileId : String) : TapeFileWritten where
  vid := "V00002"
  fSeq := fSeq
  tapeDrive := "DRIVE0"
  archiveFileId := archiveFileId
  diskInstance := "eos"
  diskFileId := diskFileId
  diskFileOwnerUid := 1001
  diskFileGid := 1001
  size := size
  checksumBlob := ⟨[(.adler32, [1, 0, 0, 0])]⟩
  storageClassName := "single"
  blockId := blockId
  copyNb := 1

/-- The file again, on the second tape, then a placeholder and a new file. -/
def repacked : WrittenItems :=
  ⟨[.file (written 7 100 1 0 "0x7"), .placeholder ⟨"V00002", 2, "DRIVE0"⟩,
    .file (written 8 50 3 20 "0x8")], by decide +kernel⟩

/-- Two new files of `2 ^ 63` bytes. -/
def huge : WrittenItems :=
  ⟨[.file (written 8 (2 ^ 63) 1 0 "0x8"), .file (written 9 (2 ^ 63) 2 20 "0x9")], by decide +kernel⟩

def committed (r : EStateM.Result Exn RdbmsCatalogue Unit) : Option Tables :=
  match r with
  | .ok _ c' => some c'.tables
  | .error _ _ => none

end Batches

theorem repacked_batch_recorded : ∃ c', filesWrittenToTape 5 Batches.repacked Batches.start = .ok () c'
    ∧ Recorded Batches.repacked.items Batches.start.tables c'.tables := by
  have hr : returns (filesWrittenToTape 5 Batches.repacked) Batches.start = true := by
    decide +kernel
  obtain ⟨u, c', hc⟩ := exists_ok_of_returns hr
  have he := files_recorded_iff 5 Batches.repacked (by decide +kernel) Batches.start
  exact ⟨c', hc, (he.of_ok hc).mpr (by decide +kernel)⟩

/-- **The bytes of the batch are lost**: two files of `2 ^ 63` bytes are counted, their bytes
not. -/
theorem bytes_of_batch_are_lost :
    (Batches.committed (filesWrittenToTape 5 Batches.huge Batches.start)).map (fun t =>
        (t.tapeFile.map (fun r => (r.vid, r.logicalSizeInBytes.toNat)),
          t.tape.map (fun r => (r.vid, r.nbMasterFiles, r.masterDataInBytes, r.dataInBytes))))
      = some ([("V00001", 100), ("V00002", 2 ^ 63), ("V00002", 2 ^ 63)],
          [("V00001", 1, 100, 100), ("V00002", 2, 0, 0)]) := by
  decide +kernel

end TapeArchive.Catalogue
