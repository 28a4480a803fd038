/-
  The tables of the catalogue that know which files are on which tapes
  (`postgres_catalogue_schema.sql`), with the columns that the modelled statements
  read or write, and the exceptions of its functions.

  A `Conn` program is what runs within one transaction; `RdbmsCatalogue` is the
  database between transactions, so its tables always meet the constraints.
-/
import TapeArchive.Lib.Relational

namespace TapeArchive.Catalogue

open Lib

/-! ## Exceptions -/

/-- The exception classes of the modelled functions. -/
inductive ExnKind where
  | exception
  | userError
  /-- `UserSpecifiedExistingDeletedFileCopy`, a user error. -/
  | userSpecifiedExistingDeletedFileCopy
  | tapeFseqMismatch
  | fileSizeMismatch
  | checksumBlobSizeMismatch
  | checksumTypeMismatch
  | checksumValueMismatch
  /-- An error of the database: a violated constraint, a lost connection. -/
  | database
  /-- The process dies; nothing catches it. -/
  | crash
  deriving DecidableEq

/-- Caught by `catch(exception::UserError &)`. -/
def ExnKind.isUserError : ExnKind → Bool
  | .userError | .userSpecifiedExistingDeletedFileCopy => true
  | _ => false

structure Exn where
  kind : ExnKind
  message : String
  deriving DecidableEq

/-- A statement, or the commit, that the constraints refuse. -/
def violation : Exn := ⟨.database, "violates a constraint"⟩

/-- What the closing `catch` clauses throw on: a user error, or the message after the name. -/
def Exn.inFunction (name : String) (e : Exn) : Exn :=
  if e.kind.isUserError then e else { e with message := name ++ ": " ++ e.message }

/-- The body of a function within these clauses. -/
def inFunction {m : Type → Type} {α : Type} [MonadExcept Exn m] (name : String) (x : m α) : m α :=
  tryCatch x (fun e => throw (e.inFunction name))

variable {σ α : Type} {name : String}

theorem inFunction_ok {x : EStateM Exn σ α} {s s' : σ} {a : α}
    (h : inFunction name x s = .ok a s') : x s = .ok a s' := by
  have he : Ends (inFunction name x) (fun b s1 => x s = .ok b s1) (fun _ _ => True) s := by
    have hx : Ends x (fun b s1 => x s = .ok b s1) (fun _ _ => True) s := by
      unfold Ends
      cases x s with
      | ok b s1 => rfl
      | error e s1 => trivial
    exact hx.catching (fun e s1 _ => trivial)
  exact he.of_ok h

theorem inFunction_error {x : EStateM Exn σ α} {s s' : σ} {e : Exn}
    (h : inFunction name x s = .error e s') : ∃ e₀, x s = .error e₀ s' := by
  have hen : Ends (inFunction name x) (fun _ _ => True) (fun _ s1 => ∃ e₀, x s = .error e₀ s1) s := by
    have hx : Ends x (fun _ _ => True) (fun e₀ s1 => x s = .error e₀ s1) s := by
      unfold Ends
      cases x s with
      | ok b s1 => trivial
      | error e1 s1 => rfl
    exact hx.catching (fun e1 s1 he => ⟨e1, he⟩)
  exact hen.of_error h

theorem inFunction_ok_iff {α : Type} {x : Except Exn α} {a : α} :
    inFunction name x = .ok a ↔ x = .ok a := by
  cases x with
  | ok b => exact Iff.rfl
  | error e =>
    constructor
    · intro h
      cases h
    · intro h
      cases h

/-- The value of a computation without a state. -/
def liftExcept {σ α : Type} (x : Except Exn α) : EStateM Exn σ α := fun s =>
  match x with
  | .ok a => .ok a s
  | .error e => .error e s

theorem liftExcept_ok {x : Except Exn α} {s s' : σ} {a : α}
    (h : (liftExcept x : EStateM Exn σ α) s = .ok a s') : x = .ok a ∧ s' = s := by
  cases x with
  | ok b =>
    cases h
    exact ⟨rfl, rfl⟩
  | error e => cases h

theorem liftExcept_error {x : Except Exn α} {s s' : σ} {e : Exn}
    (h : (liftExcept x : EStateM Exn σ α) s = .error e s') : s' = s := by
  cases x with
  | ok b => cases h
  | error e1 =>
    cases h
    rfl

/-! ## Checksums -/

inductive ChecksumType where
  | none | adler32 | crc32 | crc32c | md5 | sha1
  deriving DecidableEq

def ChecksumType.typeName : ChecksumType → String
  | .none => "NONE"
  | .adler32 => "ADLER32"
  | .crc32 => "CRC32"
  | .crc32c => "CRC32C"
  | .md5 => "MD5"
  | .sha1 => "SHA1"

/-- `checksum::ChecksumBlob`: the map from types to byte arrays, in the order of the types. -/
structure ChecksumBlob where
  m_cs : List (ChecksumType × List UInt8)
  deriving DecidableEq

namespace ChecksumBlob

/-- `ByteArrayToHex`; the last byte comes first. -/
def byteArrayToHex (bytes : List UInt8) : String :=
  if bytes.isEmpty then "0"
  else String.ofList (bytes.reverse.flatMap fun b =>
    [Nat.digitChar (b.toNat / 16), Nat.digitChar (b.toNat % 16)])

/-- The loop of `validate`. -/
def validateEach : List (ChecksumType × List UInt8) → List (ChecksumType × List UInt8) →
    Except Exn Unit
  | c₁ :: cs₁, c₂ :: cs₂ =>
      if c₁.1 ≠ c₂.1 then
        .error ⟨.checksumTypeMismatch, "Checksum type expected=" ++ c₁.1.typeName
          ++ " actual=" ++ c₂.1.typeName⟩
      else if c₁.2 ≠ c₂.2 then
        .error ⟨.checksumValueMismatch, "Checksum value expected=0x" ++ byteArrayToHex c₁.2
          ++ " actual=0x" ++ byteArrayToHex c₂.2⟩
      else validateEach cs₁ cs₂
  | _, _ => .ok ()

def validate (self blob : ChecksumBlob) : Except Exn Unit :=
  if self.m_cs.length ≠ blob.m_cs.length then
    .error ⟨.checksumBlobSizeMismatch, "Checksum blob size does not match. expected="
      ++ toString self.m_cs.length ++ " actual=" ++ toString blob.m_cs.length⟩
  else validateEach self.m_cs blob.m_cs

/-- The transition column `CHECKSUM_ADLER32`; 0 without such a checksum. -/
def adler32 (blob : ChecksumBlob) : UInt32 :=
  match blob.m_cs.find? (fun c => c.1 == .adler32) with
  | some c => UInt32.ofNat (c.2.foldr (fun b n => b.toNat + 256 * n) 0)
  | none => 0

/-- `serialize`, as the column keeps it: no checksum at all gives no bytes. -/
def serialize (blob : ChecksumBlob) : Option ChecksumBlob :=
  if blob.m_cs.isEmpty then none else some blob

/-- `deserializeOrSetAdler32`; `none` is a column that is null or does not parse. -/
def deserializeOrSetAdler32 (column : Option ChecksumBlob) (adler32 : UInt32) : ChecksumBlob :=
  match column with
  | some blob => blob
  | none => ⟨[(.adler32, [adler32.toUInt8, (adler32 >>> 8).toUInt8, (adler32 >>> 16).toUInt8,
      (adler32 >>> 24).toUInt8])]⟩

end ChecksumBlob

/-! ## The rows -/

structure StorageClassRow where
  storageClassId : UInt64
  storageClassName : String
  deriving DecidableEq

/-- The values that `TAPE_STATE_CK` allows. -/
inductive TapeState where
  | active | repackingPending | repacking | disabled | brokenPending | broken
  deriving DecidableEq

def TapeState.text : TapeState → String
  | .active => "ACTIVE"
  | .repackingPending => "REPACKING_PENDING"
  | .repacking => "REPACKING"
  | .disabled => "DISABLED"
  | .brokenPending => "BROKEN_PENDING"
  | .broken => "BROKEN"

/-- `TAPE`; the counters are decimals of up to twenty digits. -/
structure TapeRow where
  vid : String
  tapeState : TapeState
  lastFSeq : UInt64
  (dataInBytes nbMasterFiles masterDataInBytes : Nat)
  dirty : Bool
  lastWriteDrive : Option String
  lastWriteTime : Option UInt64
  deriving DecidableEq

structure ArchiveFileRow where
  archiveFileId : UInt64
  (diskInstanceName diskFileId : String)
  (diskFileUid diskFileGid : UInt32)
  sizeInBytes : UInt64
  checksumBlob : Option ChecksumBlob
  checksumAdler32 : UInt32
  (storageClassId creationTime reconciliationTime : UInt64)
  collocationHint : Option String := none
  deriving DecidableEq

structure TapeFileRow where
  vid : String
  (fSeq blockId logicalSizeInBytes : UInt64)
  copyNb : UInt8
  (creationTime archiveFileId : UInt64)
  deriving DecidableEq

structure FileRecycleLogRow where
  fileRecycleLogId : UInt64
  vid : String
  (fSeq blockId : UInt64)
  copyNb : UInt8
  (tapeFileCreationTime archiveFileId : UInt64)
  (diskInstanceName diskFileId diskFileIdWhenDeleted : String)
  (diskFileUid diskFileGid : UInt32)
  sizeInBytes : UInt64
  checksumBlob : Option ChecksumBlob
  checksumAdler32 : UInt32
  (storageClassId archiveFileCreationTime reconciliationTime : UInt64)
  (collocationHint diskFilePath : Option String)
  reasonLog : String
  recycleLogTime : UInt64
  deriving DecidableEq

/-- The primary key of `TAPE_FILE`. -/
def TapeFileRow.position (r : TapeFileRow) : String × UInt64 := (r.vid, r.fSeq)

def TapeFileRow.copy (r : TapeFileRow) : UInt64 × UInt8 := (r.archiveFileId, r.copyNb)

structure Tables where
  diskInstance : List String
  storageClass : List StorageClassRow
  tape : List TapeRow
  archiveFile : List ArchiveFileRow
  tapeFile : List TapeFileRow
  fileRecycleLog : List FileRecycleLogRow
  deriving DecidableEq

/-! ## The constraints -/

/-- The bound of a `NUMERIC(20, 0)` column. -/
def TapeRow.Fits (r : TapeRow) : Prop :=
  r.dataInBytes < 10 ^ 20 ∧ r.nbMasterFiles < 10 ^ 20 ∧ r.masterDataInBytes < 10 ^ 20

instance (r : TapeRow) : Decidable (r.Fits) := inferInstanceAs (Decidable (_ ∧ _ ∧ _))

namespace Tables

/-- The constraints that are checked after every statement, under the names of the schema. -/
structure Immediate (t : Tables) : Prop where
  tape_pk : UniqueKey (·.vid) t.tape
  tape_numeric : ∀ r ∈ t.tape, r.Fits
  archive_file_pk : UniqueKey (·.archiveFileId) t.archiveFile
  archive_file_storage_class_fk :
    References (·.storageClassId) t.archiveFile (·.storageClassId) t.storageClass
  archive_file_din_fk : ∀ r ∈ t.archiveFile, r.diskInstanceName ∈ t.diskInstance
  tape_file_pk : UniqueKey TapeFileRow.position t.tapeFile
  tape_file_tape_fk : References (·.vid) t.tapeFile (·.vid) t.tape
  tape_file_archive_file_fk : References (·.archiveFileId) t.tapeFile (·.archiveFileId) t.archiveFile
  tape_file_vid_block_id_un : UniqueKey (fun r => (r.vid, r.blockId)) t.tapeFile
  tape_file_copy_nb_gt_0_ck : ∀ r ∈ t.tapeFile, 0 < r.copyNb
  file_recycle_log_pk : UniqueKey (·.fileRecycleLogId) t.fileRecycleLog
  file_recycle_log_vid_fk : References (·.vid) t.fileRecycleLog (·.vid) t.tape
  file_recycle_log_sc_fk :
    References (·.storageClassId) t.fileRecycleLog (·.storageClassId) t.storageClass

instance : DecidablePred Immediate := fun t =>
  decidable_of_iff
    (UniqueKey (·.vid) t.tape ∧ (∀ r ∈ t.tape, r.Fits)
      ∧ UniqueKey (·.archiveFileId) t.archiveFile
      ∧ References (·.storageClassId) t.archiveFile (·.storageClassId) t.storageClass
      ∧ (∀ r ∈ t.archiveFile, r.diskInstanceName ∈ t.diskInstance)
      ∧ UniqueKey TapeFileRow.position t.tapeFile
      ∧ References (·.vid) t.tapeFile (·.vid) t.tape
      ∧ References (·.archiveFileId) t.tapeFile (·.archiveFileId) t.archiveFile
      ∧ UniqueKey (fun r => (r.vid, r.blockId)) t.tapeFile
      ∧ (∀ r ∈ t.tapeFile, 0 < r.copyNb)
      ∧ UniqueKey (·.fileRecycleLogId) t.fileRecycleLog
      ∧ References (·.vid) t.fileRecycleLog (·.vid) t.tape
      ∧ References (·.storageClassId) t.fileRecycleLog (·.storageClassId) t.storageClass)
    ⟨fun ⟨h₁, h₂, h₃, h₄, h₅, h₆, h₇, h₈, h₉, h₁₀, h₁₁, h₁₂, h₁₃⟩ =>
        ⟨h₁, h₂, h₃, h₄, h₅, h₆, h₇, h₈, h₉, h₁₀, h₁₁, h₁₂, h₁₃⟩,
      fun ⟨h₁, h₂, h₃, h₄, h₅, h₆, h₇, h₈, h₉, h₁₀, h₁₁, h₁₂, h₁₃⟩ =>
        ⟨h₁, h₂, h₃, h₄, h₅, h₆, h₇, h₈, h₉, h₁₀, h₁₁, h₁₂, h₁₃⟩⟩

/-- `ARCHIVE_FILE_DIN_DFI_UN`, the one constraint that is deferrable. -/
def DiskFilesUnique (t : Tables) : Prop :=
  UniqueKey (fun r => (r.diskInstanceName, r.diskFileId)) t.archiveFile

instance : DecidablePred DiskFilesUnique := fun t =>
  inferInstanceAs (Decidable (UniqueKey (fun r => (r.diskInstanceName, r.diskFileId)) t.archiveFile))

end Tables

def catalogueSchema : Schema Tables where
  Immediate := Tables.Immediate
  Deferrable := Tables.DiskFilesUnique

/-- How a call to the database can end other than by doing what it is asked to. -/
inductive StopKind where
  | exception
  | crash
  deriving DecidableEq

def StopKind.exn : StopKind → Exn
  | .exception => ⟨.database, "the database call failed"⟩
  | .crash => ⟨.crash, "the process died"⟩

/-- What a rollback does not take back: the sequence of ids, and the fault in store. -/
structure Counters where
  fileRecycleLogIdSeq : UInt64
  stop : Option (Nat × StopKind) := none

/-- What runs on a connection within a transaction. -/
abbrev Conn (α : Type) := EStateM Exn (Session Tables Counters) α

abbrev RdbmsCatalogue := Database catalogueSchema Counters

/-- A call to the database goes out: the one that the fault is in store for fails. -/
def call : Conn Unit := fun s =>
  match s.counters.stop with
  | none => .ok () s
  | some (0, kind) => .error kind.exn { s with counters := { s.counters with stop := none } }
  | some (n + 1, kind) =>
      .ok () { s with counters := { s.counters with stop := some (n, kind) } }

def executeNonQuery (f : Tables → Tables) : Conn Unit := do
  call
  execute catalogueSchema violation f

def executeQuery {α : Type} (f : Tables → α) : Conn α := do
  call
  query f

/-- `BEGIN`, the statements, and `commit`, with the rollback of an exception. -/
def inTransaction {α : Type} (body : Conn α) : EStateM Exn RdbmsCatalogue α :=
  transaction violation do
    call
    let a ← body
    call
    return a

section Statements

variable {s s' : Session Tables Counters} {α : Type}

theorem call_ok {u : Unit} (h : call s = .ok u s') :
    s'.tables = s.tables ∧ s'.deferred = s.deferred := by
  unfold call at h
  split at h
  next =>
    cases h
    exact ⟨rfl, rfl⟩
  next => cases h
  next =>
    cases h
    exact ⟨rfl, rfl⟩

theorem executeNonQuery_ok {f : Tables → Tables} {u : Unit} (h : executeNonQuery f s = .ok u s') :
    s'.tables = f s.tables ∧ Tables.Immediate (f s.tables) := by
  obtain ⟨_, s1, hc, he⟩ := exists_of_bind_ok h
  obtain ⟨hta, -⟩ := call_ok hc
  obtain ⟨rfl, ha⟩ := execute_ok he
  rw [hta] at ha ⊢
  exact ⟨rfl, ha.1⟩

theorem executeQuery_ok {f : Tables → α} {a : α} (h : executeQuery f s = .ok a s') :
    a = f s.tables ∧ s'.tables = s.tables := by
  obtain ⟨_, s1, hc, hqu⟩ := exists_of_bind_ok h
  obtain ⟨hta, -⟩ := call_ok hc
  obtain ⟨rfl, rfl⟩ := query_ok hqu
  rw [hta]
  exact ⟨rfl, rfl⟩

theorem inTransaction_ok {body : Conn α} {c c' : RdbmsCatalogue} {a : α}
    (h : inTransaction body c = .ok a c') :
    ∃ s s' : Session Tables Counters, body s = .ok a s' ∧ s.tables = c.tables
      ∧ c'.tables = s'.tables := by
  obtain ⟨s', hb, hta⟩ := transaction_ok h
  obtain ⟨_, s1, hbe, hb⟩ := exists_of_bind_ok hb
  obtain ⟨_, s2, hb, hc⟩ := exists_of_bind_ok hb
  obtain ⟨_, s3, hc, hr⟩ := exists_of_bind_ok hc
  cases hr
  refine ⟨s1, s2, hb, (call_ok hbe).1, ?_⟩
  rw [hta, (call_ok hc).1]

end Statements

/-! ## The records -/

/-- `common::dataStructures::TapeFile`, with all that the catalogue knows of a copy. -/
structure TapeFile where
  vid : String
  (fSeq blockId fileSize : UInt64)
  copyNb : UInt8
  creationTime : UInt64

structure DiskFileInfo where
  path : String := ""
  (owner_uid gid : UInt32)

/-- `common::dataStructures::ArchiveFile`, with all that the catalogue knows of a file. -/
structure ArchiveFile where
  archiveFileID : UInt64
  (diskFileId diskInstance : String)
  fileSize : UInt64
  checksumBlob : ChecksumBlob
  storageClass : String
  diskFileInfo : DiskFileInfo
  tapeFiles : List TapeFile
  (creationTime reconciliationTime : UInt64)

def findCopy (tapeFiles : List TapeFile) (copyNb : UInt8) : Option TapeFile :=
  tapeFiles.find? (fun tf => tf.copyNb == copyNb)

/-- A row of `ARCHIVE_FILE` joined with the rows it refers to and is referred to by. -/
structure JoinedRow where
  archiveFile : ArchiveFileRow
  storageClass : StorageClassRow
  tapeFile : TapeFileRow

/-- `ARCHIVE_FILE INNER JOIN STORAGE_CLASS INNER JOIN TAPE_FILE` for one archive file. -/
def Tables.join (t : Tables) (archiveFileId : UInt64) : List JoinedRow :=
  (t.archiveFile.filter (fun a => a.archiveFileId == archiveFileId)).flatMap fun a =>
    (t.storageClass.filter (fun c => c.storageClassId == a.storageClassId)).flatMap fun c =>
      (t.tapeFile.filter (fun f => f.archiveFileId == a.archiveFileId)).map fun f => ⟨a, c, f⟩

/-- `ORDER BY TAPE_FILE.CREATION_TIME`. -/
def orderByCreationTime (rows : List JoinedRow) : List JoinedRow :=
  rows.insertionSort (fun r r' => r.tapeFile.creationTime ≤ r'.tapeFile.creationTime)

def TapeFileRow.tapeFileOf (r : TapeFileRow) : TapeFile :=
  ⟨r.vid, r.fSeq, r.blockId, r.logicalSizeInBytes, r.copyNb, r.creationTime⟩

/-- The loop over the result set: the first row gives the file, every row a copy. -/
def archiveFileOf : List JoinedRow → Option ArchiveFile
  | [] => none
  | row :: rows => some {
      archiveFileID := row.archiveFile.archiveFileId
      diskFileId := row.archiveFile.diskFileId
      diskInstance := row.archiveFile.diskInstanceName
      fileSize := row.archiveFile.sizeInBytes
      checksumBlob := ChecksumBlob.deserializeOrSetAdler32 row.archiveFile.checksumBlob
        row.archiveFile.checksumAdler32
      storageClass := row.storageClass.storageClassName
      diskFileInfo := { owner_uid := row.archiveFile.diskFileUid, gid := row.archiveFile.diskFileGid }
      tapeFiles := (row :: rows).map (fun r => r.tapeFile.tapeFileOf)
      creationTime := row.archiveFile.creationTime
      reconciliationTime := row.archiveFile.reconciliationTime }

def getArchiveFileById (id : UInt64) : Conn (Option ArchiveFile) :=
  inFunction "getArchiveFileById" (executeQuery fun t => archiveFileOf (orderByCreationTime (t.join id)))

theorem Tables.mem_join {t : Tables} {id : UInt64} {row : JoinedRow} :
    row ∈ t.join id ↔ row.archiveFile ∈ t.archiveFile ∧ row.archiveFile.archiveFileId = id
      ∧ row.storageClass ∈ t.storageClass
      ∧ row.storageClass.storageClassId = row.archiveFile.storageClassId
      ∧ row.tapeFile ∈ t.tapeFile ∧ row.tapeFile.archiveFileId = row.archiveFile.archiveFileId := by
  unfold Tables.join
  simp only [List.mem_flatMap, List.mem_filter, List.mem_map, beq_iff_eq]
  constructor
  · rintro ⟨a, ⟨ha, hid⟩, c, ⟨hc, hci⟩, f, ⟨hf, hfi⟩, rfl⟩
    exact ⟨ha, hid, hc, hci, hf, hfi⟩
  · rintro ⟨ha, hid, hc, hci, hf, hfi⟩
    exact ⟨row.archiveFile, ⟨ha, hid⟩, row.storageClass, ⟨hc, hci⟩, row.tapeFile, ⟨hf, hfi⟩, rfl⟩

/-- Every copy of a file is found by the join: the rows it refers to are there. -/
theorem Tables.Immediate.exists_join {t : Tables} (h : t.Immediate) {f : TapeFileRow}
    (hf : f ∈ t.tapeFile) : ∃ row ∈ t.join f.archiveFileId, row.tapeFile = f := by
  obtain ⟨a, ha, hid⟩ := h.tape_file_archive_file_fk f hf
  obtain ⟨c, hc, hci⟩ := h.archive_file_storage_class_fk a ha
  exact ⟨⟨a, c, f⟩, Tables.mem_join.mpr ⟨ha, hid, hc, hci, hf, hid.symm⟩, rfl⟩

theorem mem_orderByCreationTime {row : JoinedRow} {rows : List JoinedRow} :
    row ∈ orderByCreationTime rows ↔ row ∈ rows := List.mem_insertionSort _

end TapeArchive.Catalogue
