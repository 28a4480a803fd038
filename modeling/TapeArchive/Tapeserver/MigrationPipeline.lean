/-
  **MOVING ONE FILE FROM DISK TO TAPE** (`DiskReadTask.cpp`, `TapeWriteTask.cpp`,
  `DataPipeline.hpp`, `Payload.hpp`, `MigrationMemoryManager.cpp`).

      memory manager ──provideBlock──▶ free ──getFreeBlock──▶ disk read task
            ▲                                                     │
            │                                               pushDataBlock
       releaseBlock                                               │
            └────── tape write task ◀──popDataBlock── data ◀──────┘

  A block is known by the number of its LENDING.  Fields kept only to speak about
  a run (`pushed`, `releases`, `delivered`) are never read by the tasks.
-/
import TapeArchive.Lib.Run

namespace TapeArchive.Tapeserver

open Lib

abbrev Bytes := List UInt8

/-! ## Payloads -/

/-- One byte of the Adler-32 checksum: two sums modulo 65521 in the halves of a word. -/
def adler32Byte (sum : UInt32) (byte : UInt8) : UInt32 :=
  let a := ((sum &&& 0xffff) + byte.toUInt32) % 65521
  let b := ((sum >>> 16) + a) % 65521
  (b <<< 16) ||| a

/-- zlib's `adler32`. -/
def adler32 (previous : UInt32) (data : Bytes) : UInt32 := data.foldl adler32Byte previous

def zeroAdler32 : UInt32 := 1

theorem adler32_append (previous : UInt32) (a b : Bytes) :
    adler32 previous (a ++ b) = adler32 (adler32 previous a) b :=
  List.foldl_append ..

/-- Full tape blocks while more than one is left, then the remainder. -/
def payloadWriteLoop (blockSize : Nat) : Nat → Bytes → List Bytes
  | 0, data => if data.length ≠ 0 then [data] else []
  | turns + 1, data =>
      if data.length > blockSize then
        data.take blockSize :: payloadWriteLoop blockSize turns (data.drop blockSize)
      else if data.length ≠ 0 then [data] else []

/-- `Payload::write` to a tape file: the blocks handed to `WriteFile::write`. -/
def payloadWrite (blockSize : Nat) (data : Bytes) : List Bytes :=
  payloadWriteLoop blockSize data.length data

theorem payloadWrite_flatten (blockSize : Nat) (data : Bytes) :
    (payloadWrite blockSize data).flatten = data := by
  have hl : ∀ turns (rest : Bytes), (payloadWriteLoop blockSize turns rest).flatten = rest := by
    intro turns
    induction turns with
    | zero =>
      intro rest
      unfold payloadWriteLoop
      split
      · simp
      · next h => simp [List.eq_nil_of_length_eq_zero (not_not.mp h)]
    | succ turns ih =>
      intro rest
      unfold payloadWriteLoop
      split
      · rw [List.flatten_cons, ih, List.take_append_drop]
      split
      · simp
      · next h => simp [List.eq_nil_of_length_eq_zero (not_not.mp h)]
  exact hl data.length data

/-! ## Memory blocks -/

inductive AlterationContext where
  | failed (errorMsg : String) (errorCode : Int)
  | cancelled
  deriving DecidableEq

/-- `MemBlock`, with the number of its lending. -/
structure MemBlock where
  lending : Nat
  payload : Bytes
  m_fileid : UInt64
  m_fileBlock : Int32
  m_context : Option AlterationContext
  deriving DecidableEq

namespace MemBlock

/-- A block as `MemBlock::reset` leaves it. -/
def fresh (lending : Nat) : MemBlock := ⟨lending, [], -1, -1, none⟩

variable (mb : MemBlock)

def isFailed : Bool :=
  match mb.m_context with
  | some (.failed _ _) => true
  | _ => false

def isCanceled : Bool :=
  match mb.m_context with
  | some .cancelled => true
  | _ => false

/-- The empty text stands for the exception it throws without a context. -/
def errorMsg (mb : MemBlock) : String :=
  match mb.m_context with
  | some (.failed errorMsg _) => errorMsg
  | _ => ""

def markAsFailed (msg : String) (errCode : Int) : MemBlock :=
  { mb with m_context := some (.failed msg errCode), m_fileBlock := -1 }

def markAsCancelled : MemBlock :=
  { mb with m_context := some .cancelled, m_fileBlock := -1 }

@[simp] theorem markAsFailed_lending (msg : String) (errCode : Int) :
    (mb.markAsFailed msg errCode).lending = mb.lending := rfl

@[simp] theorem markAsCancelled_lending :
    mb.markAsCancelled.lending = mb.lending := rfl

end MemBlock

/-! ## The two tasks -/

/-- What the two tasks are given, and the write session at their turn. -/
structure Migration where
  archiveFileID : UInt64
  /-- The size announced for the archive file. -/
  (fileSize fSeq : UInt64)
  /-- `WriteSession::m_lastWrittenFSeq`. -/
  lastWrittenFSeq : Int32
  blockCapacity : UInt64
  capacity_pos : 0 < blockCapacity
  /-- The size of the tape blocks, a constant of `openWriteFile`. -/
  tapeBlockSize : Nat
  tapeBlockSize_pos : 0 < tapeBlockSize

namespace Migration

variable (m : Migration)

def howManyBlocksNeeded : UInt64 :=
  m.fileSize / m.blockCapacity + (if m.fileSize % m.blockCapacity = 0 then 0 else 1)

/-- `DataPipeline::m_blocksNeeded`: the number went through an `int` parameter. -/
def blocksNeeded : Int := m.howManyBlocksNeeded.toUInt32.toInt32.toInt

/-- `WriteSession::validateNextFSeq` does not throw; its argument is an `int`. -/
def validNextFSeq : Bool := m.fSeq.toUInt32.toInt32 == m.lastWrittenFSeq + 1

end Migration

/-- Exceptions by what catches them in the two tasks. -/
inductive TaskExn where
  /-- A `cta::exception::Exception`; `errno` for an `Errnum`. -/
  | exception (message : String) (errno : Option Int)
  /-- Any other exception. -/
  | std (what : String)
  deriving DecidableEq

/-- The control states of `DiskReadTask::execute`, with its local variables. -/
inductive Reader where
  | start
  | opening
  /-- The head of the loop. -/
  | loop (migratingFileSize blockId : UInt64)
  | gettingBlock (migratingFileSize blockId : UInt64)
  | reading (mb : MemBlock) (migratingFileSize blockId : UInt64)
  /-- About to push; after the push of a `short` block the task throws. -/
  | pushing (mb : MemBlock) (migratingFileSize blockId : UInt64) (short : Bool)
  /-- In the clause for CTA exceptions. -/
  | caught (mb : Option MemBlock) (blockId : UInt64) (message : String)
  | circulating (mb : Option MemBlock) (blockId : UInt64)
  | ended
  /-- An exception left `execute`. -/
  | escaped (message : String)
  deriving DecidableEq

inductive Exit where
  /-- `reportCompletedJob`, with the checksum and the size stored in the job. -/
  | completed (checksum : UInt32) (fileSize : UInt64)
  | skipped (message : String)
  /-- `reportFailedJob`, and the session goes on. -/
  | recoverable (message : String)
  /-- The session ends. -/
  | fatal (e : TaskExn)
  /-- `validateNextFSeq` threw, before the `try`. -/
  | refused
  /-- Not executed: the session failed before, its blocks were only circulated. -/
  | discarded
  deriving DecidableEq

/-- The local variables of `TapeWriteTask::execute`. -/
structure WriteLocals where
  (ckSum memBlockId : UInt32)
  dataVolume : UInt64
  firstBlock : Bool
  deriving DecidableEq

def WriteLocals.start : WriteLocals := ⟨zeroAdler32, 0, 0, true⟩

/-- The control states of `TapeWriteTask::execute`. -/
inductive Writer where
  /-- In the queue of the write thread. -/
  | waiting
  | opening
  /-- The head of the loop. -/
  | loop (l : WriteLocals)
  /-- A block was popped. -/
  | holding (l : WriteLocals) (mb : MemBlock)
  /-- About to write the text that stands for an unreadable or empty file. -/
  | placeholder (mb : Option MemBlock)
  | closingPlaceholder (mb : Option MemBlock)
  /-- Writing the tape blocks of a memory block. -/
  | writing (l : WriteLocals) (mb : MemBlock) (rest : List Bytes)
  | closing (l : WriteLocals)
  /-- In `circulateMemBlocks`. -/
  | circulating (exit : Exit)
  | ended (exit : Exit)
  deriving DecidableEq

/-! ## The world -/

/-- The pipeline, the two tasks, and what the session shares with them. -/
structure World where
  /-- `m_freeBlocksProvided`. -/
  provided : Nat
  (freeBlocks dataBlocks : List MemBlock)
  (dataBlocksPushed dataBlocksPopped : Nat)
  errorFlag : Bool
  reader : Reader
  writer : Writer
  /-- The data blocks on tape behind the header of the file. -/
  tape : List Bytes
  /-- The blocks pushed so far. -/
  pushed : List MemBlock
  /-- The lendings released so far. -/
  releases : List Nat
  /-- What the disk reads delivered. -/
  delivered : List Bytes

/-- Nothing happened yet; there is no disk read task for a file without bytes. -/
def World.initial (m : Migration) : World where
  provided := 0
  freeBlocks := []
  dataBlocks := []
  dataBlocksPushed := 0
  dataBlocksPopped := 0
  errorFlag := false
  reader := if m.fileSize = 0 then .ended else .start
  writer := .waiting
  tape := []
  pushed := []
  releases := []
  delivered := []

/-- What the disk answers to a step that asks it. -/
inductive DiskAnswer where
  | opened (size : UInt64)
  | data (bytes : Bytes)
  | threw (e : TaskExn)

/-- What the drive answers to a step that asks it. -/
inductive DriveAnswer where
  | ok
  | threw (e : TaskExn)

namespace World

variable (w : World)

/-- A push of `DataPipeline::pushDataBlock` that does not overflow. -/
def pushDataBlock (mb : MemBlock) : World :=
  { w with
    dataBlocks := w.dataBlocks ++ [mb]
    dataBlocksPushed := w.dataBlocksPushed + 1
    pushed := w.pushed ++ [mb] }

def releaseBlock (mb : MemBlock) : World :=
  { w with releases := w.releases ++ [mb.lending] }

/-- The destructor of `AutoReleaseBlock`, if there is a block. -/
def autoRelease : Option MemBlock → World
  | none => w
  | some mb => w.releaseBlock mb

/-- The text `pushDataBlock` throws with. -/
def overflowMsg : String := "DataFifo overflow on data blocks"

/-- The text of a read that leaves its block unfilled too early. -/
def shortMsg : String :=
  "Error while reading a file: memory block not filled up, but the file is not fully read yet"

/-- The text `getFreeBlock` throws with. -/
def nonEmptyMsg : String :=
  "Internal error: DataPipeline::getFreeBlock popped a non-empty memory block"

/-! ### The disk read task -/

variable (m : Migration)

/-- The step that opens the file and compares its size with the announced one. -/
def openStep (w : World) : DiskAnswer → World
  | .opened size =>
      if m.fileSize ≠ size then
        { w with reader :=
            .caught none 0 "Mismatch between size given by the client and the real one" }
      else { w with reader := .loop m.fileSize 0 }
  | .threw (.exception message _) => { w with reader := .caught none 0 message }
  | .threw (.std what) => { w with reader := .escaped what }
  | .data _ => w

/-- A read never delivers more than it was asked for. -/
def readStep (w : World) (mb : MemBlock) (migratingFileSize blockId : UInt64) :
    DiskAnswer → World
  | .data bytes =>
      if bytes.length ≤ m.blockCapacity.toNat then
        let left := migratingFileSize - UInt64.ofNat bytes.length
        let filled := { mb with payload := bytes }
        if bytes.length ≠ m.blockCapacity.toNat ∧ left ≠ 0 then
          { w with
            delivered := w.delivered ++ [bytes]
            reader := .pushing (filled.markAsFailed shortMsg 666) left blockId true }
        else
          { w with
            delivered := w.delivered ++ [bytes]
            reader := .pushing filled left blockId false }
      else w
  | .threw (.exception message _) => { w with reader := .caught (some mb) blockId message }
  | .threw (.std what) => { w with reader := .escaped what }
  | .opened _ => w

/-- `cont` goes on with a block, `fail` with the exception; without a block the task waits. -/
def getFreeBlock (cont : MemBlock → Reader) (fail : Reader) : World :=
  match w.freeBlocks with
  | [] => w
  | mb :: rest =>
      if mb.payload.length ≠ 0 then { w with freeBlocks := rest ++ [mb], reader := fail }
      else { w with freeBlocks := rest, reader := cont mb }

/-- `DataPipeline::pushDataBlock`, going on in `cont`, or in `fail` with the exception. -/
def pushStep (w : World) (mb : MemBlock) (cont fail : Reader) : World :=
  if (w.dataBlocksPushed : Int) ≥ m.blocksNeeded then { w with reader := fail }
  else { w.pushDataBlock mb with reader := cont }

/-- One step of `DiskReadTask::execute`. -/
def readerStep (w : World) (a : DiskAnswer) : World :=
  match w.reader with
  | .start =>
      { w with reader := if w.errorFlag then .circulating none 0 else .opening }
  | .opening => w.openStep m a
  | .loop migratingFileSize blockId =>
      if migratingFileSize = 0 then { w with reader := .ended }
      else if w.errorFlag then { w with reader := .circulating none blockId }
      else { w with reader := .gettingBlock migratingFileSize blockId }
  | .gettingBlock migratingFileSize blockId =>
      w.getFreeBlock
        (fun mb => .reading
          { mb with
            m_fileid := m.archiveFileID
            m_fileBlock := blockId.toUInt32.toInt32 } migratingFileSize (blockId + 1))
        (.caught none blockId nonEmptyMsg)
  | .reading mb migratingFileSize blockId => w.readStep m mb migratingFileSize blockId a
  | .pushing mb migratingFileSize blockId short =>
      w.pushStep m mb
        (if short then .caught (some mb) blockId shortMsg else .loop migratingFileSize blockId)
        (.caught (some mb) blockId overflowMsg)
  | .caught none blockId message =>
      w.getFreeBlock (fun mb => .caught (some mb) (blockId + 1) message) (.escaped nonEmptyMsg)
  | .caught (some mb) blockId message =>
      w.pushStep m (mb.markAsFailed message 666) (.circulating none blockId)
        (.escaped overflowMsg)
  | .circulating none blockId =>
      if blockId < m.howManyBlocksNeeded then
        w.getFreeBlock
          (fun mb => .circulating
            (some ({ mb with m_fileid := m.archiveFileID }.markAsCancelled)) (blockId + 1))
          (.escaped nonEmptyMsg)
      else { w with reader := .ended }
  | .circulating (some mb) blockId =>
      w.pushStep m mb (.circulating none blockId) (.escaped overflowMsg)
  | .ended => w
  | .escaped _ => w

/-! ### The tape write task -/

/-- The block at hand is released, the error flag set and the rest circulated. -/
def fail (mb : Option MemBlock) : TaskExn → World
  | .exception message errno =>
      { w.autoRelease mb with
        errorFlag := true
        writer := .circulating (.fatal (.exception message errno)) }
  | .std what => { w.autoRelease mb with writer := .ended (.fatal (.std what)) }

/-- A step that asks the drive: it goes on in `cont`, or fails with the block at hand. -/
def driveStep (mb : Option MemBlock) (cont : World) : DriveAnswer → World
  | .ok => cont
  | .threw e => w.fail mb e

/-- `DataPipeline::popDataBlock`, going on in `cont`; the task waits while there is none. -/
def popDataBlock (cont : World → MemBlock → World) : World :=
  match w.dataBlocks with
  | [] => w
  | mb :: rest =>
      cont { w with dataBlocks := rest, dataBlocksPopped := w.dataBlocksPopped + 1 } mb

def finished (w : World) : Bool := (w.dataBlocksPopped : Int) ≥ m.blocksNeeded

/-- `TapeWriteTask::checkErrors` does not throw. -/
def passesCheck (memBlockId : UInt32) (mb : MemBlock) : Bool :=
  m.archiveFileID == mb.m_fileid && memBlockId.toInt32 == mb.m_fileBlock && !mb.isFailed
    && !mb.isCanceled

/-- The block was popped: skip the file, fail, or compute the checksum and start to write. -/
def holdStep (w : World) (l : WriteLocals) (mb : MemBlock) : World :=
  if l.firstBlock && mb.isFailed then { w with writer := .placeholder (some mb) }
  else if passesCheck m l.memBlockId mb then
    { w with
      writer := .writing { l with firstBlock := false, ckSum := adler32 l.ckSum mb.payload } mb
        (payloadWrite m.tapeBlockSize mb.payload) }
  else if mb.isFailed then
    { w.releaseBlock mb with
      errorFlag := true
      writer := .circulating (.recoverable mb.errorMsg) }
  else if mb.isCanceled then
    w.fail (some mb) (.exception "Received a block marked as cancelled" none)
  else
    w.fail (some mb)
      (.exception "Mismatch between expected and received file id or blockid" none)

def blank (mb : Option MemBlock) : Bytes :=
  (match mb with
    | some _ => "This file intentionally left blank: leaving placeholder after failing to "
        ++ "read from disk."
    | none => "This file intentionally left blank: zero-length file cannot be recorded to "
        ++ "tape.").toUTF8.toList ++ [0]

def skipMsg : Option MemBlock → String
  | some mb => mb.errorMsg
  | none => "In TapeWriteTask::execute(): inserted a placeholder for zero length file."

/-- One step of `TapeWriteTask::execute`. -/
def writerStep (w : World) (a : DriveAnswer) : World :=
  match w.writer with
  | .waiting =>
      if m.validNextFSeq then { w with writer := .opening }
      else { w with writer := .ended .refused }
  | .opening => w.driveStep none { w with writer := .loop .start } a
  | .loop l =>
      if w.finished m then
        { w with writer := if l.firstBlock then .placeholder none else .closing l }
      else w.popDataBlock (fun w mb => { w with writer := .holding l mb })
  | .holding l mb => w.holdStep m l mb
  | .placeholder mb =>
      w.driveStep mb
        { w with tape := w.tape ++ [blank mb], writer := .closingPlaceholder mb } a
  | .closingPlaceholder mb =>
      w.driveStep mb { w.autoRelease mb with writer := .circulating (.skipped (skipMsg mb)) } a
  | .writing l mb [] =>
      { w.releaseBlock mb with
        writer := .loop
          { l with
            dataVolume := l.dataVolume + UInt64.ofNat mb.payload.length
            memBlockId := l.memBlockId + 1 } }
  | .writing l mb (block :: rest) =>
      w.driveStep (some mb)
        { w with tape := w.tape ++ [block], writer := .writing l mb rest } a
  | .closing l =>
      w.driveStep none { w with writer := .ended (.completed l.ckSum l.dataVolume) } a
  | .circulating exit =>
      if w.finished m then { w with writer := .ended exit }
      else w.popDataBlock (fun w mb => w.releaseBlock mb)
  | .ended _ => w

end World

/-! ## Runs -/

inductive Event where
  /-- The memory manager provides the next block. -/
  | provide
  /-- Another task sets the error flag. -/
  | setErrorFlag
  | reader (a : DiskAnswer)
  | writer (a : DriveAnswer)
  /-- The session failed before the task came to its turn: its blocks are only circulated. -/
  | discard

def World.step (m : Migration) (w : World) : Event → World
  | .provide =>
      if m.fileSize ≠ 0 ∧ (w.provided : Int) < m.blocksNeeded then
        { w with
          provided := w.provided + 1
          freeBlocks := w.freeBlocks ++ [.fresh w.provided] }
      else w
  | .setErrorFlag => { w with errorFlag := true }
  | .reader a => w.readerStep m a
  | .writer a => w.writerStep m a
  | .discard =>
      if w.writer = .waiting then { w with writer := .circulating .discarded } else w

end TapeArchive.Tapeserver
