/-
  **A COMPLETED MIGRATION HAS THE BYTES OF THE FILE ON TAPE.**

  The disk read task pushes unmarked blocks only while all its reads fill their block, up to
  the one that ends the file.  Two things can break the link:
    * a LAST READ that delivers more than was announced and fills its block;
    * a number of blocks that does not fit into the `int` of the pipeline.
-/
import Mathlib.Data.List.TakeWhile
import TapeArchive.Tapeserver.MigrationBlocks

namespace TapeArchive.Tapeserver

open Lib List

/-! ## The property -/

/-- A read delivers at most what is left of the announced size. -/
def WithinAnnounced (w : World) : Event → Prop
  | .reader (.data bytes) =>
      match w.reader with
      | .reading _ migratingFileSize _ => bytes.length ≤ migratingFileSize.toNat
      | _ => True
  | _ => True

instance WithinAnnounced.decidable (w : World) : (e : Event) → Decidable (WithinAnnounced w e)
  | .reader (.data bytes) =>
      match h : w.reader with
      | .reading _ migratingFileSize _ =>
          decidable_of_iff (bytes.length ≤ migratingFileSize.toNat)
            (by simp only [WithinAnnounced, h])
      | .start | .opening | .loop .. | .gettingBlock .. | .pushing .. | .caught ..
      | .circulating .. | .ended | .escaped .. => isTrue (by simp only [WithinAnnounced, h])
  | .reader (.threw _) => isTrue trivial
  | .reader (.opened _) => isTrue trivial
  | .writer _ => isTrue trivial
  | .provide => isTrue trivial
  | .setErrorFlag => isTrue trivial
  | .discard => isTrue trivial

/-- The data blocks on tape are the bytes that were announced and delivered. -/
structure HasTheBytes (m : Migration) (w : World) (checksum : UInt32) (fileSize : UInt64) :
    Prop where
  bytes : w.tape.flatten = w.delivered.flatten
  total : w.tape.flatten.length = m.fileSize.toNat
  size : fileSize = m.fileSize
  sum : checksum = adler32 zeroAdler32 w.tape.flatten

/-! ## The disk read task -/

def payloads (blocks : List MemBlock) : Bytes := (blocks.map MemBlock.payload).flatten

@[simp] theorem payloads_nil : payloads [] = [] := rfl

theorem payloads_concat (blocks : List MemBlock) (mb : MemBlock) :
    payloads (blocks ++ [mb]) = payloads blocks ++ mb.payload := by
  simp [payloads]

theorem length_payloads_of_full {c : Nat} {blocks : List MemBlock}
    (h : ∀ mb ∈ blocks, mb.payload.length = c) :
    (payloads blocks).length = blocks.length * c := by
  induction blocks with
  | nil => simp
  | cons mb blocks ih =>
    have hrest := ih (fun b hb => h b (.tail _ hb))
    have hmb := h mb mem_cons_self
    unfold payloads at hrest ⊢
    rw [map_cons, flatten_cons, length_append, hrest, hmb, length_cons]
    ring

def unmarkedFront (pushed : List MemBlock) : List MemBlock :=
  pushed.takeWhile (fun mb => mb.m_context.isNone)

theorem length_unmarkedFront_le (pushed : List MemBlock) :
    (unmarkedFront pushed).length ≤ pushed.length :=
  (takeWhile_sublist _).length_le

variable {pushed : List MemBlock} {mb : MemBlock}

/-- A marked block does not add to the unmarked ones at the front. -/
theorem unmarkedFront_concat (hmb : mb.m_context ≠ none) :
    unmarkedFront (pushed ++ [mb]) = unmarkedFront pushed := by
  unfold unmarkedFront
  rw [takeWhile_append]
  split
  · next ha =>
    have hn : mb.m_context.isNone = false := by simpa [Option.isSome_iff_ne_none] using hmb
    rw [takeWhile_cons, hn]
    simp only [Bool.false_eq_true, if_false, append_nil]
    exact ((takeWhile_sublist _).eq_of_length ha).symm
  · rfl

theorem unmarkedFront_eq_self (h : ∀ mb ∈ pushed, mb.m_context = none) :
    unmarkedFront pushed = pushed :=
  takeWhile_eq_self_iff.mpr (fun mb hmb => by rw [h mb hmb]; rfl)

/-- Everything read so far was pushed, and what is left is the rest of the file. -/
structure Healthy (m : Migration) (pushed : List MemBlock) (delivered : List Bytes)
    (migratingFileSize : UInt64) : Prop where
  unmarked : ∀ mb ∈ pushed, mb.m_context = none
  delivered : delivered = pushed.map MemBlock.payload
  left : migratingFileSize.toNat + (payloads pushed).length = m.fileSize.toNat
  full : migratingFileSize ≠ 0 → ∀ mb ∈ pushed, mb.payload.length = m.blockCapacity.toNat

variable {delivered : List Bytes}

/-- As long as something is left, more blocks are needed. -/
theorem Healthy.length_lt {m : Migration}
    {migratingFileSize : UInt64} (h : Healthy m pushed delivered migratingFileSize)
    (hne : migratingFileSize ≠ 0) : pushed.length < m.blockCount := by
  rw [m.lt_blockCount_iff]
  have hf := length_payloads_of_full (h.full hne)
  have hl := h.left
  have hpos : 0 < migratingFileSize.toNat := by
    refine Nat.pos_of_ne_zero (fun hz => hne ?_)
    exact UInt64.toNat_inj.mp hz
  omega

def Incomplete (m : Migration) (pushed : List MemBlock) : Prop :=
  (unmarkedFront pushed).length < m.blockCount

theorem incomplete_of_length {m : Migration} (h : pushed.length < m.blockCount) :
    Incomplete m pushed :=
  lt_of_le_of_lt (length_unmarkedFront_le pushed) h

/-- What a control state of the disk read task says about the blocks it pushed: while it is
healthy they are the file so far, and once it is not, a block of the file is missing. -/
def ReaderContents (m : Migration) (pushed : List MemBlock) (delivered : List Bytes) :
    Reader → Prop
  | .start => pushed = [] ∧ delivered = [] ∧ m.fileSize ≠ 0
  | .opening => pushed = [] ∧ delivered = [] ∧ m.fileSize ≠ 0
  | .loop migratingFileSize _ => Healthy m pushed delivered migratingFileSize
  | .gettingBlock migratingFileSize _ =>
      Healthy m pushed delivered migratingFileSize ∧ migratingFileSize ≠ 0
  | .reading mb migratingFileSize _ =>
      Healthy m pushed delivered migratingFileSize ∧ migratingFileSize ≠ 0 ∧ mb.m_context = none
  | .pushing mb migratingFileSize _ short =>
      if short then mb.m_context ≠ none ∧ Incomplete m pushed
      else Healthy m (pushed ++ [mb]) delivered migratingFileSize ∧ pushed.length < m.blockCount
  | .caught _ _ _ => Incomplete m pushed
  | .circulating none _ => Incomplete m pushed
  | .circulating (some mb) _ => mb.m_context ≠ none ∧ Incomplete m pushed
  | .ended => Healthy m pushed delivered 0 ∨ Incomplete m pushed
  | .escaped _ => Incomplete m pushed

/-! ## The tape write task -/

/-- The blocks popped so far are unmarked and on tape, and the local variables count them. -/
structure WrittenSoFar (front : List MemBlock) (tape : List Bytes) (l : WriteLocals) : Prop where
  unmarked : ∀ mb ∈ front, mb.m_context = none
  tape : tape.flatten = payloads front
  ckSum : l.ckSum = adler32 zeroAdler32 (payloads front)
  dataVolume : l.dataVolume = UInt64.ofNat (payloads front).length

def Exit.isCompleted : Exit → Bool
  | .completed _ _ => true
  | _ => false

/-- What a control state of the tape write task says about the blocks it popped. -/
def WriterContents (m : Migration) (front : List MemBlock) (tape : List Bytes) : Writer → Prop
  | .waiting => front = [] ∧ tape = []
  | .opening => front = [] ∧ tape = []
  | .loop l => WrittenSoFar front tape l
  | .holding l mb => ∃ before, front = before ++ [mb] ∧ WrittenSoFar before tape l
  | .writing l mb rest =>
      ∃ before, front = before ++ [mb] ∧ (∀ b ∈ front, b.m_context = none) ∧
        tape.flatten ++ rest.flatten = payloads front ∧
        l.ckSum = adler32 zeroAdler32 (payloads front) ∧
        l.dataVolume = UInt64.ofNat (payloads before).length
  | .closing l => WrittenSoFar front tape l ∧ m.blockCount ≤ front.length
  | .circulating exit => exit.isCompleted = false
  | .ended (.completed checksum fileSize) =>
      WrittenSoFar front tape ⟨checksum, 0, fileSize, false⟩ ∧ m.blockCount ≤ front.length
  | _ => True

/-! ## The invariant -/

structure ContentsInv (m : Migration) (w : World) : Prop where
  free_unmarked : ∀ mb ∈ w.freeBlocks, mb.m_context = none
  pushed_count : w.dataBlocksPushed = w.pushed.length
  pushed_le : w.pushed.length ≤ m.blockCount
  popped_le : w.dataBlocksPopped ≤ w.pushed.length
  data : w.dataBlocks = w.pushed.drop w.dataBlocksPopped
  reader : ReaderContents m w.pushed w.delivered w.reader
  writer : WriterContents m (w.pushed.take w.dataBlocksPopped) w.tape w.writer

theorem ContentsInv.initial (m : Migration) : ContentsInv m (World.initial m) where
  free_unmarked := by simp [World.initial]
  pushed_count := rfl
  pushed_le := Nat.zero_le _
  popped_le := Nat.le_refl _
  data := rfl
  reader := by
    show ReaderContents m [] [] (if m.fileSize = 0 then .ended else .start)
    split
    · next h =>
      refine .inl ⟨by simp, rfl, ?_, by simp⟩
      rw [h]
      rfl
    · next h => exact ⟨rfl, rfl, h⟩
  writer := ⟨rfl, rfl⟩

namespace ContentsInv

variable {m : Migration} {w : World}

/-! ### What the parts of a step do to it -/

/-- The disk read task moves on. -/
theorem withReader (h : ContentsInv m w) {r : Reader} (hr : ReaderContents m w.pushed delivered r) :
    ContentsInv m { w with delivered := delivered, reader := r } :=
  ⟨h.free_unmarked, h.pushed_count, h.pushed_le, h.popped_le, h.data, hr, h.writer⟩

theorem getFreeBlock (h : ContentsInv m w) {cont : MemBlock → Reader} {fail : Reader}
    (hc : ∀ mb, mb.m_context = none → ReaderContents m w.pushed w.delivered (cont mb))
    (hf : ReaderContents m w.pushed w.delivered fail) :
    ContentsInv m (w.getFreeBlock cont fail) := by
  unfold World.getFreeBlock
  cases hfr : w.freeBlocks with
  | nil => exact h
  | cons mb rest =>
    have ha := h.free_unmarked
    rw [hfr] at ha
    show ContentsInv m (if _ then _ else _)
    split
    · refine ⟨?_, h.pushed_count, h.pushed_le, h.popped_le, h.data, hf, h.writer⟩
      intro b hb
      refine ha b ?_
      have hb' : b ∈ rest ++ [mb] := hb
      rw [mem_append, mem_singleton] at hb'
      exact mem_cons.mpr hb'.symm
    · exact ⟨fun b hb => ha b (.tail _ hb), h.pushed_count, h.pushed_le,
        h.popped_le, h.data, hc mb (ha mb mem_cons_self), h.writer⟩

/-- A push: either the pipeline is full, or the block goes to its end. -/
theorem pushStep (hn : m.blockCount < 2 ^ 31) (h : ContentsInv m w)
    {cont fail : Reader} (hc : ReaderContents m (w.pushed ++ [mb]) w.delivered cont)
    (hf : ReaderContents m w.pushed w.delivered fail) :
    ContentsInv m (w.pushStep m mb cont fail) := by
  unfold World.pushStep
  split
  · exact h.withReader hf
  next hr =>
  rw [m.blocksNeeded_eq hn, h.pushed_count] at hr
  have hp := h.popped_le
  refine ⟨h.free_unmarked, ?_, ?_, ?_, ?_, hc, ?_⟩
  · show w.dataBlocksPushed + 1 = (w.pushed ++ [mb]).length
    rw [h.pushed_count, length_append, length_singleton]
  · show (w.pushed ++ [mb]).length ≤ m.blockCount
    rw [length_append, length_singleton]
    omega
  · show w.dataBlocksPopped ≤ (w.pushed ++ [mb]).length
    rw [length_append]
    omega
  · show w.dataBlocks ++ [mb] = (w.pushed ++ [mb]).drop w.dataBlocksPopped
    rw [drop_append_of_le_length hp, h.data]
  · show WriterContents m ((w.pushed ++ [mb]).take w.dataBlocksPopped) w.tape w.writer
    rw [take_append_of_le_length hp]
    exact h.writer

/-- The push of a marked block leaves a block of the file missing. -/
theorem pushMarked (hn : m.blockCount < 2 ^ 31) (h : ContentsInv m w)
    (hmb : mb.m_context ≠ none) (hm : Incomplete m w.pushed) {cont fail : Reader}
    (hc : ∀ pushed, Incomplete m pushed → ReaderContents m pushed w.delivered cont)
    (hf : ∀ pushed, Incomplete m pushed → ReaderContents m pushed w.delivered fail) :
    ContentsInv m (w.pushStep m mb cont fail) := by
  refine h.pushStep hn (hc _ ?_) (hf _ hm)
  unfold Incomplete
  rw [unmarkedFront_concat hmb]
  exact hm

/-- The tape write task moves on. -/
theorem withWriter (h : ContentsInv m w) {wr : Writer} {tape : List Bytes} {errorFlag : Bool}
    {releases : List Nat} (hw : WriterContents m (w.pushed.take w.dataBlocksPopped) tape wr) :
    ContentsInv m { w with
      errorFlag := errorFlag, tape := tape, releases := releases, writer := wr } :=
  ⟨h.free_unmarked, h.pushed_count, h.pushed_le, h.popped_le, h.data, h.reader, hw⟩

/-- The tape write task fails: it says no more about the tape. -/
theorem fail (h : ContentsInv m w) (mb : Option MemBlock) (e : TaskExn) :
    ContentsInv m (w.fail mb e) := by
  cases e with
  | exception message errno =>
    cases mb with
    | none | some => exact h.withWriter rfl
  | std what =>
    cases mb with
    | none | some => exact h.withWriter (by trivial)

theorem driveStep (h : ContentsInv m w) (mb : Option MemBlock) {cont : World}
    (hc : ContentsInv m cont) (a : DriveAnswer) : ContentsInv m (w.driveStep mb cont a) := by
  cases a with
  | ok => exact hc
  | threw e => exact h.fail mb e

/-- The tape write task takes the next block. -/
theorem pop (h : ContentsInv m w) {rest : List MemBlock}
    (hda : w.dataBlocks = mb :: rest) {wr : Writer} {releases : List Nat}
    (hw : WriterContents m (w.pushed.take w.dataBlocksPopped ++ [mb]) w.tape wr) :
    ContentsInv m { w with
      dataBlocks := rest, dataBlocksPopped := w.dataBlocksPopped + 1, releases := releases
      writer := wr } := by
  have hd : w.pushed.drop w.dataBlocksPopped = mb :: rest := by rw [← h.data, hda]
  have hlt : w.dataBlocksPopped < w.pushed.length := by
    by_contra hge
    rw [drop_eq_nil_of_le (not_lt.mp hge)] at hd
    cases hd
  have hg : w.pushed[w.dataBlocksPopped] = mb := by
    rw [drop_eq_getElem_cons hlt] at hd
    exact (List.cons.inj hd).1
  refine ⟨h.free_unmarked, h.pushed_count, h.pushed_le, hlt, ?_, h.reader, ?_⟩
  · show rest = w.pushed.drop (w.dataBlocksPopped + 1)
    rw [← tail_drop, hd]
    rfl
  · show WriterContents m (w.pushed.take (w.dataBlocksPopped + 1)) w.tape wr
    rw [take_succ_eq_append_getElem hlt, hg]
    exact hw

/-! ### The steps of the disk read task -/

/-- A read within the announced size. -/
theorem readStep (h : ContentsInv m w) {migratingFileSize blockId : UInt64}
    {bytes : Bytes} (hh : Healthy m w.pushed w.delivered migratingFileSize)
    (hne : migratingFileSize ≠ 0) (hmb : mb.m_context = none)
    (hw : bytes.length ≤ migratingFileSize.toNat) :
    ContentsInv m (w.readStep m mb migratingFileSize blockId (.data bytes)) := by
  have hlt := hh.length_lt hne
  show ContentsInv m (if bytes.length ≤ m.blockCapacity.toNat then _ else w)
  split
  · next hle =>
    have hs := migratingFileSize.toNat_lt
    have hn : (UInt64.ofNat bytes.length).toNat = bytes.length :=
      UInt64.toNat_ofNat_of_lt' (by show bytes.length < 2 ^ 64; omega)
    have hsu : (migratingFileSize - UInt64.ofNat bytes.length).toNat
        = migratingFileSize.toNat - bytes.length := by
      rw [UInt64.toNat_sub_of_le _ _ (by rw [UInt64.le_iff_toNat_le, hn]; exact hw), hn]
    split
    · refine h.withReader ?_
      exact ⟨by simp [MemBlock.markAsFailed], incomplete_of_length hlt⟩
    next hf =>
    refine h.withReader ?_
    refine ⟨⟨?_, ?_, ?_, ?_⟩, hlt⟩
    · intro b hb
      rw [mem_append, mem_singleton] at hb
      obtain hold | hnew := hb
      · exact hh.unmarked b hold
      · rw [hnew]
        exact hmb
    · rw [hh.delivered, map_append]
      rfl
    · have hl := hh.left
      rw [payloads_concat, length_append, hsu]
      show _ + (_ + bytes.length) = _
      omega
    · intro hm b hb
      rw [mem_append, mem_singleton] at hb
      obtain hold | hnew := hb
      · exact hh.full hne b hold
      rw [hnew]
      by_contra hshort
      exact hf ⟨hshort, hm⟩
  · exact h

theorem readerStep (hn : m.blockCount < 2 ^ 31) (h : ContentsInv m w) {a : DiskAnswer}
    (hw : WithinAnnounced w (.reader a)) : ContentsInv m (w.readerStep m a) := by
  have hr := h.reader
  unfold World.readerStep
  generalize hs : w.reader = reader at hr ⊢
  cases reader with
  | start =>
    obtain ⟨hpu, hd, hne⟩ := hr
    refine h.withReader ?_
    split
    · exact incomplete_of_length (by rw [hpu]; exact m.blockCount_pos hne)
    · exact ⟨hpu, hd, hne⟩
  | opening =>
    obtain ⟨hpu, hd, hne⟩ := hr
    have hm : Incomplete m w.pushed := incomplete_of_length (by rw [hpu]; exact m.blockCount_pos hne)
    cases a with
    | opened size =>
      show ContentsInv m (if m.fileSize ≠ size then _ else _)
      split
      · exact h.withReader (by exact hm)
      refine h.withReader ?_
      rw [hpu, hd]
      exact ⟨by simp, rfl, by simp, by simp⟩
    | data bytes => exact h
    | threw e =>
      cases e with
      | exception | std => exact h.withReader (by exact hm)
  | loop migratingFileSize blockId =>
    have hh : Healthy m w.pushed w.delivered migratingFileSize := hr
    show ContentsInv m (if migratingFileSize = 0 then _ else _)
    split
    · next hz =>
      refine h.withReader ?_
      rw [hz] at hh
      exact .inl hh
    · next hne =>
      split
      · exact h.withReader (by exact incomplete_of_length (hh.length_lt hne))
      · exact h.withReader (by exact ⟨hh, hne⟩)
  | gettingBlock migratingFileSize blockId =>
    obtain ⟨hh, hne⟩ := hr
    refine h.getFreeBlock ?_ (incomplete_of_length (hh.length_lt hne))
    intro mb hmb
    exact ⟨hh, hne, hmb⟩
  | reading mb migratingFileSize blockId =>
    obtain ⟨hh, hne, hmb⟩ := hr
    have hm := incomplete_of_length (hh.length_lt hne)
    cases a with
    | opened size => exact h
    | data bytes =>
      exact h.readStep hh hne hmb (by simpa only [WithinAnnounced, hs] using hw)
    | threw e =>
      cases e with
      | exception | std => exact h.withReader (by exact hm)
  | pushing mb migratingFileSize blockId short =>
    cases short with
    | false =>
      obtain ⟨hh, hlt⟩ := hr
      exact h.pushStep hn hh (incomplete_of_length hlt)
    | true =>
      obtain ⟨hmb, hm⟩ := hr
      exact h.pushMarked hn hmb hm (fun _ hp => hp) (fun _ hp => hp)
  | caught mb blockId message =>
    cases mb with
    | none => exact h.getFreeBlock (fun _ _ => hr) hr
    | some mb =>
      exact h.pushMarked hn (by simp [MemBlock.markAsFailed]) hr (fun _ hp => hp) (fun _ hp => hp)
  | circulating mb blockId =>
    cases mb with
    | none =>
      show ContentsInv m (if blockId < m.howManyBlocksNeeded then _ else _)
      split
      · exact h.getFreeBlock (fun _ _ => ⟨by simp [MemBlock.markAsCancelled], hr⟩) hr
      · exact h.withReader (.inr hr)
    | some mb => exact h.pushMarked hn hr.1 hr.2 (fun _ hp => hp) (fun _ hp => hp)
  | ended | escaped => exact h

/-! ### The steps of the tape write task -/

theorem holdStep (h : ContentsInv m w) {l : WriteLocals} (hs : w.writer = .holding l mb) :
    ContentsInv m (w.holdStep m l mb) := by
  have hw := h.writer
  rw [hs] at hw
  obtain ⟨before, hf, hso⟩ := hw
  unfold World.holdStep
  split
  · exact h.withWriter (by trivial)
  split
  · next hp =>
    -- a block that passes the check is unmarked
    have hmb : mb.m_context = none := by
      unfold World.passesCheck MemBlock.isFailed MemBlock.isCanceled at hp
      cases hc : mb.m_context with
      | none => rfl
      | some c => cases c <;> simp [hc] at hp
    refine h.withWriter ?_
    refine ⟨before, hf, ?_, ?_, ?_, hso.dataVolume⟩
    · intro b hb
      rw [hf, mem_append, mem_singleton] at hb
      obtain hold | hnew := hb
      · exact hso.unmarked b hold
      · rw [hnew]
        exact hmb
    · rw [hso.tape, payloadWrite_flatten, hf, payloads_concat]
    · show adler32 l.ckSum mb.payload = _
      rw [hso.ckSum, hf, payloads_concat, adler32_append]
  · split
    · exact h.withWriter rfl
    · split
      · exact h.fail _ _
      · exact h.fail _ _

theorem writerStep (hn : m.blockCount < 2 ^ 31) (h : ContentsInv m w) (a : DriveAnswer) :
    ContentsInv m (w.writerStep m a) := by
  have hw := h.writer
  unfold World.writerStep
  generalize hs : w.writer = writer at hw ⊢
  cases writer with
  | waiting =>
    show ContentsInv m (if m.validNextFSeq then _ else _)
    split
    · exact h.withWriter (by exact hw)
    · exact h.withWriter (by trivial)
  | opening =>
    obtain ⟨hfr, hta⟩ := hw
    refine h.driveStep none (h.withWriter ?_) a
    rw [hfr, hta]
    exact ⟨by simp, rfl, rfl, rfl⟩
  | loop l =>
    show ContentsInv m (if w.finished m then _ else _)
    split
    · next hf =>
      refine h.withWriter ?_
      split
      · trivial
      refine ⟨hw, ?_⟩
      unfold World.finished at hf
      rw [m.blocksNeeded_eq hn] at hf
      have hle := h.popped_le
      rw [length_take]
      simp only [ge_iff_le, Nat.cast_le, decide_eq_true_eq] at hf
      omega
    · unfold World.popDataBlock
      cases hd : w.dataBlocks with
      | nil => exact h
      | cons mb rest => exact h.pop hd ⟨_, rfl, hw⟩
  | holding l mb => exact h.holdStep hs
  | placeholder mb => exact h.driveStep mb (h.withWriter (by trivial)) a
  | closingPlaceholder mb =>
    refine h.driveStep mb ?_ a
    cases mb with
    | none | some => exact h.withWriter rfl
  | writing l mb rest =>
    obtain ⟨before, hfr, hu, hta, hsu, hv⟩ := hw
    cases rest with
    | nil =>
      refine h.withWriter ?_
      refine ⟨hu, ?_, hsu, ?_⟩
      · rw [← hta, flatten_nil, append_nil]
        rfl
      · show l.dataVolume + UInt64.ofNat mb.payload.length = _
        rw [hv, hfr, payloads_concat, length_append, UInt64.ofNat_add]
    | cons block rest =>
      refine h.driveStep (some mb) (h.withWriter ?_) a
      refine ⟨before, hfr, hu, ?_, hsu, hv⟩
      rw [← hta]
      simp
  | closing l =>
    obtain ⟨hso, ha⟩ := hw
    refine h.driveStep none (h.withWriter ?_) a
    exact ⟨⟨hso.unmarked, hso.tape, hso.ckSum, hso.dataVolume⟩, ha⟩
  | circulating exit =>
    show ContentsInv m (if w.finished m then _ else _)
    split
    · refine h.withWriter ?_
      cases exit with
      | completed checksum fileSize => cases hw
      | _ => trivial
    · unfold World.popDataBlock
      cases hd : w.dataBlocks with
      | nil => exact h
      | cons mb rest =>
        have hp : ContentsInv m { w with
            dataBlocks := rest
            dataBlocksPopped := w.dataBlocksPopped + 1
            releases := w.releases ++ [mb.lending]
            writer := .circulating exit } := h.pop hd hw
        rw [← hs] at hp
        exact hp
  | ended exit => exact h

/-! ### Every step -/

theorem step (hn : m.blockCount < 2 ^ 31) (h : ContentsInv m w) (e : Event)
    (hw : WithinAnnounced w e) : ContentsInv m (w.step m e) := by
  cases e with
  | provide =>
    show ContentsInv m (if _ ∧ _ then _ else w)
    split
    · refine ⟨?_, h.pushed_count, h.pushed_le, h.popped_le, h.data, h.reader, h.writer⟩
      intro mb hmb
      have hm' : mb ∈ w.freeBlocks ++ [MemBlock.fresh w.provided] := hmb
      rw [mem_append, mem_singleton] at hm'
      obtain hold | hnew := hm'
      · exact h.free_unmarked mb hold
      · rw [hnew]
        rfl
    · exact h
  | setErrorFlag => exact h.withWriter (by exact h.writer)
  | reader a => exact h.readerStep hn hw
  | writer a => exact h.writerStep hn a
  | discard =>
    show ContentsInv m (if w.writer = .waiting then _ else w)
    split
    · exact h.withWriter rfl
    · exact h

/-- When all the blocks are there and unmarked, the disk read task has read the file to its
end. -/
theorem healthy_of_all (h : ContentsInv m w) (ha : ∀ mb ∈ w.pushed, mb.m_context = none)
    (hl : w.pushed.length = m.blockCount) : Healthy m w.pushed w.delivered 0 := by
  have hnot : ¬ Incomplete m w.pushed := by
    unfold Incomplete
    rw [unmarkedFront_eq_self ha, hl]
    exact Nat.lt_irrefl _
  have hr := h.reader
  generalize w.reader = reader at hr
  cases reader with
  | start | opening =>
    obtain ⟨hp, _, hne⟩ := hr
    rw [hp] at hl
    exact absurd hl (m.blockCount_pos hne).ne
  | loop migratingFileSize blockId =>
    have hh : Healthy m w.pushed w.delivered migratingFileSize := hr
    by_cases hz : migratingFileSize = 0
    · rw [hz] at hh
      exact hh
    · exact absurd hl (hh.length_lt hz).ne
  | gettingBlock migratingFileSize blockId =>
    exact absurd hl (hr.1.length_lt hr.2).ne
  | reading mb migratingFileSize blockId =>
    exact absurd hl (hr.1.length_lt hr.2.1).ne
  | pushing mb migratingFileSize blockId short =>
    cases short with
    | false => exact absurd hl hr.2.ne
    | true => exact absurd hr.2 hnot
  | caught | escaped =>
    exact absurd hr hnot
  | circulating mb blockId =>
    cases mb with
    | none => exact absurd hr hnot
    | some mb => exact absurd hr.2 hnot
  | ended =>
    obtain hh | hm := hr
    · exact hh
    · exact absurd hm hnot

/-- The invariant says what the property asks for. -/
theorem hasTheBytes (h : ContentsInv m w) {checksum : UInt32} {fileSize : UInt64}
    (hd : w.writer = .ended (.completed checksum fileSize)) :
    HasTheBytes m w checksum fileSize := by
  have hw := h.writer
  rw [hd] at hw
  obtain ⟨hso, hc⟩ := hw
  -- the popped blocks are all the blocks
  have hle := h.pushed_le
  have hf : w.pushed.take w.dataBlocksPopped = w.pushed := by
    refine take_of_length_le ?_
    rw [length_take] at hc
    omega
  rw [hf] at hso hc
  have hh := h.healthy_of_all hso.unmarked (Nat.le_antisymm hle hc)
  have htl : (payloads w.pushed).length = m.fileSize.toNat := by
    have hl := hh.left
    rw [show (0 : UInt64).toNat = 0 from rfl] at hl
    omega
  refine ⟨?_, ?_, ?_, ?_⟩
  · rw [hso.tape, hh.delivered]
    rfl
  · rw [hso.tape, htl]
  · have hv : fileSize = UInt64.ofNat (payloads w.pushed).length := hso.dataVolume
    rw [hv, htl, UInt64.ofNat_toNat]
  · rw [hso.tape]
    exact hso.ckSum

end ContentsInv

/-! ## Whole runs -/

/-- **A job reported as completed has the bytes of the file on tape** when reads stay within the
announced size and the number of blocks fits into an `int`. -/
theorem completed_has_the_bytes (m : Migration) (hn : m.howManyBlocksNeeded.toNat < 2 ^ 31)
    (es : List Event) (hes : Along (World.step m) WithinAnnounced (World.initial m) es)
    {checksum : UInt32} {fileSize : UInt64}
    (hdone : (run (World.step m) (World.initial m) es).writer
      = .ended (.completed checksum fileSize)) :
    HasTheBytes m (run (World.step m) (World.initial m) es) checksum fileSize := by
  have hi : ContentsInv m (run (World.step m) (World.initial m) es) :=
    run_invariant (fun w e h hw => h.step hn e hw) (ContentsInv.initial m) hes
  exact hi.hasTheBytes hdone

theorem quiet_run_has_the_bytes :
    (run (World.step threeBytes) (World.initial threeBytes) quietRun).tape = [[10, 20], [30]] ∧
      HasTheBytes threeBytes (run (World.step threeBytes) (World.initial threeBytes) quietRun)
        (adler32 zeroAdler32 [10, 20, 30]) 3 :=
  ⟨by decide, completed_has_the_bytes threeBytes (by decide) quietRun (by decide) (by decide)⟩

/-- A file announced with one byte, in blocks of two. -/
def oneByte : Migration := { threeBytes with fileSize := 1 }

/-- The file grew after its size was compared: the read fills the block. -/
def grownRun : List Event :=
  [.provide, .reader (.opened 1), .reader (.opened 1), .reader (.opened 1), .reader (.opened 1),
   .reader (.data [10, 20]), .reader (.opened 1), .writer .ok, .writer .ok, .writer .ok,
   .writer .ok, .writer .ok, .writer .ok, .writer .ok, .writer .ok]

/-- A file of `2^32 + 1` bytes, in blocks of one. -/
def manyBlocks : Migration :=
  { threeBytes with fileSize := 4294967297, blockCapacity := 1, capacity_pos := by decide }

/-- The pipeline takes one block for the whole file. -/
def truncatedRun : List Event :=
  [.provide, .reader (.opened 4294967297), .reader (.opened 4294967297),
   .reader (.opened 4294967297), .reader (.opened 4294967297), .reader (.data [10]),
   .reader (.opened 1), .writer .ok, .writer .ok, .writer .ok, .writer .ok, .writer .ok,
   .writer .ok, .writer .ok, .writer .ok]

/-- **Completed jobs with another size**: a file that grew while it was read, and one with more blocks
than an `int` counts. -/
theorem completed_with_other_size :
    ((run (World.step oneByte) (World.initial oneByte) grownRun).writer
        = .ended (.completed (adler32 zeroAdler32 [10, 20]) 2) ∧
      ¬ HasTheBytes oneByte (run (World.step oneByte) (World.initial oneByte) grownRun)
        (adler32 zeroAdler32 [10, 20]) 2) ∧
    ((run (World.step manyBlocks) (World.initial manyBlocks) truncatedRun).writer
        = .ended (.completed (adler32 zeroAdler32 [10]) 1) ∧
      ¬ HasTheBytes manyBlocks (run (World.step manyBlocks) (World.initial manyBlocks)
        truncatedRun) (adler32 zeroAdler32 [10]) 1) := by
  refine ⟨⟨by decide, ?_⟩, by decide, ?_⟩
  · intro h
    exact absurd h.size (by decide)
  · intro h
    exact absurd h.size (by decide)

end TapeArchive.Tapeserver
