/-
  The loop of `TapeReadTask::execute` over the memory blocks of a recalled file, with
  `Payload::append` for every tape block.

  `append` returns false for the tape block that fills the memory block, and only the
  others are counted: the numbers fall behind by one with every memory block.
-/
import TapeArchive.Lib.Run
import TapeArchive.Lib.Lists

namespace TapeArchive.Tapeserver.TapeReadTask

open Lib List

/-! ## The loop -/

/-- What the tape gives: a block of so many bytes, or an exception. -/
inductive TapeRead where
  | block (readSize : Nat)
  | throws

structure MemBlock where
  (m_fileBlock m_tapeFileBlock : Int)
  m_size : Nat := 0
  m_failed : Bool := false
  /-- The tape blocks in the payload. -/
  tapeBlocks : Nat := 0

structure State where
  (totalCapacity blockSize fileBlock tapeBlock : Nat)
  /-- The block being filled; none after an exception. -/
  mb : Option MemBlock
  /-- What went to the disk write task. -/
  m_fifo : List MemBlock

/-- The head of the loop. -/
def State.getFreeBlock (t : State) : State :=
  { t with
    mb := some { m_fileBlock := t.fileBlock, m_tapeFileBlock := t.tapeBlock }
    fileBlock := t.fileBlock + 1 }

def start (totalCapacity blockSize : Nat) : State :=
  State.getFreeBlock ⟨totalCapacity, blockSize, 0, 0, none, []⟩

/-- `reportErrorToDiskTask`: a block that is marked as failed. -/
def State.reportErrorToDiskTask (t : State) : State :=
  { t with
    mb := none
    m_fifo := t.m_fifo ++ [{ m_fileBlock := -1, m_tapeFileBlock := -1, m_failed := true }] }

/-- `append` refuses to read when a tape block may not fit. -/
def State.tooLittleSpace (t : State) (mb : MemBlock) : Bool :=
  t.blockSize > t.totalCapacity - mb.m_size

/-- One call of `append`, and the end of the memory block when it returns false. -/
def State.append (t : State) (read : TapeRead) : State :=
  match t.mb, read with
  | none, _ => t
  | some _, .throws => t.reportErrorToDiskTask
  | some mb, .block readSize =>
      if t.tooLittleSpace mb then t.reportErrorToDiskTask
      else
        let mb := { mb with m_size := mb.m_size + readSize, tapeBlocks := mb.tapeBlocks + 1 }
        if t.blockSize ≤ t.totalCapacity - mb.m_size then
          { t with mb := some mb, tapeBlock := t.tapeBlock + 1 }
        else { t with m_fifo := t.m_fifo ++ [mb] }.getFreeBlock

/-- The call of `append` that meets the end of the file, and the check of the checksum. -/
def State.endOfFile (t : State) (checksumValid : Bool) : State :=
  match t.mb with
  | none => t
  | some mb =>
      if t.tooLittleSpace mb || !checksumValid then t.reportErrorToDiskTask
      else { t with mb := none, m_fifo := t.m_fifo ++ [mb] }

/-- `execute` on a file, given by what the tape gives for each of its blocks. -/
def execute (totalCapacity blockSize : Nat) (reads : List TapeRead) (checksumValid : Bool) :
    List MemBlock :=
  ((run State.append (start totalCapacity blockSize) reads).endOfFile checksumValid).m_fifo

/-! ## The numbers -/

def tapeBlocksOf (blocks : List MemBlock) : Int := (blocks.map (fun b => (b.tapeBlocks : Int))).sum

/-- A block with data has the number of the tape blocks before it, less the blocks before it. -/
def Behind (blocks : List MemBlock) : Prop :=
  ∀ before b after, blocks = before ++ b :: after → b.m_failed = false →
    b.m_tapeFileBlock + before.length = tapeBlocksOf before

/-- Every block with data has the number of the tape blocks before it. -/
def NumbersRight (blocks : List MemBlock) : Prop :=
  ∀ before b after, blocks = before ++ b :: after → b.m_failed = false →
    b.m_tapeFileBlock = tapeBlocksOf before

theorem Behind.concat {blocks : List MemBlock} (h : Behind blocks) {b : MemBlock}
    (hb : b.m_failed = false → b.m_tapeFileBlock + blocks.length = tapeBlocksOf blocks) :
    Behind (blocks ++ [b]) := by
  intro before c after heq hc
  rcases List.eq_nil_or_concat after with rfl | ⟨rest, d, rfl⟩
  · obtain ⟨rfl, hbc⟩ := List.append_inj' heq rfl
    cases hbc
    exact hb hc
  · rw [List.concat_eq_append, ← List.cons_append, ← List.append_assoc] at heq
    exact h before c rest (List.append_inj' heq rfl).1 hc

/-- Every full block counts one less, and so does what is counted of the open one. -/
structure Inv (t : State) : Prop where
  behind : Behind t.m_fifo
  mb : ∀ mb, t.mb = some mb → mb.m_failed = false
    ∧ mb.m_tapeFileBlock + t.m_fifo.length = tapeBlocksOf t.m_fifo
    ∧ (t.tapeBlock : Int) = mb.m_tapeFileBlock + mb.tapeBlocks

theorem inv_start (totalCapacity blockSize : Nat) : Inv (start totalCapacity blockSize) where
  behind := by
    intro before b after heq
    simp [start, State.getFreeBlock] at heq
  mb := by
    rintro mb heq
    cases heq
    exact ⟨rfl, rfl, rfl⟩

variable {t : State}

theorem Inv.reportErrorToDiskTask (h : Inv t) : Inv t.reportErrorToDiskTask :=
  ⟨h.behind.concat nofun, nofun⟩

theorem Inv.append (h : Inv t) (read : TapeRead) : Inv (t.append read) := by
  unfold State.append
  split
  · exact h
  · exact h.reportErrorToDiskTask
  · next mb readSize hmb =>
    obtain ⟨hf, hn, ht⟩ := h.mb mb hmb
    split
    · exact h.reportErrorToDiskTask
    · dsimp only
      split
      · refine ⟨h.behind, ?_⟩
        rintro _ ⟨⟩
        refine ⟨hf, hn, ?_⟩
        push_cast
        omega
      · -- the tape block that fills the memory block is not counted
        refine ⟨h.behind.concat fun _ => hn, ?_⟩
        rintro _ ⟨⟩
        refine ⟨rfl, ?_, by simp [State.getFreeBlock]⟩
        simp [State.getFreeBlock, tapeBlocksOf] at hn ⊢
        omega

theorem Inv.endOfFile (h : Inv t) (checksumValid : Bool) :
    Behind (t.endOfFile checksumValid).m_fifo := by
  unfold State.endOfFile
  split
  · exact h.behind
  · next mb hmb =>
    split
    · exact h.reportErrorToDiskTask.behind
    · exact h.behind.concat fun _ => (h.mb mb hmb).2.1

theorem execute_behind (totalCapacity blockSize : Nat) (reads : List TapeRead)
    (checksumValid : Bool) : Behind (execute totalCapacity blockSize reads checksumValid) := by
  have h : Inv (run State.append (start totalCapacity blockSize) reads) :=
    run_preserves (I := Inv) (fun _ read h => h.append read) (inv_start totalCapacity blockSize)
  exact h.endOfFile checksumValid

/-- The numbers are right exactly when no block with data follows another block. -/
theorem Behind.numbers_iff {blocks : List MemBlock} (h : Behind blocks) :
    NumbersRight blocks
      ↔ ∀ before b after, blocks = before ++ b :: after → b.m_failed = false → before = [] := by
  constructor
  · intro hn before b after heq hb
    have hbe := h before b after heq hb
    rw [hn before b after heq hb] at hbe
    exact List.length_eq_zero_iff.mp (by omega)
  · intro ho before b after heq hb
    have hbe := h before b after heq hb
    rw [ho before b after heq hb] at hbe ⊢
    simpa using hbe

/-! ## The memory blocks of a file -/

/-- What is left to read when the memory block is full; `none` if it never is. -/
def afterFull (totalCapacity blockSize used : Nat) : List TapeRead → Option (List TapeRead)
  | [] | .throws :: _ => none
  | .block readSize :: reads =>
      if totalCapacity - (used + readSize) < blockSize then some reads
      else afterFull totalCapacity blockSize (used + readSize) reads

theorem fifo_prefix (t : State) (reads : List TapeRead) (checksumValid : Bool) :
    t.m_fifo <+: ((run State.append t reads).endOfFile checksumValid).m_fifo := by
  induction reads generalizing t with
  | nil =>
    rw [run_nil]
    unfold State.endOfFile
    split
    · exact prefix_rfl
    · split <;> exact prefix_append ..
  | cons read reads ih =>
    refine IsPrefix.trans ?_ (ih (t.append read))
    unfold State.append
    split
    · exact prefix_rfl
    · exact prefix_append ..
    · split
      · exact prefix_append ..
      · dsimp only
        split
        · exact prefix_rfl
        · exact prefix_append ..

theorem run_of_closed (h : t.mb = none) (reads : List TapeRead) : run State.append t reads = t := by
  induction reads generalizing t with
  | nil => rfl
  | cons read reads ih =>
    have ha : t.append read = t := by
      unfold State.append
      rw [h]
    rw [run_cons, ha]
    exact ih h

/-- **One memory block** gets full and the loop goes on, or it is the last one. -/
theorem fill (hmb : t.mb = some mb) (hf : mb.m_failed = false)
    (hroom : t.blockSize ≤ t.totalCapacity - mb.m_size) (reads : List TapeRead)
    (checksumValid : Bool) :
    match afterFull t.totalCapacity t.blockSize mb.m_size reads with
    | none => ∃ b, ((run State.append t reads).endOfFile checksumValid).m_fifo = t.m_fifo ++ [b]
        ∧ (b.m_failed = false ↔ checksumValid = true ∧ .throws ∉ reads)
    | some rest => ∃ t' b mb', run State.append t reads = run State.append t' rest
        ∧ t'.m_fifo = t.m_fifo ++ [b] ∧ b.m_failed = false ∧ t'.mb = some mb'
        ∧ mb'.m_failed = false ∧ mb'.m_size = 0
        ∧ t'.totalCapacity = t.totalCapacity ∧ t'.blockSize = t.blockSize := by
  have hlit : t.tooLittleSpace mb = false := by simpa [State.tooLittleSpace] using hroom
  induction reads generalizing t mb with
  | nil =>
    cases hc : checksumValid with
    | true => exact ⟨mb, by simp [State.endOfFile, hmb, hlit], by simp [hf]⟩
    | false =>
      exact ⟨_, by simp [State.endOfFile, hmb]; rfl, by simp⟩
  | cons read reads ih =>
    rw [run_cons]
    cases read with
    | throws =>
      have ha : t.append .throws = t.reportErrorToDiskTask := by simp [State.append, hmb]
      rw [ha, run_of_closed rfl]
      exact ⟨_, rfl, by simp⟩
    | block readSize =>
      unfold afterFull
      by_cases hfu : t.blockSize ≤ t.totalCapacity - (mb.m_size + readSize)
      · rw [if_neg (by omega)]
        have ha : t.append (.block readSize) = { t with
            mb := some { mb with m_size := mb.m_size + readSize, tapeBlocks := mb.tapeBlocks + 1 }
            tapeBlock := t.tapeBlock + 1 } := by
          simp [State.append, hmb, hlit, hfu]
        rw [ha]
        have hrec := ih (t := { t with
          mb := some { mb with m_size := mb.m_size + readSize, tapeBlocks := mb.tapeBlocks + 1 }
          tapeBlock := t.tapeBlock + 1 }) rfl hf hfu (by simpa [State.tooLittleSpace] using hfu)
        simpa using hrec
      · rw [if_pos (by omega)]
        have ha : t.append (.block readSize) = State.getFreeBlock { t with m_fifo := t.m_fifo
            ++ [{ mb with m_size := mb.m_size + readSize, tapeBlocks := mb.tapeBlocks + 1 }] } := by
          simp [State.append, hmb, hlit, hfu]
        rw [ha]
        exact ⟨_, _, _, rfl, rfl, hf, rfl, rfl, rfl, rfl, rfl⟩

theorem afterFull_suffix {totalCapacity blockSize used : Nat} {reads rest : List TapeRead}
    (h : afterFull totalCapacity blockSize used reads = some rest) : rest <:+ reads := by
  fun_induction afterFull totalCapacity blockSize used reads with
  | case1 | case2 => cases h
  | case3 used readSize reads hfu =>
    cases h
    exact suffix_cons ..
  | case4 used readSize reads hfu ih => exact (ih h).trans (suffix_cons ..)

/-- The sizes of a file that is read without an exception. -/
theorem afterFull_eq_none_iff {totalCapacity blockSize used : Nat} (hpos : 0 < blockSize)
    (hroom : used + blockSize ≤ totalCapacity) (sizes : List Nat) :
    afterFull totalCapacity blockSize used (sizes.map .block) = none
      ↔ used + sizes.sum + blockSize ≤ totalCapacity := by
  induction sizes generalizing used with
  | nil => simpa [afterFull] using hroom
  | cons size sizes ih =>
    rw [map_cons, afterFull, sum_cons]
    split
    · simp only [reduceCtorEq, false_iff]
      omega
    · rw [ih (by omega)]
      omega

/-- No block with data follows another one. -/
theorem single_block_iff {totalCapacity blockSize : Nat} (hcap : blockSize ≤ totalCapacity)
    (reads : List TapeRead) (checksumValid : Bool) :
    (∀ before b after, execute totalCapacity blockSize reads checksumValid = before ++ b :: after →
        b.m_failed = false → before = [])
      ↔ ∀ rest, afterFull totalCapacity blockSize 0 reads = some rest →
        afterFull totalCapacity blockSize 0 rest = none ∧ ¬(checksumValid = true ∧ .throws ∉ rest) := by
  have hfi := @fill (start totalCapacity blockSize) _ rfl rfl hcap reads checksumValid
  unfold execute
  change match afterFull totalCapacity blockSize 0 reads with
    | none => _
    | some rest => _ at hfi
  cases ha : afterFull totalCapacity blockSize 0 reads with
  | none =>
    rw [ha] at hfi
    obtain ⟨b, hb, -⟩ := hfi
    rw [hb]
    refine iff_of_true (fun before c after heq _ => ?_) nofun
    simpa using (List.append_eq_singleton_iff.mp heq.symm).resolve_right (by simp) |>.1
  | some rest =>
    rw [ha] at hfi
    obtain ⟨t', b, mb, hrun, hq, hb, hmb, hmf, hms, hca, hbs⟩ := hfi
    rw [hrun]
    have hse := @fill t' mb hmb hmf (by rw [hca, hbs, hms]; exact hcap) rest checksumValid
    rw [hca, hbs, hms] at hse
    simp only [Option.some.injEq, forall_eq']
    change t'.m_fifo = [b] at hq
    change match afterFull totalCapacity blockSize 0 rest with
      | none => _
      | some rest => _ at hse
    cases ha' : afterFull totalCapacity blockSize 0 rest with
    | none =>
      rw [ha'] at hse
      obtain ⟨b', hb', hd⟩ := hse
      rw [hb', hq, ← hd]
      constructor
      · exact fun h => ⟨rfl, fun hf => absurd (h [b] b' [] rfl hf) (by simp)⟩
      · rintro ⟨-, hf⟩ before c after heq hc
        match before, heq with
        | [], _ => rfl
        | [_], heq =>
          cases heq
          exact absurd hc hf
        | _ :: _ :: _, heq => simp at heq
    | some rest' =>
      -- the second block is full, and whatever follows does not take it back
      rw [ha'] at hse
      obtain ⟨t'', b', mb', hrun', hq', hb', -⟩ := hse
      obtain ⟨after, hafter⟩ := fifo_prefix t'' rest' checksumValid
      refine iff_of_false (fun h => ?_) (by simp)
      rw [hrun', ← hafter, hq', hq] at h
      exact absurd (h [b] b' after rfl hb') (by simp)

/-- **The tape block numbers** are right exactly when only the first memory block has data: it
does not get full, or the reading fails before the second one is complete. In a file that is read
to its end, that is when one memory block has room for one tape block more. -/
theorem tape_block_numbers_iff (totalCapacity blockSize : Nat) (hcap : blockSize ≤ totalCapacity) :
    (∀ reads checksumValid, NumbersRight (execute totalCapacity blockSize reads checksumValid)
      ↔ ∀ rest, afterFull totalCapacity blockSize 0 reads = some rest →
        afterFull totalCapacity blockSize 0 rest = none ∧ ¬(checksumValid = true ∧ .throws ∉ rest))
    ∧ ∀ sizes : List Nat, 0 < blockSize →
      (NumbersRight (execute totalCapacity blockSize (sizes.map .block) true)
        ↔ sizes.sum + blockSize ≤ totalCapacity) := by
  have hall := fun reads checksumValid =>
    (execute_behind totalCapacity blockSize reads checksumValid).numbers_iff.trans
      (single_block_iff hcap reads checksumValid)
  refine ⟨hall, fun sizes hpos => (hall _ _).trans ?_⟩
  have hno := afterFull_eq_none_iff hpos (by omega : 0 + blockSize ≤ totalCapacity) sizes
  rw [Nat.zero_add] at hno
  rw [← hno]
  cases ha : afterFull totalCapacity blockSize 0 (sizes.map .block) with
  | none => simp
  | some rest =>
    -- the rest is read to its end
    have hth : TapeRead.throws ∉ rest := fun hm => by simpa using (afterFull_suffix ha).subset hm
    simp [hth]

theorem single_block_numbered : NumbersRight (execute 3 1 ([1, 1].map .block) true) :=
  ((tape_block_numbers_iff 3 1 (by decide)).2 [1, 1] (by decide)).mpr (by decide)

/-- Three tape blocks in memory blocks of two: the second memory block holds the third tape block,
and has number 1. -/
theorem third_tape_block_has_number_one : (execute 2 1 [.block 1, .block 1, .block 1] true).map
      (fun b => (b.m_tapeFileBlock, b.tapeBlocks)) = [(0, 2), (1, 1)] := by
  decide

end TapeArchive.Tapeserver.TapeReadTask
