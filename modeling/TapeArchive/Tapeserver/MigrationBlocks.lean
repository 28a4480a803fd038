/-
  **THE MEMORY BLOCKS OF A MIGRATION ARE CONSERVED.**

  The lendings stand in one line: released, held by the tape write task, data blocks, held
  by the disk read task, free.  Two paths break it:
    * after a SHORT READ the block is pushed, and the exception clause pushes it again;
    * `validateNextFSeq` throws BEFORE the `try` of the tape write task.
-/
import TapeArchive.Tapeserver.MigrationPipeline
import Mathlib.Tactic.Linarith
import Mathlib.Tactic.Ring

namespace TapeArchive.Tapeserver

open Lib List

/-! ## The number of blocks -/

namespace Migration

variable (m : Migration)

def blockCount : Nat := m.howManyBlocksNeeded.toNat

theorem capacity_toNat_pos : 0 < m.blockCapacity.toNat := by
  have h := m.capacity_pos
  rw [UInt64.lt_iff_toNat_lt] at h
  simpa using h

theorem blockCount_eq : m.blockCount = m.fileSize.toNat / m.blockCapacity.toNat
    + (if m.fileSize.toNat % m.blockCapacity.toNat = 0 then 0 else 1) := by
  have hpos := m.capacity_toNat_pos
  have hs := m.fileSize.toNat_lt
  have hmo : m.fileSize % m.blockCapacity = 0 ↔ m.fileSize.toNat % m.blockCapacity.toNat = 0 := by
    rw [← UInt64.toNat_inj, UInt64.toNat_mod]
    rfl
  unfold blockCount howManyBlocksNeeded
  rw [UInt64.toNat_add, UInt64.toNat_div]
  by_cases h : m.fileSize.toNat % m.blockCapacity.toNat = 0
  · rw [if_pos (hmo.mpr h), if_pos h]
    have hd : m.fileSize.toNat / m.blockCapacity.toNat ≤ m.fileSize.toNat := Nat.div_le_self _ _
    exact Nat.mod_eq_of_lt (by simpa using lt_of_le_of_lt hd hs)
  · rw [if_neg (fun hm => h (hmo.mp hm)), if_neg h]
    -- a remainder needs a capacity of at least two, so the sum does not wrap
    have htw : 2 ≤ m.blockCapacity.toNat := by
      by_contra hlt
      have ho : m.blockCapacity.toNat = 1 := by omega
      exact h (by rw [ho, Nat.mod_one])
    have hd : m.fileSize.toNat / m.blockCapacity.toNat ≤ m.fileSize.toNat / 2 :=
      Nat.div_le_div_left htw (by omega)
    refine Nat.mod_eq_of_lt ?_
    show _ + 1 < 2 ^ 64
    omega

/-- **The blocks before the end of the file**: a `k`th block is needed exactly when the first
`k` do not hold the file. -/
theorem lt_blockCount_iff (k : Nat) :
    k < m.blockCount ↔ k * m.blockCapacity.toNat < m.fileSize.toNat := by
  have hpos := m.capacity_toNat_pos
  have hdm := Nat.div_add_mod m.fileSize.toNat m.blockCapacity.toNat
  have hm := Nat.mod_lt m.fileSize.toNat hpos
  rw [m.blockCount_eq]
  generalize m.fileSize.toNat / m.blockCapacity.toNat = q at *
  generalize m.fileSize.toNat % m.blockCapacity.toNat = r at *
  rw [← hdm]
  generalize m.blockCapacity.toNat = c at *
  split
  · next hr =>
    rw [hr, Nat.add_zero, Nat.add_zero, Nat.mul_comm c q]
    exact (Nat.mul_lt_mul_right hpos).symm
  · next hr =>
    constructor
    · intro hk
      have hle : k * c ≤ q * c := Nat.mul_le_mul_right c (by omega)
      rw [Nat.mul_comm c q]
      omega
    · intro hk
      by_contra hge
      have hle : (q + 1) * c ≤ k * c := Nat.mul_le_mul_right c (by omega)
      rw [Nat.add_mul, Nat.one_mul, Nat.mul_comm q c] at hle
      omega

theorem blockCount_pos (h : m.fileSize ≠ 0) : 0 < m.blockCount := by
  rw [m.lt_blockCount_iff, Nat.zero_mul]
  exact Nat.pos_of_ne_zero (fun hz => h (UInt64.toNat_inj.mp hz))

/-- A number of blocks that fits into an `int` reaches the pipeline unchanged. -/
theorem blocksNeeded_eq (h : m.blockCount < 2 ^ 31) : m.blocksNeeded = m.blockCount := by
  show (m.howManyBlocksNeeded.toUInt32.toBitVec).toInt = _
  have hn : m.howManyBlocksNeeded.toUInt32.toBitVec.toNat = m.blockCount := by
    show m.howManyBlocksNeeded.toUInt32.toNat = _
    exact Nat.mod_eq_of_lt (lt_of_lt_of_le h (by norm_num))
  rw [BitVec.toInt_eq_toNat_of_lt (by rw [hn]; omega), hn]

end Migration

/-! ## Runs without the two paths -/

/-- A step after which the blocks stay conserved: a read that fills its block or reads the file
to its end, a file sequence number that is the next one, and no foreign exception. -/
def Regular (m : Migration) (w : World) : Event → Prop
  | .reader (.data bytes) =>
      match w.reader with
      | .reading _ migratingFileSize _ =>
          bytes.length = m.blockCapacity.toNat ∨
            migratingFileSize - UInt64.ofNat bytes.length = 0
      | _ => True
  | .reader (.threw (.std _)) => False
  | .writer (.threw (.std _)) => False
  | .writer _ => w.writer = .waiting → m.validNextFSeq = true
  | _ => True

instance Regular.decidable (m : Migration) (w : World) : (e : Event) → Decidable (Regular m w e)
  | .reader (.data bytes) =>
      match h : w.reader with
      | .reading _ migratingFileSize _ =>
          decidable_of_iff (bytes.length = m.blockCapacity.toNat ∨
            migratingFileSize - UInt64.ofNat bytes.length = 0) (by simp only [Regular, h])
      | .start | .opening | .loop .. | .gettingBlock .. | .pushing .. | .caught ..
      | .circulating .. | .ended | .escaped .. => isTrue (by simp only [Regular, h])
  | .reader (.threw (.std _)) => isFalse id
  | .reader (.threw (.exception ..)) => isTrue trivial
  | .reader (.opened _) => isTrue trivial
  | .writer (.threw (.std _)) => isFalse id
  | .writer (.threw (.exception ..)) =>
      inferInstanceAs (Decidable (w.writer = .waiting → m.validNextFSeq = true))
  | .writer .ok => inferInstanceAs (Decidable (w.writer = .waiting → m.validNextFSeq = true))
  | .provide => isTrue trivial
  | .setErrorFlag => isTrue trivial
  | .discard => isTrue trivial

def World.pushes (w : World) : List Nat := w.pushed.map MemBlock.lending

def Reader.held : Reader → List Nat
  | .reading mb _ _ => [mb.lending]
  | .pushing mb _ _ _ => [mb.lending]
  | .caught (some mb) _ _ => [mb.lending]
  | .circulating (some mb) _ => [mb.lending]
  | _ => []

def lendingOf : Option MemBlock → List Nat
  | some mb => [mb.lending]
  | none => []

def Writer.held : Writer → List Nat
  | .holding _ mb => [mb.lending]
  | .placeholder mb => lendingOf mb
  | .closingPlaceholder mb => lendingOf mb
  | .writing _ mb _ => [mb.lending]
  | _ => []

/-- **The blocks are conserved**: no lending is pushed or released twice, a block that the disk read
task holds can be pushed, and in the end every block was lent, pushed and released. -/
structure BlocksConserved (m : Migration) (w : World) : Prop where
  pushed_once : w.pushes.Nodup ∧ ∀ b ∈ w.pushes, b < w.provided
  released_once : w.releases.Nodup ∧ ∀ b ∈ w.releases, b < w.provided
  room : w.reader.held ≠ [] → (w.dataBlocksPushed : Int) < m.blocksNeeded
  all_back : w.reader = .ended → (∃ exit, w.writer = .ended exit) →
    (w.provided : Int) = m.blocksNeeded ∧ w.pushes = List.range w.provided ∧
      w.releases = List.range w.provided
  caught : ∀ message, w.reader ≠ .escaped message

/-! ## The invariant -/

/-- What a control state of the disk read task says about the number `k` of blocks pushed. -/
def ReaderCount (m : Migration) (k : Nat) : Reader → Prop
  | .start => k = 0
  | .opening => k = 0
  | .loop migratingFileSize blockId =>
      blockId.toNat = k ∧ (migratingFileSize = 0 → k = m.blockCount) ∧
        (k < m.blockCount →
          migratingFileSize.toNat + k * m.blockCapacity.toNat = m.fileSize.toNat)
  | .gettingBlock migratingFileSize blockId =>
      blockId.toNat = k ∧
        (k < m.blockCount →
          migratingFileSize.toNat + k * m.blockCapacity.toNat = m.fileSize.toNat)
  | .reading _ migratingFileSize blockId =>
      blockId.toNat = k + 1 ∧
        migratingFileSize.toNat + k * m.blockCapacity.toNat = m.fileSize.toNat
  | .pushing _ migratingFileSize blockId short =>
      blockId.toNat = k + 1 ∧ short = false ∧ (migratingFileSize = 0 → k + 1 = m.blockCount) ∧
        (k + 1 < m.blockCount →
          migratingFileSize.toNat + (k + 1) * m.blockCapacity.toNat = m.fileSize.toNat)
  | .caught none blockId _ => blockId.toNat = k
  | .caught (some _) blockId _ => blockId.toNat = k + 1
  | .circulating none blockId => blockId.toNat = k
  | .circulating (some _) blockId => blockId.toNat = k + 1
  | .ended => k = m.blockCount
  | .escaped _ => False

/-- The tape write task closes the file and ends only after the last block. -/
def WriterCount (m : Migration) (popped : Nat) : Writer → Prop
  | .closing _ => m.blockCount ≤ popped
  | .ended _ => m.blockCount ≤ popped
  | _ => True

structure BlocksInv (m : Migration) (w : World) : Prop where
  lent : w.pushes ++ w.reader.held ++ w.freeBlocks.map MemBlock.lending = List.range w.provided
  passed : w.releases ++ w.writer.held ++ w.dataBlocks.map MemBlock.lending = w.pushes
  provided_le : w.provided ≤ m.blockCount
  pushed_count : w.dataBlocksPushed = w.pushed.length
  popped_count : w.dataBlocksPopped = w.releases.length + w.writer.held.length
  free_empty : ∀ mb ∈ w.freeBlocks, mb.payload = []
  reader : ReaderCount m w.pushed.length w.reader
  writer : WriterCount m w.dataBlocksPopped w.writer

theorem BlocksInv.initial (m : Migration) : BlocksInv m (World.initial m) where
  lent := by
    unfold World.initial World.pushes
    split <;> rfl
  passed := rfl
  provided_le := Nat.zero_le _
  pushed_count := rfl
  popped_count := rfl
  free_empty := by simp [World.initial]
  reader := by
    show ReaderCount m 0 (if m.fileSize = 0 then .ended else .start)
    split
    · next h =>
      -- no block for a file without bytes
      have hnot : ¬ 0 < m.blockCount := by
        rw [m.lt_blockCount_iff, h]
        simp
      show 0 = m.blockCount
      omega
    · rfl
  writer := trivial

namespace BlocksInv

variable {m : Migration} {w : World}

/-- The line of the lendings has as many as were provided. -/
theorem length_lent (h : BlocksInv m w) :
    w.pushed.length + w.reader.held.length + w.freeBlocks.length = w.provided := by
  have hl := congrArg List.length h.lent
  simpa [World.pushes, Nat.add_assoc] using hl

/-! ### What the parts of a step do to it -/

/-- The disk read task moves on with the same block. -/
theorem withReader (h : BlocksInv m w) {r : Reader} (hh : r.held = w.reader.held)
    (hr : ReaderCount m w.pushed.length r) (delivered : List Bytes) :
    BlocksInv m { w with delivered := delivered, reader := r } :=
  ⟨by rw [← h.lent, ← hh]; rfl, h.passed, h.provided_le, h.pushed_count, h.popped_count,
    h.free_empty, hr, h.writer⟩

/-- The disk read task takes a free block, which is empty. -/
theorem getFreeBlock (h : BlocksInv m w) (hh : w.reader.held = []) {cont : MemBlock → Reader}
    {fail : Reader} (hc : ∀ mb, (cont mb).held = [mb.lending])
    (hr : w.pushed.length < m.blockCount → ∀ mb, ReaderCount m w.pushed.length (cont mb)) :
    BlocksInv m (w.getFreeBlock cont fail) := by
  unfold World.getFreeBlock
  cases hf : w.freeBlocks with
  | nil => exact h
  | cons mb rest =>
    have he : mb.payload = [] := h.free_empty mb (by rw [hf]; exact mem_cons_self ..)
    have hlt : w.pushed.length < m.blockCount := by
      have hln := h.length_lent
      rw [hf, length_cons] at hln
      have hle := h.provided_le
      omega
    simp only [he, length_nil, ne_eq, not_true_eq_false, if_false]
    refine ⟨?_, h.passed, h.provided_le, h.pushed_count, h.popped_count, ?_, hr hlt mb, h.writer⟩
    · show w.pushes ++ (cont mb).held ++ rest.map MemBlock.lending = _
      have hl := h.lent
      rw [hh, hf, append_nil, map_cons] at hl
      rw [hc, append_assoc]
      exact hl
    · intro b hb
      exact h.free_empty b (by rw [hf]; exact .tail _ hb)

/-- The block at hand is one of the blocks still to push. -/
theorem length_lt_of_held (h : BlocksInv m w) {b : Nat} (hh : w.reader.held = [b]) :
    w.pushed.length < m.blockCount := by
  have hl := h.length_lent
  rw [hh, length_singleton] at hl
  have hle := h.provided_le
  omega

variable {mb : MemBlock}

/-- The disk read task pushes the block at hand: there is room for it. -/
theorem pushStep (hn : m.blockCount < 2 ^ 31) (h : BlocksInv m w)
    (hh : w.reader.held = [mb.lending]) {cont fail : Reader} (hc : cont.held = [])
    (hr : ReaderCount m (w.pushed.length + 1) cont) : BlocksInv m (w.pushStep m mb cont fail) := by
  have hlt := h.length_lt_of_held hh
  have hro : ¬ (w.dataBlocksPushed : Int) ≥ m.blocksNeeded := by
    rw [h.pushed_count, m.blocksNeeded_eq hn]
    omega
  unfold World.pushStep
  rw [if_neg hro]
  have hp : ({ w.pushDataBlock mb with reader := cont } : World).pushes
      = w.pushes ++ [mb.lending] := by
    unfold World.pushes World.pushDataBlock
    rw [map_append]
    rfl
  refine ⟨?_, ?_, h.provided_le, ?_, h.popped_count, h.free_empty, ?_, h.writer⟩
  · rw [hp]
    rw [hc, append_nil, ← hh]
    exact h.lent
  · rw [hp]
    show w.releases ++ w.writer.held ++ (w.dataBlocks ++ [mb]).map MemBlock.lending = _
    rw [map_append, ← append_assoc, h.passed]
    rfl
  · show w.dataBlocksPushed + 1 = (w.pushed ++ [mb]).length
    rw [h.pushed_count, length_append, length_singleton]
  · show ReaderCount m (w.pushed ++ [mb]).length cont
    rw [length_append, length_singleton]
    exact hr

variable {wr : Writer}

/-- The tape write task moves on with the same block. -/
theorem withWriter (h : BlocksInv m w) (hh : wr.held = w.writer.held)
    (hw : WriterCount m w.dataBlocksPopped wr) (errorFlag : Bool) (tape : List Bytes) :
    BlocksInv m { w with errorFlag := errorFlag, tape := tape, writer := wr } := by
  refine ⟨h.lent, ?_, h.provided_le, h.pushed_count, ?_, h.free_empty, h.reader, hw⟩
  · show w.releases ++ wr.held ++ _ = _
    rw [hh]
    exact h.passed
  · show w.dataBlocksPopped = w.releases.length + wr.held.length
    rw [hh]
    exact h.popped_count

/-- The tape write task releases the block at hand. -/
theorem release (h : BlocksInv m w) (hh : w.writer.held = [mb.lending])
    (hwr : wr.held = []) (hw : WriterCount m w.dataBlocksPopped wr) (errorFlag : Bool) :
    BlocksInv m { w.releaseBlock mb with errorFlag := errorFlag, writer := wr } := by
  refine ⟨h.lent, ?_, h.provided_le, h.pushed_count, ?_, h.free_empty, h.reader, hw⟩
  · show (w.releases ++ [mb.lending]) ++ wr.held ++ _ = _
    rw [hwr, append_nil, ← hh]
    exact h.passed
  · show w.dataBlocksPopped = (w.releases ++ [mb.lending]).length + wr.held.length
    rw [hwr, length_append, length_nil, ← hh]
    exact h.popped_count

/-- The block at hand, if there is one, is released on the way out. -/
theorem autoRelease (h : BlocksInv m w) (mb : Option MemBlock)
    (hh : w.writer.held = lendingOf mb) (hwr : wr.held = [])
    (hw : WriterCount m w.dataBlocksPopped wr) (errorFlag : Bool) :
    BlocksInv m { w.autoRelease mb with errorFlag := errorFlag, writer := wr } := by
  cases mb with
  | none => exact h.withWriter (hwr.trans hh.symm) hw errorFlag w.tape
  | some mb => exact h.release hh hwr hw errorFlag

/-- The tape write task fails with a CTA exception. -/
theorem fail (h : BlocksInv m w) (mb : Option MemBlock) (hh : w.writer.held = lendingOf mb)
    (message : String) (errno : Option Int) :
    BlocksInv m (w.fail mb (.exception message errno)) := by
  refine h.autoRelease mb hh rfl ?_ true
  trivial

variable {a : DriveAnswer}

theorem driveStep (h : BlocksInv m w) (mb : Option MemBlock)
    (hh : w.writer.held = lendingOf mb) {cont : World} (hc : BlocksInv m cont)
    (ha : ∀ what, a ≠ .threw (.std what)) :
    BlocksInv m (w.driveStep mb cont a) := by
  cases a with
  | ok => exact hc
  | threw e =>
    cases e with
    | exception message errno => exact h.fail mb hh message errno
    | std what => exact absurd rfl (ha what)

/-- The tape write task takes a data block. -/
theorem pop (h : BlocksInv m w) (hh : w.writer.held = [])
    {rest : List MemBlock} (hd : w.dataBlocks = mb :: rest)
    (hwr : wr.held = [mb.lending]) (hw : ∀ popped, WriterCount m popped wr) :
    BlocksInv m { w with
      dataBlocks := rest, dataBlocksPopped := w.dataBlocksPopped + 1, writer := wr } := by
  refine ⟨h.lent, ?_, h.provided_le, h.pushed_count, ?_, h.free_empty, h.reader, hw _⟩
  · show w.releases ++ wr.held ++ rest.map MemBlock.lending = _
    have hp := h.passed
    rw [hh, append_nil, hd, map_cons] at hp
    rw [hwr, append_assoc]
    exact hp
  · show w.dataBlocksPopped + 1 = w.releases.length + wr.held.length
    have hc := h.popped_count
    rw [hh, length_nil] at hc
    rw [hwr, length_singleton, hc]

/-! ### The steps of the disk read task -/

/-- The arithmetic of a read that fills its block or ends the file. -/
theorem readerCount_pushing {k r : Nat} {left blockId : UInt64} (hk : k < m.blockCount)
    (hl : left.toNat + k * m.blockCapacity.toNat = m.fileSize.toNat)
    (hid : blockId.toNat = k + 1) (hr : r ≤ m.blockCapacity.toNat)
    (hre : r = m.blockCapacity.toNat ∨ left - UInt64.ofNat r = 0) :
    ReaderCount m k (.pushing mb (left - UInt64.ofNat r) blockId false) := by
  have hc := m.blockCapacity.toNat_lt
  have hrn : (UInt64.ofNat r).toNat = r := UInt64.toNat_ofNat_of_lt' (by show r < 2 ^ 64; omega)
  have hs : (k + 1) * m.blockCapacity.toNat
      = k * m.blockCapacity.toNat + m.blockCapacity.toNat := by ring
  refine ⟨hid, rfl, ?_, ?_⟩
  · intro hze
    -- the file ends in this block
    have heq : left.toNat = r := by
      have hsu : left = UInt64.ofNat r := by
        have h := congrArg (· + UInt64.ofNat r) hze
        simpa using h
      rw [hsu, hrn]
    have hnot : ¬ k + 1 < m.blockCount := by
      rw [m.lt_blockCount_iff, hs]
      omega
    omega
  · intro hlt
    rw [m.lt_blockCount_iff, hs] at hlt
    have hle : r ≤ left.toNat := by omega
    have hsu : (left - UInt64.ofNat r).toNat = left.toNat - r := by
      rw [UInt64.toNat_sub_of_le _ _ (by rw [UInt64.le_iff_toNat_le, hrn]; exact hle), hrn]
    obtain hf | hze := hre
    · rw [hsu, hs, hf]
      omega
    -- more blocks are needed, so the file does not end here
    rw [hze] at hsu
    have hz : (0 : UInt64).toNat = 0 := rfl
    omega

theorem readerStep (hn : m.blockCount < 2 ^ 31) (h : BlocksInv m w) {a : DiskAnswer}
    (hre : Regular m w (.reader a)) : BlocksInv m (w.readerStep m a) := by
  have hr := h.reader
  have hnext : ∀ {i : UInt64}, i.toNat = w.pushed.length → w.pushed.length < m.blockCount →
      (i + 1).toNat = w.pushed.length + 1 := by
    intro i hid hlt
    rw [UInt64.toNat_add, hid]
    exact Nat.mod_eq_of_lt (by show _ + 1 < 2 ^ 64; omega)
  unfold World.readerStep
  generalize hs : w.reader = reader at hr ⊢
  have hh := congrArg Reader.held hs
  cases reader with
  | start =>
    refine h.withReader ?_ ?_ w.delivered
    · rw [hs]
      split <;> rfl
    have hk : w.pushed.length = 0 := hr
    split
    · exact hk.symm
    · exact hk
  | opening =>
    have hk : w.pushed.length = 0 := hr
    cases a with
    | opened size =>
      show BlocksInv m (if m.fileSize ≠ size then _ else _)
      split
      · refine h.withReader (by rw [hs]; rfl) ?_ w.delivered
        exact hk.symm
      refine h.withReader (by rw [hs]; rfl) ?_ w.delivered
      rw [hk]
      refine ⟨rfl, ?_, fun _ => by omega⟩
      intro hz
      have hnot : ¬ 0 < m.blockCount := by
        rw [m.lt_blockCount_iff, hz]
        simp
      omega
    | data bytes => exact h
    | threw e =>
      cases e with
      | exception message errno =>
        refine h.withReader (by rw [hs]; rfl) ?_ w.delivered
        exact hk.symm
      | std what => exact absurd hre id
  | loop migratingFileSize blockId =>
    obtain ⟨hid, hze, hl⟩ := hr
    show BlocksInv m (if migratingFileSize = 0 then _ else _)
    split
    · next hz =>
      refine h.withReader (by rw [hs]; rfl) ?_ w.delivered
      exact hze hz
    · show BlocksInv m (if w.errorFlag then _ else _)
      split
      · refine h.withReader (by rw [hs]; rfl) ?_ w.delivered
        exact hid
      · refine h.withReader (by rw [hs]; rfl) ?_ w.delivered
        exact ⟨hid, hl⟩
  | gettingBlock migratingFileSize blockId =>
    obtain ⟨hid, hl⟩ := hr
    refine h.getFreeBlock hh (fun _ => rfl) ?_
    exact fun hlt mb => ⟨hnext hid hlt, hl hlt⟩
  | reading mb migratingFileSize blockId =>
    obtain ⟨hid, hl⟩ := hr
    have hlt : w.pushed.length < m.blockCount := h.length_lt_of_held hh
    cases a with
    | opened size => exact h
    | threw e =>
      cases e with
      | exception message errno =>
        refine h.withReader (by rw [hs]; rfl) ?_ w.delivered
        exact hid
      | std what => exact absurd hre id
    | data bytes =>
      have hf : bytes.length = m.blockCapacity.toNat ∨
          migratingFileSize - UInt64.ofNat bytes.length = 0 := by
        simpa only [Regular, hs] using hre
      show BlocksInv m (if bytes.length ≤ m.blockCapacity.toNat then _ else w)
      split
      · next hle =>
        rw [if_neg (by
          intro hsh
          exact hf.elim hsh.1 hsh.2)]
        refine h.withReader (by rw [hs]; rfl) ?_ _
        exact readerCount_pushing hlt hl hid hle hf
      · exact h
  | pushing mb migratingFileSize blockId short =>
    obtain ⟨hid, hsh, hze, hl⟩ := hr
    subst hsh
    exact h.pushStep hn (by rw [hs]; rfl) rfl ⟨hid, hze, hl⟩
  | caught mb blockId message =>
    cases mb with
    | none =>
      exact h.getFreeBlock hh (fun _ => rfl) (fun hlt mb => hnext hr hlt)
    | some mb => exact h.pushStep hn (by rw [hs]; rfl) rfl hr
  | circulating mb blockId =>
    cases mb with
    | none =>
      have hid : blockId.toNat = w.pushed.length := hr
      show BlocksInv m (if blockId < m.howManyBlocksNeeded then _ else _)
      split
      · exact h.getFreeBlock hh (fun _ => rfl) (fun hlt mb => hnext hid hlt)
      next hge =>
      refine h.withReader (by rw [hs]; rfl) ?_ w.delivered
      -- nothing left to circulate: all the blocks were pushed
      rw [UInt64.lt_iff_toNat_lt, hid] at hge
      have hln := h.length_lent
      have hle := h.provided_le
      show w.pushed.length = m.blockCount
      have hg' : m.blockCount ≤ w.pushed.length := not_lt.mp hge
      omega
    | some mb => exact h.pushStep hn (by rw [hs]; rfl) rfl hr
  | ended => exact h
  | escaped message =>
    exact absurd hr id

/-! ### The steps of the tape write task -/

theorem holdStep (h : BlocksInv m w) {l : WriteLocals} (hh : w.writer.held = [mb.lending]) :
    BlocksInv m (w.holdStep m l mb) := by
  unfold World.holdStep
  split
  · exact h.withWriter (by exact hh.symm) (by trivial) w.errorFlag w.tape
  split
  · exact h.withWriter (by exact hh.symm) (by trivial) w.errorFlag w.tape
  · split
    · exact h.release hh rfl (by trivial) true
    · split
      · exact h.fail (some mb) hh _ _
      · exact h.fail (some mb) hh _ _

theorem writerStep (hn : m.blockCount < 2 ^ 31) (h : BlocksInv m w)
    (hr : Regular m w (.writer a)) : BlocksInv m (w.writerStep m a) := by
  have ha : ∀ what, a ≠ .threw (.std what) := by
    intro what he
    subst he
    exact hr
  have hfi : w.finished m = true → m.blockCount ≤ w.dataBlocksPopped := by
    intro hf
    unfold World.finished at hf
    rw [m.blocksNeeded_eq hn] at hf
    simpa using hf
  unfold World.writerStep
  cases hs : w.writer with
  | waiting =>
    have hse : m.validNextFSeq = true := by
      cases a with
      | ok => exact hr hs
      | threw e =>
        cases e with
        | exception message errno => exact hr hs
        | std what => exact absurd rfl (ha what)
    rw [if_pos hse]
    exact h.withWriter (by rw [hs]; rfl) (by trivial) w.errorFlag w.tape
  | opening =>
    exact h.driveStep none (by rw [hs]; rfl)
      (h.withWriter (by rw [hs]; rfl) (by trivial) w.errorFlag w.tape) ha
  | loop l =>
    show BlocksInv m (if w.finished m then _ else _)
    split
    · next hf =>
      refine h.withWriter ?_ ?_ w.errorFlag w.tape
      · rw [hs]
        split <;> rfl
      split
      · trivial
      · exact hfi hf
    · unfold World.popDataBlock
      cases hd : w.dataBlocks with
      | nil => exact h
      | cons mb rest => exact h.pop (by rw [hs]; rfl) hd rfl (fun _ => trivial)
  | holding l mb => exact h.holdStep (by rw [hs]; rfl)
  | placeholder mb =>
    exact h.driveStep mb (by rw [hs]; rfl)
      (h.withWriter (by rw [hs]; rfl) (by trivial) w.errorFlag _) ha
  | closingPlaceholder mb =>
    exact h.driveStep mb (by rw [hs]; rfl)
      (h.autoRelease mb (by rw [hs]; rfl) rfl (by trivial) (w.autoRelease mb).errorFlag) ha
  | writing l mb rest =>
    cases rest with
    | nil => exact h.release (by rw [hs]; rfl) rfl (by trivial) w.errorFlag
    | cons block rest =>
      exact h.driveStep (some mb) (by rw [hs]; rfl)
        (h.withWriter (by rw [hs]; rfl) (by trivial) w.errorFlag _) ha
  | closing l =>
    have hal : m.blockCount ≤ w.dataBlocksPopped := by
      have hw := h.writer
      rw [hs] at hw
      exact hw
    refine h.driveStep none (by rw [hs]; rfl) ?_ ha
    exact h.withWriter (by rw [hs]; rfl) (by exact hal) w.errorFlag w.tape
  | circulating exit =>
    show BlocksInv m (if w.finished m then _ else _)
    split
    · next hf => exact h.withWriter (by rw [hs]; rfl) (by exact hfi hf) w.errorFlag w.tape
    unfold World.popDataBlock
    cases hd : w.dataBlocks with
    | nil => exact h
    | cons mb rest =>
      -- popped and released in one go
      have hp : BlocksInv m { w with
          dataBlocks := rest
          dataBlocksPopped := w.dataBlocksPopped + 1
          writer := .holding .start mb } :=
        h.pop (by rw [hs]; rfl) hd rfl (fun _ => trivial)
      have hre : BlocksInv m { w with
          dataBlocks := rest
          dataBlocksPopped := w.dataBlocksPopped + 1
          releases := w.releases ++ [mb.lending]
          writer := .circulating exit } :=
        hp.release rfl rfl (by trivial) w.errorFlag
      rw [← hs] at hre
      exact hre
  | ended exit => exact h

/-! ### Every step -/

theorem step (hn : m.blockCount < 2 ^ 31) (h : BlocksInv m w) (e : Event)
    (hre : Regular m w e) : BlocksInv m (w.step m e) := by
  cases e with
  | provide =>
    show BlocksInv m (if _ ∧ _ then _ else w)
    split
    · next hr =>
      rw [m.blocksNeeded_eq hn] at hr
      refine ⟨?_, h.passed, ?_, h.pushed_count, h.popped_count, ?_, h.reader, h.writer⟩
      · show w.pushes ++ w.reader.held ++ (w.freeBlocks ++ [MemBlock.fresh w.provided]).map _
          = List.range (w.provided + 1)
        rw [map_append, ← append_assoc, h.lent, range_succ]
        rfl
      · show w.provided + 1 ≤ m.blockCount
        omega
      · intro mb hmb
        have hm' : mb ∈ w.freeBlocks ++ [.fresh w.provided] := hmb
        rw [mem_append, mem_singleton] at hm'
        obtain hold | hnew := hm'
        · exact h.free_empty mb hold
        · rw [hnew]
          rfl
    · exact h
  | setErrorFlag =>
    exact ⟨h.lent, h.passed, h.provided_le, h.pushed_count, h.popped_count, h.free_empty,
      h.reader, h.writer⟩
  | reader a => exact h.readerStep hn hre
  | writer a => exact h.writerStep hn hre
  | discard =>
    show BlocksInv m (if w.writer = .waiting then _ else w)
    split
    · next hw => exact h.withWriter (by rw [hw]; rfl) (by trivial) w.errorFlag w.tape
    · exact h

/-- The invariant says what the property asks for. -/
theorem conserved (hn : m.blockCount < 2 ^ 31) (h : BlocksInv m w) : BlocksConserved m w := by
  have hra : (List.range w.provided).Nodup := nodup_range
  have hs : w.pushes.Sublist (List.range w.provided) := by
    rw [← h.lent, append_assoc]
    exact sublist_append_left _ _
  have hs' : w.releases.Sublist (List.range w.provided) := by
    refine List.Sublist.trans ?_ hs
    rw [← h.passed, append_assoc]
    exact sublist_append_left _ _
  refine ⟨⟨hra.sublist hs, fun b hb => mem_range.mp (hs.subset hb)⟩,
    ⟨hra.sublist hs', fun b hb => mem_range.mp (hs'.subset hb)⟩, ?_, ?_,
    fun message he => by simpa [ReaderCount, he] using h.reader⟩
  · intro hh
    have hl := h.length_lent
    have hle := h.provided_le
    have hpos : 0 < w.reader.held.length := length_pos_iff.mpr hh
    rw [h.pushed_count, m.blocksNeeded_eq hn]
    omega
  · intro hre hwr
    obtain ⟨exit, hwr⟩ := hwr
    have hpu : w.pushed.length = m.blockCount := by
      have hr := h.reader
      rw [hre] at hr
      exact hr
    have hpo : m.blockCount ≤ w.dataBlocksPopped := by
      have hw := h.writer
      rw [hwr] at hw
      exact hw
    have hl := h.length_lent
    have hle := h.provided_le
    have hp : w.provided = m.blockCount := by omega
    have hps : w.pushes = List.range w.provided := hs.eq_of_length (by simp [World.pushes, hpu, hp])
    have hrd : w.releases.length = w.dataBlocksPopped := by
      have hc := h.popped_count
      rw [hwr] at hc
      exact hc.symm
    refine ⟨by rw [m.blocksNeeded_eq hn, hp], hps, ?_⟩
    refine hs'.eq_of_length_le ?_
    rw [length_range]
    omega

end BlocksInv

/-! ## Whole runs -/

/-- **The memory blocks of a migration are conserved** in every run of the two tasks and the
memory manager whose steps are regular. -/
theorem blocks_conserved (m : Migration) (hn : m.howManyBlocksNeeded.toNat < 2 ^ 31)
    (es : List Event) (hes : Along (World.step m) (Regular m) (World.initial m) es) :
    BlocksConserved m (run (World.step m) (World.initial m) es) := by
  have hi : BlocksInv m (run (World.step m) (World.initial m) es) :=
    run_invariant (fun w e h hr => h.step hn e hr) (BlocksInv.initial m) hes
  exact hi.conserved hn

/-- Three bytes in blocks of two, the second file of a tape. -/
def threeBytes : Migration where
  archiveFileID := 7
  fileSize := 3
  fSeq := 2
  lastWrittenFSeq := 1
  blockCapacity := 2
  capacity_pos := by decide
  tapeBlockSize := 2
  tapeBlockSize_pos := by decide

def quietRun : List Event :=
  [.provide, .reader (.opened 3), .reader (.opened 3), .writer .ok, .writer .ok,
   .reader (.data []), .reader (.data []), .reader (.data [10, 20]), .provide,
   .reader (.data []), .writer .ok, .writer .ok, .writer .ok, .writer .ok,
   .reader (.data []), .reader (.data []), .reader (.data [30]), .reader (.data []),
   .reader (.data []), .writer .ok, .writer .ok, .writer .ok, .writer .ok, .writer .ok,
   .writer .ok]

theorem quiet_run_conserved :
    (run (World.step threeBytes) (World.initial threeBytes) quietRun).reader = .ended ∧
      (run (World.step threeBytes) (World.initial threeBytes) quietRun).writer
        = .ended (.completed (adler32 zeroAdler32 [10, 20, 30]) 3) ∧
      BlocksConserved threeBytes
        (run (World.step threeBytes) (World.initial threeBytes) quietRun) :=
  ⟨by decide, by decide, blocks_conserved threeBytes (by decide) quietRun (by decide)⟩

/-- The first read delivers one byte of three. -/
def shortRun : List Event :=
  [.provide, .provide, .reader (.opened 3), .reader (.opened 3), .reader (.opened 3),
   .reader (.opened 3), .reader (.data [10]), .reader (.opened 3), .reader (.opened 3),
   .reader (.opened 3), .reader (.opened 3)]

/-- The same file, when the last file of the session was not recorded. -/
def wrongFSeq : Migration := { threeBytes with lastWrittenFSeq := 0 }

/-- The tape write task is executed, and the disk read task finds the error flag set. -/
def refusedRun : List Event :=
  [.provide, .provide, .writer .ok, .setErrorFlag, .reader (.opened 3), .reader (.opened 3),
   .reader (.opened 3), .reader (.opened 3), .reader (.opened 3), .reader (.opened 3)]

/-- **Two paths that do not conserve the blocks**: a short read pushes a block twice, and with a
wrong file sequence number no block is released. -/
theorem short_read_pushes_twice_and_wrong_fseq_keeps_blocks :
    ((run (World.step threeBytes) (World.initial threeBytes) shortRun).pushes = [0, 0] ∧
      (run (World.step threeBytes) (World.initial threeBytes) shortRun).reader
        = .escaped World.overflowMsg ∧
      ¬ BlocksConserved threeBytes
        (run (World.step threeBytes) (World.initial threeBytes) shortRun)) ∧
    ((run (World.step wrongFSeq) (World.initial wrongFSeq) refusedRun).reader = .ended ∧
      (run (World.step wrongFSeq) (World.initial wrongFSeq) refusedRun).writer = .ended .refused ∧
      (run (World.step wrongFSeq) (World.initial wrongFSeq) refusedRun).releases = [] ∧
      ¬ BlocksConserved wrongFSeq
        (run (World.step wrongFSeq) (World.initial wrongFSeq) refusedRun)) := by
  refine ⟨⟨by decide, by decide, ?_⟩, by decide, by decide, by decide, ?_⟩
  · intro h
    exact absurd h.pushed_once.1 (by decide)
  intro h
  have hb := (h.all_back (by decide) ⟨.refused, by decide⟩).2.2
  exact absurd hb (by decide)

end TapeArchive.Tapeserver
