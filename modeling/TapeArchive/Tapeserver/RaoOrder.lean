/-
  **THE RECALL ORDER OF AN ENTERPRISE DRIVE** (`EnterpriseRAOAlgorithm.cpp`,
  `RAOManager.cpp`, `DriveGeneric.cpp`, `LinearRAOAlgorithm.cpp`).

      i ──to_string──▶ strncpy(…, sizeof(i)) ──▶ drive ──▶ strcpy ──atoi──▶ index

  `sizeof(i)` is the size of a `uint32_t`, so only the first FOUR digits of an
  index reach the drive: from the ten thousandth job on, indices collide.
-/
import TapeArchive.Lib.Text
import TapeArchive.Tapeserver.RecallInjector

namespace TapeArchive.Tapeserver.Rao

open Lib List
open Tapeserver

/-! ## Segments -/

/-- What the algorithms read of a retrieve job. -/
structure RetrieveJob where
  (blockId fileSize fSeq : UInt64)

def nul : Char := Char.ofNat 0

/-- A field of ten bytes, as zeroed, after `strncpy` of at most `n` characters. -/
def strncpy (n : Nat) (src : Text) : Text :=
  padRight 10 nul ((src.takeWhile (fun c => c != nul)).take n)

structure BlockLims where
  fseq : Text
  (first last : UInt64)

/-- `SCSI::Structures::RAO::udsDescriptor_t`; the two numbers are stored in eight bytes each. -/
structure UdsDescriptor where
  udsName : Text
  (beginLogicalObjID endLogicalObjID : UInt64)

def c_blockSize : UInt64 := 262144

variable (i : Nat)

variable (job : RetrieveJob)

/-- The segment of job number `i`. -/
def blockLimsOf : BlockLims where
  -- `sizeof(i)` of a `uint32_t`
  fseq := strncpy 4 (decimal i)
  first := job.blockId
  last := job.blockId + 8 + (job.fileSize + c_blockSize - 1) / c_blockSize

/-- `atoi` of a name: the names start with a digit. -/
def BlockLims.id (lims : BlockLims) : Nat := parseFront 10 decimalDigit 0 lims.fseq

/-! ## The drive -/

/-- A drive: what it answers to the query with number `k`. -/
structure Drive where
  answer : Nat → List UdsDescriptor → Except String (List UdsDescriptor)

/-- The drive returns exactly the descriptors it was given, in some order. -/
def Drive.Exact (drive : Drive) : Prop :=
  ∀ k descriptors, ∃ sorted, drive.answer k descriptors = .ok sorted ∧ sorted.Perm descriptors

/-- A descriptor of `DriveGeneric::generateRAO`. -/
def toUds (lims : BlockLims) : UdsDescriptor := ⟨strncpy 10 lims.fseq, lims.first, lims.last⟩

/-- A descriptor in `DriveGeneric::receiveRAO`; `strcpy` stops at the end of the name. -/
def ofUds (ud : UdsDescriptor) : BlockLims :=
  ⟨strncpy 10 ud.udsName, ud.beginLogicalObjID, ud.endLogicalObjID⟩

def Drive.queryRAO (drive : Drive) (k : Nat) (files : List BlockLims) (maxSupported : Nat) :
    Except String (List BlockLims) :=
  let udSize := min files.length maxSupported
  match drive.answer k ((files.take udSize).map toUds) with
  | .error message => .error message
  | .ok uds => .ok (uds.map ofUds)

/-! ## The algorithms -/

/-- The loop of `EnterpriseRAOAlgorithm::performRAO`, with the number of queries so far. -/
def raoLoop (drive : Drive) (maxFilesSupported njobs : Nat) :
    Nat → Nat → List RetrieveJob → List BlockLims → List Nat →
      Except String (List Nat × List BlockLims)
  | _, _, [], files, raoOrder => .ok (raoOrder, files)
  | k, i, job :: rest, files, raoOrder =>
      let files := files ++ [blockLimsOf i job]
      if files.length = maxFilesSupported ∨ (i = njobs - 1 ∧ files.length > 1) then
        match drive.queryRAO k files maxFilesSupported with
        | .error message => .error message
        | .ok files =>
            raoLoop drive maxFilesSupported njobs (k + 1) (i + 1) rest []
              (raoOrder ++ files.map BlockLims.id)
      else raoLoop drive maxFilesSupported njobs k (i + 1) rest files raoOrder

def performRAO (drive : Drive) (maxFilesSupported : Nat) (jobs : List RetrieveJob) :
    Except String (List Nat) :=
  match raoLoop drive maxFilesSupported jobs.length 0 0 jobs [] [] with
  | .error message => .error message
  | .ok (raoOrder, files) => .ok (raoOrder ++ files.map BlockLims.id)

/-- `LinearRAOAlgorithm::performRAO`: a stable sort of the indices. -/
def linearRAO (jobs : List RetrieveJob) : List Nat :=
  (List.range jobs.length).mergeSort (fun i j =>
    decide ((jobs[i]?.map RetrieveJob.fSeq).getD 0 ≤ (jobs[j]?.map RetrieveJob.fSeq).getD 0))

/-- The loop counts with a `uint32_t`, and ends only below `2 ^ 32` jobs. -/
def queryRAO (drive : Drive) (maxFilesSupported : UInt16) (jobs : List RetrieveJob) :
    Option (List Nat) :=
  if jobs.length < 2 ^ 32 then
    match performRAO drive maxFilesSupported.toNat jobs with
    | .ok raoOrder => some raoOrder
    | .error _ => some (linearRAO jobs)
  else none

/-! ## Names -/

/-- The index that comes back for job number `i`. -/
def backIndex : Nat := parseFront 10 decimalDigit 0 ((decimal i).take 4)

theorem nul_notMem_decimal : nul ∉ decimal i := by
  intro hm
  have hd : nul.isDigit = true := Nat.isDigit_of_mem_toDigits (by decide) (by decide) hm
  exact absurd hd (by decide)

theorem takeWhile_ne_nul {s : Text} (h : nul ∉ s) : s.takeWhile (fun c => c != nul) = s := by
  rw [takeWhile_eq_self_iff]
  intro c hc
  simp only [bne_iff_ne, ne_eq]
  intro heq
  exact h (heq ▸ hc)

/-- A name that ends inside of the field passes unchanged. -/
theorem strncpy_padRight {s : Text} (h : nul ∉ s) (hs : s.length ≤ 10) :
    strncpy 10 (padRight 10 nul s) = padRight 10 nul s := by
  unfold strncpy
  have hf : (padRight 10 nul s).takeWhile (fun c => c != nul) = s := by
    rw [padRight_of_length_le hs, takeWhile_append_of_pos]
    · rw [takeWhile_replicate]
      simp
    intro c hc
    simp only [bne_iff_ne, ne_eq]
    intro heq
    exact h (heq ▸ hc)
  rw [hf, take_of_length_le hs]

theorem blockLimsOf_fseq :
    (blockLimsOf i job).fseq = padRight 10 nul ((decimal i).take 4) := by
  show strncpy 4 (decimal i) = _
  unfold strncpy
  rw [takeWhile_ne_nul (nul_notMem_decimal i)]

/-- The drive does not change names. -/
theorem ofUds_toUds :
    ofUds (toUds (blockLimsOf i job)) = blockLimsOf i job := by
  have hn : nul ∉ (decimal i).take 4 := fun hm =>
    nul_notMem_decimal i (mem_of_mem_take hm)
  have hl : ((decimal i).take 4).length ≤ 10 := Nat.le_trans (length_take_le 4 _) (by decide)
  unfold ofUds toUds
  rw [blockLimsOf_fseq, strncpy_padRight hn hl, strncpy_padRight hn hl, ← blockLimsOf_fseq i job]

theorem id_blockLimsOf : (blockLimsOf i job).id = backIndex i := by
  unfold BlockLims.id backIndex
  rw [blockLimsOf_fseq]
  exact parseFront_padRight (by decide) (Nat.le_trans (length_take_le 4 _) (by decide))

theorem backIndex_of_lt {i : Nat} (h : i < 10000) : backIndex i = i := by
  unfold backIndex
  rw [take_of_length_le ((decimal_length_le_iff (by decide)).mpr h)]
  exact parseFront_decimal i

theorem backIndex_lt : backIndex i < 10000 := parseFront_decimal_take_lt

/-! ## The order -/

def FromJobs (files : List BlockLims) : Prop := ∀ lims ∈ files, ofUds (toUds lims) = lims

variable {drive : Drive}

/-- The drive returns the segments of a batch, in some order. -/
theorem queryRAO_perm (hd : drive.Exact) (k : Nat) {files : List BlockLims}
    (hf : FromJobs files) {maxSupported : Nat} (hl : files.length ≤ maxSupported) :
    ∃ sorted, drive.queryRAO k files maxSupported = .ok sorted ∧ sorted.Perm files := by
  unfold Drive.queryRAO
  dsimp only
  rw [Nat.min_eq_left hl, take_length]
  obtain ⟨uds, ha, hp⟩ := hd k (files.map toUds)
  rw [ha]
  refine ⟨uds.map ofUds, rfl, (hp.map ofUds).trans ?_⟩
  rw [map_map]
  have hs : files.map (ofUds ∘ toUds) = files.map id := map_congr_left hf
  rw [hs, map_id]

/-- **The loop loses and invents no index** of those that come back for the jobs. -/
theorem raoLoop_perm (hd : drive.Exact) {maxFilesSupported njobs : Nat}
    (hma : 0 < maxFilesSupported) :
    ∀ {jobs : List RetrieveJob} {k i : Nat} {files : List BlockLims} {raoOrder : List Nat},
      FromJobs files → files.length < maxFilesSupported →
      ∃ raoOrder' files', raoLoop drive maxFilesSupported njobs k i jobs files raoOrder
          = .ok (raoOrder', files') ∧
        (raoOrder' ++ files'.map BlockLims.id).Perm
          (raoOrder ++ files.map BlockLims.id ++ (List.range' i jobs.length).map backIndex) := by
  intro jobs
  induction jobs with
  | nil =>
    intro k i files raoOrder _ _
    exact ⟨raoOrder, files, rfl, by simp⟩
  | cons job rest ih =>
    intro k i files raoOrder hf hlh
    have hf' : FromJobs (files ++ [blockLimsOf i job]) := by
      intro lims hm
      cases mem_append.mp hm with
      | inl hm => exact hf lims hm
      | inr hm =>
        rw [mem_singleton.mp hm]
        exact ofUds_toUds i job
    have hle : (files ++ [blockLimsOf i job]).length ≤ maxFilesSupported := by
      rw [length_append, length_singleton]
      exact hlh
    have hi : (List.range' i (job :: rest).length).map backIndex
        = backIndex i :: (List.range' (i + 1) rest.length).map backIndex := rfl
    have hid : (files ++ [blockLimsOf i job]).map BlockLims.id
        = files.map BlockLims.id ++ [backIndex i] := by
      rw [map_append]
      show _ ++ [(blockLimsOf i job).id] = _
      rw [id_blockLimsOf]
    unfold raoLoop
    dsimp only
    split
    · obtain ⟨sorted, hqu, hs⟩ := queryRAO_perm hd k hf' hle
      rw [hqu]
      obtain ⟨raoOrder', files', hl, hp⟩ :=
        @ih (k + 1) (i + 1) [] (raoOrder ++ sorted.map BlockLims.id)
          (fun _ hm => absurd hm not_mem_nil) hma
      refine ⟨raoOrder', files', hl, hp.trans ?_⟩
      rw [hi, map_nil, append_nil]
      have hi' : (sorted.map BlockLims.id).Perm (files.map BlockLims.id ++ [backIndex i]) := by
        rw [← hid]
        exact hs.map _
      refine ((hi'.append_left raoOrder).append_right _).trans ?_
      simp
    · next hc =>
      have hlt : (files ++ [blockLimsOf i job]).length < maxFilesSupported :=
        Nat.lt_of_le_of_ne hle (fun heq => hc (.inl heq))
      obtain ⟨raoOrder', files', hl, hp⟩ := @ih k (i + 1) _ raoOrder hf' hlt
      refine ⟨raoOrder', files', hl, hp.trans ?_⟩
      rw [hid, hi]
      simp

/-- The order of a drive that keeps to its descriptors. -/
theorem queryRAO_backIndex (hd : drive.Exact) {maxFilesSupported : UInt16}
    (hm : 1 ≤ maxFilesSupported) {jobs : List RetrieveJob} (hj : jobs.length < 2 ^ 32) :
    ∃ order, queryRAO drive maxFilesSupported jobs = some order ∧
      order.Perm ((List.range jobs.length).map backIndex) := by
  have hpos : 0 < maxFilesSupported.toNat := UInt16.le_iff_toNat_le.mp hm
  obtain ⟨raoOrder, files, hl, hp⟩ :=
    @raoLoop_perm drive hd maxFilesSupported.toNat jobs.length hpos jobs 0 0 [] []
      (fun _ hme => absurd hme not_mem_nil) hpos
  refine ⟨raoOrder ++ files.map BlockLims.id, ?_, ?_⟩
  · unfold queryRAO performRAO
    rw [if_pos hj, hl]
  · rw [range_eq_range']
    exact hp

theorem lt_of_mem_order {order : List Nat} {n : Nat}
    (hp : order.Perm ((List.range n).map backIndex)) {i : Nat} (hi : i ∈ order) :
    i < 10000 := by
  obtain ⟨j, _, hj⟩ := mem_map.mp (hp.subset hi)
  rw [← hj]
  exact backIndex_lt j

/-- **The recall order is a permutation exactly for at most 10000 jobs**; an injection then
releases every job at most once. -/
theorem recall_order_permutation_iff (drive : Drive) (hdrive : drive.Exact)
    (maxFilesSupported : UInt16) (hmax : 1 ≤ maxFilesSupported) (jobs : List RetrieveJob) :
    (∃ order, queryRAO drive maxFilesSupported jobs = some order ∧
      order.Perm (List.range jobs.length) ∧
      ∀ (c : RecallInjector.Config) (w : RecallInjector.World),
        w.m_jobs.length = jobs.length → (∀ x ∈ w.m_jobs, x.isSome = true) →
        (w.injectBulkRecalls c order).2 ≠ .crashed) ↔
    jobs.length ≤ 10000 := by
  constructor
  · intro h
    obtain ⟨order, ho, hp, _⟩ := h
    by_contra hlong
    have hj : jobs.length < 2 ^ 32 := by
      unfold queryRAO at ho
      by_contra hge
      rw [if_neg hge] at ho
      cases ho
    obtain ⟨order', ho', hb⟩ := queryRAO_backIndex hdrive hmax hj
    rw [ho'] at ho
    cases ho
    have hm : 10000 ∈ order := hp.mem_iff.mpr (mem_range.mpr (by omega))
    exact Nat.lt_irrefl _ (lt_of_mem_order hb hm)
  · intro hsh
    obtain ⟨order, ho, hb⟩ :=
      @queryRAO_backIndex drive hdrive maxFilesSupported hmax jobs (by omega)
    have hs : (List.range jobs.length).map backIndex = List.range jobs.length := by
      have hid : (List.range jobs.length).map backIndex = (List.range jobs.length).map id :=
        map_congr_left (fun i hi => backIndex_of_lt (by
          have := mem_range.mp hi
          omega))
      rw [hid, map_id]
    rw [hs] at hb
    refine ⟨order, ho, hb, fun c w hl hf => ?_⟩
    refine RecallInjector.World.injectBulkRecalls_not_crashed c hf ?_
    rw [hl]
    exact hb

/-- A drive that returns the descriptors as they are. -/
def plainDrive : Drive := ⟨fun _ descriptors => .ok descriptors⟩

theorem plainDrive_exact : plainDrive.Exact :=
  fun _ descriptors => ⟨descriptors, rfl, List.Perm.refl _⟩

theorem three_jobs_permutation :
    ∃ order, queryRAO plainDrive 2 [⟨0, 1, 1⟩, ⟨10, 1, 2⟩, ⟨20, 1, 3⟩] = some order ∧
      order.Perm (List.range 3) := by
  obtain ⟨order, ho, hp, _⟩ :=
    (recall_order_permutation_iff plainDrive plainDrive_exact 2 (by decide)
      [⟨0, 1, 1⟩, ⟨10, 1, 2⟩, ⟨20, 1, 3⟩]).mpr (by decide)
  exact ⟨order, ho, hp⟩

/-- **One job too many**: with 10001 jobs in one query an index comes back twice, and the last
one not at all. -/
theorem ten_thousand_and_one_jobs :
    ∃ order, queryRAO plainDrive 65535 (List.replicate 10001 ⟨0, 1, 1⟩) = some order ∧
      10000 ∉ order ∧ ¬ order.Nodup ∧ ¬ order.Perm (List.range 10001) := by
  obtain ⟨order, ho, hb⟩ := @queryRAO_backIndex plainDrive plainDrive_exact 65535 (by decide)
      (List.replicate 10001 ⟨0, 1, 1⟩) (by rw [length_replicate]; decide)
  rw [length_replicate] at hb
  have hm : 10000 ∉ order := fun hme => Nat.lt_irrefl _ (lt_of_mem_order hb hme)
  refine ⟨order, ho, hm, ?_, ?_⟩
  · intro hn
    have hi := inj_on_of_nodup_map (hb.nodup_iff.mp hn)
    have heq : backIndex 1000 = backIndex 10000 := by decide +kernel
    have hne : 1000 = 10000 := hi (mem_range.mpr (by decide)) (mem_range.mpr (by decide)) heq
    exact absurd hne (by decide)
  · intro hp
    exact hm (hp.mem_iff.mpr (mem_range.mpr (by decide)))

end TapeArchive.Tapeserver.Rao
