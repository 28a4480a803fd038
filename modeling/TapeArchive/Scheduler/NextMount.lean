/-
  **THE NEXT MOUNT OF A DRIVE** (`Scheduler::getNextMount` with
  `Scheduler::sortAndGetTapesForMountInfo`).

  The potential mounts are cut down to those the drive can serve, completed from the
  catalogue, filtered by thresholds, quota and sleep, sorted, and the first one with a free
  tape is mounted.  Of `std::sort` only its promise is used.
-/
import TapeArchive.Lib.Lists
import TapeArchive.Scheduler.MountInfo

namespace TapeArchive.Scheduler

open Std (TreeMap TreeSet)
open Lib Common List
open Objectstore (RequestExn)

/-! ## The catalogue and the configuration -/

structure TapeForWriting where
  (vid tapePool vo mediaType vendor : String)
  capacityInBytes : UInt64
  labelFormat : UInt8

/-- The catalogue, the configuration, the clock, `std::sort` and the creation of mounts. -/
structure SchedulingEnv where
  logicalLibraries : List LogicalLibrary
  tapes : List Tape
  /-- `Catalogue::getTapesForWriting`, by logical library. -/
  getTapesForWriting : String → List TapeForWriting
  /-- `Catalogue::getCachedVirtualOrganizationOfTapepool`. -/
  getVirtualOrganizationOfTapepool : String → Except RequestExn VirtualOrganization
  (minBytesToWarrantAMount minFilesToWarrantAMount : UInt64)
  time : Int64
  sort : List PotentialMount → List PotentialMount
  mountCreated : PotentialMount → String → Bool

/-- A mount that was created: the potential mount it is for and its tape. -/
structure Mount where
  potentialMount : PotentialMount
  vid : String
  deriving DecidableEq

/-! ## The decision -/

section Decision

variable (env : SchedulingEnv) (logicalLibraryName driveName : String)

/-- The drive can serve the potential mount: a tape to read is in its library. -/
def eligible (m : PotentialMount) : Bool :=
  if m.type == .retrieve then
    (env.tapes.filter (fun t => t.logicalLibraryName == logicalLibraryName)).any
      (fun t => t.vid == m.vid)
  else true

/-- A tape as it is constructed by default. -/
def blankTape : Tape := ⟨"", "", "", "", "", "", 0, 0, .active⟩

/-- What the catalogue knows of the tape of a retrieve. -/
def complete (m : PotentialMount) : PotentialMount :=
  if m.type == .retrieve then
    let tape := (env.tapes.find? (fun t => t.vid == m.vid)).getD blankTape
    { m with logicalLibrary := tape.logicalLibraryName, tapePool := tape.tapePoolName
             vendor := tape.vendor, mediaType := tape.mediaType, vo := tape.vo
             capacityInBytes := tape.capacityInBytes, labelFormat := tape.labelFormat }
  else m

def tapepoolVoMap (tapepools : List String) :
    Except RequestExn (TreeMap String VirtualOrganization) :=
  tapepools.foldlM (fun m tapepool => do
    let vo ← env.getVirtualOrganizationOfTapepool tapepool
    pure (m.insert tapepool vo)) ∅

/-- The map lookup `at`, for a tape pool that is in the map. -/
def voAt (voMap : TreeMap String VirtualOrganization) (tapepool : String) : VirtualOrganization :=
  voMap.getD tapepool ⟨"", 0, 0⟩

/-- The existing mounts of the other drives with a property, in a counter of 32 bits. -/
def countMounts (existing : List ExistingMount) (p : ExistingMount → Bool) : UInt32 :=
  existing.foldl (fun n em => if em.driveName != driveName && p em then n + 1 else n) 0

/-- The tapes in the other drives, or to be mounted there. -/
def tapesInUse (existing : List ExistingMount) : TreeSet String :=
  (existing.filter (fun em => em.driveName != driveName && em.vid.length != 0)).foldl
    (fun s em => s.insert em.vid) ∅

def minBytesFor (type : MountType) : UInt64 :=
  if type == .archiveForRepack then env.minBytesToWarrantAMount * 2
  else env.minBytesToWarrantAMount

def minFilesFor (type : MountType) : UInt64 :=
  if type == .archiveForRepack then env.minFilesToWarrantAMount * 2
  else env.minFilesToWarrantAMount

/-- A potential mount passes a criterion, next to the mounts its tape pool has already. -/
def passesACriteria (effectiveExistingMounts : UInt32) (m : PotentialMount) : Bool :=
  m.bytesQueued / (1 + effectiveExistingMounts).toUInt64 >= minBytesFor env m.type
    || m.filesQueued / (1 + effectiveExistingMounts).toUInt64 >= minFilesFor env m.type
    || (effectiveExistingMounts == 0 && env.time - m.oldestJobStartTime > m.minRequestAge)

/-- The number of drives the organization may use for a basic type of mount. -/
def maxDrives (vo : VirtualOrganization) (basicType : MountType) : UInt64 :=
  match basicType with
  | .retrieve => vo.readMaxDrives
  | .archiveAllTypes => vo.writeMaxDrives
  | _ => 0

def considered (voMap : TreeMap String VirtualOrganization) (existing : List ExistingMount)
    (m : PotentialMount) : Bool :=
  let basicType := getMountBasicType m.type
  let vo := voAt voMap m.tapePool
  let forThisTapepool := countMounts driveName existing
    (fun em => em.tapePool == m.tapePool && em.type == m.type)
  let forThisVo := countMounts driveName existing
    (fun em => (voAt voMap em.tapePool).name == vo.name && getMountBasicType em.type == basicType)
  let effective := if basicType == .archiveAllTypes then forThisTapepool else 0
  !(!passesACriteria env effective m || forThisVo.toUInt64 >= maxDrives vo basicType
    || m.sleepingMount)

/-- What `sortAndGetTapesForMountInfo` hands over. -/
structure Candidates where
  potentialMounts : List PotentialMount
  tapesInUse : TreeSet String
  tapeList : List TapeForWriting

def sortAndGetTapesForMountInfo (mountInfo : TapeMountDecisionInfo) :
    Except RequestExn Candidates := do
  let potentialMounts :=
    (mountInfo.potentialMounts.filter (eligible env logicalLibraryName)).map (complete env)
  let voMap ← tapepoolVoMap env (TreeSet.ofList (potentialMounts.map (·.tapePool)
    ++ mountInfo.existingOrNextMounts.map (·.tapePool))).toList
  let kept := (potentialMounts.filter
    (considered env driveName voMap mountInfo.existingOrNextMounts)).map
      (fun m => { m with ratioOfMountQuotaUsed := 0 })
  let sorted := (env.sort kept).reverse
  let inUse := tapesInUse driveName mountInfo.existingOrNextMounts
  let tapeList := if sorted.any (fun m => getMountBasicType m.type == .archiveAllTypes) then
      env.getTapesForWriting logicalLibraryName else []
  pure ⟨sorted, inUse, tapeList.filter (fun t => !inUse.contains t.vid)⟩

/-- The tape for a potential mount, if one is free and the mount can be created. -/
def tapeFor (candidates : Candidates) (m : PotentialMount) : Except RequestExn (Option String) :=
  if getMountBasicType m.type == .archiveAllTypes then
    .ok ((candidates.tapeList.find? (fun t => t.tapePool == m.tapePool
      && env.mountCreated m t.vid)).map (·.vid))
  else if m.type == .retrieve then
    if candidates.tapesInUse.contains m.vid then .ok none
    else .ok (if env.mountCreated m m.vid then some m.vid else none)
  else .error (.exception "In Scheduler::getNextMount unexpected mount type")

def selectMount (candidates : Candidates) :
    List PotentialMount → Except RequestExn (Option Mount)
  | [] => .ok none
  | m :: mounts => do
    match ← tapeFor env candidates m with
    | some vid => pure (some ⟨m, vid⟩)
    | none => selectMount candidates mounts

def getLogicalLibrary : Option LogicalLibrary :=
  env.logicalLibraries.find? (fun ll => ll.name == logicalLibraryName)

/-- `Scheduler::getNextMount`, on the mount information of the database. -/
def getNextMount (mountInfo : TapeMountDecisionInfo) : Except RequestExn (Option Mount) :=
  match getLogicalLibrary env logicalLibraryName with
  | none => .ok none
  | some library =>
    if library.isDisabled then .ok none
    else do
      let candidates ← sortAndGetTapesForMountInfo env logicalLibraryName driveName mountInfo
      selectMount env candidates candidates.potentialMounts

end Decision

/-! ## `operator<` is the order of a key -/

/-- Priority, archives for users, the share of the quota, the age and the names. -/
def PotentialMount.key (m : PotentialMount) :
    UInt64 ×ₗ Bool ×ₗ Ratᵒᵈ ×ₗ Int64ᵒᵈ ×ₗ Stringᵒᵈ ×ₗ Stringᵒᵈ :=
  toLex (m.priority, toLex (m.type == .archiveForUser,
    toLex (OrderDual.toDual m.ratioOfMountQuotaUsed, toLex (OrderDual.toDual m.oldestJobStartTime,
      toLex (OrderDual.toDual m.vid, OrderDual.toDual m.tapePool)))))

/-- One level of the comparison: smaller decides for, greater against. -/
theorem level_iff {α : Type} [LinearOrder α] (a b : α) (rest : Bool) :
    (if a < b then true else if b < a then false else rest) = true
      ↔ a < b ∨ a = b ∧ rest = true := by
  rcases lt_trichotomy a b with h | h | h
  · simp [h]
  · simp [h]
  · simp [h, not_lt_of_gt h, h.ne']

/-- A level that counts the other way round. -/
theorem level_dual_iff {α : Type} [LinearOrder α] (a b : α) (rest : Bool) :
    (if a < b then false else if b < a then true else rest) = true
      ↔ b < a ∨ a = b ∧ rest = true := by
  rcases lt_trichotomy a b with h | h | h
  · simp [h, not_lt_of_gt h, h.ne]
  · simp [h]
  · simp [h, not_lt_of_gt h]

/-- The level of the type of mount. -/
theorem level_user_iff (a b rest : Bool) :
    (if a && !b then false else if b && !a then true else rest) = true
      ↔ a < b ∨ a = b ∧ rest = true := by
  cases a <;> cases b <;> simp

theorem PotentialMount.lt_iff_key (m other : PotentialMount) :
    m.lt other = true ↔ m.key < other.key := by
  have hne : ∀ t : MountType, (t != .archiveForUser) = !(t == .archiveForUser) := fun t => rfl
  unfold PotentialMount.lt PotentialMount.key
  simp only [Prod.Lex.toLex_lt_toLex, OrderDual.toDual_lt_toDual, OrderDual.toDual_inj, hne, gt_iff_lt]
  rw [level_iff, level_user_iff, level_iff, level_iff, level_dual_iff, level_dual_iff]
  rw [eq_comm (a := other.ratioOfMountQuotaUsed), eq_comm (a := other.oldestJobStartTime)]
  simp

theorem PotentialMount.lt_eq_false_iff_key (m other : PotentialMount) :
    m.lt other = false ↔ other.key ≤ m.key := by
  rw [← Bool.not_eq_true, PotentialMount.lt_iff_key, not_lt]

/-! ## Sorting -/

/-- The promise of `std::sort`: the same elements, none before a smaller one. -/
def Sorts (sort : List PotentialMount → List PotentialMount) : Prop :=
  ∀ l, (sort l).Perm l ∧ (sort l).Pairwise (fun a b => b.lt a = false)

def insertionSortMounts (l : List PotentialMount) : List PotentialMount :=
  l.insertionSort (fun a b => b.lt a = false)

/-- `operator<` is an order that can be sorted by. -/
theorem sorts_insertionSortMounts : Sorts insertionSortMounts := by
  have htl : Std.Total (fun a b : PotentialMount => b.lt a = false) := by
    refine ⟨fun a b => ?_⟩
    rw [PotentialMount.lt_eq_false_iff_key, PotentialMount.lt_eq_false_iff_key]
    exact le_total a.key b.key
  have htr : IsTrans PotentialMount (fun a b => b.lt a = false) := by
    refine ⟨fun a b c hab hbc => ?_⟩
    rw [PotentialMount.lt_eq_false_iff_key] at hab hbc ⊢
    exact le_trans hab hbc
  exact fun l => ⟨perm_insertionSort _ l, pairwise_insertionSort _ l⟩

/-! ## What a mount has to satisfy -/

section Conditions

variable (env : SchedulingEnv) (logicalLibraryName driveName : String)
  (existing : List ExistingMount)

/-- A potential mount as it enters the sort: completed, with its share of the quota. -/
def ready (m : PotentialMount) : PotentialMount :=
  { complete env m with ratioOfMountQuotaUsed := 0 }

/-- The mounts of other drives that write to the tape pool for the same type. -/
def mountsInTapepool (m : PotentialMount) : Nat :=
  if getMountBasicType m.type = .archiveAllTypes then
    existing.countP (fun em => em.driveName != driveName
      && (em.tapePool == m.tapePool && em.type == m.type))
  else 0

/-- The mounts of the other drives of a basic type for an organization. -/
def mountsForVo (vo : VirtualOrganization) (basicType : MountType) : Nat :=
  existing.countP (fun em => em.driveName != driveName
    && ((match env.getVirtualOrganizationOfTapepool em.tapePool with
        | .ok voOfMount => voOfMount.name == vo.name
        | .error _ => false) && getMountBasicType em.type == basicType))

/-- The byte, file or age threshold is reached, next to `n` mounts of the tape pool. -/
def ReachesThreshold (n : Nat) (m : PotentialMount) : Prop :=
  (minBytesFor env m.type).toNat ≤ m.bytesQueued.toNat / (1 + n)
    ∨ (minFilesFor env m.type).toNat ≤ m.filesQueued.toNat / (1 + n)
    ∨ n = 0 ∧ m.minRequestAge < env.time - m.oldestJobStartTime

/-- A potential mount may be mounted, as far as it is concerned. -/
structure Suitable (m : PotentialMount) : Prop where
  library : m.type = .retrieve →
    ∃ t ∈ env.tapes, t.vid = m.vid ∧ t.logicalLibraryName = logicalLibraryName
  awake : m.sleepingMount = false
  threshold : ReachesThreshold env (mountsInTapepool driveName existing m) m
  quota : ∃ vo, env.getVirtualOrganizationOfTapepool m.tapePool = .ok vo
    ∧ mountsForVo env driveName existing vo (getMountBasicType m.type)
      < (maxDrives vo (getMountBasicType m.type)).toNat

/-- The tape is in another drive, or will be next. -/
def MountedElsewhere (vid : String) : Prop :=
  ∃ em ∈ existing, em.driveName ≠ driveName ∧ em.vid.length ≠ 0 ∧ em.vid = vid

/-- A tape for the mount that is in no other drive. -/
def FreeTape (m : PotentialMount) (vid : String) : Prop :=
  ¬ MountedElsewhere driveName existing vid
    ∧ if getMountBasicType m.type = .archiveAllTypes then
        ∃ t ∈ env.getTapesForWriting logicalLibraryName, t.tapePool = m.tapePool ∧ t.vid = vid
      else m.vid = vid

end Conditions

/-! ## The filters -/

variable {driveName : String} {existing : List ExistingMount}

theorem toNat_countMounts (hl : existing.length < 2 ^ 32) (p : ExistingMount → Bool) :
    (countMounts driveName existing p).toNat
      = existing.countP (fun em => em.driveName != driveName && p em) := by
  have hf : ∀ (l : List ExistingMount) (n : UInt32),
      l.foldl (fun n em => if em.driveName != driveName && p em then n + 1 else n) n
        = n + UInt32.ofNat (l.countP (fun em => em.driveName != driveName && p em)) := by
    intro l
    induction l with
    | nil => exact fun n => (UInt32.add_zero n).symm
    | cons em l ih =>
      intro n
      rw [foldl_cons, ih, countP_cons]
      split
      · rw [UInt32.ofNat_add, UInt32.ofNat_one]
        ac_rfl
      · rfl
  have hle := countP_le_length (p := fun em => em.driveName != driveName && p em) (l := existing)
  unfold countMounts
  rw [hf, UInt32.zero_add, UInt32.toNat_ofNat', Nat.mod_eq_of_lt (by omega)]

variable {env : SchedulingEnv} {voMap : TreeMap String VirtualOrganization}

/-- Every tape pool asked for is in the map, with its organization. -/
theorem voAt_of_mem {tapepools : List String} (h : tapepoolVoMap env tapepools = .ok voMap)
    {tapepool : String} (hme : tapepool ∈ tapepools) :
    env.getVirtualOrganizationOfTapepool tapepool = .ok (voAt voMap tapepool) := by
  have hf : ∀ (l : List String) (m m' : TreeMap String VirtualOrganization),
      l.foldlM (fun m tapepool => do
        let vo ← env.getVirtualOrganizationOfTapepool tapepool
        pure (m.insert tapepool vo)) m = Except.ok m' →
      (tapepool ∈ l ∨ env.getVirtualOrganizationOfTapepool tapepool = .ok (voAt m tapepool)) →
      env.getVirtualOrganizationOfTapepool tapepool = .ok (voAt m' tapepool) := by
    intro l
    induction l with
    | nil =>
      intro m m' h hor
      cases h
      exact hor.resolve_left (by simp)
    | cons pool l ih =>
      intro m m' h hor
      obtain ⟨m1, ho, hrest⟩ := bind_eq_ok.mp h
      obtain ⟨vo, hvo, ho⟩ := bind_eq_ok.mp ho
      cases ho
      refine ih _ _ hrest ?_
      by_cases heq : pool = tapepool
      · subst heq
        right
        unfold voAt
        rw [TreeMap.getD_insert_self]
        exact hvo
      · refine hor.imp (fun hme => ?_) (fun hm => ?_)
        · exact (mem_cons.mp hme).resolve_left (Ne.symm heq)
        · unfold voAt at hm ⊢
          rw [hm, TreeMap.getD_insert, if_neg (by simpa using heq)]
  exact hf tapepools ∅ voMap h (.inl hme)

theorem passesACriteria_iff {effective : UInt32}
    (hlt : effective.toNat + 1 < 2 ^ 32) (m : PotentialMount) :
    passesACriteria env effective m = true ↔ ReachesThreshold env effective.toNat m := by
  have ho : ((1 + effective).toUInt64).toNat = 1 + effective.toNat := by
    show (1 + effective.toNat) % 2 ^ 32 = _
    omega
  have hz : effective = 0 ↔ effective.toNat = 0 := by
    rw [← UInt32.toNat_inj]
    rfl
  unfold passesACriteria ReachesThreshold
  simp only [Bool.or_eq_true, decide_eq_true_eq, Bool.and_eq_true, beq_iff_eq, ge_iff_le,
    gt_iff_lt, UInt64.le_iff_toNat_le, UInt64.toNat_div, ho, hz, or_assoc]

variable {m : PotentialMount}

/-- The filter of the potential mounts. -/
theorem considered_iff (hl : existing.length + 1 < 2 ^ 32)
    (hpo : env.getVirtualOrganizationOfTapepool m.tapePool = .ok (voAt voMap m.tapePool))
    (hex : ∀ em ∈ existing,
      env.getVirtualOrganizationOfTapepool em.tapePool = .ok (voAt voMap em.tapePool)) :
    considered env driveName voMap existing m = true ↔ m.sleepingMount = false
        ∧ ReachesThreshold env (mountsInTapepool driveName existing m) m
        ∧ ∃ vo, env.getVirtualOrganizationOfTapepool m.tapePool = .ok vo
          ∧ mountsForVo env driveName existing vo (getMountBasicType m.type)
            < (maxDrives vo (getMountBasicType m.type)).toNat := by
  have he : (if getMountBasicType m.type == .archiveAllTypes then
      countMounts driveName existing (fun em => em.tapePool == m.tapePool && em.type == m.type)
      else 0).toNat = mountsInTapepool driveName existing m := by
    unfold mountsInTapepool
    by_cases hb : getMountBasicType m.type = .archiveAllTypes
    · rw [if_pos hb, if_pos (by simpa using hb), toNat_countMounts (by omega)]
    · rw [if_neg hb, if_neg (by simpa using hb)]
      rfl
  have hbo : mountsInTapepool driveName existing m ≤ existing.length := by
    unfold mountsInTapepool
    split
    · exact countP_le_length
    · exact Nat.zero_le _
  have hvo : (countMounts driveName existing (fun em =>
      (voAt voMap em.tapePool).name == (voAt voMap m.tapePool).name
        && getMountBasicType em.type == getMountBasicType m.type)).toNat
      = mountsForVo env driveName existing (voAt voMap m.tapePool) (getMountBasicType m.type) := by
    rw [toNat_countMounts (by omega)]
    refine countP_congr (fun em hem => ?_)
    rw [hex em hem]
  unfold considered
  dsimp only
  generalize (if getMountBasicType m.type == .archiveAllTypes then
    countMounts driveName existing (fun em => em.tapePool == m.tapePool && em.type == m.type)
    else 0) = effective at he ⊢
  generalize countMounts driveName existing (fun em =>
      (voAt voMap em.tapePool).name == (voAt voMap m.tapePool).name
        && getMountBasicType em.type == getMountBasicType m.type) = forThisVo at hvo ⊢
  have hp := @passesACriteria_iff env effective (by omega) m
  have hqu : (∃ vo, env.getVirtualOrganizationOfTapepool m.tapePool = .ok vo
      ∧ mountsForVo env driveName existing vo (getMountBasicType m.type)
        < (maxDrives vo (getMountBasicType m.type)).toNat)
      ↔ forThisVo.toUInt64 < maxDrives (voAt voMap m.tapePool) (getMountBasicType m.type) := by
    rw [hpo, UInt64.lt_iff_toNat_lt, UInt32.toNat_toUInt64, hvo]
    simp
  rw [hqu, ← he, ← hp]
  simp only [Bool.not_eq_true', Bool.or_eq_false_iff, Bool.not_eq_false', decide_eq_false_iff_not,
    ge_iff_le, not_le]
  tauto

theorem complete_type (env : SchedulingEnv) (m : PotentialMount) :
    (complete env m).type = m.type := by
  unfold complete
  split <;> rfl

theorem complete_vid (env : SchedulingEnv) (m : PotentialMount) : (complete env m).vid = m.vid := by
  unfold complete
  split <;> rfl

theorem eligible_iff {logicalLibraryName : String} :
    eligible env logicalLibraryName m = true ↔ (m.type = .retrieve →
      ∃ t ∈ env.tapes, t.vid = m.vid ∧ t.logicalLibraryName = logicalLibraryName) := by
  unfold eligible
  by_cases hty : m.type = .retrieve
  · simp only [hty, beq_self_eq_true, if_true, any_filter, any_eq_true,
      Bool.and_eq_true, beq_iff_eq, true_implies]
    exact exists_congr (fun t => and_congr_right (fun _ => and_comm))
  · simp [hty]

/-! ## The candidates -/

/-- The candidates are the potential mounts that are suitable, in decreasing order. -/
structure RightCandidates (env : SchedulingEnv) (logicalLibraryName driveName : String)
    (mountInfo : TapeMountDecisionInfo) (c : Candidates) : Prop where
  mounts : ∀ x, x ∈ c.potentialMounts ↔ (∃ m ∈ mountInfo.potentialMounts, ready env m = x)
    ∧ Suitable env logicalLibraryName driveName mountInfo.existingOrNextMounts x
  sorted : c.potentialMounts.Pairwise (fun a b => a.lt b = false)
  inUse : c.tapesInUse = tapesInUse driveName mountInfo.existingOrNextMounts
  tapes : c.tapeList = (if c.potentialMounts.any
      (fun m => getMountBasicType m.type == .archiveAllTypes) then
        env.getTapesForWriting logicalLibraryName else []).filter
      (fun t => !c.tapesInUse.contains t.vid)

variable {logicalLibraryName driveName : String} {mountInfo : TapeMountDecisionInfo}
  {c : Candidates}

theorem sortAndGetTapesForMountInfo_ok
    (hso : Sorts env.sort) (hle : mountInfo.existingOrNextMounts.length + 1 < 2 ^ 32)
    (h : sortAndGetTapesForMountInfo env logicalLibraryName driveName mountInfo = .ok c) :
    RightCandidates env logicalLibraryName driveName mountInfo c := by
  obtain ⟨voMap, hvm, h⟩ := bind_eq_ok.mp h
  cases h
  have hp : ∀ pool, pool ∈ ((mountInfo.potentialMounts.filter
        (eligible env logicalLibraryName)).map (complete env)).map (·.tapePool)
        ++ mountInfo.existingOrNextMounts.map (·.tapePool) →
      env.getVirtualOrganizationOfTapepool pool = .ok (voAt voMap pool) := by
    intro pool hpo
    refine voAt_of_mem hvm ?_
    rw [TreeSet.mem_toList, TreeSet.mem_ofList, contains_iff_mem]
    exact hpo
  have hex : ∀ em ∈ mountInfo.existingOrNextMounts,
      env.getVirtualOrganizationOfTapepool em.tapePool = .ok (voAt voMap em.tapePool) :=
    fun em hem => hp _ (mem_append_right _ (mem_map_of_mem hem))
  -- a potential mount passes the two filters exactly when it is suitable
  have hsu : ∀ m ∈ mountInfo.potentialMounts, (eligible env logicalLibraryName m = true
        ∧ considered env driveName voMap mountInfo.existingOrNextMounts (complete env m) = true)
      ↔ Suitable env logicalLibraryName driveName mountInfo.existingOrNextMounts (ready env m) := by
    intro m hm
    have hl : eligible env logicalLibraryName m = true ↔
        ((ready env m).type = .retrieve → ∃ t ∈ env.tapes, t.vid = (ready env m).vid
          ∧ t.logicalLibraryName = logicalLibraryName) := by
      show _ ↔ ((complete env m).type = _ → ∃ t ∈ env.tapes, t.vid = (complete env m).vid ∧ _)
      rw [complete_type, complete_vid]
      exact eligible_iff
    have hcd : eligible env logicalLibraryName m = true →
        (considered env driveName voMap mountInfo.existingOrNextMounts (complete env m) = true
          ↔ _) := fun he =>
      considered_iff hle (hp _ (mem_append_left _ (mem_map_of_mem
        (mem_map_of_mem (mem_filter.mpr ⟨hm, he⟩))))) hex
    constructor
    · rintro ⟨he, hc⟩
      obtain ⟨ha, hth, hqu⟩ := (hcd he).mp hc
      exact ⟨hl.mp he, ha, hth, hqu⟩
    · rintro ⟨hli, ha, hth, hqu⟩
      have he := hl.mpr hli
      exact ⟨he, (hcd he).mpr ⟨ha, hth, hqu⟩⟩
  refine ⟨fun x => ?_, ?_, rfl, rfl⟩
  · show x ∈ (env.sort _).reverse ↔ _
    rw [mem_reverse, (hso _).1.mem_iff, mem_map]
    constructor
    · rintro ⟨y, hy, rfl⟩
      obtain ⟨hy, hco⟩ := mem_filter.mp hy
      obtain ⟨m, hm, rfl⟩ := mem_map.mp hy
      obtain ⟨hm, he⟩ := mem_filter.mp hm
      exact ⟨⟨m, hm, rfl⟩, (hsu m hm).mp ⟨he, hco⟩⟩
    · rintro ⟨⟨m, hm, rfl⟩, hs⟩
      obtain ⟨he, hco⟩ := (hsu m hm).mpr hs
      exact ⟨complete env m, mem_filter.mpr ⟨mem_map_of_mem (mem_filter.mpr ⟨hm, he⟩), hco⟩, rfl⟩
  · show (env.sort _).reverse.Pairwise _
    rw [pairwise_reverse]
    exact (hso _).2

theorem mem_tapesInUse {vid : String} :
    vid ∈ tapesInUse driveName existing ↔ MountedElsewhere driveName existing vid := by
  unfold tapesInUse MountedElsewhere
  rw [mem_foldl_insert]
  simp only [mem_filter, Bool.and_eq_true, bne_iff_ne, ne_eq, TreeSet.not_mem_emptyc,
    false_or, and_assoc]

theorem tapeFor_ok (hc : RightCandidates env logicalLibraryName driveName mountInfo c)
    (hcr : ∀ m vid, env.mountCreated m vid = true) (hm : m ∈ c.potentialMounts) :
    ∃ o, tapeFor env c m = .ok o ∧ (∀ vid, o = some vid →
          FreeTape env logicalLibraryName driveName mountInfo.existingOrNextMounts m vid)
      ∧ (o = none → ∀ vid,
          ¬ FreeTape env logicalLibraryName driveName mountInfo.existingOrNextMounts m vid) := by
  have hf : ∀ vid, c.tapesInUse.contains vid = true
      ↔ MountedElsewhere driveName mountInfo.existingOrNextMounts vid := by
    intro vid
    rw [TreeSet.contains_iff_mem, hc.inUse, mem_tapesInUse]
  unfold tapeFor FreeTape
  by_cases hb : getMountBasicType m.type = .archiveAllTypes
  · -- an archive: the tapes to write are there, since this candidate asks for them
    have ha : c.potentialMounts.any (fun m => getMountBasicType m.type == .archiveAllTypes)
        = true := any_eq_true.mpr ⟨m, hm, by simpa using hb⟩
    have hme : ∀ t, t ∈ c.tapeList ↔ t ∈ env.getTapesForWriting logicalLibraryName
        ∧ ¬ MountedElsewhere driveName mountInfo.existingOrNextMounts t.vid := by
      intro t
      rw [hc.tapes, if_pos ha, mem_filter, ← hf, Bool.not_eq_true, Bool.not_eq_true']
    rw [if_pos (by simpa using hb)]
    refine ⟨_, rfl, fun vid hv => ?_, fun hn vid => ?_⟩
    · obtain ⟨t, ht, rfl⟩ := Option.map_eq_some_iff.mp hv
      have hp : t.tapePool = m.tapePool := by
        have := List.find?_some ht
        simp only [Bool.and_eq_true, beq_iff_eq] at this
        exact this.1
      obtain ⟨hw, hnot⟩ := (hme t).mp (mem_of_find?_eq_some ht)
      rw [if_pos hb]
      exact ⟨hnot, t, hw, hp, rfl⟩
    · rw [Option.map_eq_none_iff, List.find?_eq_none] at hn
      rw [if_pos hb]
      rintro ⟨hnot, t, hw, hp, rfl⟩
      have := hn t ((hme t).mpr ⟨hw, hnot⟩)
      simp [hp, hcr] at this
  · -- the limit is zero for all types but archives and retrieves
    have hr : m.type = .retrieve := by
      obtain ⟨vo, -, hqu⟩ := ((hc.mounts m).mp hm).2.quota
      cases ht : m.type <;> simp_all [getMountBasicType, maxDrives]
    rw [if_neg (by simpa using hb), if_pos (by simp [hr])]
    simp only [if_neg hb]
    by_cases hu : c.tapesInUse.contains m.vid = true
    · rw [if_pos hu]
      refine ⟨none, rfl, fun vid hv => (by cases hv), fun _ vid => ?_⟩
      rintro ⟨hnot, rfl⟩
      exact hnot ((hf _).mp hu)
    · rw [if_neg hu, hcr, if_pos rfl]
      refine ⟨some m.vid, rfl, fun vid hv => ?_, fun hn => (by cases hn)⟩
      cases hv
      exact ⟨fun h => hu ((hf _).mpr h), rfl⟩

/-! ## The choice -/

variable {l : List PotentialMount}

/-- The loop ends with the first candidate that gets a tape. -/
theorem selectMount_ok {result : Option Mount} (h : selectMount env c l = .ok result) :
    match result with
    | some mount => l.find? (fun m => tapeFor env c m matches .ok (some _))
          = some mount.potentialMount
        ∧ tapeFor env c mount.potentialMount = .ok (some mount.vid)
    | none => ∀ m ∈ l, tapeFor env c m = .ok none := by
  induction l with
  | nil =>
    cases h
    intro m hm
    cases hm
  | cons m l ih =>
    obtain ⟨o, ho, h⟩ := bind_eq_ok.mp h
    cases o with
    | some vid =>
      cases h
      exact ⟨by simp [ho], ho⟩
    | none =>
      have hrest := ih h
      cases result with
      | some mount => exact ⟨by simpa [ho] using hrest.1, hrest.2⟩
      | none =>
        intro x hx
        rcases mem_cons.mp hx with rfl | hx
        · exact ho
        · exact hrest x hx

/-- **The next mount.** What is returned is suitable, its tape is free, and no suitable potential
mount with a free tape is greater; without one there is none. -/
theorem next_mount_choice {env : SchedulingEnv} {logicalLibraryName driveName : String}
    {mountInfo : TapeMountDecisionInfo} {result : Option Mount}
    (hsort : Sorts env.sort) (hcreate : ∀ m vid, env.mountCreated m vid = true)
    (hlen : mountInfo.existingOrNextMounts.length + 1 < 2 ^ 32)
    (hlibrary : ∃ library, getLogicalLibrary env logicalLibraryName = some library
      ∧ library.isDisabled = false)
    (h : getNextMount env logicalLibraryName driveName mountInfo = .ok result) :
    match result with
    | some mount =>
        (∃ m ∈ mountInfo.potentialMounts, ready env m = mount.potentialMount)
          ∧ Suitable env logicalLibraryName driveName mountInfo.existingOrNextMounts
              mount.potentialMount
          ∧ FreeTape env logicalLibraryName driveName mountInfo.existingOrNextMounts
              mount.potentialMount mount.vid
          ∧ ∀ m ∈ mountInfo.potentialMounts,
              Suitable env logicalLibraryName driveName mountInfo.existingOrNextMounts
                (ready env m) →
              (∃ vid, FreeTape env logicalLibraryName driveName mountInfo.existingOrNextMounts
                (ready env m) vid) →
              mount.potentialMount.lt (ready env m) = false
    | none => ∀ m ∈ mountInfo.potentialMounts,
        ¬ (Suitable env logicalLibraryName driveName mountInfo.existingOrNextMounts (ready env m)
          ∧ ∃ vid, FreeTape env logicalLibraryName driveName mountInfo.existingOrNextMounts
              (ready env m) vid) := by
  obtain ⟨library, hfo, he⟩ := hlibrary
  unfold getNextMount at h
  rw [hfo] at h
  simp only [he] at h
  obtain ⟨c, hca, h⟩ := bind_eq_ok.mp h
  have hc := sortAndGetTapesForMountInfo_ok hsort hlen hca
  have hse := selectMount_ok h
  cases result with
  | none =>
    intro m hm ha
    obtain ⟨hs, vid, hf⟩ := ha
    have hme := (hc.mounts (ready env m)).mpr ⟨⟨m, hm, rfl⟩, hs⟩
    obtain ⟨o, ho, -, hn⟩ := tapeFor_ok hc hcreate hme
    have hni : o = none := Except.ok.inj (ho.symm.trans (hse _ hme))
    exact hn hni vid hf
  | some mount =>
    obtain ⟨hfi, hta⟩ := hse
    have hme := mem_of_find?_eq_some hfi
    obtain ⟨hfr, hs⟩ := (hc.mounts _).mp hme
    obtain ⟨o, ho, hso, -⟩ := tapeFor_ok hc hcreate hme
    have hv : o = some mount.vid := Except.ok.inj (ho.symm.trans hta)
    refine ⟨hfr, hs, hso _ hv, fun m hm hs' hf => ?_⟩
    have hm' := (hc.mounts (ready env m)).mpr ⟨⟨m, hm, rfl⟩, hs'⟩
    obtain ⟨o', ho', -, hn'⟩ := tapeFor_ok hc hcreate hm'
    obtain ⟨vid, hf⟩ := hf
    obtain ⟨vid', hv'⟩ : ∃ vid', o' = some vid' :=
      Option.ne_none_iff_exists'.mp (fun h => hn' h vid hf)
    rcases find?_sorted hc.sorted hfi _ hm' (by simp [ho', hv']) with heq | hlt
    · rw [heq, PotentialMount.lt_eq_false_iff_key]
    · exact hlt

/-- A library with one tape to write, and no other drive at work. -/
def quietSite (isDisabled : Bool) : SchedulingEnv :=
  { logicalLibraries := [⟨"library", isDisabled⟩]
    tapes := []
    getTapesForWriting := fun _ => [⟨"V00001", "pool", "vo", "media", "vendor", 1000, 0⟩]
    getVirtualOrganizationOfTapepool := fun _ => .ok ⟨"vo", 1, 1⟩
    minBytesToWarrantAMount := 100, minFilesToWarrantAMount := 10, time := 0
    sort := insertionSortMounts
    mountCreated := fun _ _ => true }

/-- An archive queue that has reached its threshold of bytes. -/
def fullQueue : PotentialMount :=
  { type := .archiveForUser, vid := "", tapePool := "pool", vo := "", mediaType := "", vendor := ""
    capacityInBytes := 0, labelFormat := 0, priority := 1, minRequestAge := 0, filesQueued := 1
    bytesQueued := 100, oldestJobStartTime := 0, youngestJobStartTime := 0, logicalLibrary := ""
    ratioOfMountQuotaUsed := 0, sleepingMount := false, sleepStartTime := 0
    diskSystemSleptFor := "", sleepTime := 0, activity := none
    highestPriorityMountPolicyName := none, lowestRequestAgeMountPolicyName := none
    mountPolicyNames := none }

theorem full_queue_mounted :
    ∃ mount, getNextMount (quietSite false) "library" "drive" ⟨[fullQueue], [], false⟩
        = .ok (some mount)
      ∧ Suitable (quietSite false) "library" "drive" [] mount.potentialMount
      ∧ FreeTape (quietSite false) "library" "drive" [] mount.potentialMount mount.vid := by
  obtain ⟨mount, h⟩ : ∃ mount, getNextMount (quietSite false) "library" "drive"
      ⟨[fullQueue], [], false⟩ = .ok (some mount) := ⟨_, rfl⟩
  obtain ⟨-, hs, hf, -⟩ := next_mount_choice sorts_insertionSortMounts
    (fun _ _ => rfl) (by decide) ⟨⟨"library", false⟩, rfl, rfl⟩ h
  exact ⟨mount, h, hs, hf⟩

/-- **A disabled library gets no mount**, whatever is suitable. -/
theorem no_mount_in_disabled_library :
    getNextMount (quietSite true) "library" "drive" ⟨[fullQueue], [], false⟩ = .ok none
      ∧ Suitable (quietSite true) "library" "drive" [] (ready (quietSite true) fullQueue)
      ∧ FreeTape (quietSite true) "library" "drive" [] (ready (quietSite true) fullQueue)
          "V00001" := by
  refine ⟨rfl, ⟨?_, rfl, .inl (by decide), ⟨_, rfl, by decide⟩⟩, ?_, ?_⟩
  · intro hty
    cases hty
  · rintro ⟨em, hem, -⟩
    cases hem
  · exact ⟨_, mem_singleton.mpr rfl, rfl, rfl⟩

/-! ## The dry run -/

/-- The body of the loop of the dry run: the potential mount is a valid one. -/
def findsMount (candidates : Candidates) (m : PotentialMount) : Bool :=
  if getMountBasicType m.type == .archiveAllTypes then
    candidates.tapeList.any (fun t => t.tapePool == m.tapePool)
  else if m.type == .retrieve then !candidates.tapesInUse.contains m.vid
  else false

/-- `Scheduler::getNextMountDryRun`, on the mount information of the database. -/
def getNextMountDryRun (env : SchedulingEnv) (logicalLibraryName driveName : String)
    (mountInfo : TapeMountDecisionInfo) : Except RequestExn Bool :=
  match getLogicalLibrary env logicalLibraryName with
  | none => .ok false
  | some library =>
    if library.isDisabled then .ok false
    else do
      let candidates ← sortAndGetTapesForMountInfo env logicalLibraryName driveName mountInfo
      pure (candidates.potentialMounts.any (findsMount candidates))

def PotentialMount.Transfers (m : PotentialMount) : Prop :=
  getMountBasicType m.type = .archiveAllTypes ∨ m.type = .retrieve

/-- One turn of the two loops. -/
theorem tapeFor_isSome (hc : ∀ m vid, env.mountCreated m vid = true)
    (c : Candidates) (hm : m.Transfers) :
    ∃ o, tapeFor env c m = .ok o ∧ o.isSome = findsMount c m := by
  unfold tapeFor findsMount
  cases ha : getMountBasicType m.type == .archiveAllTypes with
  | true =>
    refine ⟨_, rfl, ?_⟩
    simp only [hc, Bool.and_true, Option.isSome_map]
    rw [Bool.eq_iff_iff, List.find?_isSome, if_pos trivial, any_eq_true]
  | false =>
    have hty : m.type = .retrieve := hm.resolve_left (fun h => by rw [h] at ha; cases ha)
    rw [hty, hc]
    cases hu : c.tapesInUse.contains m.vid with
    | true => exact ⟨none, rfl, rfl⟩
    | false => exact ⟨some m.vid, rfl, rfl⟩

/-- The two loops. -/
theorem selectMount_isSome (hc : ∀ m vid, env.mountCreated m vid = true) (c : Candidates)
    (hl : ∀ m ∈ l, m.Transfers) :
    (selectMount env c l).map (·.isSome) = .ok (l.any (findsMount c)) := by
  induction l with
  | nil => rfl
  | cons m l ih =>
    obtain ⟨o, ho, hf⟩ := tapeFor_isSome hc c (hl m mem_cons_self)
    rw [selectMount, ho, any_cons, ← hf]
    cases o with
    | some vid => rfl
    | none => exact ih (fun m' hm' => hl m' (.tail _ hm'))

/-- The candidates are of the types of the potential mounts. -/
theorem sortAndGetTapesForMountInfo_transfers
    (hs : Sorts env.sort) (hts : ∀ m ∈ mountInfo.potentialMounts, m.Transfers)
    (h : sortAndGetTapesForMountInfo env logicalLibraryName driveName mountInfo = .ok c) :
    ∀ m ∈ c.potentialMounts, m.Transfers := by
  obtain ⟨voMap, -, h⟩ := bind_eq_ok.mp h
  cases h
  intro m hm
  rw [mem_reverse, (hs _).1.mem_iff, mem_map] at hm
  obtain ⟨kept, hk, rfl⟩ := hm
  obtain ⟨m, hm, rfl⟩ := mem_map.mp (mem_filter.mp hk).1
  have hty := hts m (mem_filter.mp hm).1
  unfold PotentialMount.Transfers at hty ⊢
  rw [← complete_type env m] at hty
  exact hty

/-- **The dry run agrees with the decision** when every mount can be created. -/
theorem dry_run_agrees {env : SchedulingEnv} {logicalLibraryName driveName : String}
    {mountInfo : TapeMountDecisionInfo} (hsort : Sorts env.sort)
    (hcreate : ∀ m vid, env.mountCreated m vid = true)
    (htypes : ∀ m ∈ mountInfo.potentialMounts, m.Transfers) :
    getNextMountDryRun env logicalLibraryName driveName mountInfo
      = (getNextMount env logicalLibraryName driveName mountInfo).map (·.isSome) := by
  unfold getNextMountDryRun getNextMount
  cases getLogicalLibrary env logicalLibraryName with
  | none => rfl
  | some library =>
    dsimp only
    split
    · rfl
    cases hc : sortAndGetTapesForMountInfo env logicalLibraryName driveName mountInfo with
    | error e => rfl
    | ok c =>
      have htr := sortAndGetTapesForMountInfo_transfers hsort htypes hc
      exact (selectMount_isSome hcreate c htr).symm

/-- The full queue, tried out first. -/
theorem full_queue_announced :
    getNextMountDryRun (quietSite false) "library" "drive" ⟨[fullQueue], [], false⟩
      = (getNextMount (quietSite false) "library" "drive" ⟨[fullQueue], [], false⟩).map
        (·.isSome) := by
  refine dry_run_agrees sorts_insertionSortMounts (fun _ _ => rfl) ?_
  intro m hm
  rw [mem_singleton.mp hm]
  exact .inl rfl

end TapeArchive.Scheduler
