/-
  **WHO MAY RETRIEVE A FILE** (`RdbmsCatalogue::prepareToRetrieveFile` and
  `Scheduler::queueRetrieve`).

      file on an active tape? ─▶ named mount policy? ─▶ disk instance? ─▶ mount rules?
                                        └──▶ accepted, before the disk instance is looked at
-/
import TapeArchive.Common.DataStructures
import TapeArchive.Catalogue.Tables

namespace TapeArchive.Catalogue

open Lib
open Common (MountPolicy)

/-! ## The tables of the mount rules -/

structure RequesterActivityMountRule where
  (diskInstanceName requesterName activityRegex mountPolicyName : String)

structure RequesterMountRule where
  (diskInstanceName requesterName mountPolicyName : String)

structure RequesterGroupMountRule where
  (diskInstanceName requesterGroupName mountPolicyName : String)

/-- The mount policies and the rules that give them to requesters. -/
structure MountTables where
  mountPolicy : List MountPolicy
  requesterActivityMountRule : List RequesterActivityMountRule
  requesterMountRule : List RequesterMountRule
  requesterGroupMountRule : List RequesterGroupMountRule

/-- `Regex::has_match`, for a pattern and a text; a pattern that does not compile throws. -/
abbrev HasMatch := String → String → Except Exn Bool

structure RequesterAndGroupMountPolicies where
  requesterActivityMountPolicies : List MountPolicy := []
  requesterMountPolicies : List MountPolicy := []
  requesterGroupMountPolicies : List MountPolicy := []

namespace MountTables

variable (m : MountTables)

/-- `INNER JOIN MOUNT_POLICY` on the name. -/
def policiesNamed (name : String) : List MountPolicy :=
  m.mountPolicy.filter (fun p => p.name == name)

def getMountPolicy (mountPolicyName : String) : Option MountPolicy :=
  (m.policiesNamed mountPolicyName).head?

/-- The rows of type `REQUESTER`. -/
def requesterPolicies (diskInstanceName requesterName : String) :
    List MountPolicy :=
  (m.requesterMountRule.filter fun r =>
    r.diskInstanceName == diskInstanceName && r.requesterName == requesterName).flatMap
      fun r => m.policiesNamed r.mountPolicyName

/-- The rows of type `REQUESTER_GROUP`. -/
def requesterGroupPolicies (diskInstanceName requesterGroupName : String) :
    List MountPolicy :=
  (m.requesterGroupMountRule.filter fun r =>
    r.diskInstanceName == diskInstanceName && r.requesterGroupName == requesterGroupName).flatMap
      fun r => m.policiesNamed r.mountPolicyName

/-- `RdbmsCatalogue::getMountPolicies` without an activity. -/
def getMountPolicies (diskInstanceName requesterName requesterGroupName : String) :
    RequesterAndGroupMountPolicies :=
  { requesterMountPolicies := m.requesterPolicies diskInstanceName requesterName
    requesterGroupMountPolicies := m.requesterGroupPolicies diskInstanceName requesterGroupName }

/-- The rows of type `ACTIVITY` whose expression matches. -/
def activityPolicies (hasMatch : HasMatch) (m : MountTables) (activity : String) :
    List RequesterActivityMountRule → Except Exn (List MountPolicy)
  | [] => .ok []
  | r :: rules => do
      let matched ← hasMatch r.activityRegex activity
      let rest ← activityPolicies hasMatch m activity rules
      return (if matched then m.policiesNamed r.mountPolicyName else []) ++ rest

/-- `RdbmsCatalogue::getMountPolicies` with an activity. -/
def getMountPoliciesForActivity (hasMatch : HasMatch) (m : MountTables)
    (diskInstanceName requesterName requesterGroupName activity : String) :
    Except Exn RequesterAndGroupMountPolicies :=
  inFunction "getMountPolicies" do
    let policies ← m.activityPolicies hasMatch activity
      (m.requesterActivityMountRule.filter fun r =>
        r.diskInstanceName == diskInstanceName && r.requesterName == requesterName)
    return { m.getMountPolicies diskInstanceName requesterName requesterGroupName with
      requesterActivityMountPolicies := policies }

end MountTables

/-- `std::max_element` by the retrieve priority: the first of the largest. -/
def maxRetrievePriority : MountPolicy → List MountPolicy → MountPolicy
  | best, [] => best
  | best, p :: ps => maxRetrievePriority (if best.retrievePriority < p.retrievePriority then p else best) ps

/-! ## `prepareToRetrieveFile` -/

structure RequesterIdentity where
  (name group : String)

structure RetrieveFileQueueCriteria where
  archiveFile : ArchiveFile
  mountPolicy : MountPolicy

/-- `RdbmsCatalogue::getArchiveFileToRetrieveByArchiveFileId`: with the copies on active tapes. -/
def getArchiveFileToRetrieveByArchiveFileId (t : Tables) (archiveFileId : UInt64) :
    Option ArchiveFile :=
  archiveFileOf (orderByCreationTime ((t.join archiveFileId).flatMap fun row =>
    (t.tape.filter fun tape => tape.vid == row.tapeFile.vid && tape.tapeState == .active).map
      fun _ => row))

def getTapeFileStateListForArchiveFileId (t : Tables) (archiveFileId : UInt64) :
    List (String × TapeState) :=
  (t.archiveFile.filter (fun a => a.archiveFileId == archiveFileId)).flatMap fun a =>
    (t.tapeFile.filter (fun f => f.archiveFileId == a.archiveFileId)).flatMap fun f =>
      (t.tape.filter (fun tape => tape.vid == f.vid)).map fun tape => (tape.vid, tape.tapeState)

/-- The user error for a file without a copy on an active tape. -/
def unavailable (t : Tables) (archiveFileId : UInt64) : Exn :=
  let states := getTapeFileStateListForArchiveFileId t archiveFileId
  match states with
  | [] => ⟨.userError, "CRITICAL: File with archive file ID " ++ toString archiveFileId
      ++ " does not exist in CTA namespace"⟩
  | broken :: _ =>
      match states.find? (fun state => state.2 != .broken) with
      | some state => ⟨.userError, "WARNING: File with archive file ID " ++ toString archiveFileId
          ++ " exits in CTA namespace but is temporarily unavailable on " ++ state.2.text
          ++ " tape " ++ state.1⟩
      | none => ⟨.userError, "ERROR: File with archive file ID " ++ toString archiveFileId
          ++ " exits in CTA namespace but is permanently unavailable on " ++ broken.2.text
          ++ " tape " ++ broken.1⟩

/-- The user error for a requester without a mount rule. -/
def noMountRules (diskInstanceName : String) (archiveFileId : UInt64) (user : RequesterIdentity)
    (activity : Option String) : Exn :=
  ⟨.userError, "Cannot retrieve file because there are no mount rules for the requester, "
    ++ "activity or their group: archiveFileId=" ++ toString archiveFileId ++ " requester="
    ++ diskInstanceName ++ ":" ++ user.name ++ ":" ++ user.group
    ++ (match activity with
        | some activity => " activity=" ++ activity
        | none => "")⟩

/-- By activity, by requester, by group, and last by the rule for the requester `default`. -/
def mountPolicyByRules (hasMatch : HasMatch) (m : MountTables) (diskInstanceName : String)
    (archiveFileId : UInt64) (user : RequesterIdentity) (activity : Option String) :
    Except Exn MountPolicy := do
  let mountPolicies ← match activity with
    | some activity =>
        m.getMountPoliciesForActivity hasMatch diskInstanceName user.name user.group activity
    | none => pure (m.getMountPolicies diskInstanceName user.name user.group)
  match mountPolicies.requesterActivityMountPolicies, mountPolicies.requesterMountPolicies,
      mountPolicies.requesterGroupMountPolicies with
  | p :: ps, _, _ => return maxRetrievePriority p ps
  | [], p :: _, _ => return p
  | [], [], p :: _ => return p
  | [], [], [] =>
      match (m.getMountPolicies diskInstanceName "default" user.group).requesterMountPolicies with
      | p :: _ => return p
      | [] => throw (noMountRules diskInstanceName archiveFileId user activity)

/-- The mount policy that the request names, if there is one of that name. -/
def MountTables.namedPolicy (m : MountTables) (mountPolicyName : Option String) :
    Option MountPolicy :=
  mountPolicyName.bind m.getMountPolicy

def prepareToRetrieveFile (hasMatch : HasMatch) (t : Tables) (m : MountTables)
    (diskInstanceName : String) (archiveFileId : UInt64) (user : RequesterIdentity)
    (activity mountPolicyName : Option String) : Except Exn RetrieveFileQueueCriteria :=
  inFunction "prepareToRetrieveFile" do
    match getArchiveFileToRetrieveByArchiveFileId t archiveFileId with
    | none => throw (unavailable t archiveFileId)
    | some archiveFile =>
        match m.namedPolicy mountPolicyName with
        | some mountPolicy => return ⟨archiveFile, mountPolicy⟩
        | none =>
            -- also reached, with a warning in the log, when no policy has the name
            if diskInstanceName ≠ archiveFile.diskInstance then
              throw ⟨.userError, "Cannot retrieve file because the disk instance of the request "
                ++ "does not match that of the archived file: archiveFileId="
                ++ toString archiveFileId ++ " requestDiskInstance=" ++ diskInstanceName
                ++ " archiveFileDiskInstance=" ++ archiveFile.diskInstance⟩
            let mountPolicy ← mountPolicyByRules hasMatch m diskInstanceName archiveFileId user activity
            return ⟨archiveFile, mountPolicy⟩

/-! ## `Scheduler::queueRetrieve` -/

structure RetrieveRequest where
  requester : RequesterIdentity
  archiveFileID : UInt64
  dstURL : String
  diskFileInfo : DiskFileInfo
  (vid mountPolicy activity : Option String)

structure SchedulerEnv where
  hasMatch : HasMatch
  /-- `time(nullptr)`. -/
  secondsSinceEpoch : UInt64
  /-- `Catalogue::getAllDiskSystems` and `DiskSystemList::getDSName` of a URL; `none` when no
  disk system matches. -/
  getDSName : String → Except Exn (Option String)
  /-- `SchedulerDatabase::queueRetrieve`, giving the identifier of the request. -/
  dbQueueRetrieve : RetrieveRequest → RetrieveFileQueueCriteria → Option String → Except Exn String

/-- The copy to read: its number goes with the day. -/
def chooseTapeFile (secondsSinceEpoch : UInt64) (tapeFiles : List TapeFile) : Except Exn TapeFile :=
  let daysSinceEpoch := secondsSinceEpoch.toNat / (60 * 60 * 24)
  let indexToChose := daysSinceEpoch % tapeFiles.length
  let tapeFileCopyNbs := (tapeFiles.map (·.copyNb)).insertionSort (fun a b => b ≤ a)
  match tapeFileCopyNbs[indexToChose]? with
  | none => .error ⟨.exception, "vector::_M_range_check"⟩
  | some chosenCopyNb =>
      match findCopy tapeFiles chosenCopyNb with
      | none => .error ⟨.exception, "In ArchiveFile::TapeFilesList::at(): not found."⟩
      | some tapeFile => .ok tapeFile

/-- `removeAllVidsExcept` for the VID of the request, if it has one. -/
def keepRequestedVid (request : RetrieveRequest) (tapeFiles : List TapeFile) :
    Except Exn (List TapeFile) :=
  match request.vid with
  | none => .ok tapeFiles
  | some vid =>
      let kept := tapeFiles.filter (fun tf => tf.vid == vid)
      if kept.isEmpty then
        .error ⟨.userError, "VID " ++ vid ++ " does not contain a tape copy of file with archive "
          ++ "file ID " ++ toString request.archiveFileID⟩
      else .ok kept

def queueRetrieve (env : SchedulerEnv) (t : Tables) (m : MountTables) (instanceName : String)
    (request : RetrieveRequest) : Except Exn String := do
  let queueCriteria ← prepareToRetrieveFile env.hasMatch t m instanceName request.archiveFileID
    request.requester request.activity request.mountPolicy
  let chosenTapeFile ← chooseTapeFile env.secondsSinceEpoch queueCriteria.archiveFile.tapeFiles
  let tapeFiles ← keepRequestedVid request [chosenTapeFile]
  let diskSystemName ← env.getDSName request.dstURL
  env.dbQueueRetrieve request
    { queueCriteria with archiveFile := { queueCriteria.archiveFile with
        diskFileInfo := request.diskFileInfo, tapeFiles := tapeFiles } } diskSystemName

/-! ## What an accepted request has passed -/

def Owns (t : Tables) (diskInstanceName : String) (archiveFileId : UInt64) : Prop :=
  ∃ a ∈ t.archiveFile, a.archiveFileId = archiveFileId ∧ a.diskInstanceName = diskInstanceName

variable {t : Tables}

/-- A file has one owner. -/
theorem Owns.eq (h : t.Immediate) {i₁ i₂ : String} {id : UInt64}
    (h₁ : Owns t i₁ id) (h₂ : Owns t i₂ id) : i₁ = i₂ := by
  obtain ⟨a1, ha1, hid1, hi1⟩ := h₁
  obtain ⟨a2, ha2, hid2, hi2⟩ := h₂
  have hs : a1 = a2 := h.archive_file_pk.eq_of_key ha1 ha2 (hid1.trans hid2.symm)
  rw [← hi1, ← hi2, hs]

variable {file : ArchiveFile}

theorem archiveFileOf_eq_some {rows : List JoinedRow} (h : archiveFileOf rows = some file) :
    ∃ row ∈ rows, file.diskInstance = row.archiveFile.diskInstanceName := by
  cases rows with
  | nil => cases h
  | cons row rows =>
    cases h
    exact ⟨row, List.mem_cons_self, rfl⟩

theorem owns_of_getArchiveFile {id : UInt64}
    (h : getArchiveFileToRetrieveByArchiveFileId t id = some file) :
    Owns t file.diskInstance id := by
  obtain ⟨row, hr, hi⟩ := archiveFileOf_eq_some h
  rw [mem_orderByCreationTime, List.mem_flatMap] at hr
  obtain ⟨joined, hj, hac⟩ := hr
  obtain ⟨_, _, rfl⟩ := List.mem_map.mp hac
  obtain ⟨ha, hid, _⟩ := Tables.mem_join.mp hj
  exact ⟨joined.archiveFile, ha, hid, hi.symm⟩

section Requests

variable {hasMatch : HasMatch} {t : Tables} {m : MountTables} {diskInstanceName : String}
  {archiveFileId : UInt64} {user : RequesterIdentity} {activity mountPolicyName : Option String}

/-- A request that names an existing policy is accepted, for whatever disk instance. -/
theorem prepareToRetrieveFile_named {policy : MountPolicy}
    (hf : getArchiveFileToRetrieveByArchiveFileId t archiveFileId = some file)
    (hp : m.namedPolicy mountPolicyName = some policy) :
    prepareToRetrieveFile hasMatch t m diskInstanceName archiveFileId user activity mountPolicyName
      = .ok ⟨file, policy⟩ := by
  unfold prepareToRetrieveFile
  rw [inFunction_ok_iff, hf]
  rw [hp]
  rfl

/-- Every other accepted request comes from the disk instance of the file. -/
theorem owns_of_prepareToRetrieveFile {criteria : RetrieveFileQueueCriteria}
    (h : prepareToRetrieveFile hasMatch t m diskInstanceName archiveFileId user activity
      mountPolicyName = .ok criteria)
    (hp : m.namedPolicy mountPolicyName = none) : Owns t diskInstanceName archiveFileId := by
  unfold prepareToRetrieveFile at h
  cases hf : getArchiveFileToRetrieveByArchiveFileId t archiveFileId with
  | none =>
    rw [hf] at h
    cases h
  | some file =>
    rw [hf] at h
    rw [hp] at h
    dsimp only at h
    by_cases hi : diskInstanceName ≠ file.diskInstance
    · rw [if_pos hi] at h
      cases h
    · rw [not_not.mp hi]
      exact owns_of_getArchiveFile hf

end Requests

variable {m : MountTables}

/-- What the scheduler queues, the catalogue has accepted. -/
theorem exists_criteria_of_queueRetrieve {env : SchedulerEnv}
    {instanceName : String} {request : RetrieveRequest} {id : String}
    (h : queueRetrieve env t m instanceName request = .ok id) :
    ∃ criteria, prepareToRetrieveFile env.hasMatch t m instanceName request.archiveFileID
      request.requester request.activity request.mountPolicy = .ok criteria := by
  unfold queueRetrieve at h
  cases hp : prepareToRetrieveFile env.hasMatch t m instanceName request.archiveFileID
      request.requester request.activity request.mountPolicy with
  | ok criteria => exact ⟨criteria, rfl⟩
  | error e =>
    rw [hp] at h
    cases h

/-! ## Disk instances and the files they retrieve -/

/-- The request is accepted, by the catalogue or by the scheduler. -/
def Accepted (hasMatch : HasMatch) (t : Tables) (m : MountTables) (diskInstanceName : String)
    (archiveFileId : UInt64) (user : RequesterIdentity) (activity mountPolicyName : Option String) :
    Prop :=
  (∃ criteria, prepareToRetrieveFile hasMatch t m diskInstanceName archiveFileId user activity
      mountPolicyName = .ok criteria)
    ∨ ∃ env : SchedulerEnv, env.hasMatch = hasMatch ∧ ∃ request id,
        request.archiveFileID = archiveFileId ∧ request.requester = user
        ∧ request.activity = activity ∧ request.mountPolicy = mountPolicyName
        ∧ queueRetrieve env t m diskInstanceName request = .ok id

theorem Accepted.exists_criteria {hasMatch : HasMatch}
    {diskInstanceName : String} {archiveFileId : UInt64} {user : RequesterIdentity}
    {activity mountPolicyName : Option String}
    (h : Accepted hasMatch t m diskInstanceName archiveFileId user activity mountPolicyName) :
    ∃ criteria, prepareToRetrieveFile hasMatch t m diskInstanceName archiveFileId user activity
      mountPolicyName = .ok criteria := by
  obtain hc | ⟨env, rfl, request, id, rfl, rfl, rfl, rfl, hs⟩ := h
  · exact hc
  · exact exists_criteria_of_queueRetrieve hs

/-- **Isolation of the disk instances**: exactly when no mount policy has the name that the
request gives, or no copy of the file is on an active tape. -/
theorem only_own_files_retrieved_iff (hasMatch : HasMatch) (c : RdbmsCatalogue) (m : MountTables)
    (archiveFileId : UInt64) (user : RequesterIdentity) (activity mountPolicyName : Option String) :
    (∀ diskInstanceName, Accepted hasMatch c.tables m diskInstanceName archiveFileId user activity
        mountPolicyName → Owns c.tables diskInstanceName archiveFileId)
      ↔ m.namedPolicy mountPolicyName = none
        ∨ getArchiveFileToRetrieveByArchiveFileId c.tables archiveFileId = none := by
  constructor
  · intro hon
    cases hpo : m.namedPolicy mountPolicyName with
    | none => exact Or.inl rfl
    | some policy =>
      cases hf : getArchiveFileToRetrieveByArchiveFileId c.tables archiveFileId with
      | none => exact Or.inr rfl
      | some file =>
        -- any two instances are accepted, so both would own the file
        have ho (name : String) : Owns c.tables name archiveFileId :=
          hon name (Or.inl ⟨_, prepareToRetrieveFile_named hf hpo⟩)
        have hs : "" = "other" := (ho "").eq c.consistent.1 (ho "other")
        exact absurd hs (by decide)
  · intro hc name ha
    obtain ⟨criteria, hp⟩ := ha.exists_criteria
    cases hpo : m.namedPolicy mountPolicyName with
    | none => exact owns_of_prepareToRetrieveFile hp hpo
    | some policy =>
      obtain hn | hf := hc
      · rw [hpo] at hn
        cases hn
      unfold prepareToRetrieveFile at hp
      rw [inFunction_ok_iff, hf] at hp
      cases hp

/-! ## A request of another instance -/

namespace ForeignRetrieve

/-- One file, owned by `atlas`, on one active tape. -/
def tables : Tables where
  diskInstance := ["atlas", "cms"]
  storageClass := [⟨1, "single"⟩]
  tape := [⟨"V00001", .active, 1, 100, 1, 100, false, none, none⟩]
  archiveFile := [{
    archiveFileId := 7, diskInstanceName := "atlas", diskFileId := "0x10", diskFileUid := 1001
    diskFileGid := 1001, sizeInBytes := 100, checksumBlob := none, checksumAdler32 := 1
    storageClassId := 1, creationTime := 0, reconciliationTime := 0 }]
  tapeFile := [⟨"V00001", 1, 0, 100, 1, 0, 7⟩]
  fileRecycleLog := []

/-- A mount policy, and no mount rule at all. -/
def mounts : MountTables := ⟨[⟨"verification", 1, 1, 1, 1⟩], [], [], []⟩

def request : RetrieveRequest where
  requester := ⟨"eve", "cms"⟩
  archiveFileID := 7
  dstURL := "root://cms//stolen"
  diskFileInfo := { path := "/stolen", owner_uid := 2002, gid := 2002 }
  vid := none
  mountPolicy := some "verification"
  activity := none

def env : SchedulerEnv where
  hasMatch := fun _ _ => .ok false
  secondsSinceEpoch := 1700000000
  getDSName := fun _ => .ok none
  dbQueueRetrieve := fun _ _ _ => .ok "RetrieveRequest-1"

end ForeignRetrieve

/-- A request of `cms` that names a mount policy gets a file of `atlas`. -/
theorem foreign_file_is_queued : catalogueSchema.Consistent ForeignRetrieve.tables
      ∧ ¬ (∃ a ∈ ForeignRetrieve.tables.archiveFile, a.archiveFileId = 7 ∧ a.diskInstanceName = "cms")
      ∧ (prepareToRetrieveFile ForeignRetrieve.env.hasMatch ForeignRetrieve.tables
          ForeignRetrieve.mounts "cms" 7 ⟨"eve", "cms"⟩ none (some "verification")).isOk = true
      ∧ queueRetrieve ForeignRetrieve.env ForeignRetrieve.tables ForeignRetrieve.mounts "cms"
          ForeignRetrieve.request = .ok "RetrieveRequest-1" := by
  decide +kernel

end TapeArchive.Catalogue
