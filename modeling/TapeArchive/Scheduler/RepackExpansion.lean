/-
  **THE EXPANSION OF A REPACK REQUEST** (`Scheduler::expandRepackRequest`).

  The totals of files and bytes are not computed from the subrequests: a moved copy counts
  for every tape file on the tape, while the set of copy numbers keeps each number once;
  the new copies count for every copy the storage class lacks, while the set gets one for
  every route whose copy number the file does not have.
-/
import TapeArchive.Scheduler.RepackSubrequests

namespace TapeArchive.Scheduler

open Std Lib Common Objectstore List
open UInt64 (add_zero ofNat_add toNat_inj toNat_zero)
open Objectstore.RepackRequest

/-! ## The surroundings of the expansion -/

/-- `RepackInfo::Type`. -/
inductive RepackType where
  | moveAndAddCopies | addCopiesOnly | moveOnly | undefined
  deriving DecidableEq

def RepackType.moves : RepackType → Bool
  | .moveAndAddCopies | .moveOnly => true
  | _ => false

def RepackType.adds : RepackType → Bool
  | .addCopiesOnly | .moveAndAddCopies => true
  | _ => false

/-- The repack at hand, the catalogue and the repack buffer. -/
structure ExpansionEnv where
  vid : String
  type : RepackType
  noRecall : Bool
  repackBufferBaseURL : String
  archiveRoutes : List ArchiveRoute
  /-- `Catalogue::getStorageClasses`. -/
  storageClasses : List StorageClass
  /-- The size of a file of the buffer. -/
  readFileSize : String → Except RequestExn UInt64

/-- `std::numeric_limits<uint64_t>::max()`: no fSeq. -/
def noFSeq : UInt64 := UInt64.ofNat (2 ^ 64 - 1)

variable (env : ExpansionEnv)

/-- The routes by storage class and copy number. -/
def ExpansionEnv.archiveRoutesMap : ArchiveRouteFullMap :=
  env.archiveRoutes.foldl (fun m route =>
    m.insert route.storageClassName
      ((m.getD route.storageClassName ∅).insert route.copyNb.toUInt32 route)) ∅

/-- The name of a file of the buffer: its fSeq, filled up to nine digits. -/
def bufferFileName (fSeq : UInt64) : String :=
  let digits := toString fSeq.toNat
  String.ofList (List.replicate (9 - digits.length) '0') ++ digits

def ExpansionEnv.dirBufferURL : String :=
  env.repackBufferBaseURL ++ "/" ++ env.vid ++ "/"

/-! ## One file -/

structure Listing where
  fSeq : UInt64
  totalStatsFile : TotalStatsFiles
  retrieveSubrequests : List Subrequest
  maxAddedFSeq : UInt64

variable (archiveFile : ArchiveFile)

/-- The subrequest of a file before its copies are looked at. -/
def blankSubrequest : Subrequest :=
  { fSeq := noFSeq, archiveFile := archiveFile, copyNbsToRearchive := ∅, fileBufferURL := "",
    hasUserProvidedFile := false }

variable (archiveFileRoutes : StorageClassMap)

/-- One turn of the loop over the tape files, for the copies that are moved. -/
def moveCopy (c : TotalStatsFiles × Subrequest) (tc : TapeFile) :
    Except RequestExn (TotalStatsFiles × Subrequest) :=
  if tc.vid == env.vid then
    match archiveFileRoutes[tc.copyNb.toUInt32]? with
    | none => .error (.exception ("In Scheduler::expandRepackRequest(): the file archiveFileID="
        ++ toString c.2.archiveFile.archiveFileID.toNat ++ ", copyNb="
        ++ toString tc.copyNb.toNat ++ ", storageClass=" ++ c.2.archiveFile.storageClass
        ++ " does not have any archive route for archival."))
    | some _ => .ok
        ({ c.1 with
            totalFilesToArchive := c.1.totalFilesToArchive + 1,
            totalBytesToArchive := c.1.totalBytesToArchive + c.2.archiveFile.fileSize },
          { c.2 with
            copyNbsToRearchive := c.2.copyNbsToRearchive.insert tc.copyNb.toUInt32,
            fSeq := tc.fSeq })
  else .ok c

def moveCopies (archiveFile : ArchiveFile) (totalStatsFile : TotalStatsFiles) :
    Except RequestExn (TotalStatsFiles × Subrequest) :=
  if env.type.moves then
    archiveFile.tapeFiles.foldlM (moveCopy env archiveFileRoutes)
      (totalStatsFile, blankSubrequest archiveFile)
  else .ok (totalStatsFile, blankSubrequest archiveFile)

def getNbFilesAlreadyArchived : UInt64 :=
  UInt64.ofNat archiveFile.tapeFiles.length

/-- The copies the storage class asks for beyond those there are (as unsigned integers). -/
def filesToArchive (sc : StorageClass) (archiveFile : ArchiveFile) : UInt64 :=
  sc.nbCopies - getNbFilesAlreadyArchived archiveFile

def copyNbsAlreadyInCTA : TreeSet UInt64 :=
  archiveFile.tapeFiles.foldl (fun s tc => s.insert tc.copyNb.toUInt64) ∅

/-- The routes whose copy number the file does not have. -/
def missingCopyNbs (archiveFile : ArchiveFile) :
    List UInt32 :=
  (archiveFileRoutes.toList.map (·.1)).filter
    (fun copyNb => !(copyNbsAlreadyInCTA archiveFile).contains copyNb.toUInt64)

/-- The fSeq to record a file under when copies are only added. -/
def addedFSeq (fSeq : UInt64) : UInt64 :=
  archiveFile.tapeFiles.foldl (fun fSeq tc =>
    if tc.vid == env.vid then
      if fSeq == noFSeq then tc.fSeq else max tc.fSeq fSeq
    else fSeq) fSeq

/-- The part for the copies that are added; `none` when there is nothing to do for the file. -/
def addCopies (sc : StorageClass) (archiveFile : ArchiveFile) (c : TotalStatsFiles × Subrequest) :
    Except RequestExn (Option (TotalStatsFiles × Subrequest)) :=
  if env.type.adds then
    if filesToArchive sc archiveFile > 0 then
      let copyNbsToRearchive := (missingCopyNbs archiveFileRoutes archiveFile).foldl
        (fun s copyNb => s.insert copyNb) c.2.copyNbsToRearchive
      if UInt64.ofNat copyNbsToRearchive.size < filesToArchive sc archiveFile then
        .error (.exception ("In Scheduler::expandRepackRequest(): Missing archive routes for "
          ++ "the creation of the new copies of the files"))
      else .ok (some
        ({ c.1 with
            totalFilesToArchive := c.1.totalFilesToArchive + filesToArchive sc archiveFile,
            totalBytesToArchive := c.1.totalBytesToArchive
              + filesToArchive sc archiveFile * archiveFile.fileSize },
          { c.2 with
            copyNbsToRearchive := copyNbsToRearchive,
            fSeq := if env.type == .addCopiesOnly then addedFSeq env archiveFile c.2.fSeq
              else c.2.fSeq }))
    else if env.type == .addCopiesOnly then .ok none
    else .ok (some c)
  else .ok (some c)

variable (filesInDirectory : TreeSet String)

def createArchiveSubrequest (fSeq : UInt64) (archiveFile : ArchiveFile) : Except RequestExn Bool :=
  if filesInDirectory.contains (bufferFileName fSeq) then do
    let size ← env.readFileSize (env.dirBufferURL ++ bufferFileName fSeq)
    pure (size == archiveFile.fileSize)
  else .ok false

/-- The end of the turn of a file: it is listed, unless it has no fSeq on the tape. -/
def listSubrequest (x : Listing)
    (totalStatsFile : TotalStatsFiles) (retrieveSubRequest : Subrequest) :
    Except RequestExn Listing := do
  let archiveFile := retrieveSubRequest.archiveFile
  let provided ← createArchiveSubrequest env filesInDirectory retrieveSubRequest.fSeq archiveFile
  if !provided && retrieveSubRequest.fSeq == noFSeq then
    pure { x with totalStatsFile := { totalStatsFile with
      totalBytesToRetrieve := totalStatsFile.totalBytesToRetrieve - archiveFile.fileSize,
      totalFilesToRetrieve := totalStatsFile.totalFilesToRetrieve - 1 } }
  else
    pure { x with
      totalStatsFile := if !provided then { totalStatsFile with
          totalBytesToRetrieve := totalStatsFile.totalBytesToRetrieve + archiveFile.fileSize,
          totalFilesToRetrieve := totalStatsFile.totalFilesToRetrieve + 1 }
        else { totalStatsFile with userProvidedFiles := totalStatsFile.userProvidedFiles + 1 }
      retrieveSubrequests := x.retrieveSubrequests ++ [{ retrieveSubRequest with
        hasUserProvidedFile := provided,
        fileBufferURL := env.dirBufferURL ++ bufferFileName retrieveSubRequest.fSeq }]
      maxAddedFSeq := max x.maxAddedFSeq retrieveSubRequest.fSeq }

def expandFile (x : Listing) (archiveFile : ArchiveFile) : Except RequestExn Listing :=
  let x := { x with fSeq := x.fSeq + 1 }
  let archiveFileRoutes := env.archiveRoutesMap.getD archiveFile.storageClass ∅
  match env.storageClasses.find? (fun sc => sc.name == archiveFile.storageClass) with
  | none => .error (.exception ("In Scheduler::expandRepackRequest(): No storage class have been "
      ++ "found for the file to repack. ArchiveFileID="
      ++ toString archiveFile.archiveFileID.toNat ++ " StorageClass of the file="
      ++ archiveFile.storageClass))
  | some sc => do
    let moved ← moveCopies env archiveFileRoutes archiveFile x.totalStatsFile
    match ← addCopies env archiveFileRoutes sc archiveFile moved with
    | none => pure x
    | some (totalStatsFile, retrieveSubRequest) =>
        listSubrequest env filesInDirectory x totalStatsFile retrieveSubRequest

/-! ## The whole expansion -/

/-! ## The totals, the work and how far they are apart -/

inductive Total where
  | filesToArchive | bytesToArchive | filesToRetrieve | bytesToRetrieve

def total (t : TotalStatsFiles) : Total → UInt64
  | .filesToArchive => t.totalFilesToArchive
  | .bytesToArchive => t.totalBytesToArchive
  | .filesToRetrieve => t.totalFilesToRetrieve
  | .bytesToRetrieve => t.totalBytesToRetrieve

def work (k : Total) (s : Subrequest) : Nat :=
  match k with
  | .filesToArchive => s.copyNbsToRearchive.size
  | .bytesToArchive => s.archiveFile.fileSize.toNat * s.copyNbsToRearchive.size
  | .filesToRetrieve => if s.hasUserProvidedFile then 0 else 1
  | .bytesToRetrieve => if s.hasUserProvidedFile then 0 else s.archiveFile.fileSize.toNat

/-- The totals have grown by the work of the subrequests, as exact integers. -/
def TotalsMatch (before after : TotalStatsFiles) (subrequests : List Subrequest) : Prop :=
  ∀ k, (total after k).toNat = (total before k).toNat + (subrequests.map (work k)).sum

section File

variable (env : ExpansionEnv) (filesInDirectory : TreeSet String) (archiveFile : ArchiveFile)

def routesOf : StorageClassMap := env.archiveRoutesMap.getD archiveFile.storageClass ∅

def movedCopies : List TapeFile :=
  if env.type.moves then archiveFile.tapeFiles.filter (fun tc => tc.vid == env.vid) else []

def movedCopyNbs : TreeSet UInt32 :=
  (movedCopies env archiveFile).foldl (fun s tc => s.insert tc.copyNb.toUInt32) ∅

def lackingCopies : UInt64 :=
  if env.type.adds then
    match env.storageClasses.find? (fun sc => sc.name == archiveFile.storageClass) with
    | none => 0
    | some sc => filesToArchive sc archiveFile
  else 0

def addedCopyNbs : List UInt32 :=
  if lackingCopies env archiveFile = 0 then []
  else missingCopyNbs (routesOf env archiveFile) archiveFile

def recordedFSeq : UInt64 :=
  if env.type = .addCopiesOnly then addedFSeq env archiveFile noFSeq
  else (movedCopies env archiveFile).foldl (fun _ tc => tc.fSeq) noFSeq

/-- There is nothing to do for the file. -/
def skipped : Bool := env.type == .addCopiesOnly && lackingCopies env archiveFile == 0

def provided : Bool :=
  match createArchiveSubrequest env filesInDirectory (recordedFSeq env archiveFile) archiveFile with
  | .ok b => b
  | .error _ => false

/-- The file has no fSeq on the tape and is not in the buffer. -/
def unfiled : Bool :=
  !skipped env archiveFile && !provided env filesInDirectory archiveFile
    && recordedFSeq env archiveFile == noFSeq

def listed : List Subrequest :=
  if skipped env archiveFile || unfiled env filesInDirectory archiveFile then []
  else [{ fSeq := recordedFSeq env archiveFile
          archiveFile := archiveFile
          copyNbsToRearchive := (addedCopyNbs env archiveFile).foldl (fun s copyNb => s.insert copyNb)
            (movedCopyNbs env archiveFile)
          fileBufferURL := env.dirBufferURL ++ bufferFileName (recordedFSeq env archiveFile)
          hasUserProvidedFile := provided env filesInDirectory archiveFile }]

/-- The copies counted beyond the copy numbers of the subrequest. -/
def excessCopies : UInt64 :=
  (UInt64.ofNat (movedCopies env archiveFile).length
      - UInt64.ofNat (movedCopyNbs env archiveFile).size)
    + (lackingCopies env archiveFile - UInt64.ofNat (addedCopyNbs env archiveFile).length)

/-- The copies counted without a subrequest for them. -/
def strayCopies : UInt64 :=
  if unfiled env filesInDirectory archiveFile then
    UInt64.ofNat (movedCopies env archiveFile).length + lackingCopies env archiveFile
  else excessCopies env archiveFile

/-- How far the totals move away from the work with the file. -/
def deviation (k : Total) : UInt64 :=
  match k with
  | .filesToArchive => strayCopies env filesInDirectory archiveFile
  | .bytesToArchive => strayCopies env filesInDirectory archiveFile * archiveFile.fileSize
  | .filesToRetrieve => if unfiled env filesInDirectory archiveFile then 0 - 1 else 0
  | .bytesToRetrieve =>
      if unfiled env filesInDirectory archiveFile then 0 - archiveFile.fileSize else 0

end File

/-! ## One file keeps the account -/

/-- What `n` copies of a file add to the totals. -/
def copiesWeight (fileSize n : UInt64) : Total → UInt64
  | .filesToArchive => n
  | .bytesToArchive => n * fileSize
  | _ => 0

theorem copiesWeight_zero (fileSize : UInt64) (k : Total) : copiesWeight fileSize 0 k = 0 := by
  cases k <;> simp [copiesWeight]

theorem copiesWeight_add (fileSize m n : UInt64) (k : Total) :
    copiesWeight fileSize (m + n) k = copiesWeight fileSize m k + copiesWeight fileSize n k := by
  cases k with
  | filesToArchive | filesToRetrieve | bytesToRetrieve => rfl
  | bytesToArchive => exact UInt64.add_mul

variable {env : ExpansionEnv} {routes : StorageClassMap} {l : List TapeFile}

/-- The loop over the tape files that are moved. -/
theorem foldlM_moveCopy_ok
    {c c' : TotalStatsFiles × Subrequest} (h : l.foldlM (moveCopy env routes) c = .ok c') :
    c'.2 = { c.2 with
        copyNbsToRearchive := (l.filter (fun tc => tc.vid == env.vid)).foldl
          (fun s tc => s.insert tc.copyNb.toUInt32) c.2.copyNbsToRearchive,
        fSeq := (l.filter (fun tc => tc.vid == env.vid)).foldl (fun _ tc => tc.fSeq) c.2.fSeq }
      ∧ ∀ k, total c'.1 k = total c.1 k + copiesWeight c.2.archiveFile.fileSize
          (UInt64.ofNat (l.filter (fun tc => tc.vid == env.vid)).length) k := by
  induction l generalizing c with
  | nil =>
    cases h
    refine ⟨rfl, fun k => ?_⟩
    rw [filter_nil, length_nil, show UInt64.ofNat 0 = 0 from rfl, copiesWeight_zero, add_zero]
  | cons tc l ih =>
    obtain ⟨c1, ho, hrest⟩ := bind_eq_ok.mp h
    obtain ⟨hs, htl⟩ := ih hrest
    unfold moveCopy at ho
    cases hv : tc.vid == env.vid with
    | false =>
      rw [hv] at ho
      cases ho
      rw [filter_cons_of_neg (by simp [hv])]
      exact ⟨hs, htl⟩
    | true =>
      rw [hv, if_pos rfl] at ho
      split at ho
      · cases ho
      cases ho
      rw [filter_cons_of_pos (by simp [hv])]
      refine ⟨hs, fun k => ?_⟩
      rw [htl, length_cons, ofNat_add, UInt64.ofNat_one, add_comm (UInt64.ofNat _) 1,
        copiesWeight_add, ← add_assoc]
      congr 1
      cases k <;> simp [total, copiesWeight]

variable {archiveFile : ArchiveFile} {sc : StorageClass}

theorem lackingCopies_of_adds
    (hsc : env.storageClasses.find? (fun sc => sc.name == archiveFile.storageClass) = some sc)
    (ha : env.type.adds = true) :
    lackingCopies env archiveFile = filesToArchive sc archiveFile := by
  unfold lackingCopies
  rw [if_pos ha, hsc]

variable {c : TotalStatsFiles × Subrequest}

/-- A file whose copies are not added keeps its candidate. -/
theorem addCopies_nothing (hz : lackingCopies env archiveFile = 0)
    (hty : env.type ≠ .addCopiesOnly) :
    c.2 = { c.2 with
        copyNbsToRearchive := (addedCopyNbs env archiveFile).foldl (fun s copyNb => s.insert copyNb)
          c.2.copyNbsToRearchive,
        fSeq := if env.type = .addCopiesOnly then addedFSeq env archiveFile c.2.fSeq
          else c.2.fSeq }
      ∧ ∀ k, total c.1 k = total c.1 k
          + copiesWeight archiveFile.fileSize (lackingCopies env archiveFile) k := by
  refine ⟨?_, fun k => ?_⟩
  · unfold addedCopyNbs
    rw [if_pos hz, if_neg hty]
    rfl
  · rw [hz, copiesWeight_zero, add_zero]

theorem addCopies_ok
    (hsc : env.storageClasses.find? (fun sc => sc.name == archiveFile.storageClass) = some sc)
    {o : Option (TotalStatsFiles × Subrequest)}
    (h : addCopies env (routesOf env archiveFile) sc archiveFile c = .ok o) :
    match o with
    | none => skipped env archiveFile = true
    | some c' => skipped env archiveFile = false
        ∧ c'.2 = { c.2 with
            copyNbsToRearchive := (addedCopyNbs env archiveFile).foldl
              (fun s copyNb => s.insert copyNb) c.2.copyNbsToRearchive,
            fSeq := if env.type = .addCopiesOnly then addedFSeq env archiveFile c.2.fSeq
              else c.2.fSeq }
        ∧ ∀ k, total c'.1 k = total c.1 k
            + copiesWeight archiveFile.fileSize (lackingCopies env archiveFile) k := by
  unfold addCopies at h
  by_cases ha : env.type.adds = true
  · have hl := lackingCopies_of_adds hsc ha
    rw [if_pos ha] at h
    split at h
    next hpos =>
      have hne : filesToArchive sc archiveFile ≠ 0 := fun h0 => absurd hpos (by rw [h0]; decide)
      dsimp only at h
      split at h
      · cases h
      cases h
      refine ⟨?_, ?_, fun k => ?_⟩
      · simp [skipped, hl, hne]
      · unfold addedCopyNbs
        rw [hl, if_neg hne]
        simp
      · rw [hl]
        cases k <;> simp [total, copiesWeight]
    next hpos =>
      have hz : lackingCopies env archiveFile = 0 := by
        rw [hl, ← toNat_inj]
        have hle := UInt64.le_iff_toNat_le.mp (UInt64.not_lt.mp hpos)
        exact Nat.le_zero.mp hle
      split at h
      next hty =>
        cases h
        simp [skipped, hz, hty]
      next hty =>
        cases h
        have hty : env.type ≠ .addCopiesOnly := by simpa using hty
        exact ⟨by simp [skipped, hty], addCopies_nothing hz hty⟩
  · rw [if_neg ha] at h
    cases h
    have hz : lackingCopies env archiveFile = 0 := by
      unfold lackingCopies
      rw [if_neg ha]
    have hty : env.type ≠ .addCopiesOnly := fun ht => ha (by rw [ht]; rfl)
    exact ⟨by simp [skipped, hty], addCopies_nothing hz hty⟩

/-! ### The size of the set of copy numbers -/

/-- A copy number that is added is none of those that are moved. -/
theorem addedCopyNbs_not_moved {copyNb : UInt32} (h : copyNb ∈ addedCopyNbs env archiveFile) :
    copyNb ∉ movedCopyNbs env archiveFile := by
  unfold addedCopyNbs at h
  split at h
  · cases h
  unfold missingCopyNbs at h
  intro hm
  obtain hme | ⟨tc, htc, heq⟩ := (mem_foldl_insert _ _ _ _).mp hm
  · simp at hme
  have ht' : tc ∈ archiveFile.tapeFiles := by
    unfold movedCopies at htc
    split at htc
    · exact mem_of_mem_filter htc
    · cases htc
  have hin : copyNb.toUInt64 ∈ copyNbsAlreadyInCTA archiveFile :=
    (mem_foldl_insert _ _ _ _).mpr (.inr ⟨tc, ht', by rw [← heq]; rfl⟩)
  simp [TreeSet.contains_iff_mem.mpr hin] at h

theorem addedCopyNbs_nodup (env : ExpansionEnv) (archiveFile : ArchiveFile) :
    (addedCopyNbs env archiveFile).Nodup := by
  unfold addedCopyNbs
  split
  · exact nodup_nil
  refine List.Nodup.filter _ (pairwise_map.mpr (TreeMap.distinct_keys_toList.imp ?_))
  intro a b hne heq
  exact hne (heq ▸ ReflCmp.compare_self)

theorem size_listed (env : ExpansionEnv) (archiveFile : ArchiveFile) :
    ((addedCopyNbs env archiveFile).foldl (fun s copyNb => s.insert copyNb)
      (movedCopyNbs env archiveFile)).size
      = (movedCopyNbs env archiveFile).size + (addedCopyNbs env archiveFile).length :=
  size_foldl_insert (addedCopyNbs_nodup env archiveFile) (fun _ h => addedCopyNbs_not_moved h)

/-! ### The whole turn -/

variable {t : TotalStatsFiles}

/-- The subrequest of a file with its copies on the tape, and no others. -/
def movedSubrequest (env : ExpansionEnv) (archiveFile : ArchiveFile) : Subrequest :=
  { blankSubrequest archiveFile with
    copyNbsToRearchive := movedCopyNbs env archiveFile,
    fSeq := (movedCopies env archiveFile).foldl (fun _ tc => tc.fSeq) noFSeq }

theorem moveCopies_ok (h : moveCopies env (routesOf env archiveFile) archiveFile t = .ok c) :
    c.2 = movedSubrequest env archiveFile ∧ ∀ k, total c.1 k = total t k + copiesWeight archiveFile.fileSize
          (UInt64.ofNat (movedCopies env archiveFile).length) k := by
  unfold moveCopies at h
  unfold movedSubrequest movedCopyNbs movedCopies
  split at h
  next hm =>
    rw [if_pos hm]
    exact foldlM_moveCopy_ok h
  next hm =>
    cases h
    rw [if_neg hm]
    refine ⟨rfl, fun k => ?_⟩
    rw [length_nil, show UInt64.ofNat 0 = 0 from rfl, copiesWeight_zero, add_zero]

theorem deviation_of_skipped
    (h : skipped env archiveFile = true) (filesInDirectory : TreeSet String) (k : Total) :
    deviation env filesInDirectory archiveFile k = 0 := by
  have hf : unfiled env filesInDirectory archiveFile = false := by simp [unfiled, h]
  obtain ⟨hty, hl⟩ : env.type = .addCopiesOnly ∧ lackingCopies env archiveFile = 0 := by
    simpa [skipped] using h
  have hm : movedCopies env archiveFile = [] := by simp [movedCopies, hty, RepackType.moves]
  have hs : strayCopies env filesInDirectory archiveFile = 0 := by
    simp [strayCopies, hf, excessCopies, movedCopyNbs, addedCopyNbs, hm, hl]
  cases k <;> simp [deviation, hs, hf]

/-- The copies counted are those of the subrequest and the excess. -/
theorem copiesWeight_filed (env : ExpansionEnv) (archiveFile : ArchiveFile) :
    UInt64.ofNat (movedCopies env archiveFile).length + lackingCopies env archiveFile
      = UInt64.ofNat ((movedCopyNbs env archiveFile).size + (addedCopyNbs env archiveFile).length)
        + excessCopies env archiveFile := by
  unfold excessCopies
  rw [ofNat_add]
  grind

variable {filesInDirectory : TreeSet String} {x x' : Listing}

/-- The end of the turn of a file that is not skipped. -/
theorem listSubrequest_ok {s : Subrequest} (h : listSubrequest env filesInDirectory x t s = .ok x')
    (hsk : skipped env archiveFile = false) (hs : s = { blankSubrequest archiveFile with
      copyNbsToRearchive := (addedCopyNbs env archiveFile).foldl (fun s copyNb => s.insert copyNb)
        (movedCopyNbs env archiveFile), fSeq := recordedFSeq env archiveFile })
    (ht : ∀ k, total t k = total x.totalStatsFile k + copiesWeight archiveFile.fileSize
      (UInt64.ofNat (movedCopies env archiveFile).length + lackingCopies env archiveFile) k) :
    x'.retrieveSubrequests = x.retrieveSubrequests ++ listed env filesInDirectory archiveFile
      ∧ ∀ k, total x'.totalStatsFile k = total x.totalStatsFile k
          + UInt64.ofNat ((listed env filesInDirectory archiveFile).map (work k)).sum
          + deviation env filesInDirectory archiveFile k := by
  subst hs
  obtain ⟨b, hb, h⟩ := bind_eq_ok.mp h
  have hp : provided env filesInDirectory archiveFile = b := by
    unfold provided
    rw [show createArchiveSubrequest env filesInDirectory (recordedFSeq env archiveFile)
      archiveFile = .ok b from hb]
  have hu : unfiled env filesInDirectory archiveFile
      = (!b && recordedFSeq env archiveFile == noFSeq) := by
    simp [unfiled, hsk, hp]
  split at h
  next hno =>
    rw [← hu] at hno
    cases h
    have hl : listed env filesInDirectory archiveFile = [] := by simp [listed, hno]
    rw [hl]
    refine ⟨(append_nil _).symm, fun k => ?_⟩
    have htk := ht k
    cases k with
    | filesToArchive | bytesToArchive =>
      simpa [total, copiesWeight, deviation, strayCopies, hno] using htk
    | filesToRetrieve =>
      simp only [total, copiesWeight, add_zero] at htk
      simp [total, deviation, hno, htk, UInt64.sub_eq_add_neg]
    | bytesToRetrieve =>
      simp only [total, copiesWeight, add_zero] at htk
      simp [total, deviation, hno, htk, UInt64.sub_eq_add_neg, blankSubrequest]
  next hno =>
    rw [← hu, Bool.not_eq_true] at hno
    cases h
    have hl : listed env filesInDirectory archiveFile
        = [{ blankSubrequest archiveFile with
            copyNbsToRearchive := (addedCopyNbs env archiveFile).foldl
              (fun s copyNb => s.insert copyNb) (movedCopyNbs env archiveFile),
            fSeq := recordedFSeq env archiveFile,
            fileBufferURL := env.dirBufferURL ++ bufferFileName (recordedFSeq env archiveFile),
            hasUserProvidedFile := b }] := by
      simp [listed, hno, hsk, hp, blankSubrequest]
    rw [hl]
    refine ⟨rfl, fun k => ?_⟩
    have htk := ht k
    rw [copiesWeight_filed, copiesWeight_add, ← size_listed, ← add_assoc] at htk
    cases k with
    | filesToArchive => cases b <;>
        simpa [total, copiesWeight, deviation, strayCopies, hno, work] using htk
    | bytesToArchive => cases b <;>
        simpa [total, copiesWeight, deviation, strayCopies, hno, work, blankSubrequest,
          UInt64.mul_comm] using htk
    | filesToRetrieve =>
      simp only [total, copiesWeight, add_zero] at htk
      cases b <;> simp [total, deviation, hno, htk, work]
    | bytesToRetrieve =>
      simp only [total, copiesWeight, add_zero] at htk
      cases b <;> simp [total, deviation, hno, htk, work, blankSubrequest]

/-- **One file** lists its subrequest, and moves the totals by its work and its deviation. -/
theorem expandFile_ok (h : expandFile env filesInDirectory x archiveFile = .ok x') :
    x'.retrieveSubrequests = x.retrieveSubrequests ++ listed env filesInDirectory archiveFile
      ∧ ∀ k, total x'.totalStatsFile k = total x.totalStatsFile k
          + UInt64.ofNat ((listed env filesInDirectory archiveFile).map (work k)).sum
          + deviation env filesInDirectory archiveFile k := by
  unfold expandFile at h
  split at h
  · cases h
  next sc hsc =>
    obtain ⟨c, hc, h⟩ := bind_eq_ok.mp h
    obtain ⟨o, ho, h⟩ := bind_eq_ok.mp h
    obtain ⟨hsu, htl⟩ := moveCopies_ok hc
    have ha := addCopies_ok hsc ho
    cases o with
    | none =>
      cases h
      have hl : listed env filesInDirectory archiveFile = [] := by
        simp [listed, show skipped env archiveFile = true from ha]
      rw [hl]
      refine ⟨(append_nil _).symm, fun k => ?_⟩
      rw [deviation_of_skipped ha]
      simp
    | some c' =>
      obtain ⟨hs, hs', ht'⟩ := ha
      refine listSubrequest_ok (x := { x with fSeq := x.fSeq + 1 }) (t := c'.1) (s := c'.2)
        h hs ?_ (fun k => ?_)
      · rw [hs', hsu]
        unfold movedSubrequest recordedFSeq
        split
        next hty =>
          have hm : movedCopies env archiveFile = [] := by
            simp [movedCopies, hty, RepackType.moves]
          rw [hm]
          rfl
        next => rfl
      · rw [ht', htl, copiesWeight_add, ← add_assoc]

/-! ## All files -/

variable {files : List ArchiveFile}

theorem foldlM_expandFile_ok (h : files.foldlM (expandFile env filesInDirectory) x = .ok x') :
    x'.retrieveSubrequests = x.retrieveSubrequests ++ files.flatMap (listed env filesInDirectory)
      ∧ ∀ k, total x'.totalStatsFile k = total x.totalStatsFile k
          + UInt64.ofNat ((files.flatMap (listed env filesInDirectory)).map (work k)).sum
          + (files.map (fun file => deviation env filesInDirectory file k)).sum := by
  induction files generalizing x with
  | nil =>
    cases h
    exact ⟨(append_nil _).symm, fun k => by simp⟩
  | cons file files ih =>
    obtain ⟨x1, ho, hrest⟩ := bind_eq_ok.mp h
    obtain ⟨hs1, ht1⟩ := expandFile_ok ho
    obtain ⟨hs, htl⟩ := ih hrest
    refine ⟨?_, fun k => ?_⟩
    · rw [hs, hs1, flatMap_cons, append_assoc]
    · rw [htl, ht1, flatMap_cons, map_append, sum_append, map_cons, sum_cons, ofNat_add]
      ac_rfl

def Balanced (env : ExpansionEnv) (filesInDirectory : TreeSet String) (files : List ArchiveFile) :
    Prop :=
  ∀ k, (files.map (fun file => deviation env filesInDirectory file k)).sum = 0

def WorkFits (env : ExpansionEnv) (filesInDirectory : TreeSet String) (files : List ArchiveFile)
    (t : TotalStatsFiles) : Prop :=
  ∀ k, (total t k).toNat + ((files.flatMap (listed env filesInDirectory)).map (work k)).sum < 2 ^ 64

/-- A file in order: its copies on the tape have different numbers, as many routes lead to numbers it
lacks as its storage class asks for, and it is recorded under an fSeq of the tape or in the buffer. -/
structure InOrder (env : ExpansionEnv) (filesInDirectory : TreeSet String)
    (archiveFile : ArchiveFile) : Prop where
  copies : (movedCopyNbs env archiveFile).size = (movedCopies env archiveFile).length
  routes : lackingCopies env archiveFile = UInt64.ofNat (addedCopyNbs env archiveFile).length
  filed : unfiled env filesInDirectory archiveFile = false

theorem balanced_of_inOrder (h : ∀ file ∈ files, InOrder env filesInDirectory file) :
    Balanced env filesInDirectory files := by
  intro k
  have hz : ∀ file ∈ files, deviation env filesInDirectory file k = 0 := by
    intro file hfi
    obtain ⟨hc, hr, hf⟩ := h file hfi
    have hs : strayCopies env filesInDirectory file = 0 := by
      simp [strayCopies, hf, excessCopies, hc, hr]
    cases k <;> simp [deviation, hs, hf]
  rw [map_congr_left hz]
  simp

/-- **The totals of an expansion match the work it creates** exactly when the deviations of the
files cancel out and the work fits. -/
theorem expansion_totals_match_iff {env : ExpansionEnv} {filesInDirectory : TreeSet String}
    {files : List ArchiveFile} {x x' : Listing} (hnone : x.retrieveSubrequests = [])
    (h : files.foldlM (expandFile env filesInDirectory) x = .ok x') :
    (TotalsMatch x.totalStatsFile x'.totalStatsFile x'.retrieveSubrequests
        ↔ Balanced env filesInDirectory files
          ∧ WorkFits env filesInDirectory files x.totalStatsFile)
      ∧ ((∀ file ∈ files, InOrder env filesInDirectory file) →
          Balanced env filesInDirectory files) := by
  obtain ⟨hs, htl⟩ := foldlM_expandFile_ok h
  rw [hnone, nil_append] at hs
  refine ⟨?_, balanced_of_inOrder⟩
  rw [hs]
  unfold TotalsMatch Balanced WorkFits
  rw [← forall_and]
  refine forall_congr' (fun k => ?_)
  rw [htl k]
  exact toNat_add_ofNat_add_eq_iff

/-- A file with a copy at fSeq 1, `nbCopies` copies, and routes for the copies 1 and 2. -/
def oneFile : ArchiveFile := ⟨7, 100, "multi", [⟨"V00001", 1, 1⟩]⟩

def expansionOf (nbCopies : UInt64) : ExpansionEnv :=
  { vid := "V00001", type := .moveAndAddCopies, noRecall := false
    repackBufferBaseURL := "root://buffer"
    archiveRoutes := [⟨"multi", 1, "pool1"⟩, ⟨"multi", 2, "pool2"⟩]
    storageClasses := [⟨"multi", nbCopies⟩]
    readFileSize := fun _ => .ok 0 }

def expandOneFile (nbCopies : UInt64) : Except RequestExn Listing :=
  [oneFile].foldlM (expandFile (expansionOf nbCopies) ∅) ⟨0, ⟨0, 0, 0, 0, 0⟩, [], 0⟩

/-- With two copies in the storage class the file is in order. -/
theorem expansion_of_two_copies : ∃ x', expandOneFile 2 = .ok x'
      ∧ TotalsMatch ⟨0, 0, 0, 0, 0⟩ x'.totalStatsFile x'.retrieveSubrequests := by
  obtain ⟨x', h⟩ : ∃ x', expandOneFile 2 = .ok x' := ⟨_, rfl⟩
  obtain ⟨hi, he⟩ := expansion_totals_match_iff rfl h
  refine ⟨x', h, hi.mpr ⟨he ?_, ?_⟩⟩
  · intro file hf
    rw [mem_singleton] at hf
    subst hf
    exact ⟨by decide, by decide, by decide⟩
  · intro k
    cases k <;> decide

/-- **With three copies the moved copy hides the missing route**: two are archived. -/
theorem counted_copy_without_route :
    ∃ x', expandOneFile 3 = .ok x' ∧ x'.totalStatsFile.totalFilesToArchive = 3
      ∧ x'.retrieveSubrequests.map (fun s => s.copyNbsToRearchive.toList) = [[1, 2]]
      ∧ ¬ TotalsMatch ⟨0, 0, 0, 0, 0⟩ x'.totalStatsFile x'.retrieveSubrequests := by
  refine ⟨_, rfl, by decide, by decide, fun h => ?_⟩
  exact absurd (h .filesToArchive) (by decide)

/-! ## Files with enough copies -/

end TapeArchive.Scheduler
