/-
  **THE REPACK REQUEST** (`RepackRequest.cpp`, `cta.proto`).

  A report reads the pointers, one per fSeq, into a map, counts what they do not say is
  accounted, lets `setStatus` decide on the status and writes the map back.
-/
import TapeArchive.Common.DataStructures
import TapeArchive.Objectstore.ArchiveRequest
import TapeArchive.Objectstore.Backend

namespace TapeArchive.Objectstore

open Std Lib Common

/-! ## The payload -/

inductive RepackRequestStatus where
  | pending | toExpand | starting | running | complete | failed
  deriving DecidableEq

/-- `serializers::RepackSubRequestPointer`. -/
structure SubRequestPointerMsg where
  address : String
  fseq : UInt64
  retrieveAccounted : Bool
  archiveCopynbAccounted : List UInt32
  subrequestDeleted : Bool

/-- `serializers::RepackDestinationInfo`; files and bytes default to 0. -/
structure RepackDestinationInfo where
  vid : String
  (files bytes : UInt64)

structure RepackRequest where
  vid : String
  status : RepackRequestStatus
  (addCopiesMode moveMode : Bool)
  (totalfilestoretrieve totalbytestoretrieve totalfilestoarchive : UInt64)
  (totalbytestoarchive userprovidedfiles userprovidedbytes retrievedfiles : UInt64)
  (retrievedbytes archivedfiles archivedbytes failedtoretrievefiles : UInt64)
  (failedtoretrievebytes failedtocreatearchivereq failedtoarchivefiles : UInt64)
  (failedtoarchivebytes lastexpandedfseq : UInt64)
  (isExpandFinished isExpandStarted isComplete : Bool)
  subrequests : List SubRequestPointerMsg
  destinationInfos : List RepackDestinationInfo
  repackFinishedTime : UInt64

/-- What a call on a request needs from outside the request. -/
structure Surroundings where
  /-- The size of the file of the archive request at an address, as `fetchNoLock` and
  `getArchiveFile` find it. -/
  archiveFileSize : String → Except RequestExn UInt64
  /-- The outcome of `AgentWrapper::removeFromOwnership` on the owner of the request. -/
  removeFromOwnership : Except RequestExn Unit
  /-- `time(nullptr)`. -/
  time : UInt64

namespace RepackRequest

/-- `RepackRequest::initialize`, followed by `setVid`. -/
def initial (vid : String) : RepackRequest :=
  { vid := vid, status := .pending, addCopiesMode := true, moveMode := true,
    totalfilestoretrieve := 0, totalbytestoretrieve := 0, totalfilestoarchive := 0,
    totalbytestoarchive := 0, userprovidedfiles := 0, userprovidedbytes := 0,
    retrievedfiles := 0, retrievedbytes := 0, archivedfiles := 0, archivedbytes := 0,
    failedtoretrievefiles := 0, failedtoretrievebytes := 0, failedtocreatearchivereq := 0,
    failedtoarchivefiles := 0, failedtoarchivebytes := 0, lastexpandedfseq := 0,
    isExpandFinished := false, isExpandStarted := false, isComplete := false,
    subrequests := [], destinationInfos := [], repackFinishedTime := 0 }

variable (r : RepackRequest)

def setExpandFinished (expandFinished : Bool) : RepackRequest :=
  { r with isExpandFinished := expandFinished }

def setExpandStarted (expandStarted : Bool) : RepackRequest :=
  { r with isExpandStarted := expandStarted }

/-! ## The status -/

def setStatusTo (env : Surroundings) (repackStatus : RepackRequestStatus) :
    RepackRequest :=
  let r := if repackStatus == .complete || repackStatus == .failed then
      { r with repackFinishedTime := env.time }
    else r
  { r with status := repackStatus }

/-- The condition under which `setStatus` ends the request. -/
def reachedTheEnd : Bool :=
  decide (r.retrievedfiles + r.failedtoretrievefiles ≥ r.totalfilestoretrieve)
    && decide (r.archivedfiles + r.failedtoarchivefiles + r.failedtocreatearchivereq
        ≥ r.totalfilestoarchive)

/-- The status that `setStatus` sets, if it sets one. -/
def nextStatus : Option RepackRequestStatus :=
  if r.isExpandStarted then
    if r.isExpandFinished && r.reachedTheEnd then
      if r.failedtoretrievefiles != 0 || r.failedtoarchivefiles != 0 then some .failed
      else some .complete
    else if r.retrievedfiles != 0 || r.failedtoretrievefiles != 0 || r.archivedfiles != 0
        || r.failedtoarchivefiles != 0 then some .running
    else some .starting
  else none

/-- `RepackRequest::setStatus()`. A request that ends is removed from its owner. -/
def setStatus (env : Surroundings) : Except RequestExn RepackRequest :=
  match r.nextStatus with
  | none => .ok r
  | some status =>
    let r := r.setStatusTo env status
    if status == .complete || status == .failed then do
      env.removeFromOwnership
      pure r
    else pure r

/-! ## The pointers to the subrequests -/

/-- `RepackRequest::RepackSubRequestPointer`. -/
structure SubRequestPointer where
  address : String
  fSeq : UInt64
  retrieveAccounted : Bool
  archiveCopyNbsAccounted : TreeSet UInt32
  subrequestDeleted : Bool

/-- `RepackSubRequestPointer::Map`. -/
abbrev PointerMap := TreeMap UInt64 SubRequestPointer

def SubRequestPointer.serialize (p : SubRequestPointer) : SubRequestPointerMsg :=
  { address := p.address, fseq := p.fSeq, retrieveAccounted := p.retrieveAccounted,
    archiveCopynbAccounted := p.archiveCopyNbsAccounted.toList,
    subrequestDeleted := p.subrequestDeleted }

def SubRequestPointer.deserialize (rsrp : SubRequestPointerMsg) : SubRequestPointer :=
  { address := rsrp.address, fSeq := rsrp.fseq, retrieveAccounted := rsrp.retrieveAccounted,
    archiveCopyNbsAccounted := TreeSet.ofList rsrp.archiveCopynbAccounted,
    subrequestDeleted := rsrp.subrequestDeleted }

def readMap : PointerMap :=
  r.subrequests.foldl (fun pointerMap rsrp =>
    pointerMap.insert rsrp.fseq (SubRequestPointer.deserialize rsrp)) ∅

/-- The map is written back in the order of its keys. -/
def writeMap (pointerMap : PointerMap) : RepackRequest :=
  { r with subrequests := pointerMap.toList.map (fun p => p.2.serialize) }

structure SubrequestInfo where
  address : String
  fSeq : UInt64
  subrequestDeleted : Bool

/-- The local variables of `getOrPrepareSubrequestInfo`. -/
structure Preparation where
  pointerMap : PointerMap
  infos : List SubrequestInfo
  newElementCreated : Bool
  agentRef : AgentReference

/-- One turn of its loop: the pointer that is there, or a new one with a new address. -/
def prepareOne (c : Preparation) (fs : UInt64) : Preparation :=
  match c.pointerMap[fs]? with
  | some srp =>
      { c with infos := c.infos ++ [⟨srp.address, srp.fSeq, srp.subrequestDeleted⟩] }
  | none =>
      let address := c.agentRef.idAt "RepackSubRequest" c.agentRef.m_nextId
      { pointerMap := c.pointerMap.insert fs ⟨address, fs, false, ∅, false⟩,
        infos := c.infos ++ [⟨address, fs, false⟩], newElementCreated := true,
        agentRef := { c.agentRef with m_nextId := c.agentRef.m_nextId + 1 } }

def getOrPrepareSubrequestInfo (fSeqs : TreeSet UInt64)
    (agentRef : AgentReference) : RepackRequest × List SubrequestInfo × AgentReference :=
  let c := fSeqs.toList.foldl prepareOne ⟨r.readMap, [], false, agentRef⟩
  (if c.newElementCreated then r.writeMap c.pointerMap else r, c.infos, c.agentRef)

def setTotalStats (totalStatsFiles : TotalStatsFiles) : RepackRequest :=
  { r with totalfilestoretrieve := totalStatsFiles.totalFilesToRetrieve,
           totalfilestoarchive := totalStatsFiles.totalFilesToArchive,
           totalbytestoarchive := totalStatsFiles.totalBytesToArchive,
           totalbytestoretrieve := totalStatsFiles.totalBytesToRetrieve,
           userprovidedfiles := totalStatsFiles.userProvidedFiles }

def setLastExpandedFSeq (lastExpandedFSeq : UInt64) : RepackRequest :=
  { r with lastexpandedfseq := lastExpandedFSeq }

/-! ## The reports on subrequests -/

structure SubrequestStatistics where
  (fSeq files bytes : UInt64)
  copyNb : UInt32
  (subrequestDeleted hasUserProvidedFile : Bool)
  destinationVid : String
  deriving DecidableEq

def updateRepackDestinationInfos (fileSize : UInt64) (destinationVid : String) : RepackRequest :=
  { r with destinationInfos := go r.destinationInfos }
where
  go : List RepackDestinationInfo → List RepackDestinationInfo
    | [] => [⟨destinationVid, 0 + 1, 0 + fileSize⟩]
    | info :: infos =>
        if info.vid == destinationVid then
          { info with files := info.files + 1, bytes := info.bytes + fileSize } :: infos
        else info :: go infos

/-- What distinguishes the four reports. -/
structure Report where
  /-- The text thrown when a report names an unknown fSeq. -/
  unknownFSeq : String
  /-- Whether the pointer has the subject of the report accounted already. -/
  accounted : SubrequestStatistics → SubRequestPointer → Bool
  /-- The pointer once it is accounted. -/
  account : SubrequestStatistics → SubRequestPointer → SubRequestPointer
  /-- The counters once it is accounted. -/
  count : Surroundings → SubrequestStatistics → SubRequestPointer → RepackRequest →
    Except RequestExn RepackRequest

/-- The local variables of a report: the map, the payload and `didUpdate`. -/
structure Counting where
  pointerMap : PointerMap
  payload : RepackRequest
  didUpdate : Bool

/-- One turn of the loop over the statistics. -/
def Report.countOne (report : Report) (env : Surroundings) (c : Counting)
    (s : SubrequestStatistics) : Except RequestExn Counting :=
  match c.pointerMap[s.fSeq]? with
  | none => .error (.exception report.unknownFSeq)
  | some p =>
    if !report.accounted s p then do
      let payload ← report.count env s p c.payload
      pure { pointerMap := c.pointerMap.insert s.fSeq (report.account s p), payload := payload,
             didUpdate := true }
    else pure c

def Report.counting (report : Report) (env : Surroundings) (stats : List SubrequestStatistics)
    (r : RepackRequest) : Except RequestExn Counting :=
  stats.foldlM (report.countOne env) ⟨r.readMap, r, false⟩

def Report.run (report : Report) (env : Surroundings) (stats : List SubrequestStatistics)
    (r : RepackRequest) : Except RequestExn RepackRequest := do
  let c ← report.counting env stats r
  if c.didUpdate then do
    let r ← c.payload.setStatus env
    pure (r.writeMap c.pointerMap)
  else pure c.payload

/-- `RepackRequest::reportRetriveSuccesses`. A file the user provided was not retrieved. -/
def reportRetriveSuccesses : Report where
  unknownFSeq := "In RepackRequest::reportRetriveSuccesses(): got a report for unknown fSeq"
  accounted := fun _ p => p.retrieveAccounted
  account := fun _ p => { p with retrieveAccounted := true }
  count := fun _ rs _ r => .ok (if !rs.hasUserProvidedFile then
      { r with retrievedbytes := r.retrievedbytes + rs.bytes,
               retrievedfiles := r.retrievedfiles + rs.files }
    else r)

def reportRetriveFailures : Report where
  unknownFSeq := "In RepackRequest::reportRetriveFailures(): got a report for unknown fSeq"
  accounted := fun _ p => p.retrieveAccounted
  account := fun _ p => { p with retrieveAccounted := true }
  count := fun _ rf _ r => .ok
    { r with failedtoretrievebytes := r.failedtoretrievebytes + rf.bytes,
             failedtoretrievefiles := r.failedtoretrievefiles + rf.files }

/-- The size of the file is read from the archive request the pointer leads to. -/
def reportArchiveSuccesses : Report where
  unknownFSeq := "In RepackRequest::reportArchiveSuccesses(): got a report for unknown fSeq"
  accounted := fun as p => p.archiveCopyNbsAccounted.contains as.copyNb
  account := fun as p =>
    { p with archiveCopyNbsAccounted := p.archiveCopyNbsAccounted.insert as.copyNb,
             subrequestDeleted := as.subrequestDeleted }
  count := fun env as p r => do
    let fileSize ← env.archiveFileSize p.address
    let r := r.updateRepackDestinationInfos fileSize as.destinationVid
    pure { r with archivedbytes := r.archivedbytes + as.bytes,
                  archivedfiles := r.archivedfiles + as.files }

def reportArchiveFailures : Report where
  unknownFSeq := "In RepackRequest::reportArchiveFailures(): got a report for unknown fSeq"
  accounted := fun af p => p.archiveCopyNbsAccounted.contains af.copyNb
  account := fun af p =>
    { p with archiveCopyNbsAccounted := p.archiveCopyNbsAccounted.insert af.copyNb,
             subrequestDeleted := true }
  count := fun _ af _ r => .ok
    { r with failedtoarchivebytes := r.failedtoarchivebytes + af.bytes,
             failedtoarchivefiles := r.failedtoarchivefiles + af.files }

/-- One turn of the loop of `reportSubRequestsForDeletion`, on the map and `didUpdate`. -/
def markDeleted (c : PointerMap × Bool) (fs : UInt64) : Except RequestExn (PointerMap × Bool) :=
  match c.1[fs]? with
  | none => .error (.exception ("In RepackRequest::reportSubRequestsForDeletion(): "
      ++ "got a report for unknown fSeq"))
  | some p =>
    if !p.subrequestDeleted then
      .ok (c.1.insert fs { p with subrequestDeleted := true }, true)
    else .ok c

/-- `RepackRequest::reportSubRequestsForDeletion`. It leaves the status alone. -/
def reportSubRequestsForDeletion (fSeqs : List UInt64) :
    Except RequestExn RepackRequest := do
  let c ← fSeqs.foldlM markDeleted (r.readMap, false)
  pure (if c.2 then r.writeMap c.1 else r)

/-! ## The reports on subrequests that could not be created -/

def reportArchiveCreationFailures (nbFailedToCreateArchiveRequests : UInt64) : RepackRequest :=
  { r with failedtocreatearchivereq :=
      r.failedtocreatearchivereq + nbFailedToCreateArchiveRequests }

/-- The three sums of `reportRetrieveCreationFailures`: files, bytes and copies. -/
def creationFailures (notCreatedSubrequests : List Subrequest) : UInt64 × UInt64 × UInt64 :=
  notCreatedSubrequests.foldl (fun (files, bytes, archiveReq) subreq =>
    (files + 1, bytes + subreq.archiveFile.fileSize,
      subreq.copyNbsToRearchive.toList.foldl (fun n _ => n + 1) archiveReq)) (0, 0, 0)

/-- `RepackRequest::reportRetrieveCreationFailures`: the counters. -/
def countRetrieveCreationFailures (notCreatedSubrequests : List Subrequest) :
    RepackRequest :=
  let (failedToRetrieveFiles, failedToRetrieveBytes, failedToCreateArchiveReq) :=
    creationFailures notCreatedSubrequests
  { r with failedtoretrievebytes := r.failedtoretrievebytes + failedToRetrieveBytes,
           failedtoretrievefiles := r.failedtoretrievefiles + failedToRetrieveFiles
    }.reportArchiveCreationFailures failedToCreateArchiveReq

def reportRetrieveCreationFailures (env : Surroundings)
    (notCreatedSubrequests : List Subrequest) : Except RequestExn RepackRequest :=
  (r.countRetrieveCreationFailures notCreatedSubrequests).setStatus env

end RepackRequest

end TapeArchive.Objectstore
