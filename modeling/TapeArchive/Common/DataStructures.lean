/-
  The records that the scheduler, its database and the object store hand to each
  other (`common/dataStructures`, `SchedulerDatabase.hpp`). Of each record the
  fields are kept that the modelled functions read.
-/
import Mathlib

namespace TapeArchive.Common

open Std

/-- `common::dataStructures::TapeFile`: where a copy of a file is. -/
structure TapeFile where
  vid : String
  fSeq : UInt64
  copyNb : UInt8

/-- `common::dataStructures::ArchiveFile`: a file with its copies on tape. -/
structure ArchiveFile where
  (archiveFileID fileSize : UInt64)
  storageClass : String
  tapeFiles : List TapeFile

/-- `common::dataStructures::ArchiveRoute`: the tape pool for a copy of a storage class. -/
structure ArchiveRoute where
  storageClassName : String
  copyNb : UInt8
  tapePoolName : String

structure StorageClass where
  name : String
  nbCopies : UInt64

abbrev StorageClassMap := TreeMap UInt32 ArchiveRoute

abbrev ArchiveRouteFullMap := TreeMap String StorageClassMap

/-- A file of the tape that is repacked, with the copy numbers to archive again. -/
structure Subrequest where
  fSeq : UInt64
  archiveFile : ArchiveFile
  copyNbsToRearchive : TreeSet UInt32
  fileBufferURL : String
  hasUserProvidedFile : Bool

structure TotalStatsFiles where
  (totalFilesToArchive totalBytesToArchive totalFilesToRetrieve : UInt64)
  (totalBytesToRetrieve userProvidedFiles : UInt64)

/-! ## Mounts -/

inductive MountType where
  | archiveForUser
  | archiveForRepack
  | retrieve
  | label
  | noMount
  /-- A summary type used in scheduling. -/
  | archiveAllTypes
  deriving DecidableEq

def getMountBasicType : MountType → MountType
  | .archiveForUser | .archiveForRepack => .archiveAllTypes
  | type => type

structure MountPolicy where
  name : String
  (archivePriority archiveMinRequestAge retrievePriority retrieveMinRequestAge : UInt64)

structure VirtualOrganization where
  name : String
  (readMaxDrives writeMaxDrives : UInt64)

/-- `common::dataStructures::Tape::State`. -/
inductive TapeState where
  | active | broken | disabled
  deriving DecidableEq

structure Tape where
  (vid logicalLibraryName tapePoolName vo mediaType vendor : String)
  capacityInBytes : UInt64
  labelFormat : UInt8
  state : TapeState

structure LogicalLibrary where
  name : String
  isDisabled : Bool

inductive DriveStatus where
  | down | up | probing | starting | mounting | transferring | unloading | unmounting
  | drainingToDisk | cleaningUp | shutdown | unknown

/-- `common::dataStructures::TapeDrive`: the current mount of a drive and the next one. -/
structure TapeDrive where
  driveName : String
  driveStatus : DriveStatus
  mountType : MountType
  (currentTapePool currentVo currentVid currentActivity : Option String)
  (bytesTransferedInSession filesTransferedInSession sessionElapsedTime : Option UInt64)
  nextMountType : MountType
  (nextTapePool nextVo nextVid nextActivity : Option String)

end TapeArchive.Common
