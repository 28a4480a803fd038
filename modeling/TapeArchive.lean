import TapeArchive.Objectstore.CrashSafety
import TapeArchive.Objectstore.ArchiveReports
import TapeArchive.Scheduler.RepackExpansion
import TapeArchive.Scheduler.RetrieveFailTransfer
import TapeArchive.Scheduler.MountPolicies
import TapeArchive.Scheduler.ActivityMounts
import TapeArchive.Scheduler.NextMount
import TapeArchive.Objectstore.Sorter
import TapeArchive.Scheduler.ArchiveMountReport
import TapeArchive.Tapeserver.MigrationContents
import TapeArchive.Tapeserver.WriteSession
import TapeArchive.Objectstore.AgentCollection
import TapeArchive.Objectstore.RetrieveQueueSelection
import TapeArchive.Tapeserver.RaoOrder
import TapeArchive.Tapeserver.DriveCleaning
import TapeArchive.Tapeserver.DriveReports
import TapeArchive.Tapeserver.MaintenanceHandler
import TapeArchive.Tapeserver.RecallEnd
import TapeArchive.Tapeserver.TapeLabels
import TapeArchive.Catalogue.ArchiveFileItor
import TapeArchive.Catalogue.RetrieveAccess
import TapeArchive.Catalogue.TapeCounters
import TapeArchive.Catalogue.DriveStartup
import TapeArchive.Rdbms.ConnPool
import TapeArchive.Objectstore.RadosLocks
import TapeArchive.Scheduler.ReservationLedger
import TapeArchive.Objectstore.RetrieveQueueRebuild
import TapeArchive.Objectstore.RetrieveQueueAges
import TapeArchive.Objectstore.RetrieveQueueOrder
import TapeArchive.Objectstore.ArchiveRetries
import TapeArchive.Objectstore.FailureCharging
import TapeArchive.Scheduler.RepackDeletions
import TapeArchive.Objectstore.PopNextBatch
import TapeArchive.Objectstore.RadosUpdateLocks
import TapeArchive.Scheduler.ReportBatches
import TapeArchive.Scheduler.MemQueues
import TapeArchive.Tapeserver.TapeReadTask
