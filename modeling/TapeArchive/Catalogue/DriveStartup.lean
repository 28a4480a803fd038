/-
  The record of a drive in the catalogue (`DRIVE_STATE`), and what the first session
  of a tape server does to it (`DriveHandler::runChild`).

      checkDriveCanBeCreated ─▶ getDesiredDriveState ─▶ createTapeDriveStatus
        ─▶ setDesiredDriveState ─▶ reportDriveConfig ─▶ the session

  Every call to the catalogue may fail; `checkDriveCanBeCreated` catches what it throws.
-/
import TapeArchive.Lib.Relational

namespace TapeArchive.Catalogue.DriveStartup

open Lib

/-! ## The table -/

inductive MountType where
  | noMount | archiveForUser | archiveForRepack | retrieve | label | archiveAllTypes

inductive DriveStatus where
  | down | up | probing | starting | mounting | transferring | unloading | unmounting
  | drainingToDisk | cleaningUp | shutdown | unknown

structure EntryLog where
  (username host : String)
  time : UInt64

/-- A row of `DRIVE_STATE`, and the structure that is made of it. -/
structure TapeDrive where
  (driveName host logicalLibrary : String)
  sessionId : Option UInt64 := none
  downOrUpStartTime : Option UInt64 := none
  mountType : MountType
  driveStatus : DriveStatus
  (desiredUp desiredForceDown : Bool)
  reasonUpDown : Option String := none
  currentVid : Option String := none
  ctaVersion : Option String := none
  devFileName : Option String := none
  rawLibrarySlot : Option String := none
  userComment : Option String := none
  creationLog : Option EntryLog := none
  lastModificationLog : Option EntryLog := none
  diskSystemName : Option String := none
  reservedBytes : Option UInt64 := none
  reservationSessionId : Option UInt64 := none

/-- The classes of exceptions; all of them are a `cta::exception::Exception`. -/
inductive ExnKind where
  | exception | userError | driveAlreadyExists | noSuchDrive
  deriving DecidableEq

structure Exn where
  kind : ExnKind
  message : String

/-- The unique index on `LOWER(DRIVE_NAME)`, which implies the primary key. -/
def driveStateSchema : Schema (List TapeDrive) where
  Immediate rows := UniqueKey (fun r => r.driveName.toLower) rows
  Deferrable _ := True

/-- The table and, for the calls to come, whether they fail. -/
abbrev DriveCatalogue := Database driveStateSchema (List Bool)

abbrev DriveM (α : Type) := EStateM Exn DriveCatalogue α

def violation : Exn := ⟨.exception, "violates a constraint"⟩

/-- A call that may fail: then nothing is done. -/
def called {α : Type} (x : EStateM Exn (Session (List TapeDrive) (List Bool)) α) :
    EStateM Exn (Session (List TapeDrive) (List Bool)) α := fun s =>
  match s.counters with
  | [] => x s
  | fails :: calls =>
      if fails then .error ⟨.exception, "the database call failed"⟩ { s with counters := calls }
      else x { s with counters := calls }

/-- One statement on a connection of its own; the function is named before the message. -/
def statement {α : Type} (name : String)
    (x : EStateM Exn (Session (List TapeDrive) (List Bool)) α) : DriveM α :=
  tryCatch (transaction violation (called x))
    (fun e => throw { e with message := name ++ ": " ++ e.message })

/-! ## The functions of the catalogue -/

def getTapeDriveNames : DriveM (List String) :=
  statement "getTapeDriveNames" (query fun rows => rows.map (·.driveName))

def getTapeDrive (tapeDriveName : String) : DriveM (Option TapeDrive) :=
  statement "getTapeDrive" (query fun rows => rows.find? (fun r => r.driveName == tapeDriveName))

def deleteTapeDrive (tapeDriveName : String) : DriveM Unit :=
  statement "deleteTapeDrive" (execute driveStateSchema violation
    fun rows => rows.filter (fun r => !(r.driveName == tapeDriveName)))

/-- `setOptionalString` of `settingSqlTapeDriveValues`: an empty text is a null. -/
def setOptionalString (field : Option String) : Option String := field.filter (fun s => !s.isEmpty)

/-- `settingSqlTapeDriveValues`. -/
def TapeDrive.sqlValues (d : TapeDrive) : TapeDrive :=
  { d with
    reasonUpDown := setOptionalString d.reasonUpDown
    currentVid := setOptionalString d.currentVid
    ctaVersion := setOptionalString d.ctaVersion
    devFileName := setOptionalString d.devFileName
    rawLibrarySlot := setOptionalString d.rawLibrarySlot
    userComment := setOptionalString d.userComment
    diskSystemName := setOptionalString d.diskSystemName }

def createTapeDrive (tapeDrive : TapeDrive) : DriveM Unit :=
  statement "createTapeDrive" (execute driveStateSchema violation
    fun rows => rows ++ [tapeDrive.sqlValues])

structure DesiredDriveState where
  up : Bool := false
  forceDown : Bool := false
  reason : Option String := none
  comment : Option String := none

/-- An `UPDATE` of the row of a drive, which must be there. -/
def updateDrive (name tapeDriveName : String) (f : TapeDrive → TapeDrive) : DriveM Unit :=
  statement name do
    let rows ← query fun rows => rows
    if rows.any (fun r => r.driveName == tapeDriveName) then
      execute driveStateSchema violation
        fun rows => rows.map (fun r => if r.driveName == tapeDriveName then f r else r)
    else throw ⟨.userError, "Cannot modify Tape Drive: " ++ tapeDriveName ++ " because it doesn't exist"⟩

def setDesiredTapeDriveState (tapeDriveName : String) (s : DesiredDriveState) : DriveM Unit :=
  updateDrive "setDesiredTapeDriveState" tapeDriveName fun r =>
    { r with desiredUp := s.up, desiredForceDown := s.forceDown,
             reasonUpDown := s.reason.orElse (fun _ => r.reasonUpDown) }

def setDesiredTapeDriveStateComment (tapeDriveName comment : String) : DriveM Unit :=
  updateDrive "setDesiredTapeDriveStateComment" tapeDriveName fun r =>
    { r with userComment := setOptionalString (some comment) }

/-- `DriveConfig::setTapedConfiguration` writes to `DRIVE_CONFIG` only. -/
def setTapedConfiguration : DriveM Unit := statement "setTapedConfiguration" (query fun _ => ())

/-! ## `TapeDrivesCatalogueState` and `Scheduler` -/

structure DriveInfo where
  (driveName host logicalLibrary : String)

/-- `TpconfigLine`, with what the record takes from it. -/
structure TpconfigLine where
  (devFilename rawLibrarySlot : String)

/-- `common::dataStructures::SecurityIdentity`; the start-up passes an empty one. -/
structure SecurityIdentity where
  username : String := ""
  host : String := ""

/-- The body of the `try` of `TapeDrivesCatalogueState::checkDriveCanBeCreated`. -/
def compareWithRecord (driveInfo : DriveInfo) : DriveM Unit := do
  let tapeDrive ← getTapeDrive driveInfo.driveName
  match tapeDrive with
  | none => pure ()
  | some d =>
      if d.logicalLibrary ≠ driveInfo.logicalLibrary ∨ d.host ≠ driveInfo.host then
        throw ⟨.driveAlreadyExists, "The drive name=" ++ driveInfo.driveName
          ++ " logicalLibrary=" ++ driveInfo.logicalLibrary ++ " host=" ++ driveInfo.host
          ++ " cannot be created because a drive with a same name with logicalLibrary="
          ++ d.logicalLibrary ++ " host=" ++ d.host ++ " already exists."⟩
      else pure ()

/-- Its `catch` takes every exception for a drive that does not exist. -/
def TapeDrivesCatalogueState.checkDriveCanBeCreated (driveInfo : DriveInfo) : DriveM Unit := do
  let _ ← getTapeDriveNames
  tryCatch (compareWithRecord driveInfo) (fun _ => pure ())

def Scheduler.checkDriveCanBeCreated (driveInfo : DriveInfo) : DriveM Bool :=
  tryCatch
    (do
      TapeDrivesCatalogueState.checkDriveCanBeCreated driveInfo
      return true)
    (fun e => if e.kind = .driveAlreadyExists then pure false else throw e)

def getDriveStates : DriveM (List TapeDrive) := do
  let driveNames ← getTapeDriveNames
  let drives ← driveNames.mapM getTapeDrive
  return drives.filterMap id

def getDesiredDriveState (driveName : String) : DriveM DesiredDriveState := do
  let driveStates ← getDriveStates
  match driveStates.find? (fun d => d.driveName == driveName) with
  | some d => pure ⟨d.desiredUp, d.desiredForceDown, d.reasonUpDown, d.userComment⟩
  | none => throw ⟨.noSuchDrive, "In Scheduler::getDesiredDriveState(): no such drive"⟩

def setTapeDriveStatus (now : UInt64) (driveInfo : DriveInfo) (desiredState : DesiredDriveState)
    (type : MountType) (status : DriveStatus) (tpConfigLine : TpconfigLine)
    (identity : SecurityIdentity) : TapeDrive :=
  let log : EntryLog :=
    if identity.username.isEmpty then ⟨"NO_USER", driveInfo.host, now⟩
    else ⟨identity.username, identity.host, now⟩
  { driveName := driveInfo.driveName
    host := driveInfo.host
    logicalLibrary := driveInfo.logicalLibrary
    downOrUpStartTime := some now
    mountType := type
    driveStatus := status
    desiredUp := desiredState.up
    desiredForceDown := desiredState.forceDown
    reasonUpDown := desiredState.reason
    userComment := desiredState.comment
    devFileName := some tpConfigLine.devFilename
    rawLibrarySlot := some tpConfigLine.rawLibrarySlot
    creationLog := some log
    lastModificationLog := some log }

def createTapeDriveStatus (ctaVersion : String) (tapeDriveStatus : TapeDrive) : DriveM Unit := do
  let driveNames ← getTapeDriveNames
  if driveNames.contains tapeDriveStatus.driveName then
    deleteTapeDrive tapeDriveStatus.driveName
  createTapeDrive { tapeDriveStatus with ctaVersion := some ctaVersion }

def setDesiredDriveState (drive : String) (desiredState : DesiredDriveState) : DriveM Unit :=
  match desiredState.comment with
  | none => setDesiredTapeDriveState drive desiredState
  | some comment => setDesiredTapeDriveStateComment drive comment

/-! ## The first session -/

inductive StartUp where
  /-- `return Session::MARK_DRIVE_AS_DOWN`, with a fatal state reported. -/
  | markDriveAsDown
  /-- The session goes on. -/
  | continues

structure FirstSession where
  driveInfo : DriveInfo
  configLine : TpconfigLine
  ctaVersion : String
  now : UInt64

/-- The reason the drive is put down with: one that an operator gave is kept. -/
def startupReason (current : DesiredDriveState) : String :=
  match current.reason with
  | none => "[cta-taped] INFO Startup"
  | some reason =>
      if reason.toList.take 11 = "[cta-taped]".toList then "[cta-taped] INFO Startup" else reason

variable (s : FirstSession)

def FirstSession.tapeDriveStatus : TapeDrive :=
  setTapeDriveStatus s.now s.driveInfo {} .noMount .down s.configLine {}

def FirstSession.putDown : DriveM StartUp := do
  let current ← tryCatch (getDesiredDriveState s.driveInfo.driveName) fun e =>
    if e.kind = .noSuchDrive then pure {} else throw e
  createTapeDriveStatus s.ctaVersion s.tapeDriveStatus
  setDesiredDriveState s.driveInfo.driveName { reason := some (startupReason current) }
  setTapedConfiguration
  return .continues

/-- The branch of `DriveHandler::runChild` for `PreviousSession::Initiating`. -/
def FirstSession.run : DriveM StartUp :=
  tryCatch
    (do
      let canBeCreated ← Scheduler.checkDriveCanBeCreated s.driveInfo
      if canBeCreated then s.putDown else return .markDriveAsDown)
    (fun _ => pure .markDriveAsDown)

/-! ## The check never refuses -/

/-- The catalogue has the drive with another logical library or host. -/
def Conflicts (rows : List TapeDrive) (info : DriveInfo) : Prop :=
  ∃ r ∈ rows, r.driveName = info.driveName
    ∧ (r.logicalLibrary ≠ info.logicalLibrary ∨ r.host ≠ info.host)

instance (rows : List TapeDrive) (info : DriveInfo) : Decidable (Conflicts rows info) :=
  inferInstanceAs (Decidable (∃ r ∈ rows, _))

section Calls

variable {α : Type} {f : List TapeDrive → α} {c : DriveCatalogue}

/-- A function that reads fails only with its call. -/
theorem statement_query_ends (name : String) (c : DriveCatalogue) :
    Ends (statement name (query f)) (fun _ _ => True) (fun e _ => e.kind = .exception) c := by
  have hc : Ends (called (query f)) (fun _ _ => True) (fun e _ => e.kind = .exception) c.open := by
    unfold Ends called
    cases c.open.counters with
    | nil => trivial
    | cons fails calls =>
      cases fails with
      | true => rfl
      | false => trivial
  apply (transaction_ends (E := fun e => e.kind = .exception) rfl hc).catching
  intro e c' hk
  exact hk

/-- The one exception that leaves the check is that of the list of names. -/
theorem catalogueState_check_ends (info : DriveInfo) (c : DriveCatalogue) :
    Ends (TapeDrivesCatalogueState.checkDriveCanBeCreated info) (fun _ _ => True)
      (fun e _ => e.kind = .exception) c := by
  apply (statement_query_ends "getTapeDriveNames" c).seq
  intro _ c' _
  -- the comparison may throw, and the `catch` around it takes what it throws
  apply (Ends.anyway (compareWithRecord info) c').catching
  intro _ _ _
  trivial

/-- **The check never refuses**: it answers `true`, or lets an exception through. -/
theorem checkDriveCanBeCreated_ne_false (info : DriveInfo) (c : DriveCatalogue) :
    Ends (Scheduler.checkDriveCanBeCreated info) (fun b _ => b = true) (fun _ _ => True) c := by
  have hc := (catalogueState_check_ends info c).seq (β := Bool) (R := fun b _ => b = true)
    (f := fun _ => pure true) (fun _ _ _ => rfl)
  apply hc.catching
  intro e c' hk
  rw [if_neg (by rw [hk]; decide)]
  trivial

end Calls

/-! ## What becomes of the record -/

def quiet (rows : List TapeDrive) (h : driveStateSchema.Consistent rows) : DriveCatalogue :=
  ⟨rows, h, []⟩

section Quiet

variable {α : Type} {rows : List TapeDrive} {h : driveStateSchema.Consistent rows}

theorem statement_query_quiet (name : String) (f : List TapeDrive → α) :
    statement name (query f) (quiet rows h) = .ok (f rows) (quiet rows h) := by
  exact tryCatch_ok (transaction_returns rfl h)

theorem getTapeDriveNames_quiet :
    getTapeDriveNames (quiet rows h) = .ok (rows.map (·.driveName)) (quiet rows h) :=
  statement_query_quiet _ _

theorem getTapeDrive_quiet (n : String) :
    getTapeDrive n (quiet rows h) = .ok (rows.find? (fun r => r.driveName == n)) (quiet rows h) :=
  statement_query_quiet _ _

theorem check_quiet (info : DriveInfo) :
    Scheduler.checkDriveCanBeCreated info (quiet rows h) = .ok true (quiet rows h) := by
  have hc : Ends (compareWithRecord info) (fun _ c => c = quiet rows h)
      (fun _ c => c = quiet rows h) (quiet rows h) := by
    unfold compareWithRecord Ends
    rw [bind_ok (getTapeDrive_quiet _)]
    cases rows.find? (fun r => r.driveName == info.driveName) with
    | none => rfl
    | some d =>
      dsimp only
      by_cases hd : d.logicalLibrary ≠ info.logicalLibrary ∨ d.host ≠ info.host
      · rw [if_pos hd]
        rfl
      · rw [if_neg hd]
        rfl
  have hca : Ends (tryCatch (compareWithRecord info) (fun _ => pure ()) : DriveM Unit)
      (fun _ c => c = quiet rows h) (fun _ _ => False) (quiet rows h) :=
    hc.catching (fun _ _ he => he)
  obtain ⟨u, c, hu, rfl⟩ := hca.exists_ok
  have hi : TapeDrivesCatalogueState.checkDriveCanBeCreated info (quiet rows h)
      = .ok u (quiet rows h) := (bind_ok getTapeDriveNames_quiet).trans hu
  exact tryCatch_ok (bind_ok hi)

end Quiet

def FirstSession.created : TapeDrive :=
  ({ s.tapeDriveStatus with ctaVersion := some s.ctaVersion } : TapeDrive).sqlValues

/-- The row once the start-up has set the desired state. -/
def FirstSession.registered (reason : String) : TapeDrive :=
  { s.created with desiredUp := false, desiredForceDown := false, reasonUpDown := some reason }

/-! ## A drive record can be taken over -/

/-- A start-up for a record of another host or logical library stops, and the record stays. -/
def Protected (c : DriveCatalogue) : Prop :=
  Conflicts c.tables s.driveInfo →
    (∃ c', Scheduler.checkDriveCanBeCreated s.driveInfo c = .ok false c')
    ∧ ∃ c', s.run c = .ok .markDriveAsDown c'
        ∧ ∀ r ∈ c.tables, r.driveName = s.driveInfo.driveName → r ∈ c'.tables

/-- **Takeovers are refused only where there is nothing to take over.** For every content of the
catalogue, whichever of its calls fail. -/
theorem takeover_refused_iff (c : DriveCatalogue) :
    Protected s c ↔ ¬ Conflicts c.tables s.driveInfo := by
  constructor
  · intro hp hc
    obtain ⟨⟨c', hf⟩, _⟩ := hp hc
    have htr := (checkDriveCanBeCreated_ne_false s.driveInfo c).of_ok hf
    cases htr
  · intro hn hc
    exact absurd hc hn

/-- A drive of the first tape server, with its session and the reason of an operator. -/
def firstServersDrive : TapeDrive :=
  { driveName := "drive0", host := "tpsrv1", logicalLibrary := "lib1", sessionId := some 7,
    mountType := .retrieve, driveStatus := .transferring, desiredUp := true,
    desiredForceDown := false, reasonUpDown := some "in use", currentVid := some "VID001" }

/-- The start-up of a second server that is configured with the same name. -/
def secondServersStart : FirstSession :=
  { driveInfo := ⟨"drive0", "tpsrv2", "lib2"⟩, configLine := ⟨"/dev/nst0", "smc0"⟩,
    ctaVersion := "4", now := 100 }

/-- No call fails, and the record of the second server replaces that of the first. -/
theorem second_server_takes_the_record :
    ∃ h h', Scheduler.checkDriveCanBeCreated secondServersStart.driveInfo (quiet [firstServersDrive] h)
        = .ok true (quiet [firstServersDrive] h)
      ∧ secondServersStart.run (quiet [firstServersDrive] h)
        = .ok .continues (quiet [secondServersStart.registered "in use"] h')
      ∧ ¬ Protected secondServersStart (quiet [firstServersDrive] h) := by
  have h : driveStateSchema.Consistent [firstServersDrive] := by decide
  have hc : Conflicts [firstServersDrive] secondServersStart.driveInfo := by decide
  refine ⟨h, ⟨by decide, trivial⟩, check_quiet _, by rfl, ?_⟩
  intro hp
  obtain ⟨⟨c', hf⟩, _⟩ := hp hc
  cases hf

end TapeArchive.Catalogue.DriveStartup
