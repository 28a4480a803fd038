/-
  **DISK SPACE RESERVATIONS OF SEVERAL DRIVES**
  (`OStoreDB::RetrieveMount::reserveDiskSpace`, `RdbmsCatalogue`).

  A retrieve mount READS the reservations of all the drives, COMPARES them and its own
  request with the free space, which is constant during a run, and then RECORDS its
  reservation. The three are separate steps: other drives run between them.
-/
import TapeArchive.Lib.Keyed
import TapeArchive.Lib.Lists
import TapeArchive.Lib.Machine
import TapeArchive.Lib.Run

namespace TapeArchive.Scheduler.DiskReservations

open Std (TreeMap)
open Lib

/-! ## The catalogue -/

structure DiskSystem where
  (name freeSpaceQueryURL : String)
  targetedFreeSpace : UInt64

/-- A row of `DRIVE_STATE`; `reservedBytes` is a decimal column and does not wrap. -/
structure DriveState where
  driveName : String
  diskSystemName : Option String
  reservedBytes : Nat
  reservationSessionId : Option UInt64

/-- `DiskSpaceReservationRequest`: bytes by the name of the disk system. -/
abbrev DiskSpaceReservationRequest := TreeMap String UInt64

inductive ReserveExn where
  /-- `std::out_of_range`. -/
  | outOfRange (message : String)
  /-- A column value that is no `uint64_t`. -/
  | notAUint64 (driveName : String)
  deriving DecidableEq

/-- The disk systems, and the free space behind a URL (`none`: the query fails). -/
structure DiskSystems where
  diskSystemList : List DiskSystem
  freeSpace : String → Option UInt64

def DiskSystems.at (env : DiskSystems) (name : String) : Except ReserveExn DiskSystem :=
  match env.diskSystemList.find? (fun ds => ds.name == name) with
  | some ds => .ok ds
  | none => .error (.outOfRange "In DiskSystemList::at(): name not found.")

/-- One drive in `RdbmsCatalogue::getDiskSpaceReservations`. -/
def addReservation (ret : TreeMap String UInt64) (drive : DriveState) :
    Except ReserveExn (TreeMap String UInt64) :=
  match drive.diskSystemName with
  | none => .ok ret
  | some name =>
    if drive.reservedBytes < 2 ^ 64 then
      .ok (ret.insert name (ret.getD name 0 + UInt64.ofNat drive.reservedBytes))
    else .error (.notAUint64 drive.driveName)

def getDiskSpaceReservations (drives : List DriveState) :
    Except ReserveExn (TreeMap String UInt64) :=
  drives.foldlM addReservation ∅

/-- The first `UPDATE` when disk system and session match, the second one otherwise. -/
def DriveState.reserve (mountId : UInt64) (name : String) (bytes : UInt64) (row : DriveState) :
    DriveState :=
  if row.diskSystemName = some name ∧ row.reservationSessionId = some mountId then
    { row with reservedBytes := row.reservedBytes + bytes.toNat }
  else
    { row with diskSystemName := some name, reservedBytes := bytes.toNat,
               reservationSessionId := some mountId }

/-- `RdbmsCatalogue::reserveDiskSpace`: only the FIRST disk system of the request is recorded. -/
def reserveDiskSpace (drives : List DriveState) (driveName : String) (mountId : UInt64)
    (request : DiskSpaceReservationRequest) : List DriveState :=
  match request.toList with
  | [] => drives
  | (name, bytes) :: _ =>
      updateKey DriveState.driveName driveName (DriveState.reserve mountId name bytes) drives

/-! ## The comparison -/

variable (env : DiskSystems)

/-- The loop over the previous reservations: those on the physical space of `url`. -/
def addPrevious (url : String) (total : UInt64)
    (previous : String × UInt64) : Except ReserveExn UInt64 :=
  if previous.2 ≠ 0 then do
    let previousDiskSystem ← env.at previous.1
    return if url = previousDiskSystem.freeSpaceQueryURL then total + previous.2 else total
  else .ok total

def previousDrivesReservationTotal (previous : TreeMap String UInt64)
    (url : String) : Except ReserveExn UInt64 :=
  previous.toList.foldlM (addPrevious env url) 0

/-- The comparison for one disk system of the request. -/
def fits (previous : TreeMap String UInt64) (name : String)
    (bytes : UInt64) : Except ReserveExn Bool := do
  let diskSystem ← env.at name
  match env.freeSpace diskSystem.freeSpaceQueryURL with
  | none => return false
  | some freeSpace =>
    let total ← previousDrivesReservationTotal env previous diskSystem.freeSpaceQueryURL
    return !decide (freeSpace < bytes + diskSystem.targetedFreeSpace + total)

/-- The comparisons for all disk systems; the first that does not fit ends the call. -/
def allFit (env : DiskSystems) (previous : TreeMap String UInt64) :
    List (String × UInt64) → Except ReserveExn Bool
  | [] => .ok true
  | (name, bytes) :: rest => do
    if ← fits env previous name bytes then allFit env previous rest else return false

/-! ## Calls and their steps -/

/-- Where a call of `reserveDiskSpace` is. -/
inductive Phase where
  | started
  /-- The reservations of the drives have been read. -/
  | read (previous : TreeMap String UInt64)
  /-- The comparison was passed. -/
  | granted (previous : TreeMap String UInt64)
  /-- The call returned. -/
  | returned (result : Bool)
  /-- The call ended with an exception. -/
  | threw (exn : ReserveExn)

/-- The reservations that a granted call was compared with. -/
def Phase.granted? : Phase → Option (TreeMap String UInt64)
  | .granted previous => some previous
  | _ => none

/-- A call of `OStoreDB::RetrieveMount::reserveDiskSpace`. -/
structure Call where
  drive : String
  mountId : UInt64
  request : DiskSpaceReservationRequest
  phase : Phase

structure World where
  drives : List DriveState
  calls : List Call

inductive Event where
  | call (drive : String) (mountId : UInt64) (request : DiskSpaceReservationRequest)
  | read (call : Nat)
  | compare (call : Nat)
  | record (call : Nat)

namespace World

def setPhase (w : World) (i : Nat) (phase : Phase) : World :=
  { w with calls := w.calls.modify i (fun c => { c with phase := phase }) }

/-- `getDiskSpaceReservations` of a call. -/
def read (w : World) (i : Nat) : World :=
  match w.calls[i]? with
  | some ⟨_, _, _, .started⟩ =>
    match getDiskSpaceReservations w.drives with
    | .ok previous => w.setPhase i (.read previous)
    | .error e => w.setPhase i (.threw e)
  | _ => w

def compare (env : DiskSystems) (w : World) (i : Nat) : World :=
  match w.calls[i]? with
  | some ⟨_, _, request, .read previous⟩ =>
    match allFit env previous request.toList with
    | .ok true => w.setPhase i (.granted previous)
    | .ok false => w.setPhase i (.returned false)
    | .error e => w.setPhase i (.threw e)
  | _ => w

/-- The reservation of a call is recorded, and the call returns. -/
def record (w : World) (i : Nat) : World :=
  match w.calls[i]? with
  | some ⟨drive, mountId, request, .granted _⟩ =>
    { w.setPhase i (.returned true) with
      drives := reserveDiskSpace w.drives drive mountId request }
  | _ => w

def step (env : DiskSystems) (w : World) : Event → World
  | .call drive mountId request => { w with calls := w.calls ++ [⟨drive, mountId, request, .started⟩] }
  | .read i => w.read i
  | .compare i => w.compare env i
  | .record i => w.record i

end World

/-! ## What is to be shown -/

/-- The reserved bytes of a drive that count for a URL. -/
def reservedFor (url : String) (drive : DriveState) : Nat :=
  match drive.diskSystemName with
  | none => 0
  | some name =>
    match env.at name with
    | .error _ => 0
    | .ok ds => if url = ds.freeSpaceQueryURL then drive.reservedBytes else 0

/-- The exact sum of the recorded reservations for a URL. -/
def reserved (drives : List DriveState) (url : String) : Nat :=
  (drives.map (reservedFor env url)).sum

/-- The largest targeted free space of the disk systems with a URL. -/
def largestTarget (url : String) : Nat :=
  ((env.diskSystemList.filter (fun ds => ds.freeSpaceQueryURL == url)).map
    (fun ds => ds.targetedFreeSpace.toNat)).foldr max 0

/-- The recorded reservations and the largest targeted free space fit into the free space. -/
def Safe (w : World) : Prop :=
  ∀ url free, env.freeSpace url = some free →
    reserved env w.drives url + largestTarget env url ≤ free.toNat

/-- The URL has no larger targeted free space, and the sum does not overflow. -/
def Exact (drives : List DriveState) (request : DiskSpaceReservationRequest) : Prop :=
  ∀ entry ∈ request.toList.head?, ∀ ds ∈ (env.at entry.1).toOption,
    largestTarget env ds.freeSpaceQueryURL ≤ ds.targetedFreeSpace.toNat
      ∧ entry.2.toNat + ds.targetedFreeSpace.toNat + reserved env drives ds.freeSpaceQueryURL
          < 2 ^ 64

/-- A reservation is recorded while what it was compared with still holds. -/
def Undisturbed (w : World) : Event → Prop
  | .record i => ∀ c ∈ w.calls[i]?, ∀ previous ∈ c.phase.granted?,
      (getDiskSpaceReservations w.drives).map (·.toList) = .ok previous.toList
        ∧ Exact env w.drives c.request
  | _ => True

instance (env : DiskSystems) (drives : List DriveState) (request : DiskSpaceReservationRequest) :
    Decidable (Exact env drives request) :=
  inferInstanceAs (Decidable (∀ entry ∈ request.toList.head?,
    ∀ ds ∈ (env.at entry.1).toOption, _ ∧ _))

instance (env : DiskSystems) (w : World) : (e : Event) → Decidable (Undisturbed env w e)
  | .record i => inferInstanceAs (Decidable (∀ c ∈ w.calls[i]?,
      ∀ previous ∈ c.phase.granted?, _ ∧ Exact env w.drives c.request))
  | .call _ _ _ | .read _ | .compare _ => isTrue trivial

/-! ## The comparison, exactly -/

section Comparison

variable {env : DiskSystems} {url : String}

/-- What an entry of the map of reservations counts for a URL. -/
def weight (env : DiskSystems) (url : String) (name : String) (bytes : UInt64) : UInt64 :=
  match env.at name with
  | .error _ => 0
  | .ok ds => if url = ds.freeSpaceQueryURL then bytes else 0

theorem weight_zero (name : String) : weight env url name 0 = 0 := by
  unfold weight
  split
  · rfl
  · split <;> rfl

theorem weight_add (name : String) (a b : UInt64) :
    weight env url name (a + b) = weight env url name a + weight env url name b := by
  unfold weight
  split
  · rfl
  · split <;> rfl

variable {drive : DriveState}

/-- The weight of a drive's reservation, as the map holds it. -/
theorem weight_reservedBytes {name : String} (hn : drive.diskSystemName = some name) :
    weight env url name (UInt64.ofNat drive.reservedBytes)
      = UInt64.ofNat (reservedFor env url drive) := by
  unfold weight reservedFor
  rw [hn]
  dsimp only
  split
  · rfl
  · split <;> rfl

theorem addPrevious_ok {total total' : UInt64} {entry : String × UInt64}
    (h : addPrevious env url total entry = .ok total') :
    total' = total + weight env url entry.1 entry.2 := by
  unfold addPrevious at h
  split at h
  · obtain ⟨ds, hds, h⟩ := bind_eq_ok.mp h
    rw [← Except.ok.inj h]
    unfold weight
    rw [hds]
    dsimp only
    split
    · rfl
    · exact (UInt64.add_zero total).symm
  · next hz =>
    rw [← Except.ok.inj h, not_not.mp hz, weight_zero, UInt64.add_zero]

theorem foldlM_addPrevious_ok (entries : List (String × UInt64)) :
    ∀ {total total' : UInt64}, entries.foldlM (addPrevious env url) total = .ok total' →
      total' = total + (entries.map (fun p => weight env url p.1 p.2)).sum := by
  induction entries with
  | nil =>
    intro total total' h
    rw [← Except.ok.inj h]
    exact (UInt64.add_zero total).symm
  | cons entry entries ih =>
    intro total total' h
    obtain ⟨total1, h1, h⟩ := bind_eq_ok.mp h
    rw [ih h, addPrevious_ok h1, List.map_cons, List.sum_cons, UInt64.add_assoc]

theorem addReservation_ok {ret ret' : TreeMap String UInt64}
    (h : addReservation ret drive = .ok ret') :
    (ret'.toList.map (fun p => weight env url p.1 p.2)).sum
      = (ret.toList.map (fun p => weight env url p.1 p.2)).sum
        + UInt64.ofNat (reservedFor env url drive) := by
  unfold addReservation at h
  split at h
  · next hn =>
    have hz : reservedFor env url drive = 0 := by
      unfold reservedFor
      rw [hn]
    rw [← Except.ok.inj h, hz]
    exact (UInt64.add_zero _).symm
  · next name hna =>
    split at h
    · rw [← Except.ok.inj h, ← weight_reservedBytes hna]
      exact sum_toList_add weight_zero weight_add ret name _
    · cases h

theorem foldlM_addReservation_ok (drives : List DriveState) :
    ∀ {ret ret' : TreeMap String UInt64}, drives.foldlM addReservation ret = .ok ret' →
      (ret'.toList.map (fun p => weight env url p.1 p.2)).sum
        = (ret.toList.map (fun p => weight env url p.1 p.2)).sum
          + UInt64.ofNat (reserved env drives url) := by
  induction drives with
  | nil =>
    intro ret ret' h
    rw [← Except.ok.inj h]
    exact (UInt64.add_zero _).symm
  | cons drive drives ih =>
    intro ret ret' h
    obtain ⟨ret1, h1, h⟩ := bind_eq_ok.mp h
    rw [ih h, addReservation_ok h1]
    unfold reserved
    rw [List.map_cons, List.sum_cons, UInt64.ofNat_add, UInt64.add_assoc]

/-- The total of the comparison is the exact sum, as a 64-bit word. -/
theorem total_eq {drives : List DriveState} {previous now : TreeMap String UInt64}
    {total : UInt64} (hn : getDiskSpaceReservations drives = .ok now)
    (hs : now.toList = previous.toList)
    (htl : previousDrivesReservationTotal env previous url = .ok total) :
    total = UInt64.ofNat (reserved env drives url) := by
  have h1 := foldlM_addPrevious_ok _ htl
  have he : (∅ : TreeMap String UInt64).toList = [] := rfl
  rw [← hs, foldlM_addReservation_ok drives hn, he] at h1
  simpa using h1

end Comparison

/-! ## A recorded reservation -/

section Recording

variable {env : DiskSystems}

def addedFor (env : DiskSystems) (url : String) (name : String) (bytes : UInt64) : Nat :=
  match env.at name with
  | .error _ => 0
  | .ok ds => if url = ds.freeSpaceQueryURL then bytes.toNat else 0

theorem reservedFor_reserve_le (url : String) (mountId : UInt64) (name : String)
    (bytes : UInt64) (row : DriveState) :
    reservedFor env url (row.reserve mountId name bytes)
      ≤ reservedFor env url row + addedFor env url name bytes := by
  unfold DriveState.reserve
  split
  · next hm =>
    unfold reservedFor addedFor
    rw [hm.1]
    dsimp only
    split
    · exact Nat.le_refl _
    · split <;> omega
  · -- what the drive had reserved before is dropped
    unfold reservedFor addedFor
    dsimp only
    split
    · exact Nat.zero_le _
    split
    · exact Nat.le_add_left _ _
    · exact Nat.zero_le _

variable {drives : List DriveState} {request : DiskSpaceReservationRequest} {name : String}
  {bytes : UInt64} {rest : List (String × UInt64)} {driveName : String} {mountId : UInt64}

theorem reserved_reserveDiskSpace_le (hr : request.toList = (name, bytes) :: rest) (url : String) :
    reserved env (reserveDiskSpace drives driveName mountId request) url
      ≤ reserved env drives url + addedFor env url name bytes := by
  unfold reserveDiskSpace reserved
  rw [hr]
  exact sum_map_updateKey_le (reservedFor_reserve_le url mountId name bytes) drives

variable {previous : TreeMap String UInt64}

theorem fits_of_allFit (h : allFit env previous ((name, bytes) :: rest) = .ok true) :
    fits env previous name bytes = .ok true := by
  obtain ⟨b, hb, h⟩ := bind_eq_ok.mp h
  cases b with
  | true => exact hb
  | false => cases h

/-- A comparison that was passed. -/
theorem fits_ok (h : fits env previous name bytes = .ok true) :
    ∃ ds free total, env.at name = .ok ds ∧ env.freeSpace ds.freeSpaceQueryURL = some free
      ∧ previousDrivesReservationTotal env previous ds.freeSpaceQueryURL = .ok total
      ∧ bytes + ds.targetedFreeSpace + total ≤ free := by
  obtain ⟨ds, hds, h⟩ := bind_eq_ok.mp h
  split at h
  · cases h
  next free hf =>
  obtain ⟨total, htl, h⟩ := bind_eq_ok.mp h
  have hle := Except.ok.inj h
  refine ⟨ds, free, total, hds, hf, htl, ?_⟩
  simpa using hle

/-- A granted reservation that is recorded on what it was compared with. -/
theorem safe_record (hs : ∀ url free, env.freeSpace url = some free →
      reserved env drives url + largestTarget env url ≤ free.toNat)
    (hfi : allFit env previous request.toList = .ok true)
    (hc : (getDiskSpaceReservations drives).map (·.toList) = .ok previous.toList)
    (he : Exact env drives request) (url : String) (free : UInt64)
    (hf : env.freeSpace url = some free) :
    reserved env (reserveDiskSpace drives driveName mountId request) url + largestTarget env url
      ≤ free.toNat := by
  cases hre : request.toList with
  | nil =>
    unfold reserveDiskSpace
    rw [hre]
    exact hs url free hf
  | cons entry rest =>
    obtain ⟨name, bytes⟩ := entry
    rw [hre] at hfi
    obtain ⟨ds, free', total, hds, hf', htl, hle⟩ := fits_ok (fits_of_allFit hfi)
    have ha : reserved env (reserveDiskSpace drives driveName mountId request) url
        ≤ reserved env drives url + addedFor env url name bytes :=
      reserved_reserveDiskSpace_le hre url
    by_cases hu : url = ds.freeSpaceQueryURL
    · -- the URL of the recorded disk system: the comparison was exact
      subst hu
      obtain rfl := Option.some.inj (hf.symm.trans hf')
      obtain ⟨hl, hr⟩ := he (name, bytes) (by rw [hre]; rfl) ds (by rw [hds]; rfl)
      obtain ⟨now, hn, hsa⟩ : ∃ now, getDiskSpaceReservations drives = .ok now
          ∧ now.toList = previous.toList := by
        cases hg : getDiskSpaceReservations drives with
        | error e =>
          rw [hg] at hc
          cases hc
        | ok now =>
          rw [hg] at hc
          exact ⟨now, rfl, Except.ok.inj hc⟩
      have htt := total_eq hn hsa htl
      have hb : addedFor env ds.freeSpaceQueryURL name bytes = bytes.toNat := by
        unfold addedFor
        rw [hds]
        exact if_pos rfl
      dsimp only at hr
      have hl' := UInt64.le_iff_toNat_le.mp hle
      rw [htt, UInt64.toNat_add, UInt64.toNat_add,
        UInt64.toNat_ofNat_of_lt' (by show _ < 2 ^ 64; omega)] at hl'
      omega
    · have hb : addedFor env url name bytes = 0 := by
        unfold addedFor
        rw [hds]
        exact if_neg hu
      have := hs url free hf
      omega

end Recording

/-! ## Whole runs -/

section Runs

variable {env : DiskSystems}

/-- The reservations fit, and a granted call passed its comparison. -/
structure Inv (env : DiskSystems) (w : World) : Prop where
  safe : Safe env w
  granted : ∀ c ∈ w.calls, ∀ previous ∈ c.phase.granted?,
    allFit env previous c.request.toList = .ok true

variable {w : World}

theorem Inv.setPhase (h : Inv env w) {i : Nat} {c : Call} (hc : w.calls[i]? = some c)
    {phase : Phase} (hph : ∀ previous ∈ phase.granted?,
      allFit env previous c.request.toList = .ok true) : Inv env (w.setPhase i phase) where
  safe := h.safe
  granted := by
    intro c' hc' previous hp
    rcases mem_modify hc' with hc' | ⟨c1, hc1, rfl⟩
    · exact h.granted c' hc' previous hp
    · obtain rfl := Option.some.inj (hc.symm.trans hc1)
      exact hph previous hp

theorem Inv.read (h : Inv env w) (i : Nat) : Inv env (w.read i) := by
  unfold World.read
  split
  · next hc =>
    split
    · exact h.setPhase hc (fun _ hp => by cases hp)
    · exact h.setPhase hc (fun _ hp => by cases hp)
  · exact h

theorem Inv.compare (h : Inv env w) (i : Nat) : Inv env (w.compare env i) := by
  unfold World.compare
  split
  · next hc =>
    split
    · next hf =>
      refine h.setPhase hc ?_
      intro previous hp
      rw [← Option.some.inj hp]
      exact hf
    · exact h.setPhase hc (fun _ hp => by cases hp)
    · exact h.setPhase hc (fun _ hp => by cases hp)
  · exact h

theorem Inv.record (h : Inv env w) {i : Nat} (hs : Undisturbed env w (.record i)) :
    Inv env (w.record i) := by
  unfold World.record
  split
  · next drive mountId request previous hc =>
    obtain ⟨hcu, he⟩ := hs _ hc previous rfl
    have hfi := h.granted _ (List.mem_iff_getElem?.mpr ⟨i, hc⟩) previous rfl
    have hse : Inv env (w.setPhase i (.returned true)) := h.setPhase hc (fun _ hp => by cases hp)
    exact ⟨fun url free hf => safe_record h.safe hfi hcu he url free hf, hse.granted⟩
  · exact h

/-- **One step.** -/
theorem Inv.step (w : World) (e : Event) (h : Inv env w) (hs : Undisturbed env w e) :
    Inv env (w.step env e) := by
  cases e with
  | call drive mountId request =>
    refine ⟨h.safe, ?_⟩
    intro c hc previous hp
    rcases List.mem_append.mp hc with hc | hc
    · exact h.granted c hc previous hp
    · rw [List.mem_singleton.mp hc] at hp
      cases hp
  | read i => exact h.read i
  | compare i => exact h.compare i
  | record i => exact h.record hs

/-- **The recorded reservations fit** after every run whose reservations are all recorded
undisturbed. -/
theorem reservations_fit (env : DiskSystems) (w₀ : World) (events : List Event)
    (hcalls : w₀.calls = []) (hsafe : Safe env w₀)
    (hundisturbed : Along (World.step env) (Undisturbed env) w₀ events) :
    Safe env (run (World.step env) w₀ events) := by
  have h0 : Inv env w₀ := ⟨hsafe, by simp [hcalls]⟩
  exact (run_invariant Inv.step h0 hundisturbed).safe

end Runs

def oneDiskSystem : DiskSystems where
  diskSystemList := [⟨"eos", "url", 10⟩]
  freeSpace url := if url = "url" then some 100 else none

def twoDrives : World where
  drives := [⟨"drive0", none, 0, none⟩, ⟨"drive1", none, 0, none⟩]
  calls := []

/-- Each drive calls for `bytes`. -/
def twoCalls (bytes : UInt64) : List Event :=
  [.call "drive0" 1 (TreeMap.ofList [("eos", bytes)]),
   .call "drive1" 2 (TreeMap.ofList [("eos", bytes)])]

/-- The second drive reads after the first has recorded. -/
def inTurn (bytes : UInt64) : List Event :=
  twoCalls bytes ++ [.read 0, .compare 0, .record 0, .read 1, .compare 1, .record 1]

def atOnce (bytes : UInt64) : List Event :=
  twoCalls bytes ++ [.read 0, .read 1, .compare 0, .compare 1, .record 0, .record 1]

theorem twoDrives_safe : Safe oneDiskSystem twoDrives := by
  intro url free hf
  unfold oneDiskSystem at hf
  dsimp only at hf
  split at hf
  · next hu =>
    subst hu
    rw [← Option.some.inj hf]
    decide
  · cases hf

/-- In turn, both drives get their 40 bytes. -/
theorem reservations_in_turn_fit :
    reserved oneDiskSystem (run (World.step oneDiskSystem) twoDrives (inTurn 40)).drives "url" = 80
      ∧ Safe oneDiskSystem (run (World.step oneDiskSystem) twoDrives (inTurn 40)) := by
  refine ⟨by decide +kernel, ?_⟩
  exact reservations_fit oneDiskSystem twoDrives (inTurn 40) rfl twoDrives_safe (by decide +kernel)

theorem two_drives_reserve_the_same_space : Safe oneDiskSystem twoDrives
      ∧ reserved oneDiskSystem (run (World.step oneDiskSystem) twoDrives (atOnce 60)).drives "url"
          = 120
      ∧ ¬ Safe oneDiskSystem (run (World.step oneDiskSystem) twoDrives (atOnce 60)) := by
  have hsu : reserved oneDiskSystem
      (run (World.step oneDiskSystem) twoDrives (atOnce 60)).drives "url" = 120 := by
    decide +kernel
  refine ⟨twoDrives_safe, hsu, fun hs => ?_⟩
  have hle := hs "url" 100 rfl
  exact absurd hle (by decide)

end TapeArchive.Scheduler.DiskReservations
