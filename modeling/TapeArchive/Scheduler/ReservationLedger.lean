/-
  **WHAT THE SESSIONS OF THE DRIVES HAVE RESERVED, AND WHAT THE CATALOGUE KNOWS OF IT**
  (`RdbmsCatalogue::reserveDiskSpace`, `releaseDiskSpace`, `getDiskSpaceReservations`).

  The catalogue keeps ONE record per drive. A reservation that does not match the record
  replaces it; a release that does not match it does nothing. The ledger beside it is the
  bookkeeping of the sessions.
-/
import TapeArchive.Scheduler.DiskReservations

namespace TapeArchive.Scheduler.ReservationLedger

open Std (TreeMap)
open Lib List
open Scheduler.DiskReservations

/-! ## Releasing -/

/-- What `RdbmsCatalogue::releaseDiskSpace` does to the row of the drive. -/
def releaseRow (mountId : UInt64) (name : String) (bytes : UInt64) (row : DriveState) :
    DriveState :=
  if row.diskSystemName = some name ∧ row.reservationSessionId = some mountId then
    { row with
      reservedBytes := if bytes.toNat < row.reservedBytes then row.reservedBytes - bytes.toNat else 0 }
  else row

/-- `RdbmsCatalogue::releaseDiskSpace`: only the FIRST disk system of the request is released. -/
def releaseDiskSpace (drives : List DriveState) (driveName : String) (mountId : UInt64)
    (request : DiskSpaceReservationRequest) : List DriveState :=
  match request.toList with
  | [] => drives
  | (name, bytes) :: _ =>
      updateKey DriveState.driveName driveName (releaseRow mountId name bytes) drives

/-- The bytes that are recorded for a disk system. -/
def reservedOn (drives : List DriveState) (name : String) : Nat :=
  (drives.map (fun row => if row.diskSystemName = some name then row.reservedBytes else 0)).sum

/-! ## The ledger -/

/-- The rows of `DRIVE_STATE`, and what their sessions know. -/
structure Ledger where
  drives : List DriveState
  /-- The current session of a drive. -/
  current : String → Option UInt64
  /-- What the current session of a drive has reserved minus released, by disk system. -/
  balance : String → String → Nat

def Ledger.start (drives : List DriveState) : Ledger := ⟨drives, fun _ => none, fun _ _ => 0⟩

inductive Event where
  | startSession (driveName : String) (mountId : UInt64)
  | reserve (driveName : String) (mountId : UInt64) (request : DiskSpaceReservationRequest)
  | release (driveName : String) (mountId : UInt64) (request : DiskSpaceReservationRequest)

def requested (request : DiskSpaceReservationRequest) (name : String) : Nat :=
  (request.getD name 0).toNat

def step (l : Ledger) : Event → Ledger
  | .startSession d mountId =>
      ⟨l.drives, Function.update l.current d (some mountId), Function.update l.balance d (fun _ => 0)⟩
  | .reserve d mountId request =>
      ⟨reserveDiskSpace l.drives d mountId request, l.current,
        if l.current d = some mountId then
          Function.update l.balance d (fun name => l.balance d name + requested request name)
        else l.balance⟩
  | .release d mountId request =>
      ⟨releaseDiskSpace l.drives d mountId request, l.current,
        if l.current d = some mountId then
          Function.update l.balance d (fun name => l.balance d name - requested request name)
        else l.balance⟩

/-- The current session does not release more than it has reserved. -/
def WithinLimits (l : Ledger) : Event → Prop
  | .release d mountId request =>
      l.current d = some mountId → ∀ p ∈ request.toList, p.2.toNat ≤ l.balance d p.1
  | _ => True

/-- The call is made with the ID of a session that is not the current one. -/
def IsOld (l : Ledger) : Event → Prop
  | .startSession _ _ => False
  | .reserve d mountId _ | .release d mountId _ => l.current d ≠ some mountId

/-- By the current session, for the disk system in its record, with a sum that fits. -/
def SafeReservation (l : Ledger) (d : String) (mountId : UInt64) : List (String × UInt64) → Prop
  | [] => True
  | [(name, bytes)] =>
      l.current d = some mountId
        ∧ (∀ row ∈ l.drives, row.driveName = d → row.reservationSessionId = some mountId →
            row.diskSystemName = some name ∨ row.reservedBytes = 0)
        ∧ reservedOn l.drives name + bytes.toNat < 2 ^ 64
  | _ :: _ :: _ => False

/-- A reservation is safe, and a release of an older session does not match the record. -/
def Safe (l : Ledger) : Event → Prop
  | .startSession _ _ => True
  | .reserve d mountId request => SafeReservation l d mountId request.toList
  | .release d mountId request =>
      l.current d = some mountId ∨ ∀ row ∈ l.drives, row.driveName = d →
        ∀ p ∈ request.toList.head?,
          ¬ (row.diskSystemName = some p.1 ∧ row.reservationSessionId = some mountId)

instance (l : Ledger) (e : Event) : Decidable (WithinLimits l e) :=
  match e with
  | .startSession _ _ => isTrue trivial
  | .reserve _ _ _ => isTrue trivial
  | .release d mountId request => inferInstanceAs (Decidable
      (l.current d = some mountId → ∀ p ∈ request.toList, p.2.toNat ≤ l.balance d p.1))

instance (l : Ledger) (d : String) (mountId : UInt64) :
    (entries : List (String × UInt64)) → Decidable (SafeReservation l d mountId entries)
  | [] => isTrue trivial
  | [_] => inferInstanceAs (Decidable (_ ∧ _ ∧ _))
  | _ :: _ :: _ => isFalse id

instance (l : Ledger) (e : Event) : Decidable (Safe l e) :=
  match e with
  | .startSession _ _ => isTrue trivial
  | .reserve d mountId request =>
      inferInstanceAs (Decidable (SafeReservation l d mountId request.toList))
  | .release d mountId request => inferInstanceAs (Decidable
      (l.current d = some mountId ∨ ∀ row ∈ l.drives, row.driveName = d →
        ∀ p ∈ request.toList.head?,
          ¬ (row.diskSystemName = some p.1 ∧ row.reservationSessionId = some mountId)))

/-! ## Reading the reservations -/

theorem addReservation_getD {ret : TreeMap String UInt64} {row : DriveState}
    (h : row.diskSystemName ≠ none → row.reservedBytes < 2 ^ 64) :
    ∃ ret', addReservation ret row = .ok ret' ∧ ∀ name, ret'.getD name 0 = ret.getD name 0
      + UInt64.ofNat (if row.diskSystemName = some name then row.reservedBytes else 0) := by
  unfold addReservation
  cases hs : row.diskSystemName with
  | none =>
    refine ⟨ret, rfl, ?_⟩
    intro name
    exact (UInt64.add_zero _).symm
  | some system =>
    have hf : row.reservedBytes < 2 ^ 64 := h (by
      rw [hs]
      exact Option.some_ne_none _)
    dsimp only
    rw [if_pos hf]
    refine ⟨_, rfl, ?_⟩
    intro name
    rw [TreeMap.getD_insert]
    by_cases hn : system = name
    · rw [if_pos (Std.compare_eq_iff_eq.mpr hn), if_pos (congrArg some hn), hn]
    rw [if_neg (fun h => hn (Std.compare_eq_iff_eq.mp h)), if_neg (fun h => hn (Option.some.inj h))]
    exact (UInt64.add_zero _).symm

/-- When every recorded number of bytes can be read, the map has the sums, as 64-bit words. -/
theorem foldlM_addReservation_getD {drives : List DriveState}
    (h : ∀ row ∈ drives, row.diskSystemName ≠ none → row.reservedBytes < 2 ^ 64) :
    ∀ ret : TreeMap String UInt64, ∃ ret', drives.foldlM addReservation ret = .ok ret'
      ∧ ∀ name, ret'.getD name 0 = ret.getD name 0 + UInt64.ofNat (reservedOn drives name) := by
  induction drives with
  | nil =>
    intro ret
    refine ⟨ret, rfl, ?_⟩
    intro name
    exact (UInt64.add_zero _).symm
  | cons row drives ih =>
    intro ret
    obtain ⟨ret1, h1, hg1⟩ := @addReservation_getD ret row (h row mem_cons_self)
    obtain ⟨ret', h', hg'⟩ := ih (fun r hr => h r (.tail _ hr)) ret1
    refine ⟨ret', ?_, ?_⟩
    · rw [foldlM_cons, h1]
      exact h'
    intro name
    unfold reservedOn at hg' ⊢
    rw [hg', hg1, map_cons, sum_cons, UInt64.ofNat_add, UInt64.add_assoc]

variable {name : String}

theorem reservedBytes_le_reservedOn {drives : List DriveState} {row : DriveState}
    (hr : row ∈ drives) (hn : row.diskSystemName = some name) :
    row.reservedBytes ≤ reservedOn drives name := by
  have hle := single_le_sum (fun _ _ => Nat.zero_le _)
    (if row.diskSystemName = some name then row.reservedBytes else 0)
    (mem_map_of_mem (f := fun row : DriveState =>
      if row.diskSystemName = some name then row.reservedBytes else 0) hr)
  rw [if_pos hn] at hle
  exact hle

/-- **`getDiskSpaceReservations`** gives the recorded sums, when they fit. -/
theorem getDiskSpaceReservations_eq {drives : List DriveState}
    (h : ∀ name, reservedOn drives name < 2 ^ 64) :
    ∃ map, getDiskSpaceReservations drives = .ok map
      ∧ ∀ name, (map.getD name 0).toNat = reservedOn drives name := by
  have hr : ∀ row ∈ drives, row.diskSystemName ≠ none → row.reservedBytes < 2 ^ 64 := by
    intro row hro hne
    obtain ⟨name, hn⟩ := Option.ne_none_iff_exists'.mp hne
    exact Nat.lt_of_le_of_lt (reservedBytes_le_reservedOn hro hn) (h name)
  obtain ⟨map, hm, hg⟩ := foldlM_addReservation_getD hr ∅
  refine ⟨map, hm, ?_⟩
  intro name
  rw [hg, TreeMap.getD_emptyc, UInt64.zero_add, UInt64.toNat_ofNat']
  exact Nat.mod_eq_of_lt (h name)

/-! ## The record of a drive covers its ledger -/

/-- What the current session of the drive has on a disk system is in the record. -/
def RowCovers (current : Option UInt64) (balance : String → Nat) (row : DriveState) : Prop :=
  ∀ name, 0 < balance name → row.diskSystemName = some name
    ∧ row.reservationSessionId = current ∧ balance name ≤ row.reservedBytes

/-- One record per drive, each covers the ledger of its drive, and the sums can be read. -/
structure Covered (l : Ledger) : Prop where
  names : (l.drives.map DriveState.driveName).Nodup
  covers : ∀ row ∈ l.drives, RowCovers (l.current row.driveName) (l.balance row.driveName) row
  fits : ∀ name, reservedOn l.drives name < 2 ^ 64

section Rows

variable {mountId bytes : UInt64} {name : String} {row : DriveState} {balance : String → Nat}

theorem RowCovers.empty (current : Option UInt64) (row : DriveState) :
    RowCovers current (fun _ => 0) row := fun _ h => absurd h (Nat.lt_irrefl 0)

/-- A reservation by the current session on the disk system of the record, or on any when the
record has nothing of the session. -/
theorem RowCovers.reserve (h : RowCovers (some mountId) balance row)
    (hsa : row.reservationSessionId = some mountId →
      row.diskSystemName = some name ∨ row.reservedBytes = 0) :
    RowCovers (some mountId)
      (fun n => balance n + if n = name then bytes.toNat else 0) (row.reserve mountId name bytes) := by
  intro n hpos
  beta_reduce at hpos ⊢
  unfold DriveState.reserve
  split
  · next hm =>
    -- the record is the one of `name`, so nothing else is on the ledger
    have ho : n ≠ name → balance n = 0 := by
      intro hne
      by_contra hb
      have hs := (h n (Nat.pos_of_ne_zero hb)).1
      rw [hm.1] at hs
      exact hne (Option.some.inj hs).symm
    by_cases hn : n = name
    · subst hn
      refine ⟨hm.1, hm.2, ?_⟩
      rw [if_pos rfl]
      by_cases hb : balance n = 0
      · dsimp only
        omega
      have hle := (h n (Nat.pos_of_ne_zero hb)).2.2
      dsimp only
      omega
    · rw [if_neg hn, ho hn] at hpos
      exact absurd hpos (Nat.lt_irrefl 0)
  · next hm =>
    -- the record is replaced, and nothing was on the ledger
    have hno : ∀ m, balance m = 0 := by
      intro m
      by_contra hb
      obtain ⟨hs, hse, hle⟩ := h m (Nat.pos_of_ne_zero hb)
      obtain hna | hz := hsa hse
      · exact hm ⟨hna, hse⟩
      · rw [hz] at hle
        omega
    by_cases hn : n = name
    · subst hn
      refine ⟨rfl, rfl, ?_⟩
      rw [if_pos rfl, hno n, Nat.zero_add]
    · rw [if_neg hn, hno n] at hpos
      exact absurd hpos (Nat.lt_irrefl 0)

/-- A release by the current session. -/
theorem RowCovers.release (h : RowCovers (some mountId) balance row) {released : String → Nat}
    (hr : released name = bytes.toNat) :
    RowCovers (some mountId) (fun n => balance n - released n) (releaseRow mountId name bytes row) := by
  intro n hpos
  beta_reduce at hpos ⊢
  have hb : 0 < balance n := by omega
  obtain ⟨hs, hse, hle⟩ := h n hb
  unfold releaseRow
  split
  · next hn =>
    obtain rfl : n = name := Option.some.inj (hs.symm.trans hn.1)
    refine ⟨hs, hse, ?_⟩
    have hlt : bytes.toNat < row.reservedBytes := by omega
    dsimp only
    rw [if_pos hlt]
    omega
  · exact ⟨hs, hse, by omega⟩

theorem releaseRow_le (n : String) :
    (if (releaseRow mountId name bytes row).diskSystemName = some n then
        (releaseRow mountId name bytes row).reservedBytes else 0)
      ≤ (if row.diskSystemName = some n then row.reservedBytes else 0) + 0 := by
  unfold releaseRow
  split
  · dsimp only
    split_ifs <;> omega
  · exact Nat.le_refl _

theorem reserveRow_le (n : String) :
    (if (row.reserve mountId name bytes).diskSystemName = some n then
        (row.reserve mountId name bytes).reservedBytes else 0)
      ≤ (if row.diskSystemName = some n then row.reservedBytes else 0)
        + if n = name then bytes.toNat else 0 := by
  unfold DriveState.reserve
  split
  · next hm =>
    rw [hm.1]
    by_cases hn : n = name
    · subst hn
      rw [if_pos rfl, if_pos rfl, if_pos rfl]
    · rw [if_neg (fun h => hn (Option.some.inj h).symm)]
      exact Nat.zero_le _
  · dsimp only
    by_cases hn : n = name
    · subst hn
      rw [if_pos rfl, if_pos rfl]
      exact Nat.le_add_left _ _
    · rw [if_neg (fun h => hn (Option.some.inj h).symm)]
      exact Nat.zero_le _

theorem driveName_reserve : (row.reserve mountId name bytes).driveName = row.driveName := by
  unfold DriveState.reserve
  split_ifs <;> rfl

theorem driveName_releaseRow : (releaseRow mountId name bytes row).driveName = row.driveName := by
  unfold releaseRow
  split_ifs <;> rfl

end Rows

/-! ## Calls -/

variable {f : DriveState → DriveState}

theorem updateKey_eq_self {d : String} :
    ∀ {drives : List DriveState}, (∀ row ∈ drives, row.driveName = d → f row = row) →
      updateKey DriveState.driveName d f drives = drives := by
  intro drives
  induction drives with
  | nil => exact fun _ => rfl
  | cons row drives ih =>
    intro h
    unfold updateKey
    by_cases hk : row.driveName = d
    · rw [if_pos (beq_iff_eq.mpr hk), h row mem_cons_self hk]
    · rw [if_neg (fun heq => hk (beq_iff_eq.mp heq)), ih (fun r hr => h r (.tail _ hr))]

theorem releaseDiskSpace_eq_self {drives : List DriveState} {d : String} {mountId : UInt64}
    {request : DiskSpaceReservationRequest}
    (h : ∀ row ∈ drives, row.driveName = d → ∀ p ∈ request.toList.head?,
      ¬ (row.diskSystemName = some p.1 ∧ row.reservationSessionId = some mountId)) :
    releaseDiskSpace drives d mountId request = drives := by
  unfold releaseDiskSpace
  cases hl : request.toList with
  | nil => rfl
  | cons p rest =>
    obtain ⟨name, bytes⟩ := p
    refine updateKey_eq_self ?_
    intro row hr hn
    have hno := h row hr hn (name, bytes) (by rw [hl]; rfl)
    unfold releaseRow
    rw [if_neg hno]

theorem requested_of_mem {request : DiskSpaceReservationRequest} {p : String × UInt64}
    (h : p ∈ request.toList) : requested request p.1 = p.2.toNat := by
  have hg := TreeMap.mem_toList_iff_getElem?_eq_some.mp h
  unfold requested
  rw [TreeMap.getD_eq_getD_getElem?, hg]
  rfl

theorem requested_of_not_mem {request : DiskSpaceReservationRequest}
    (h : ∀ p ∈ request.toList, p.1 ≠ name) : requested request name = 0 := by
  unfold requested
  rw [TreeMap.getD_eq_getD_getElem?]
  cases hg : request[name]? with
  | none => rfl
  | some bytes =>
    exact absurd rfl (h (name, bytes) (TreeMap.mem_toList_iff_getElem?_eq_some.mpr hg))

theorem requested_singleton {request : DiskSpaceReservationRequest} {bytes : UInt64}
    (h : request.toList = [(name, bytes)]) (n : String) :
    requested request n = if n = name then bytes.toNat else 0 := by
  by_cases hn : n = name
  · subst hn
    rw [if_pos rfl]
    refine @requested_of_mem request (n, bytes) ?_
    rw [h]
    exact mem_singleton_self _
  · rw [if_neg hn]
    apply requested_of_not_mem
    intro p hp
    rw [h] at hp
    rw [List.mem_singleton.mp hp]
    exact fun heq => hn heq.symm

section Calls

variable {l : Ledger} {d : String} {mountId : UInt64} {request : DiskSpaceReservationRequest}

theorem Covered.startSession (h : Covered l) (d : String) (mountId : UInt64) :
    Covered (step l (.startSession d mountId)) := by
  refine ⟨h.names, ?_, h.fits⟩
  intro row hr
  show RowCovers (Function.update l.current d (some mountId) row.driveName)
    (Function.update l.balance d (fun _ => 0) row.driveName) row
  by_cases hd : row.driveName = d
  · rw [hd, Function.update_self, Function.update_self]
    exact RowCovers.empty _ row
  · rw [Function.update_of_ne hd, Function.update_of_ne hd]
    exact h.covers row hr

variable {balance : String → Nat}

/-- A call of the current session: it changes the record of the drive, and the ledger of the drive
with it. -/
theorem Covered.update (h : Covered l) (hf : ∀ row : DriveState, (f row).driveName = row.driveName)
    (hr : ∀ row ∈ l.drives, row.driveName = d → RowCovers (l.current d) balance (f row))
    (hs : ∀ name, reservedOn (updateKey DriveState.driveName d f l.drives) name < 2 ^ 64) :
    Covered ⟨updateKey DriveState.driveName d f l.drives, l.current,
      Function.update l.balance d balance⟩ := by
  refine ⟨?_, ?_, hs⟩
  · show ((updateKey DriveState.driveName d f l.drives).map DriveState.driveName).Nodup
    rw [updateKey_keys hf]
    exact h.names
  · intro row' hr'
    obtain ⟨hm, hne⟩ | ⟨row, hm, hd, rfl⟩ := (mem_updateKey h.names).mp hr'
    · show RowCovers (l.current row'.driveName) (Function.update l.balance d balance row'.driveName) row'
      rw [Function.update_of_ne hne]
      exact h.covers row' hm
    · show RowCovers (l.current (f row).driveName)
        (Function.update l.balance d balance (f row).driveName) (f row)
      rw [hf, hd, Function.update_self]
      exact hr row hm hd

/-- The same for a call that asks for nothing. -/
theorem Covered.update_none (h : Covered l) (hle : ∀ name, balance name ≤ l.balance d name) :
    Covered ⟨l.drives, l.current, Function.update l.balance d balance⟩ := by
  have hse : updateKey DriveState.driveName d id l.drives = l.drives :=
    updateKey_eq_self (fun _ _ _ => rfl)
  have hu : Covered ⟨updateKey DriveState.driveName d id l.drives, l.current,
      Function.update l.balance d balance⟩ := by
    refine h.update (fun _ => rfl) ?_ ?_
    · intro row hr hd name hpos
      have hc := h.covers row hr name
      rw [hd] at hc
      have hb := hle name
      obtain ⟨hsy, hs, hby⟩ := hc (by omega)
      exact ⟨hsy, hs, Nat.le_trans hb hby⟩
    · rw [hse]
      exact h.fits
  rw [hse] at hu
  exact hu

theorem Covered.reserve (h : Covered l) (hs : Safe l (.reserve d mountId request)) :
    Covered (step l (.reserve d mountId request)) := by
  have he : SafeReservation l d mountId request.toList := hs
  unfold step reserveDiskSpace
  dsimp only
  cases hl : request.toList with
  | nil =>
    have hz : ∀ n, requested request n = 0 := by
      intro n
      apply requested_of_not_mem
      rw [hl]
      exact fun p hp => nomatch hp
    split_ifs
    · refine h.update_none ?_
      intro name
      rw [hz name]
      exact Nat.le_refl _
    · exact h
  | cons p rest =>
    obtain ⟨name, bytes⟩ := p
    rw [hl] at he
    cases rest with
    | cons q rest => exact he.elim
    | nil =>
      obtain ⟨hc, hre, hsu⟩ := he
      rw [if_pos hc]
      refine h.update (fun row => driveName_reserve) ?_ ?_
      · intro row hro hd
        have hco := h.covers row hro
        rw [hd, hc] at hco
        rw [hc]
        have hr := @RowCovers.reserve mountId bytes name row _ hco (hre row hro hd)
        intro n hpos
        beta_reduce at hpos ⊢
        rw [requested_singleton hl] at hpos ⊢
        exact hr n hpos
      · intro n
        have hle := @sum_map_updateKey_le _ _ _ DriveState.driveName d
          (DriveState.reserve mountId name bytes)
          (fun row => if row.diskSystemName = some n then row.reservedBytes else 0) _
          (fun row => reserveRow_le n) l.drives
        have hf := h.fits n
        unfold reservedOn at hsu hf ⊢
        by_cases hn : n = name
        · subst hn
          rw [if_pos rfl] at hle
          omega
        · rw [if_neg hn] at hle
          omega

theorem Covered.release (h : Covered l) (hs : Safe l (.release d mountId request)) :
    Covered (step l (.release d mountId request)) := by
  by_cases hc : l.current d = some mountId
  · unfold step releaseDiskSpace
    dsimp only
    rw [if_pos hc]
    cases hl : request.toList with
    | nil => exact h.update_none (fun name => Nat.sub_le _ _)
    | cons p rest =>
      obtain ⟨name, bytes⟩ := p
      have hr : requested request name = bytes.toNat := by
        refine @requested_of_mem request (name, bytes) ?_
        rw [hl]
        exact mem_cons_self
      refine h.update (fun row => driveName_releaseRow) ?_ ?_
      · intro row hro hd
        have hco := h.covers row hro
        rw [hd, hc] at hco
        rw [hc]
        exact hco.release hr
      · intro n
        have hle := @sum_map_updateKey_le _ _ _ DriveState.driveName d (releaseRow mountId name bytes)
          (fun row => if row.diskSystemName = some n then row.reservedBytes else 0) _
          (fun row => releaseRow_le n) l.drives
        have hf := h.fits n
        unfold reservedOn at hf ⊢
        omega
  · have hno := hs.resolve_left hc
    have hsp : step l (.release d mountId request) = l := by
      show Ledger.mk _ _ _ = l
      rw [releaseDiskSpace_eq_self hno, if_neg hc]
    rw [hsp]
    exact h

/-- **One call.** -/
theorem covered_step {l : Ledger} {e : Event} (h : Covered l) (hs : Safe l e) :
    Covered (step l e) := by
  cases e with
  | startSession d mountId => exact h.startSession d mountId
  | reserve d mountId request => exact h.reserve hs
  | release d mountId request => exact h.release hs

/-- A safe call of an older session leaves every record alone. -/
theorem drives_of_old {l : Ledger} {e : Event} (hold : IsOld l e) (hs : Safe l e) :
    (step l e).drives = l.drives := by
  cases e with
  | startSession d mountId => exact hold.elim
  | reserve d mountId request =>
    show reserveDiskSpace l.drives d mountId request = l.drives
    have he : SafeReservation l d mountId request.toList := hs
    unfold reserveDiskSpace
    cases hl : request.toList with
    | nil => rfl
    | cons p rest =>
      rw [hl] at he
      cases rest with
      | nil => exact absurd he.1 hold
      | cons q rest => exact he.elim
  | release d mountId request => exact releaseDiskSpace_eq_self (hs.resolve_left hold)

end Calls

/-! ## Histories -/

/-- The sum over the drives of what their current sessions have on a disk system. -/
def Ledger.outstanding (l : Ledger) (name : String) : Nat :=
  (l.drives.map (fun row => l.balance row.driveName name)).sum

theorem Covered.outstanding_le {l : Ledger} (h : Covered l) (name : String) :
    l.outstanding name ≤ reservedOn l.drives name := by
  refine sum_le_sum ?_
  intro row hr
  by_cases hz : l.balance row.driveName name = 0
  · rw [hz]
    exact Nat.zero_le _
  obtain ⟨hs, -, hle⟩ := h.covers row hr name (Nat.pos_of_ne_zero hz)
  rw [if_pos hs]
  exact hle

/-- **The catalogue covers the ledger** after every history of safe calls: for every disk system
it has at least what the current sessions have, whatever older sessions do. -/
theorem reservations_cover (drives : List DriveState) (history : List Event)
    (hnames : (drives.map DriveState.driveName).Nodup)
    (hfits : ∀ name, reservedOn drives name < 2 ^ 64)
    (hhistory : Along step (fun l e => WithinLimits l e ∧ Safe l e) (Ledger.start drives) history) :
    (∃ map, getDiskSpaceReservations (run step (Ledger.start drives) history).drives = .ok map
        ∧ ∀ name, (run step (Ledger.start drives) history).outstanding name
          ≤ (map.getD name 0).toNat)
      ∧ ∀ e, IsOld (run step (Ledger.start drives) history) e →
          Safe (run step (Ledger.start drives) history) e →
          getDiskSpaceReservations (step (run step (Ledger.start drives) history) e).drives
            = getDiskSpaceReservations (run step (Ledger.start drives) history).drives := by
  have hs : Covered (Ledger.start drives) := ⟨hnames, fun row _ => RowCovers.empty _ row, hfits⟩
  have hc : Covered (run step (Ledger.start drives) history) :=
    @run_invariant _ _ step (fun l e => WithinLimits l e ∧ Safe l e) Covered
      (fun l e h he => covered_step h he.2) history _ hs hhistory
  constructor
  · obtain ⟨map, hm, hg⟩ := getDiskSpaceReservations_eq hc.fits
    refine ⟨map, hm, ?_⟩
    intro name
    rw [hg name]
    exact hc.outstanding_le name
  · intro e hold hsa
    rw [drives_of_old hold hsa]

namespace OneDrive

def request (entries : List (String × UInt64)) : DiskSpaceReservationRequest :=
  TreeMap.ofList entries

def drives : List DriveState := [⟨"drive0", none, 0, none⟩]

/-- Two sessions, each on one disk system; the first releases late. -/
def inOrder : List Event :=
  [.startSession "drive0" 1, .reserve "drive0" 1 (request [("eosA", 10)]),
    .reserve "drive0" 1 (request [("eosA", 5)]),
    .release "drive0" 1 (request [("eosA", 4)]), .startSession "drive0" 2,
    .reserve "drive0" 2 (request [("eosB", 7)]),
    .release "drive0" 1 (request [("eosA", 11)])]

def twoSystems : List Event :=
  [.startSession "drive0" 1, .reserve "drive0" 1 (request [("eosA", 10), ("eosB", 20)])]

/-- The old session reserves when the new one has. -/
def oldReserves : List Event :=
  [.startSession "drive0" 1, .startSession "drive0" 2,
    .reserve "drive0" 2 (request [("eosA", 10)]),
    .reserve "drive0" 1 (request [("eosB", 20)])]

/-- What `getDiskSpaceReservations` gives for a disk system. -/
def reservedFor (history : List Event) (name : String) : Option UInt64 :=
  match getDiskSpaceReservations (run step (Ledger.start drives) history).drives with
  | .ok map => some (map.getD name 0)
  | .error _ => none

end OneDrive

theorem inOrder_is_covered :
    ∃ map, getDiskSpaceReservations (run step (Ledger.start OneDrive.drives) OneDrive.inOrder).drives
        = .ok map
      ∧ ∀ name, (run step (Ledger.start OneDrive.drives) OneDrive.inOrder).outstanding name
        ≤ (map.getD name 0).toNat := by
  have hf : ∀ name, reservedOn OneDrive.drives name < 2 ^ 64 := fun name => by
    show 0 + 0 < 2 ^ 64
    decide
  exact (reservations_cover OneDrive.drives OneDrive.inOrder (by decide) hf (by decide +kernel)).1

/-- The second disk system of a request, and what an older session has replaced. -/
theorem reservations_are_lost :
    ((run step (Ledger.start OneDrive.drives) OneDrive.twoSystems).outstanding "eosB" = 20
      ∧ OneDrive.reservedFor OneDrive.twoSystems "eosB" = some 0)
    ∧ ((run step (Ledger.start OneDrive.drives) OneDrive.oldReserves).outstanding "eosA" = 10
      ∧ OneDrive.reservedFor OneDrive.oldReserves "eosA" = some 0) := by
  decide +kernel

end TapeArchive.Scheduler.ReservationLedger
