/-
  **FROM THE RETRIEVE MOUNT TO THE RECALL TASKS** (`RecallTaskInjector.cpp`,
  `RetrieveMount::requeueJobBatch`, `DiskSpaceReservationRequest.cpp`).

  `reserveSpaceForNextJobBatch` reserves disk space for the batch to be injected next;
  `injectBulkRecalls` SELECTS THE BATCH AGAIN, with a recall order of its own.  When the two
  differ, `removeRequest` may throw in the middle of the batch.
-/
import TapeArchive.Lib.Lists
import TapeArchive.Lib.Run
import Std.Data.TreeMap.Lemmas

namespace TapeArchive.Tapeserver.RecallInjector

open Std (TreeMap)
open Lib List

/-! ## Disk space reservations -/

/-- `DiskSpaceReservationRequest`: bytes by the name of the disk system. -/
abbrev DiskSpaceReservationRequest := TreeMap String UInt64

namespace DiskSpaceReservationRequest

def addRequest (r : DiskSpaceReservationRequest) (diskSystemName : String) (size : UInt64) :
    DiskSpaceReservationRequest :=
  match r[diskSystemName]? with
  | some bytes => r.insert diskSystemName (bytes + size)
  | none => r.insert diskSystemName size

def removeRequest (r : DiskSpaceReservationRequest) (diskSystemName : String) (size : UInt64) :
    Except String DiskSpaceReservationRequest :=
  match r[diskSystemName]? with
  | some bytes => .ok (r.insert diskSystemName (if bytes < size then 0 else bytes - size))
  | none =>
      .error ("At DiskSpaceReservationRequest::removeRequest(): Removing request of "
        ++ toString size ++ " bytes from disk system" ++ diskSystemName
        ++ " which does not exist")

/-- `operator[]`: a missing entry is made, with no bytes. -/
def touch (r : DiskSpaceReservationRequest) (diskSystemName : String) :
    DiskSpaceReservationRequest :=
  if r.contains diskSystemName then r else r.insert diskSystemName 0

end DiskSpaceReservationRequest

/-! ## The injector -/

/-- `RetrieveJob`; `id` tells the objects apart. -/
structure RetrieveJob where
  id : Nat
  fileSize : UInt64
  diskSystemName : Option String
  deriving DecidableEq

structure Config where
  (m_maxBatchFiles m_maxBatchBytes : UInt64)
  useRAO : Bool

/-- Where the session, and then the worker thread, stands between two calls. -/
inductive Place where
  /-- `DataTransferSession`, before the threads start. -/
  | sessionFetch
  | sessionReserve
  /-- The worker thread asks the drive for its limits. -/
  | raoLimits
  | raoFetch
  | firstReserve
  | firstInject
  /-- At the head of the loop, with `reservationResult`. -/
  | waiting (reservationResult : Bool)
  | fetching (lastCall : Bool)
  | reserving (lastCall : Bool)
  | injecting (reservationResult : Bool)
  | ended
  /-- An exception left the thread. -/
  | escaped
  deriving DecidableEq

structure World where
  /-- A released pointer is null. -/
  m_jobs : List (Option RetrieveJob)
  (m_files m_bytes : UInt64)
  m_fetched : UInt32
  m_reservedFreeSpace : DiskSpaceReservationRequest
  /-- `RAOManager::m_maxFilesSupported`; it is set together with `m_hasUDS`. -/
  maxFilesSupported : Option UInt64
  place : Place
  /-- The number of jobs the mount handed over. -/
  fetched : Nat
  diskWriter : List RetrieveJob
  /-- The jobs of the tasks pushed to the tape reader. -/
  (tapeReader requeued : List RetrieveJob)
  /-- The batches that were injected. -/
  batches : List (List RetrieveJob)

/-- Before the first call; the constructor does not set `m_fetched`. -/
def World.initial (m_fetched : UInt32) : World where
  m_jobs := []
  m_files := 0
  m_bytes := 0
  m_fetched := m_fetched
  m_reservedFreeSpace := ∅
  maxFilesSupported := none
  place := .sessionFetch
  fetched := 0
  diskWriter := []
  tapeReader := []
  requeued := []
  batches := []

def totalSize (jobs : List RetrieveJob) : Nat := (jobs.map (fun job => job.fileSize.toNat)).sum

namespace World

def held (w : World) : List RetrieveJob := w.m_jobs.filterMap id

/-! ### `synchronousFetch` -/

/-- What the mount hands over: sizes and disk systems. -/
abbrev MountAnswer := Option (List (UInt64 × Option String))

def newJobs (first : Nat) : List (UInt64 × Option String) → List RetrieveJob
  | [] => []
  | (fileSize, diskSystemName) :: rest =>
      ⟨first, fileSize, diskSystemName⟩ :: newJobs (first + 1) rest

def asksMount (c : Config) (w : World) : Bool :=
  let reqFiles :=
    match c.useRAO, w.maxFilesSupported with
    | true, some max => max
    | _, _ => c.m_maxBatchFiles
  let reqSize :=
    if c.useRAO && w.maxFilesSupported.isSome then 1024 * 1024 * 1024 * 1024 * 1024
    else c.m_maxBatchBytes
  !(reqFiles ≤ w.m_files : Bool) && !(reqSize ≤ w.m_bytes : Bool)

def takeOver (w : World) (job : RetrieveJob) : World :=
  { w with
    m_files := w.m_files + 1
    m_bytes := w.m_bytes + job.fileSize
    m_jobs := w.m_jobs ++ [some job]
    fetched := w.fetched + 1 }

/-- The state and the result; `none` is an exception of the mount. -/
def synchronousFetch (c : Config) (w : World) : MountAnswer → World × Bool
  | answer =>
      if w.asksMount c then
        match answer with
        | none => (w, false)
        | some jobs =>
            let w := (newJobs w.fetched jobs).foldl takeOver w
            ({ w with m_fetched := UInt32.ofNat jobs.length }, !w.m_jobs.isEmpty)
      else (w, true)

/-! ### `reserveSpaceForNextJobBatch` -/

/-- It reads the vector as `selectLoop` does. -/
def previewLoop (c : Config) (m_jobs : List (Option RetrieveJob)) :
    List Nat → UInt64 → UInt64 → List RetrieveJob
  | [], _, _ => []
  | index :: rest, nFiles, nBytes =>
      if nFiles < c.m_maxBatchFiles ∧ nBytes < c.m_maxBatchBytes then
        match m_jobs[index]? with
        | some (some job) =>
            job :: previewLoop c m_jobs rest (nFiles + 1) (nBytes + job.fileSize)
        | _ => []
      else []

/-- The indices in the order of the recall; their number is a `uint32_t`. -/
def recallOrder (w : World) (useRAO : Bool) (order : List Nat) : List Nat :=
  (if useRAO then order else List.range w.m_jobs.length).take (w.m_jobs.length % 2 ^ 32)

def previewGetNextJobBatch (c : Config) (w : World) (useRAO : Bool) (order : List Nat) :
    List RetrieveJob :=
  previewLoop c w.m_jobs (w.recallOrder useRAO order) 0 0

def addNecessary (r : DiskSpaceReservationRequest) (job : RetrieveJob) :
    DiskSpaceReservationRequest :=
  match job.diskSystemName with
  | some name => r.addRequest name job.fileSize
  | none => r

def necessaryReservedSpace (batch : List RetrieveJob) : DiskSpaceReservationRequest :=
  batch.foldl addNecessary ∅

/-- What is reserved, what has to be reserved, and whether that is anything. -/
structure Compared where
  (reserved spaceToReserve : DiskSpaceReservationRequest)
  needReservation : Bool

def Compared.add (s : Compared) (reservation : String × UInt64) : Compared :=
  let currentFreeSpace := s.reserved.getD reservation.1 0
  let reserved := s.reserved.touch reservation.1
  if currentFreeSpace < reservation.2 then
    ⟨reserved, s.spaceToReserve.addRequest reservation.1 (reservation.2 - currentFreeSpace), true⟩
  else ⟨reserved, s.spaceToReserve, s.needReservation⟩

/-- The free space reserved before is compared with the space that is needed. -/
def compareReserved (reserved necessary : DiskSpaceReservationRequest) : Compared :=
  necessary.toList.foldl Compared.add ⟨reserved, ∅, false⟩

/-- What `RetrieveMount::reserveDiskSpace` does. -/
inductive Outcome where
  | granted
  | refused
  /-- `std::out_of_range`: the disk system was removed. -/
  | removed

/-- `RecallTaskInjector::reserveSpaceForNextJobBatch`: the state and the result. -/
def reserveSpaceForNextJobBatch (c : Config) (w : World) (useRAO : Bool) (order : List Nat)
    (outcome : Outcome) : World × Bool :=
  let batch := w.previewGetNextJobBatch c useRAO order
  let compared := compareReserved w.m_reservedFreeSpace (necessaryReservedSpace batch)
  let w := { w with m_reservedFreeSpace := compared.reserved }
  if !compared.needReservation then (w, true)
  else
    match outcome with
    -- `diskSystemName()` returns a copy: `job->diskSystemName() = std::nullopt` changes no job
    | .removed => (w, true)
    | .refused =>
        -- `requeueJobBatch` passes over null pointers and clears the vector
        ({ w with
            requeued := w.requeued ++ w.held
            m_jobs := []
            m_files := 0
            m_bytes := 0 }, false)
    | .granted =>
        ({ w with
            m_reservedFreeSpace := compared.spaceToReserve.toList.foldl
              (fun r reservation => r.addRequest reservation.1 reservation.2)
              compared.reserved }, true)

/-! ### `injectBulkRecalls` -/

/-- The variables of the loop that selects the batch. -/
structure Selected where
  m_jobs : List (Option RetrieveJob)
  (m_files m_bytes : UInt64)
  retrieveJobsBatch : List RetrieveJob

def Selected.release (s : Selected) (index : Nat) (job : RetrieveJob) : Selected where
  m_jobs := s.m_jobs.set index none
  m_files := s.m_files - 1
  m_bytes := s.m_bytes - job.fileSize
  retrieveJobsBatch := s.retrieveJobsBatch ++ [job]

/-- `none` when an index is outside of the vector or a pointer was released before. -/
def selectLoop (c : Config) : List Nat → UInt64 → UInt64 → Selected → Option Selected
  | [], _, _, s => some s
  | index :: rest, nFiles, nBytes, s =>
      if nFiles < c.m_maxBatchFiles ∧ nBytes < c.m_maxBatchBytes then
        match s.m_jobs[index]? with
        | some (some job) =>
            selectLoop c rest (nFiles + 1) (nBytes + job.fileSize) (s.release index job)
        | _ => none
      else some s

/-- The reservations, the jobs that got their tasks, and whether it came to its end. -/
def pushTasks : List RetrieveJob → DiskSpaceReservationRequest →
    DiskSpaceReservationRequest × List RetrieveJob × Bool
  | [], reserved => (reserved, [], true)
  | job :: rest, reserved =>
      match job.diskSystemName with
      | none =>
          let (reserved, pushed, done) := pushTasks rest reserved
          (reserved, job :: pushed, done)
      | some name =>
          match reserved.removeRequest name job.fileSize with
          | .error _ => (reserved, [job], false)
          | .ok reserved =>
              let (reserved, pushed, done) := pushTasks rest reserved
              (reserved, job :: pushed, done)

/-- How `injectBulkRecalls` ends. -/
inductive InjectEnd where
  | returned
  /-- `removeRequest` threw. -/
  | threw
  /-- Outside of the vector, or a null pointer. -/
  | crashed
  deriving DecidableEq

/-- An exception destroys the rest of the batch and leaves the null pointers in the vector. -/
def injectBulkRecalls (c : Config) (w : World) (order : List Nat) : World × InjectEnd :=
  match selectLoop c (w.recallOrder c.useRAO order) 0 0 ⟨w.m_jobs, w.m_files, w.m_bytes, []⟩ with
  | none => (w, .crashed)
  | some s =>
      let (reserved, pushed, done) := pushTasks s.retrieveJobsBatch w.m_reservedFreeSpace
      ({ w with
          m_jobs := if done then s.m_jobs.filter Option.isSome else s.m_jobs
          m_files := s.m_files
          m_bytes := s.m_bytes
          m_reservedFreeSpace := reserved
          diskWriter := w.diskWriter ++ pushed
          tapeReader := w.tapeReader ++ pushed
          batches := w.batches ++ [s.retrieveJobsBatch] },
        if done then .returned else .threw)

end World

/-! ## The worker thread -/

inductive Request where
  | injection (lastCall : Bool)
  | finish

inductive Event where
  | fetch (answer : World.MountAnswer)
  /-- The answer of `getLimitUDS`; `none` when the drive does not support the query. -/
  | limits (maxSupported : Option UInt64)
  | reserve (order : List Nat) (outcome : World.Outcome)
  | inject (order : List Nat)
  | request (req : Request)

namespace World

/-- The worker thread is about to reserve again, or comes back to the loop. -/
def afterReserve (w : World) (lastCall reservationResult : Bool) : Place :=
  if w.m_jobs.isEmpty then
    if lastCall then .ended else .waiting reservationResult
  else .injecting reservationResult

def call (c : Config) (w : World) : Event → World
  | .fetch answer =>
      let (w', result) := w.synchronousFetch c answer
      match w.place with
      | .sessionFetch => { w' with place := if result then .sessionReserve else .ended }
      | .raoFetch => { w' with place := .firstReserve }
      | .fetching lastCall => { w' with place := .reserving lastCall }
      | _ => w
  | .limits maxSupported =>
      if w.place = .raoLimits then
        { w with
          maxFilesSupported := maxSupported.or w.maxFilesSupported
          place :=
            match maxSupported.or w.maxFilesSupported with
            | some max => if w.m_fetched.toUInt64 < max then .raoFetch else .firstReserve
            | none => .firstReserve }
      else w
  | .reserve order outcome =>
      match w.place with
      | .sessionReserve =>
          let (w, result) := w.reserveSpaceForNextJobBatch c false order outcome
          { w with
            place := if result then (if c.useRAO then .raoLimits else .firstReserve) else .ended }
      | .firstReserve =>
          let (w, result) := w.reserveSpaceForNextJobBatch c c.useRAO order outcome
          { w with place := if result then .firstInject else .ended }
      | .reserving lastCall =>
          let (w, result) := w.reserveSpaceForNextJobBatch c c.useRAO order outcome
          { w with place := w.afterReserve lastCall result }
      | _ => w
  | .inject order =>
      match w.place with
      | .firstInject =>
          let (w, how) := w.injectBulkRecalls c order
          { w with place := if how = .returned then .waiting true else .escaped }
      | .injecting reservationResult =>
          let (w, how) := w.injectBulkRecalls c order
          { w with
            place :=
              match how with
              | .returned => .waiting reservationResult
              | .threw => .ended
              | .crashed => .escaped }
      | _ => w
  | .request req =>
      match w.place, req with
      | .waiting _, .finish => { w with place := .ended }
      | .waiting true, .injection lastCall => { w with place := .fetching lastCall }
      | .waiting false, .injection lastCall => { w with place := w.afterReserve lastCall false }
      | _, _ => w

/-- The recall order of a call is a permutation of the indices. -/
def orderOk (w : World) : Event → Bool
  | .reserve order _ => order.isPerm (List.range w.m_jobs.length)
  | .inject order => order.isPerm (List.range w.m_jobs.length)
  | _ => true

def step (c : Config) (w : World) (e : Event) : World :=
  if w.orderOk e then w.call c e else w

end World

/-! ## The batch of an injection -/

def BatchOk (c : Config) (batch : List RetrieveJob) : Prop :=
  batch.length ≤ c.m_maxBatchFiles.toNat ∧
    (batch ≠ [] → totalSize batch.dropLast < c.m_maxBatchBytes.toNat)

@[simp] theorem totalSize_nil : totalSize [] = 0 := rfl

@[simp] theorem totalSize_append (a b : List RetrieveJob) :
    totalSize (a ++ b) = totalSize a + totalSize b := by
  simp [totalSize]

theorem totalSize_cons (job : RetrieveJob) (l : List RetrieveJob) :
    totalSize (job :: l) = job.fileSize.toNat + totalSize l := rfl

theorem totalSize_perm {a b : List RetrieveJob} (h : a.Perm b) : totalSize a = totalSize b :=
  (h.map _).sum_eq

namespace World

/-- The loop that selects the batch: nothing is lost, and the variables count. -/
structure SelectInv (c : Config) (jobs : List RetrieveJob) (nFiles nBytes : UInt64)
    (s : Selected) : Prop where
  perm : (s.m_jobs.filterMap id ++ s.retrieveJobsBatch).Perm jobs
  files : s.m_files.toNat = (s.m_jobs.filterMap id).length
  bytes : s.m_bytes.toNat = totalSize (s.m_jobs.filterMap id)
  nFiles : nFiles.toNat = s.retrieveJobsBatch.length
  nBytes : nBytes.toNat = totalSize s.retrieveJobsBatch
  ok : BatchOk c s.retrieveJobsBatch

variable {jobs : List RetrieveJob}

theorem SelectInv.release {c : Config} {nFiles nBytes : UInt64}
    {s : Selected} (h : SelectInv c jobs nFiles nBytes s) (hfi : jobs.length < 2 ^ 64)
    (hby : totalSize jobs < 2 ^ 64) {index : Nat} {job : RetrieveJob}
    (hj : s.m_jobs[index]? = some (some job)) (hmf : nFiles < c.m_maxBatchFiles)
    (hmb : nBytes < c.m_maxBatchBytes) :
    SelectInv c jobs (nFiles + 1) (nBytes + job.fileSize) (s.release index job) := by
  have hse := filterMap_set_none_perm hj
  have hl := hse.length_eq
  have hs := totalSize_perm hse
  rw [length_cons] at hl
  rw [totalSize_cons] at hs
  -- the jobs left and the batch are the jobs of the call, so nothing wraps
  have hal := h.perm.length_eq
  have ha := totalSize_perm h.perm
  rw [length_append] at hal
  rw [totalSize_append] at ha
  have hf := h.files
  have hb := h.bytes
  have hnf := h.nFiles
  have hnb := h.nBytes
  refine ⟨?_, ?_, ?_, ?_, ?_, ?_, ?_⟩
  · show ((s.m_jobs.set index none).filterMap id ++ (s.retrieveJobsBatch ++ [job])).Perm jobs
    refine List.Perm.trans ?_ h.perm
    refine List.Perm.trans ?_ (hse.append_right s.retrieveJobsBatch)
    rw [← append_assoc]
    exact perm_append_singleton job _
  · show (s.m_files - 1).toNat = _
    rw [UInt64.toNat_sub_of_le _ _ (by rw [UInt64.le_iff_toNat_le]; show 1 ≤ _; omega)]
    show s.m_files.toNat - 1 = ((s.m_jobs.set index none).filterMap id).length
    omega
  · show (s.m_bytes - job.fileSize).toNat = _
    rw [UInt64.toNat_sub_of_le _ _ (by rw [UInt64.le_iff_toNat_le]; omega)]
    show s.m_bytes.toNat - job.fileSize.toNat = totalSize ((s.m_jobs.set index none).filterMap id)
    omega
  · show (nFiles + 1).toNat = (s.retrieveJobsBatch ++ [job]).length
    rw [UInt64.toNat_add, length_append, length_singleton, hnf]
    show (s.retrieveJobsBatch.length + 1) % 2 ^ 64 = _
    exact Nat.mod_eq_of_lt (by omega)
  · show (nBytes + job.fileSize).toNat = totalSize (s.retrieveJobsBatch ++ [job])
    rw [UInt64.toNat_add, totalSize_append, hnb]
    exact Nat.mod_eq_of_lt (by omega)
  · show (s.retrieveJobsBatch ++ [job]).length ≤ _
    rw [UInt64.lt_iff_toNat_lt] at hmf
    rw [length_append, length_singleton]
    omega
  · intro _
    show totalSize (s.retrieveJobsBatch ++ [job]).dropLast < _
    rw [UInt64.lt_iff_toNat_lt] at hmb
    rw [dropLast_concat]
    omega

/-- **The loop selects the batch that a preview with the same order shows**, and keeps count. -/
theorem selectLoop_spec {c : Config} (hf : jobs.length < 2 ^ 64)
    (hb : totalSize jobs < 2 ^ 64) {m_jobs : List (Option RetrieveJob)} :
    ∀ {order : List Nat} {nFiles nBytes : UInt64} {s : Selected},
      SelectInv c jobs nFiles nBytes s → order.Nodup →
      (∀ index ∈ order, ∃ job, m_jobs[index]? = some (some job) ∧
        s.m_jobs[index]? = some (some job)) →
      ∃ s' nFiles' nBytes', selectLoop c order nFiles nBytes s = some s' ∧
        SelectInv c jobs nFiles' nBytes' s' ∧
        s'.retrieveJobsBatch = s.retrieveJobsBatch ++ previewLoop c m_jobs order nFiles nBytes := by
  intro order
  induction order with
  | nil =>
    intro nFiles nBytes s h _ _
    exact ⟨s, nFiles, nBytes, rfl, h, (append_nil _).symm⟩
  | cons index rest ih =>
    intro nFiles nBytes s h hn hl
    obtain ⟨job, hj, hj'⟩ := hl index mem_cons_self
    unfold selectLoop previewLoop
    split
    · next hm =>
      rw [hj, hj']
      have hrest : ∀ i ∈ rest, ∃ job', m_jobs[i]? = some (some job') ∧
          (s.release index job).m_jobs[i]? = some (some job') := by
        intro i hi
        obtain ⟨job', hi', hi''⟩ := hl i (.tail _ hi)
        have hne : index ≠ i := by
          intro heq
          rw [heq] at hn
          exact (nodup_cons.mp hn).1 hi
        refine ⟨job', hi', ?_⟩
        show (s.m_jobs.set index none)[i]? = _
        rw [List.getElem?_set_ne hne, hi'']
      obtain ⟨s', nFiles', nBytes', hlo, hin, hba⟩ :=
        ih (h.release hf hb hj' hm.1 hm.2) (nodup_cons.mp hn).2 hrest
      refine ⟨s', nFiles', nBytes', hlo, hin, ?_⟩
      rw [hba]
      show (s.retrieveJobsBatch ++ [job]) ++ _ = _
      rw [append_assoc]
      rfl
    · exact ⟨s, nFiles, nBytes, rfl, h, (append_nil _).symm⟩

theorem lookup_recallOrder {w : World} (hf : ∀ x ∈ w.m_jobs, x.isSome = true)
    {useRAO : Bool} {order : List Nat} (ho : order.Perm (List.range w.m_jobs.length)) :
    (w.recallOrder useRAO order).Nodup ∧
      ∀ index ∈ w.recallOrder useRAO order, ∃ job, w.m_jobs[index]? = some (some job) := by
  have hp : (if useRAO then order else List.range w.m_jobs.length).Perm
      (List.range w.m_jobs.length) := by
    split
    · exact ho
    · exact List.Perm.refl _
  have hs := take_sublist (w.m_jobs.length % 2 ^ 32)
    (if useRAO then order else List.range w.m_jobs.length)
  refine ⟨(hp.nodup_iff.mpr nodup_range).sublist hs, ?_⟩
  intro index hi
  have hlt : index < w.m_jobs.length := mem_range.mp (hp.subset (hs.subset hi))
  have hg := List.getElem?_eq_getElem hlt
  obtain ⟨job, hj⟩ := Option.isSome_iff_exists.mp (hf _ (getElem_mem hlt))
  exact ⟨job, by rw [hg, hj]⟩

/-- **An injection in the order of a permutation never crashes**: it reads inside of the vector
and releases every job at most once. -/
theorem injectBulkRecalls_not_crashed (c : Config) {w : World}
    (hf : ∀ x ∈ w.m_jobs, x.isSome = true) {order : List Nat}
    (ho : order.Perm (List.range w.m_jobs.length)) :
    (w.injectBulkRecalls c order).2 ≠ .crashed := by
  have hlo : ∀ (indices : List Nat) (nFiles nBytes : UInt64) (s : Selected), indices.Nodup →
      (∀ index ∈ indices, ∃ job, s.m_jobs[index]? = some (some job)) →
      (selectLoop c indices nFiles nBytes s).isSome = true := by
    intro indices
    induction indices with
    | nil => exact fun _ _ _ _ _ => rfl
    | cons index rest ih =>
      intro nFiles nBytes s hn hl
      obtain ⟨job, hj⟩ := hl index mem_cons_self
      unfold selectLoop
      split
      · rw [hj]
        refine ih _ _ _ (nodup_cons.mp hn).2 (fun i hi => ?_)
        have hne : index ≠ i := by
          intro heq
          rw [heq] at hn
          exact (nodup_cons.mp hn).1 hi
        obtain ⟨job', hj'⟩ := hl i (.tail _ hi)
        refine ⟨job', ?_⟩
        show (s.m_jobs.set index none)[i]? = _
        rw [List.getElem?_set_ne hne, hj']
      · rfl
  obtain ⟨hn, hl⟩ := @lookup_recallOrder w hf c.useRAO order ho
  have hso := hlo _ 0 0 ⟨w.m_jobs, w.m_files, w.m_bytes, []⟩ hn hl
  obtain ⟨s, hs⟩ := Option.isSome_iff_exists.mp hso
  unfold injectBulkRecalls
  rw [hs]
  dsimp only
  split <;> exact InjectEnd.noConfusion

/-! ## The tasks of a batch -/

/-- Every disk system of the jobs has an entry. -/
def Reserved (reserved : DiskSpaceReservationRequest) (batch : List RetrieveJob) : Prop :=
  ∀ job ∈ batch, ∀ name ∈ job.diskSystemName, name ∈ reserved

instance (reserved : DiskSpaceReservationRequest) (batch : List RetrieveJob) :
    Decidable (Reserved reserved batch) :=
  inferInstanceAs (Decidable (∀ job ∈ batch, ∀ name ∈ job.diskSystemName, name ∈ reserved))

theorem removeRequest_of_mem {reserved : DiskSpaceReservationRequest} {name : String}
    (h : name ∈ reserved) (size : UInt64) :
    ∃ reserved', reserved.removeRequest name size = .ok reserved' ∧
      ∀ other, other ∈ reserved → other ∈ reserved' := by
  unfold DiskSpaceReservationRequest.removeRequest
  rw [TreeMap.getElem?_eq_some_getElem h]
  refine ⟨_, rfl, fun other ho => ?_⟩
  rw [TreeMap.mem_insert]
  exact .inr ho

/-- With an entry for every disk system all jobs of the batch get their tasks. -/
theorem pushTasks_reserved : ∀ {batch : List RetrieveJob} {reserved : DiskSpaceReservationRequest},
    Reserved reserved batch → ∃ reserved', pushTasks batch reserved = (reserved', batch, true) := by
  intro batch
  induction batch with
  | nil =>
    intro reserved _
    exact ⟨reserved, rfl⟩
  | cons job rest ih =>
    intro reserved h
    have hrest : ∀ reserved', (∀ other, other ∈ reserved → other ∈ reserved') →
        Reserved reserved' rest := by
      intro reserved' hs job' hj' name hn
      exact hs name (h job' (.tail _ hj') name hn)
    unfold pushTasks
    cases hn : job.diskSystemName with
    | none =>
      obtain ⟨reserved', hp⟩ := ih (hrest reserved (fun _ hm => hm))
      exact ⟨reserved', by rw [hp]⟩
    | some name =>
      obtain ⟨reserved', hr, hs⟩ := removeRequest_of_mem (h job mem_cons_self name hn) job.fileSize
      obtain ⟨reserved'', hp⟩ := ih (hrest reserved' hs)
      refine ⟨reserved'', ?_⟩
      simp only [hr, hp]

end World

/-! ## The jobs are conserved -/

/-- **Recall jobs are conserved**: every fetched job is held, or it was pushed once to both
sides, or it was requeued; the counters are right, and the batches keep their limits. -/
structure JobsConserved (c : Config) (w : World) : Prop where
  exactly_one : ((w.held ++ w.diskWriter ++ w.requeued).map RetrieveJob.id).Perm
    (List.range w.fetched)
  both_sides : w.tapeReader = w.diskWriter
  files : w.m_files.toNat = w.held.length
  bytes : w.m_bytes.toNat = totalSize w.held
  pushed : w.diskWriter = w.batches.flatten
  limits : ∀ batch ∈ w.batches, BatchOk c batch
  /-- No index was outside of the vector, and no job was released twice. -/
  no_crash : w.place ≠ .escaped

/-- The property, with no null pointers between two calls. -/
structure InjectorInv (c : Config) (w : World) : Prop where
  conserved : JobsConserved c w
  full : ∀ x ∈ w.m_jobs, x.isSome = true

/-- What is held can be counted in 64 bits, and every disk system of a batch has an entry. -/
def Regular (c : Config) (w : World) : Event → Prop
  | .fetch (some jobs) =>
      w.held.length + jobs.length < 2 ^ 64 ∧
        totalSize w.held + (jobs.map (fun job => job.1.toNat)).sum < 2 ^ 64
  | .inject order =>
      World.Reserved w.m_reservedFreeSpace (w.previewGetNextJobBatch c c.useRAO order)
  | _ => True

instance Regular.decidable (c : Config) (w : World) : (e : Event) → Decidable (Regular c w e)
  | .fetch (some jobs) => inferInstanceAs (Decidable
      (w.held.length + jobs.length < 2 ^ 64 ∧
        totalSize w.held + (jobs.map (fun job => job.1.toNat)).sum < 2 ^ 64))
  | .inject order => inferInstanceAs (Decidable
      (World.Reserved w.m_reservedFreeSpace (w.previewGetNextJobBatch c c.useRAO order)))
  | .fetch none => isTrue trivial
  | .limits _ => isTrue trivial
  | .reserve _ _ => isTrue trivial
  | .request _ => isTrue trivial

namespace InjectorInv

variable {c : Config} {w : World}

theorem initial (c : Config) (m_fetched : UInt32) : InjectorInv c (World.initial m_fetched) where
  conserved := ⟨List.Perm.refl _, rfl, rfl, rfl, rfl, fun _ hb => absurd hb not_mem_nil,
    Place.noConfusion⟩
  full := fun _ hx => absurd hx not_mem_nil

/-- Only the place changes. -/
theorem move (h : InjectorInv c w) {place : Place} (hp : place ≠ .escaped) :
    InjectorInv c { w with place := place } :=
  ⟨{ h.conserved with no_crash := hp }, h.full⟩

/-! ### Fetching -/

theorem takeOver (h : InjectorInv c w) {job : RetrieveJob} (hid : job.id = w.fetched)
    (hfi : w.held.length + 1 < 2 ^ 64) (hby : totalSize w.held + job.fileSize.toNat < 2 ^ 64) :
    InjectorInv c (w.takeOver job) := by
  have hh : (w.takeOver job).held = w.held ++ [job] := by
    show (w.m_jobs ++ [some job]).filterMap id = _
    rw [filterMap_append]
    rfl
  refine ⟨⟨?_, h.conserved.both_sides, ?_, ?_, h.conserved.pushed, h.conserved.limits,
    h.conserved.no_crash⟩, ?_⟩
  · rw [hh]
    show ((w.held ++ [job] ++ w.diskWriter ++ w.requeued).map RetrieveJob.id).Perm
      (List.range (w.fetched + 1))
    have hm : (w.held ++ [job] ++ w.diskWriter ++ w.requeued).Perm
        (w.held ++ w.diskWriter ++ w.requeued ++ [job]) := by
      simp only [append_assoc, perm_append_left_iff]
      exact perm_append_comm.trans (by rw [append_assoc])
    refine (hm.map _).trans ?_
    rw [map_append, range_succ]
    show (_ ++ [job.id]).Perm _
    rw [hid]
    exact h.conserved.exactly_one.append_right _
  · rw [hh, length_append, length_singleton, ← h.conserved.files]
    show (w.m_files + 1).toNat = _
    have hf := h.conserved.files
    show (w.m_files.toNat + 1) % 2 ^ 64 = _
    exact Nat.mod_eq_of_lt (by omega)
  · rw [hh, totalSize_append, ← h.conserved.bytes]
    show (w.m_bytes + job.fileSize).toNat = _
    rw [UInt64.toNat_add]
    have hb := h.conserved.bytes
    exact Nat.mod_eq_of_lt (by omega)
  · intro x hx
    cases mem_append.mp hx with
    | inl hx => exact h.full x hx
    | inr hx =>
      cases mem_singleton.mp hx
      rfl

/-- The whole list is taken over. -/
theorem takeOver_all : ∀ {jobs : List (UInt64 × Option String)} {w : World}, InjectorInv c w →
    w.held.length + jobs.length < 2 ^ 64 →
    totalSize w.held + (jobs.map (fun job => job.1.toNat)).sum < 2 ^ 64 →
    InjectorInv c ((World.newJobs w.fetched jobs).foldl World.takeOver w) := by
  intro jobs
  induction jobs with
  | nil =>
    intro w h _ _
    exact h
  | cons job jobs ih =>
    intro w h hf hb
    obtain ⟨fileSize, diskSystemName⟩ := job
    rw [length_cons] at hf
    rw [map_cons, sum_cons] at hb
    dsimp only at hb
    have hta : InjectorInv c (w.takeOver ⟨w.fetched, fileSize, diskSystemName⟩) :=
      h.takeOver rfl (by omega) (by show totalSize w.held + fileSize.toNat < _; omega)
    have hh : (w.takeOver ⟨w.fetched, fileSize, diskSystemName⟩).held
        = w.held ++ [⟨w.fetched, fileSize, diskSystemName⟩] := by
      show (w.m_jobs ++ [some _]).filterMap id = _
      rw [filterMap_append]
      rfl
    refine ih hta ?_ ?_
    · rw [hh, length_append, length_singleton]
      omega
    rw [hh, totalSize_append]
    show totalSize w.held + fileSize.toNat + _ < _
    omega

theorem synchronousFetch (h : InjectorInv c w) {answer : World.MountAnswer}
    (hr : Regular c w (.fetch answer)) : InjectorInv c (w.synchronousFetch c answer).1 := by
  unfold World.synchronousFetch
  split
  · cases answer with
    | none => exact h
    | some jobs =>
      have ha := takeOver_all h hr.1 hr.2
      exact ⟨{ ha.conserved with }, ha.full⟩
  · exact h

/-! ### Reserving -/

theorem reserveSpaceForNextJobBatch (h : InjectorInv c w) (useRAO : Bool) (order : List Nat)
    (outcome : World.Outcome) :
    InjectorInv c (w.reserveSpaceForNextJobBatch c useRAO order outcome).1 := by
  have hr : ∀ reserved, InjectorInv c { w with m_reservedFreeSpace := reserved } :=
    fun _ => ⟨{ h.conserved with }, h.full⟩
  unfold World.reserveSpaceForNextJobBatch
  dsimp only
  split
  · exact hr _
  cases outcome with
  | granted | removed => exact hr _
  | refused =>
    refine ⟨⟨?_, h.conserved.both_sides, rfl, rfl, h.conserved.pushed, h.conserved.limits,
      h.conserved.no_crash⟩, fun _ hx => absurd hx not_mem_nil⟩
    show (([] ++ w.diskWriter ++ (w.requeued ++ w.held)).map RetrieveJob.id).Perm _
    refine List.Perm.trans (List.Perm.map _ ?_) h.conserved.exactly_one
    rw [nil_append, append_assoc, ← append_assoc w.diskWriter]
    exact perm_append_comm

/-! ### Injecting -/

theorem injectBulkRecalls (h : InjectorInv c w) {order : List Nat}
    (ho : order.Perm (List.range w.m_jobs.length)) (hr : Regular c w (.inject order)) :
    InjectorInv c (w.injectBulkRecalls c order).1 ∧
      (w.injectBulkRecalls c order).2 = .returned := by
  have hf := h.conserved.files
  have hb := h.conserved.bytes
  have hfi : w.held.length < 2 ^ 64 := by
    rw [← hf]
    exact w.m_files.toNat_lt
  have hfb : totalSize w.held < 2 ^ 64 := by
    rw [← hb]
    exact w.m_bytes.toNat_lt
  obtain ⟨hn, hl⟩ := @World.lookup_recallOrder w h.full c.useRAO order ho
  have hs : World.SelectInv c w.held 0 0 ⟨w.m_jobs, w.m_files, w.m_bytes, []⟩ :=
    ⟨by rw [append_nil]; exact List.Perm.refl _, hf, hb, rfl, rfl,
      Nat.zero_le _, fun hne => absurd rfl hne⟩
  obtain ⟨s, nFiles, nBytes, hlo, hin, hba⟩ := World.selectLoop_spec hfi hfb hs hn
      (fun index hi => (hl index hi).imp (fun job hj => ⟨hj, hj⟩))
  have hp : s.retrieveJobsBatch = w.previewGetNextJobBatch c c.useRAO order := hba
  have he : World.Reserved w.m_reservedFreeSpace s.retrieveJobsBatch := by
    rw [hp]
    exact hr
  obtain ⟨reserved, hpu⟩ := World.pushTasks_reserved he
  have hh : (s.m_jobs.filter Option.isSome).filterMap id = s.m_jobs.filterMap id := by
    rw [filterMap_filter]
    refine filterMap_congr (fun x _ => ?_)
    cases x <;> rfl
  unfold World.injectBulkRecalls
  rw [hlo]
  dsimp only
  rw [hpu]
  refine ⟨⟨⟨?_, ?_, ?_, ?_, ?_, ?_, h.conserved.no_crash⟩, ?_⟩, rfl⟩
  · show (((s.m_jobs.filter Option.isSome).filterMap id ++ (w.diskWriter ++ s.retrieveJobsBatch)
      ++ w.requeued).map RetrieveJob.id).Perm _
    rw [hh]
    refine List.Perm.trans (List.Perm.map _ ?_) h.conserved.exactly_one
    refine List.Perm.append_right _ ?_
    refine List.Perm.trans ?_ (hin.perm.append_right w.diskWriter)
    rw [append_assoc]
    exact List.Perm.append_left _ perm_append_comm
  · show w.tapeReader ++ _ = w.diskWriter ++ _
    rw [h.conserved.both_sides]
  · show s.m_files.toNat = ((s.m_jobs.filter Option.isSome).filterMap id).length
    rw [hh]
    exact hin.files
  · show s.m_bytes.toNat = totalSize ((s.m_jobs.filter Option.isSome).filterMap id)
    rw [hh]
    exact hin.bytes
  · show w.diskWriter ++ s.retrieveJobsBatch = (w.batches ++ [s.retrieveJobsBatch]).flatten
    rw [flatten_append, ← h.conserved.pushed]
    simp
  · intro batch hm
    cases mem_append.mp hm with
    | inl hm => exact h.conserved.limits batch hm
    | inr hm =>
      cases mem_singleton.mp hm
      exact hin.ok
  · intro x hx
    exact (mem_filter.mp hx).2

/-! ### One call -/

/-- Every regular call keeps the property. -/
theorem step (h : InjectorInv c w) (e : Event) (hre : Regular c w e) :
    InjectorInv c (w.step c e) := by
  unfold World.step
  split
  · next hok =>
    cases e with
    | fetch answer =>
      have hf := h.synchronousFetch hre
      unfold World.call
      dsimp only
      split
      · exact hf.move (by split <;> exact Place.noConfusion)
      · exact hf.move Place.noConfusion
      · exact hf.move Place.noConfusion
      · exact h
    | limits maxSupported =>
      unfold World.call
      dsimp only
      split
      · refine ⟨⟨h.conserved.exactly_one, h.conserved.both_sides, h.conserved.files,
          h.conserved.bytes, h.conserved.pushed, h.conserved.limits, ?_⟩, h.full⟩
        split
        · split <;> exact Place.noConfusion
        · exact Place.noConfusion
      · exact h
    | reserve order outcome =>
      unfold World.call
      dsimp only
      split
      · refine (h.reserveSpaceForNextJobBatch _ order outcome).move ?_
        split
        · split <;> exact Place.noConfusion
        · exact Place.noConfusion
      · refine (h.reserveSpaceForNextJobBatch _ order outcome).move ?_
        split <;> exact Place.noConfusion
      · refine (h.reserveSpaceForNextJobBatch _ order outcome).move ?_
        unfold World.afterReserve
        split
        · split <;> exact Place.noConfusion
        · exact Place.noConfusion
      · exact h
    | inject order =>
      obtain ⟨hi, hr⟩ := h.injectBulkRecalls (isPerm_iff.mp hok) hre
      unfold World.call
      dsimp only
      split
      · rw [if_pos hr]
        exact hi.move Place.noConfusion
      · rw [hr]
        exact hi.move Place.noConfusion
      · exact h
    | request req =>
      unfold World.call
      dsimp only
      split
      · exact h.move Place.noConfusion
      · exact h.move Place.noConfusion
      · refine h.move ?_
        unfold World.afterReserve
        split
        · split <;> exact Place.noConfusion
        · exact Place.noConfusion
      · exact h
  · exact h

end InjectorInv

/-! ## Whole runs -/

/-- **Recall jobs are conserved** in every run in which every injected batch has its entries and
the sizes fit into 64 bits. -/
theorem recall_jobs_conserved (c : Config) (m_fetched : UInt32) (es : List Event)
    (hes : Along (World.step c) (Regular c) (World.initial m_fetched) es) :
    JobsConserved c (run (World.step c) (World.initial m_fetched) es) := by
  have hi : InjectorInv c (run (World.step c) (World.initial m_fetched) es) :=
    run_invariant (fun w e h hr => h.step e hr) (InjectorInv.initial c m_fetched) hes
  exact hi.conserved

def twoFiles : Config := ⟨2, 1000, true⟩

/-- One file is recalled; then three files are fetched, of which one goes to a disk system. -/
def untilInjection : List Event :=
  [.fetch (some [(10, none)]), .reserve [0] .granted, .limits none, .reserve [0] .granted,
   .inject [0], .request (.injection false),
   .fetch (some [(20, none), (30, none), (40, some "diskSystem")]),
   .reserve [0, 1, 2] .granted]

def previewedOrder : List Event :=
  untilInjection.dropLast ++ [.reserve [2, 0, 1] .granted, .inject [2, 0, 1]]

/-- The batch that was looked at is injected, with the job of the disk system. -/
theorem previewed_order_conserved :
    (run (World.step twoFiles) (World.initial 0) previewedOrder).held = [⟨2, 30, none⟩] ∧
      JobsConserved twoFiles (run (World.step twoFiles) (World.initial 0) previewedOrder) :=
  ⟨by decide +kernel, recall_jobs_conserved twoFiles 0 _ (by decide +kernel)⟩

def otherOrder : World :=
  run (World.step twoFiles) (World.initial 0) (untilInjection ++ [.inject [2, 0, 1]])

/-- Batches of less than two bytes and one more file. -/
def twoBytes : Config := ⟨10, 2, false⟩

/-- Three files whose sizes do not fit into 64 bits. -/
def overflow : World :=
  run (World.step twoBytes) (World.initial 0)
    [.fetch (some [(1, none), (18446744073709551615, none), (5, none)]),
     .reserve [0, 1, 2] .granted, .reserve [0, 1, 2] .granted, .inject [0, 1, 2]]

/-- The order changes between reservation and injection, and `removeRequest` throws after the
first task; the sizes of three files overflow, and a batch goes beyond its limit. -/
theorem other_order_destroys_a_job : (otherOrder.fetched = 4 ∧ otherOrder.place = .ended ∧
      otherOrder.held.map RetrieveJob.id = [2] ∧
      otherOrder.diskWriter.map RetrieveJob.id = [0, 3] ∧ otherOrder.requeued = [] ∧
      ¬ JobsConserved twoFiles otherOrder) ∧
    (overflow.batches.map (List.map RetrieveJob.id) = [[0, 1, 2]] ∧
      ¬ JobsConserved twoBytes overflow) := by
  refine ⟨⟨by decide +kernel, by decide +kernel, by decide +kernel, by decide +kernel,
    by decide +kernel, ?_⟩, by decide +kernel, ?_⟩
  · intro h
    have hl := h.exactly_one.length_eq
    exact absurd hl (by decide +kernel)
  · intro h
    have hb : overflow.batches
        = [[⟨0, 1, none⟩, ⟨1, 18446744073709551615, none⟩, ⟨2, 5, none⟩]] := by
      decide +kernel
    have hli := h.limits _ (by rw [hb]; exact mem_singleton_self _)
    exact absurd (hli.2 (cons_ne_nil _ _)) (by decide +kernel)

/-! ## A disk system that was removed -/

namespace World

def asksForSpace (c : Config) (w : World) (useRAO : Bool) (order : List Nat) : Bool :=
  (compareReserved w.m_reservedFreeSpace
    (necessaryReservedSpace (w.previewGetNextJobBatch c useRAO order))).needReservation

/-- A batch for which no reservation changes: not at the injection, and not by what
`RetrieveJob::failTransfer` and the report of a success give back for a job. -/
structure Uncharged (batch : List RetrieveJob) : Prop where
  names : ∀ job ∈ batch, job.diskSystemName = none
  injection : ∀ reserved, (pushTasks batch reserved).1 = reserved
  release : ∀ job ∈ batch, addNecessary ∅ job = ∅

theorem necessaryReservedSpace_of_none {batch : List RetrieveJob}
    (h : ∀ job ∈ batch, job.diskSystemName = none) : necessaryReservedSpace batch = ∅ := by
  unfold necessaryReservedSpace
  induction batch with
  | nil => rfl
  | cons job batch ih =>
    rw [foldl_cons, addNecessary, h job mem_cons_self]
    exact ih (fun j hj => h j (.tail _ hj))

/-- **THE JOBS OF A REMOVED DISK SYSTEM ARE TREATED AS HAVING NONE** only when the mount is not
asked at all. -/
theorem removed_system_iff (c : Config) (w : World) (useRAO : Bool) (order : List Nat) :
    (w.asksForSpace c useRAO order = true →
        Uncharged ((w.reserveSpaceForNextJobBatch c useRAO order .removed).1.previewGetNextJobBatch
          c useRAO order))
      ↔ w.asksForSpace c useRAO order = false := by
  have hb : (w.reserveSpaceForNextJobBatch c useRAO order .removed).1.previewGetNextJobBatch
      c useRAO order = w.previewGetNextJobBatch c useRAO order := by
    unfold reserveSpaceForNextJobBatch
    dsimp only
    split <;> rfl
  rw [hb]
  constructor
  · intro h
    by_contra ha
    have hn := (h (Bool.not_eq_false _ ▸ ha)).names
    unfold asksForSpace at ha
    rw [necessaryReservedSpace_of_none hn] at ha
    exact ha rfl
  · intro hno ha
    rw [hno] at ha
    cases ha

/-- A file for a disk system, and nothing reserved. -/
def removedSystem : World :=
  { World.initial 0 with m_jobs := [some ⟨0, 40, some "diskSystem"⟩] }

/-- **A JOB KEEPS THE NAME OF ITS REMOVED DISK SYSTEM.** -/
theorem job_keeps_removed_system : removedSystem.asksForSpace twoFiles false [] = true
    ∧ (removedSystem.reserveSpaceForNextJobBatch twoFiles false [] .removed).1.m_jobs
      = [some ⟨0, 40, some "diskSystem"⟩] := by
  decide +kernel

end World

end TapeArchive.Tapeserver.RecallInjector
