/-
  **THE ROOT ENTRY AND ITS QUEUES** (`RootEntry.cpp`). A pointer is committed BEFORE its
  queue object is inserted, and removed AFTER it is gone, under the lock of the root entry:

      addOrGet:  find ─ add pointer ─ commit root ─ insert queue
      remove:    find ─ lock queue ─ fetch, check ─ remove queue ─ commit root

  In between, other processes change queues under the locks of the queues, any operation
  may throw, and any process may die, which frees its locks. Every process may make any
  call, and lock any address.
-/
import TapeArchive.Lib.Locks
import TapeArchive.Objectstore.ArchiveQueue
import TapeArchive.Objectstore.ArchiveRequest
import TapeArchive.Objectstore.QueueSummaries
import TapeArchive.Objectstore.RetrieveQueue

namespace TapeArchive.Objectstore

open Lib List
open Function (update_of_ne update_self)

/-! ## Pointers -/

inductive QueueClass where
  | archive
  | retrieve
  deriving DecidableEq

/-- `ArchiveQueuePointer` (of a tape pool) and `RetrieveQueuePointer` (of a vid). -/
structure QueuePointer where
  (name address : String)
  deriving DecidableEq

structure QueueKey where
  queueClass : QueueClass
  queueType : JobQueueType
  name : String

section Repeated

variable {α : Type} (isMatch : α → Bool)

/-- The first match is swapped with the last element, which is then removed. -/
def removeFirst : List α → Option (List α)
  | [] => none
  | x :: xs =>
      if isMatch x then
        match xs.getLast? with
        | some last => some (last :: xs.dropLast)
        | none => some []
      else (removeFirst xs).map (x :: ·)

/-- The rounds of `removeOccurences`; every round but the last removes an element. -/
def removeRounds : Nat → List α → List α
  | 0, l => l
  | n + 1, l =>
      match removeFirst isMatch l with
      | some l' => removeRounds n l'
      | none => l

def removeOccurences (l : List α) : List α := removeRounds isMatch l.length l

variable {isMatch}

theorem removeFirst_none {l : List α} (h : removeFirst isMatch l = none) :
    ∀ x ∈ l, isMatch x = false := by
  induction l with
  | nil => exact nofun
  | cons y ys ih =>
    unfold removeFirst at h
    split at h
    case isTrue => split at h <;> cases h
    case isFalse hy =>
      intro x hx
      rcases List.mem_cons.mp hx with rfl | hm
      · exact Bool.eq_false_iff.mpr hy
      · exact ih (Option.map_eq_none_iff.mp h) x hm

/-- A round removes one match, and permutes the rest. -/
theorem removeFirst_some {l l' : List α} (h : removeFirst isMatch l = some l') :
    ∃ x, isMatch x = true ∧ (x :: l').Perm l := by
  induction l generalizing l' with
  | nil => cases h
  | cons y ys ih =>
    unfold removeFirst at h
    split at h
    case isTrue hy =>
      refine ⟨y, hy, List.Perm.cons y ?_⟩
      split at h
      case h_1 last hlast =>
        cases h
        obtain ⟨front, rfl⟩ := List.getLast?_eq_some_iff.mp hlast
        rw [dropLast_concat]
        exact (perm_append_singleton last front).symm
      case h_2 hlast =>
        cases h
        rw [List.getLast?_eq_none_iff.mp hlast]
    case isFalse =>
      obtain ⟨l0, hl0, rfl⟩ := Option.map_eq_some_iff.mp h
      obtain ⟨x, hx, hp⟩ := ih hl0
      exact ⟨x, hx, (List.Perm.swap y x l0).trans (hp.cons y)⟩

theorem removeRounds_perm {n : Nat} {l : List α} (hn : l.length ≤ n) :
    (removeRounds isMatch n l).Perm (l.filter (fun x => !isMatch x)) := by
  induction n generalizing l with
  | zero =>
    rw [eq_nil_of_length_eq_zero (Nat.le_zero.mp hn)]
    exact List.Perm.refl _
  | succ n ih =>
    unfold removeRounds
    split
    case h_1 l' hr =>
      obtain ⟨x, hx, hp⟩ := removeFirst_some hr
      have hl := hp.length_eq
      rw [length_cons] at hl
      have hf := hp.filter (fun x => !isMatch x)
      rw [filter_cons_of_neg (by rw [hx]; exact Bool.false_ne_true)] at hf
      exact (ih (by omega)).trans hf
    case h_2 hr =>
      rw [List.filter_eq_self.mpr]
      intro x hx
      rw [removeFirst_none hr x hx]
      rfl

/-- **`removeOccurences` keeps what does not match.** -/
theorem removeOccurences_perm (l : List α) :
    (removeOccurences isMatch l).Perm (l.filter (fun x => !isMatch x)) :=
  removeRounds_perm (Nat.le_refl _)

end Repeated

/-- `serializers::RootEntry`: the pointers to the job queues, one list per queue type. -/
structure RootEntry where
  (archiveQueuePointers retrieveQueuePointers : JobQueueType → List QueuePointer)

namespace RootEntry

variable (re : RootEntry)

/-- The pointers that `archiveQueuePointers(queueType)` or `retrieveQueuePointers(queueType)`
gives. -/
def pointers : QueueClass → JobQueueType → List QueuePointer
  | .archive => re.archiveQueuePointers
  | .retrieve => re.retrieveQueuePointers

variable (key : QueueKey)

def setPointers (l : List QueuePointer) : RootEntry :=
  match key.queueClass with
  | .archive =>
      { re with archiveQueuePointers := Function.update re.archiveQueuePointers key.queueType l }
  | .retrieve =>
      { re with retrieveQueuePointers := Function.update re.retrieveQueuePointers key.queueType l }

/-- `findElement`, as in `getArchiveQueueAddress` and `getRetrieveQueueAddress`. -/
def findAddress : Option String :=
  ((re.pointers key.queueClass key.queueType).find? (·.name = key.name)).map (·.address)

/-- `Add()`, `set_address` and the name. -/
def addPointer (address : String) : RootEntry :=
  re.setPointers key (re.pointers key.queueClass key.queueType ++ [⟨key.name, address⟩])

def removePointers : RootEntry :=
  re.setPointers key
    (Objectstore.removeOccurences (·.name = key.name) (re.pointers key.queueClass key.queueType))

theorem pointers_setPointers (l : List QueuePointer) (c : QueueClass) (t : JobQueueType) :
    (re.setPointers key l).pointers c t =
      if c = key.queueClass ∧ t = key.queueType then l else re.pointers c t := by
  obtain ⟨kc, kt, name⟩ := key
  cases kc <;> cases c <;>
    simp [setPointers, pointers, Function.update_apply]

end RootEntry

/-! ## Queue objects -/

inductive QueueContents where
  | archive (q : ArchiveQueue)
  | retrieve (q : RetrieveQueue)

namespace QueueContents

def queueClass : QueueContents → QueueClass
  | .archive _ => .archive
  | .retrieve _ => .retrieve

/-- `getTapePool` and `getVid`. -/
def name : QueueContents → String
  | .archive q => q.tapepool
  | .retrieve q => q.vid

/-- `ArchiveQueue::isEmpty` and `RetrieveQueue::isEmpty`. -/
def isEmpty : QueueContents → Bool
  | .archive q => q.queueshards.isEmpty
  | .retrieve q => q.jobstotalsize = 0 && q.queueshards.isEmpty

/-- `initialize`; `maxShardSize` is the maximum shard size of a retrieve queue. -/
def initialized (maxShardSize : UInt64) (name : String) : QueueClass → QueueContents
  | .archive => .archive (ArchiveQueue.initialized name)
  | .retrieve => .retrieve (RetrieveQueue.initialized name maxShardSize)

/-- Whatever the shard objects are, the queue contains no job. -/
def ContainsNoJob : QueueContents → Prop
  | .archive q => ∀ st : QueueStore ArchiveQueue ArchiveJobPointer, queuedJobs st q.queueshards = []
  | .retrieve q =>
      ∀ st : QueueStore RetrieveQueue RetrieveJobPointer, queuedJobs st q.queueshards = []

theorem containsNoJob_of_isEmpty {q : QueueContents} (h : q.isEmpty = true) : q.ContainsNoJob := by
  cases q with
  | archive q =>
    intro st
    rw [List.isEmpty_iff.mp (show q.queueshards.isEmpty = true from h)]
    rfl
  | retrieve q =>
    intro st
    have hs := (Bool.and_eq_true_iff.mp h).2
    rw [List.isEmpty_iff.mp hs]
    rfl

end QueueContents

structure QueueObject where
  (owner backupOwner : String)
  contents : QueueContents

inductive RootExn where
  /-- An exception of the object store. -/
  | objectStore (exn : Exn)
  | wrongQueue (message : String)
  /-- `ArchiveQueueNotEmpty`, `RetrieveQueueNotEmpty`. -/
  | queueNotEmpty (message : String)
  /-- `NoSuchArchiveQueue`, `NoSuchRetrieveQueue`. -/
  | noSuchQueue (message : String)

/-- Where the code of the two classes differs. -/
structure QueueClassTexts where
  nameHeader : JobQueueType → String
  /-- From the address of the root entry. -/
  backupOwner : String → String
  wrongName : String → String → String
  (notEmpty noSuchQueue : String)

/-- The header for failures reported to repack says "Success". -/
def archiveQueueTexts : QueueClassTexts where
  nameHeader := fun
    | .jobsToTransferForUser => "ArchiveQueueToTransferForUser"
    | .jobsToReportToRepackForFailure => "ArchiveQueueToReportToRepackForSuccess"
    | .jobsToReportToRepackForSuccess => "ArchiveQueueToReportToRepackForSuccess"
    | .jobsToReportToUser => "ArchiveQueueToReportForUser"
    | .failedJobs => "ArchiveQueueFailed"
    | .jobsToTransferForRepack => "ArchiveQueueToTransferForRepack"
  backupOwner := id
  wrongName := fun expected found =>
    "In RootEntry::removeArchiveQueueAndCommit(): Unexpected tape pool name found in archive queue pointed to for tape pool: "
      ++ expected ++ " found: " ++ found
  notEmpty := "In RootEntry::removeArchiveQueueAndCommit(): trying to remove a non-empty archive queue"
  noSuchQueue :=
    "In RootEntry::removeArchiveQueueAndCommit(): trying to remove non-existing archive queue"

/-- `addOrGetRetrieveQueueAndCommit` and `removeRetrieveQueueAndCommit`. -/
def retrieveQueueTexts : QueueClassTexts where
  nameHeader := fun
    | .jobsToTransferForUser => "RetrieveQueueToTransferForUser"
    | .jobsToReportToUser => "RetrieveQueueToReportForUser"
    | .failedJobs => "RetrieveQueueFailed"
    | .jobsToReportToRepackForSuccess => "RetrieveQueueToReportToRepackForSuccess"
    | .jobsToReportToRepackForFailure => "RetrieveQueueToReportToRepackForFailure"
    | .jobsToTransferForRepack => "RetrieveQueueToTransferForRepack"
  backupOwner := fun _ => "root"
  wrongName := fun expected found =>
    "Unexpected vid found in retrieve queue pointed to for vid: " ++ expected ++ " found: " ++ found
  notEmpty := "In RootEntry::removeTapePoolQueueAndCommit: trying to remove a non-empty tape pool"
  noSuchQueue :=
    "In RootEntry::removeRetrieveQueueAndCommit: trying to remove non-existing retrieve queue"

def QueueClass.texts : QueueClass → QueueClassTexts
  | .archive => archiveQueueTexts
  | .retrieve => retrieveQueueTexts

namespace RootEntry

/-! ## Processes -/

inductive Outcome where
  | returned (address : Option String)
  | threw (exn : RootExn)

/-- Where a process is; `re` is its copy of the root entry, which it has locked. -/
inductive Phase where
  | idle
  /-- Between two calls. -/
  | locked (re : RootEntry) (last : Option Outcome)
  /-- Before the commit of the new pointer. -/
  | adding (re : RootEntry) (key : QueueKey) (address : String)
  /-- Before `insert` of the new queue. -/
  | inserting (re : RootEntry) (key : QueueKey) (address : String)
  /-- Before the lock of the queue to remove. -/
  | removing (re : RootEntry) (key : QueueKey) (address : String)
  /-- Before the fetch and the checks. -/
  | fetching (re : RootEntry) (key : QueueKey) (address : String)
  /-- In the `catch` clause, before `exists`. -/
  | failedAccess (re : RootEntry) (key : QueueKey) (address : String) (exn : Exn)
  /-- Before `remove` of the queue. -/
  | deleting (re : RootEntry) (key : QueueKey) (address : String)
  /-- Before the commit without the pointer. -/
  | dereferencing (re : RootEntry) (key : QueueKey)
  /-- Another process, which has locked a queue. -/
  | editing (address : String)

/-- The root entry, the queues, the locks and the processes. -/
structure World where
  root : RootEntry
  rootAddress : String
  maxShardSize : UInt64
  rootLock : Option Nat
  queues : String → Option QueueObject
  locks : Locks String Nat
  phase : Nat → Phase

/-- The steps of a process `p`. -/
inductive Event where
  /-- `ScopedExclusiveLock` and `fetch` of the root entry. -/
  | lockRoot (p : Nat)
  | unlockRoot (p : Nat)
  | addOrGetArchiveQueue (p : Nat) (tapePool : String) (queueType : JobQueueType)
      (agentRef : AgentReference)
  | addOrGetRetrieveQueue (p : Nat) (vid : String) (queueType : JobQueueType)
      (agentRef : AgentReference)
  | removeArchiveQueue (p : Nat) (tapePool : String) (queueType : JobQueueType)
  | removeRetrieveQueue (p : Nat) (vid : String) (queueType : JobQueueType)
  /-- The next operation of the call, which may throw. -/
  | advance (p : Nat) (exn : Option Exn)
  | lockQueue (p : Nat) (address : String)
  /-- A commit of the locked queue, with other jobs. -/
  | edit (p : Nat) (contents : QueueContents)
  | unlockQueue (p : Nat)
  | crash (p : Nat)

namespace World

def start (rootAddress : String) (maxShardSize : UInt64) : World where
  root := ⟨fun _ => [], fun _ => []⟩
  rootAddress := rootAddress
  maxShardSize := maxShardSize
  rootLock := none
  queues := fun _ => none
  locks := fun _ => none
  phase := fun _ => .idle

variable (w : World)

variable (p : Nat)

def setPhase (phase : Phase) : World :=
  { w with phase := Function.update w.phase p phase }

def lockRoot : World :=
  match w.phase p, w.rootLock with
  | .idle, none => { w with rootLock := some p }.setPhase p (.locked w.root none)
  | _, _ => w

def unlockRoot : World :=
  match w.phase p with
  | .locked _ _ => { w with rootLock := none }.setPhase p .idle
  | _ => w

variable (re : RootEntry)

/-- An exception leaves a call: the lock of the queue is gone, that of the root entry is not. -/
def throw (exn : RootExn) : World :=
  { w with locks := w.locks.releaseAll p }.setPhase p (.locked re (some (.threw exn)))

/-! ## The calls -/

variable (key : QueueKey)

/-- The two `addOrGet...QueueAndCommit`, up to the first commit. -/
def addOrGetQueueAndCommit (agentRef : AgentReference) :
    World :=
  match w.phase p with
  | .locked re _ =>
      match re.findAddress key with
      | some address => w.setPhase p (.locked re (some (.returned (some address))))
      | none =>
          let header := key.queueClass.texts.nameHeader key.queueType
          let address := agentRef.idAt (header ++ "-" ++ key.name) agentRef.m_nextId
          w.setPhase p (.adding (re.addPointer key address) key address)
  | _ => w

def addOrGetArchiveQueueAndCommit (tapePool : String)
    (agentRef : AgentReference) (queueType : JobQueueType) : World :=
  w.addOrGetQueueAndCommit p ⟨.archive, queueType, tapePool⟩ agentRef

def addOrGetRetrieveQueueAndCommit (vid : String)
    (agentRef : AgentReference) (queueType : JobQueueType) : World :=
  w.addOrGetQueueAndCommit p ⟨.retrieve, queueType, vid⟩ agentRef

/-- The two `remove...QueueAndCommit`, up to the lock of the queue. -/
def removeQueueAndCommit : World :=
  match w.phase p with
  | .locked re _ =>
      match re.findAddress key with
      | some address => w.setPhase p (.removing re key address)
      | none => w.throw p re (.noSuchQueue key.queueClass.texts.noSuchQueue)
  | _ => w

def removeArchiveQueueAndCommit (tapePool : String) (queueType : JobQueueType) : World :=
  w.removeQueueAndCommit p ⟨.archive, queueType, tapePool⟩

def removeRetrieveQueueAndCommit (vid : String) (queueType : JobQueueType) : World :=
  w.removeQueueAndCommit p ⟨.retrieve, queueType, vid⟩

variable (address : String)

/-- `aq.insert()` of the new queue, which is owned by the root entry. -/
def insertQueue :
    World :=
  match w.queues address with
  | some _ => w.throw p re (.objectStore (.backend address))
  | none =>
      { w with queues := Function.update w.queues address (some
          { owner := w.rootAddress
            backupOwner := key.queueClass.texts.backupOwner w.rootAddress
            contents := .initialized w.maxShardSize key.name key.queueClass })
      }.setPhase p (.locked re (some (.returned (some address))))

/-- `aql.lock(aq)`; it waits for the lock. -/
def lockForRemoval :
    World :=
  match w.queues address with
  | none => w.setPhase p (.failedAccess re key address (.noSuchObject address))
  | some _ =>
      match w.locks address with
      | none => { w with locks := w.locks.acquire address p }.setPhase p (.fetching re key address)
      | some _ => w

/-- `aq.fetch()` and the checks of the name and of the jobs. -/
def fetchForRemoval :
    World :=
  match w.queues address with
  | none => w.setPhase p (.failedAccess re key address (.noSuchObject address))
  | some o =>
      if o.contents.queueClass = key.queueClass then
        if o.contents.name ≠ key.name then
          w.throw p re (.wrongQueue (key.queueClass.texts.wrongName key.name o.contents.name))
        else if o.contents.isEmpty then w.setPhase p (.deleting re key address)
        else w.throw p re (.queueNotEmpty key.queueClass.texts.notEmpty)
      else w.setPhase p (.failedAccess re key address (.wrongType address))

/-- The `catch` clause: the reference to a queue that is gone is removed. -/
def checkGone (exn : Exn) : World :=
  match w.queues address with
  | some _ => w.throw p re (.objectStore exn)
  | none => w.setPhase p (.dereferencing (re.removePointers key) key)

/-- `aq.remove()`. -/
def removeQueue :
    World :=
  match w.queues address with
  | none => w.throw p re (.objectStore (.backend address))
  | some _ =>
      { w with queues := Function.update w.queues address none }.setPhase p
        (.dereferencing (re.removePointers key) key)

def proceed : World :=
  match w.phase p with
  | .adding re key address => { w with root := re }.setPhase p (.inserting re key address)
  | .inserting re key address => w.insertQueue p re key address
  | .removing re key address => w.lockForRemoval p re key address
  | .fetching re key address => w.fetchForRemoval p re key address
  | .failedAccess re key address exn => w.checkGone p re key address exn
  | .deleting re key address => w.removeQueue p re key address
  | .dereferencing re _ =>
      { w with root := re, locks := w.locks.releaseAll p }.setPhase p
        (.locked re (some (.returned none)))
  | _ => w

def fail (exn : Exn) : World :=
  match w.phase p with
  | .removing re key address | .fetching re key address =>
      w.setPhase p (.failedAccess re key address exn)
  | .adding re _ _ | .inserting re _ _ | .failedAccess re _ _ _ | .deleting re _ _
  | .dereferencing re _ => w.throw p re (.objectStore exn)
  | _ => w

/-! ## The other processes -/

def lockQueue : World :=
  match w.phase p, w.queues address, w.locks address with
  | .idle, some _, none =>
      { w with locks := w.locks.acquire address p }.setPhase p (.editing address)
  | _, _, _ => w

/-- It commits the queue, whose class and name stay. -/
def edit (contents : QueueContents) : World :=
  match w.phase p with
  | .editing address =>
      match w.queues address with
      | some o =>
          if contents.queueClass = o.contents.queueClass ∧ contents.name = o.contents.name then
            { w with
              queues := Function.update w.queues address (some { o with contents := contents }) }
          else w
      | none => w
  | _ => w

def unlockQueue : World :=
  match w.phase p with
  | .editing address => { w with locks := w.locks.release address }.setPhase p .idle
  | _ => w

def crash : World :=
  { w with
    rootLock := if w.rootLock = some p then none else w.rootLock
    locks := w.locks.releaseAll p }.setPhase p .idle

def step : Event → World
  | .lockRoot p => w.lockRoot p
  | .unlockRoot p => w.unlockRoot p
  | .addOrGetArchiveQueue p tapePool queueType agentRef =>
      w.addOrGetArchiveQueueAndCommit p tapePool agentRef queueType
  | .addOrGetRetrieveQueue p vid queueType agentRef =>
      w.addOrGetRetrieveQueueAndCommit p vid agentRef queueType
  | .removeArchiveQueue p tapePool queueType => w.removeArchiveQueueAndCommit p tapePool queueType
  | .removeRetrieveQueue p vid queueType => w.removeRetrieveQueueAndCommit p vid queueType
  | .advance p none => w.proceed p
  | .advance p (some exn) => w.fail p exn
  | .lockQueue p address => w.lockQueue p address
  | .edit p contents => w.edit p contents
  | .unlockQueue p => w.unlockQueue p
  | .crash p => w.crash p

end World

/-! ## Root entries that fit the queues -/

/-- One pointer per name, and every queue is referenced under its own name. -/
structure Ok (re : RootEntry) (queues : String → Option QueueObject) : Prop where
  distinct : ∀ c t, ((re.pointers c t).map (·.name)).Nodup
  referenced : ∀ a o, queues a = some o →
    ∃ t, ⟨o.contents.name, a⟩ ∈ re.pointers o.contents.queueClass t

variable {re : RootEntry} {key : QueueKey} {a : String}

theorem mem_of_findAddress (h : re.findAddress key = some a) :
    ⟨key.name, a⟩ ∈ re.pointers key.queueClass key.queueType := by
  obtain ⟨p, hp, rfl⟩ := Option.map_eq_some_iff.mp h
  have hn := List.find?_some hp
  rw [← of_decide_eq_true hn]
  exact mem_of_find?_eq_some hp

theorem pointers_addPointer (re : RootEntry) (key : QueueKey) (a : String) :
    (re.addPointer key a).pointers key.queueClass key.queueType =
      re.pointers key.queueClass key.queueType ++ [⟨key.name, a⟩] := by
  unfold addPointer
  rw [pointers_setPointers, if_pos ⟨rfl, rfl⟩]

namespace Ok

variable {re : RootEntry} {queues queues' : String → Option QueueObject} {key : QueueKey}
  {a : String}

theorem addPointer (h : re.Ok queues) (hno : re.findAddress key = none) :
    (re.addPointer key a).Ok queues where
  distinct := by
    intro c t
    unfold RootEntry.addPointer
    rw [pointers_setPointers]
    split
    case isTrue =>
      rw [map_append]
      apply List.Nodup.append (h.distinct _ _) (nodup_singleton _)
      intro n hn hn'
      have hna : n = key.name := List.mem_singleton.mp hn'
      subst hna
      obtain ⟨p, hp, hpn⟩ := List.mem_map.mp hn
      have := List.find?_eq_none.mp (Option.map_eq_none_iff.mp hno) p hp
      exact this (decide_eq_true hpn)
    case isFalse => exact h.distinct c t
  referenced := by
    intro b o hb
    obtain ⟨t, ht⟩ := h.referenced b o hb
    refine ⟨t, ?_⟩
    unfold RootEntry.addPointer
    rw [pointers_setPointers]
    split
    case isTrue heq =>
      rw [heq.1, heq.2] at ht
      exact mem_append_left _ ht
    case isFalse => exact ht

variable {t : JobQueueType}

/-- Two pointers of one name in one list are the same. -/
theorem address_unique (h : re.Ok queues) {c : QueueClass} {n a b : String}
    (ha : ⟨n, a⟩ ∈ re.pointers c t) (hb : ⟨n, b⟩ ∈ re.pointers c t) : a = b := by
  have := inj_on_of_nodup_map (h.distinct c t) ha hb rfl
  exact congrArg QueuePointer.address this

/-- The pointer to a queue that is gone may go. -/
theorem removePointers (h : re.Ok queues) (hf : re.findAddress key = some a)
    (hg : queues a = none) : (re.removePointers key).Ok queues where
  distinct := by
    intro c t
    unfold RootEntry.removePointers
    rw [pointers_setPointers]
    split
    case isTrue =>
      rw [((removeOccurences_perm (re.pointers key.queueClass key.queueType)).map _).nodup_iff]
      exact List.Nodup.sublist (List.filter_sublist.map _) (h.distinct _ _)
    case isFalse => exact h.distinct c t
  referenced := by
    intro b o hb
    obtain ⟨t, ht⟩ := h.referenced b o hb
    refine ⟨t, ?_⟩
    unfold RootEntry.removePointers
    rw [pointers_setPointers]
    split
    case isTrue heq =>
      rw [heq.1, heq.2] at ht
      rw [(removeOccurences_perm _).mem_iff, mem_filter]
      refine ⟨ht, ?_⟩
      -- the pointer of that name leads to `a`, where there is no queue
      have hne : o.contents.name ≠ key.name := by
        intro hn
        rw [hn] at ht
        have hab := h.address_unique (mem_of_findAddress hf) ht
        rw [← hab, hg] at hb
        cases hb
      simpa using hne
    case isFalse => exact ht

/-- A new queue needs a pointer. -/
theorem insert (h : re.Ok queues) {o : QueueObject}
    (hm : ⟨o.contents.name, a⟩ ∈ re.pointers o.contents.queueClass t) :
    re.Ok (Function.update queues a (some o)) where
  distinct := h.distinct
  referenced := by
    intro b o' hb
    by_cases hba : b = a
    · rw [hba, update_self] at hb
      cases hb
      rw [hba]
      exact ⟨t, hm⟩
    · rw [update_of_ne hba] at hb
      exact h.referenced b o' hb

/-- A queue goes. -/
theorem delete (h : re.Ok queues) : re.Ok (Function.update queues a none) where
  distinct := h.distinct
  referenced := by
    intro b o hb
    by_cases hba : b = a
    · rw [hba, update_self] at hb
      cases hb
    · rw [update_of_ne hba] at hb
      exact h.referenced b o hb

/-- Other jobs in a queue. -/
theorem edit (h : re.Ok queues) {o o' : QueueObject} (ha : queues a = some o)
    (hc : o'.contents.queueClass = o.contents.queueClass)
    (hn : o'.contents.name = o.contents.name) :
    re.Ok (Function.update queues a (some o')) := by
  obtain ⟨t, ht⟩ := h.referenced a o ha
  apply h.insert
  · rw [hc, hn]
    exact ht

end Ok

/-! ## What a process knows while it has its locks -/

def Phase.copy : Phase → Option RootEntry
  | .locked re _ | .adding re _ _ | .inserting re _ _ | .removing re _ _ | .fetching re _ _
  | .failedAccess re _ _ _ | .deleting re _ _ | .dereferencing re _ => some re
  | .idle | .editing _ => none

/-- **What holds in each phase.** -/
def Phase.Ok (root : RootEntry) (queues : String → Option QueueObject) (locks : Locks String Nat)
    (p : Nat) : Phase → Prop
  | .idle => True
  | .locked re _ | .dereferencing re _ => re.Ok queues
  | .adding re key a => re.Ok queues ∧ ⟨key.name, a⟩ ∈ re.pointers key.queueClass key.queueType
  | .inserting re key a =>
      re.Ok queues ∧ ⟨key.name, a⟩ ∈ re.pointers key.queueClass key.queueType ∧
        ⟨key.name, a⟩ ∈ root.pointers key.queueClass key.queueType
  | .removing re key a | .failedAccess re key a _ => re.Ok queues ∧ re.findAddress key = some a
  | .fetching re key a => re.Ok queues ∧ re.findAddress key = some a ∧ locks a = some p
  | .deleting re key a => re.Ok queues ∧ re.findAddress key = some a ∧ locks a = some p ∧
      ∃ o, queues a = some o ∧ o.contents.isEmpty = true
  | .editing a => locks a = some p

variable {phase : Phase}

theorem Phase.Ok.copy {root : RootEntry} {queues : String → Option QueueObject}
    {locks : Locks String Nat} {p : Nat}
    (h : phase.Ok root queues locks p) (hre : phase.copy = some re) : re.Ok queues := by
  cases phase with
  | idle | editing => cases hre
  | locked | dereferencing =>
    cases hre
    exact h
  | adding | inserting | removing | failedAccess | fetching | deleting =>
    cases hre
    exact h.1

structure Inv (w : World) : Prop where
  root : w.root.Ok w.queues
  phase : ∀ p, (w.phase p).Ok w.root w.queues w.locks p
  holder : ∀ p, (w.phase p).copy ≠ none → w.rootLock = some p

theorem Inv.phaseOk {w : World} {p : Nat} (h : Inv w) (hp : w.phase p = phase) :
    phase.Ok w.root w.queues w.locks p :=
  hp ▸ h.phase p

/-- **What a step of the process `p` is allowed to do**, with and without the root's lock. -/
structure Move (w w' : World) (p : Nat) : Prop where
  others : ∀ q, q ≠ p → w'.phase q = w.phase q
  respects : Respects (some p) w.locks w'.locks w.queues w'.queues
  rootLock : ∀ q, q ≠ p → w.rootLock = some q → w'.rootLock = some q
  unlocked : (w.phase p).copy = none →
    w'.root = w.root ∧ ∀ re : RootEntry, re.Ok w.queues → re.Ok w'.queues
  root : w'.root.Ok w'.queues
  phase : (w'.phase p).Ok w'.root w'.queues w'.locks p
  holder : (w'.phase p).copy ≠ none → w'.rootLock = some p

/-- The frame rule: what another process knows stays true. -/
theorem Phase.Ok.frame {root root' : RootEntry} {queues queues' : String → Option QueueObject}
    {locks locks' : Locks String Nat} {p q : Nat} (h : phase.Ok root queues locks q) (hq : q ≠ p)
    (hr : Respects (some p) locks locks' queues queues') (hs : phase.copy ≠ none →
      root' = root ∧ ∀ re : RootEntry, re.Ok queues → re.Ok queues') :
    phase.Ok root' queues' locks' q := by
  have hq' : some q ≠ some p := fun he => hq (Option.some.inj he)
  cases phase with
  | idle => trivial
  | editing a => exact hr.held hq' h
  | locked re | dereferencing re => exact (hs nofun).2 re h
  | adding re | removing re | failedAccess re => exact ⟨(hs nofun).2 re h.1, h.2⟩
  | inserting re key a =>
    obtain ⟨hro, hok⟩ := hs nofun
    rw [hro]
    exact ⟨hok re h.1, h.2⟩
  | fetching re key a => exact ⟨(hs nofun).2 re h.1, h.2.1, hr.held hq' h.2.2⟩
  | deleting re key a =>
    obtain ⟨hok, hf, hl, o, ho, hem⟩ := h
    exact ⟨(hs nofun).2 re hok, hf, hr.held hq' hl, o, hr.kept hq' hl ho, hem⟩

theorem Inv.move {w w' : World} {p : Nat} (h : Inv w) (hm : Move w w' p) : Inv w' where
  root := hm.root
  phase := by
    intro q
    by_cases hq : q = p
    · rw [hq]
      exact hm.phase
    rw [hm.others q hq]
    apply (h.phase q).frame hq hm.respects
    intro hc
    -- `q` has the lock of the root entry, so `p` has not
    apply hm.unlocked
    by_contra hp
    exact hq (Option.some.inj ((h.holder q hc).symm.trans (h.holder p hp)))
  holder := by
    intro q hc
    by_cases hq : q = p
    · rw [hq] at hc ⊢
      exact hm.holder hc
    · rw [hm.others q hq] at hc
      exact hm.rootLock q hq (h.holder q hc)

namespace Move

variable {w w' : World} {p : Nat}

/-- Nothing happens. -/
theorem stay (h : Inv w) (p : Nat) : Move w w p where
  others := fun _ _ => rfl
  respects := .refl
  rootLock := fun _ _ hq => hq
  unlocked := fun _ => ⟨rfl, fun _ hre => hre⟩
  root := h.root
  phase := h.phase p
  holder := h.holder p

/-- The process comes to its next phase. -/
theorem ofPhase (hs : w'.phase = w.phase)
    (hr : Respects (some p) w.locks w'.locks w.queues w'.queues)
    (hl : ∀ q, q ≠ p → w.rootLock = some q → w'.rootLock = some q) (hu : (w.phase p).copy = none →
      w'.root = w.root ∧ ∀ re : RootEntry, re.Ok w.queues → re.Ok w'.queues)
    (hro : w'.root.Ok w'.queues) (hok : phase.Ok w'.root w'.queues w'.locks p)
    (hh : phase.copy ≠ none → w'.rootLock = some p) : Move w (w'.setPhase p phase) p := by
  have hp : (w'.setPhase p phase).phase p = phase := update_self ..
  refine ⟨?_, hr, hl, hu, hro, ?_, ?_⟩
  · intro q hq
    exact (update_of_ne hq ..).trans (congrFun hs q)
  · rw [hp]
    exact hok
  · rw [hp]
    exact hh

/-- A step of a process that has, and keeps, the lock of the root entry. -/
theorem ofHolder (h : Inv w) {now : Phase} (hp : w.phase p = now)
    (hc : now.copy.isSome = true) (hs : w'.phase = w.phase) (hl : w'.rootLock = w.rootLock)
    (hr : Respects (some p) w.locks w'.locks w.queues w'.queues)
    (hro : w'.root.Ok w'.queues) (hok : phase.Ok w'.root w'.queues w'.locks p) :
    Move w (w'.setPhase p phase) p := by
  have hne : (w.phase p).copy ≠ none := by
    rw [hp]
    exact Option.isSome_iff_ne_none.mp hc
  exact ofPhase hs hr (fun _ _ hq => hl.trans hq) (fun hn => absurd hn hne) hro hok
    (fun _ => hl.trans (h.holder p hne))

/-- A step of a process that leaves the root entry and the names of the queues, and then has no
copy. -/
theorem ofOther (h : Inv w) (hc : phase.copy = none) (hs : w'.phase = w.phase)
    (hl : w'.rootLock = w.rootLock)
    (hr : Respects (some p) w.locks w'.locks w.queues w'.queues) (hro : w'.root = w.root)
    (hqu : ∀ re : RootEntry, re.Ok w.queues → re.Ok w'.queues)
    (hok : phase.Ok w'.root w'.queues w'.locks p) : Move w (w'.setPhase p phase) p :=
  ofPhase hs hr (fun _ _ hq => hl.trans hq) (fun _ => ⟨hro, hqu⟩)
    (hro ▸ hqu _ h.root) hok (fun hne => absurd hc hne)

/-- An exception leaves a call. -/
theorem throw (h : Inv w) {now : Phase} (hp : w.phase p = now) (hc : now.copy = some re)
    (exn : RootExn) : Move w (w.throw p re exn) p :=
  ofHolder h hp (by rw [hc]; rfl) rfl rfl .releaseAll h.root ((h.phaseOk hp).copy hc)

/-! ## Every step is such a move -/

section Steps

variable (h : Inv w)
include h

theorem lockRoot (p : Nat) : Move w (w.lockRoot p) p := by
  unfold World.lockRoot
  split
  case h_2 => exact stay h p
  case h_1 hi hf =>
    exact ofPhase rfl .refl (fun q _ hq => absurd (hf.symm.trans hq) nofun)
      (fun _ => ⟨rfl, fun _ hre => hre⟩) h.root h.root (fun _ => rfl)

theorem unlockRoot (p : Nat) : Move w (w.unlockRoot p) p := by
  unfold World.unlockRoot
  split
  case h_2 => exact stay h p
  case h_1 re last hp =>
    have hl : w.rootLock = some p := h.holder p (by rw [hp]; nofun)
    exact ofPhase rfl .refl (fun q hq hq' => absurd (Option.some.inj (hq'.symm.trans hl)) hq)
      (fun _ => ⟨rfl, fun _ hre => hre⟩) h.root trivial (absurd rfl)

theorem addOrGetQueueAndCommit (p : Nat) (key : QueueKey) (agentRef : AgentReference) :
    Move w (w.addOrGetQueueAndCommit p key agentRef) p := by
  unfold World.addOrGetQueueAndCommit
  split
  case h_2 => exact stay h p
  case h_1 re last hp =>
    have hok := h.phaseOk hp
    split
    case h_1 address _ => exact ofHolder h hp rfl rfl rfl .refl h.root hok
    case h_2 hn =>
      apply ofHolder h hp rfl rfl rfl .refl h.root
      refine ⟨Ok.addPointer hok hn, ?_⟩
      rw [pointers_addPointer]
      exact mem_append_right _ (List.mem_singleton.mpr rfl)

theorem removeQueueAndCommit (p : Nat) (key : QueueKey) :
    Move w (w.removeQueueAndCommit p key) p := by
  unfold World.removeQueueAndCommit
  split
  case h_2 => exact stay h p
  case h_1 re last hp =>
    have hok := h.phaseOk hp
    split
    case h_1 address hf =>
      exact ofHolder h hp rfl rfl rfl .refl h.root ⟨hok, hf⟩
    case h_2 => exact throw h hp rfl _

/-- The queue is created after its pointer is stored. -/
theorem insertQueue (hp : w.phase p = .inserting re key a) :
    Move w (w.insertQueue p re key a) p := by
  have hok := h.phaseOk hp
  obtain ⟨hre, hm, hr⟩ := hok
  unfold World.insertQueue
  split
  case h_1 => exact throw h hp rfl _
  case h_2 hnew =>
    have hn : (QueueContents.initialized w.maxShardSize key.name key.queueClass).name = key.name := by
      cases key.queueClass <;> rfl
    have hc : (QueueContents.initialized w.maxShardSize key.name key.queueClass).queueClass =
        key.queueClass := by
      cases key.queueClass <;> rfl
    apply ofHolder h hp rfl
    · rfl
    · rfl
    · exact .create hnew
    · apply h.root.insert
      rw [hn, hc]
      exact hr
    · apply hre.insert
      rw [hn, hc]
      exact hm

theorem lockForRemoval (hp : w.phase p = .removing re key a) :
    Move w (w.lockForRemoval p re key a) p := by
  have hok := h.phaseOk hp
  unfold World.lockForRemoval
  split
  case h_1 => exact ofHolder h hp rfl rfl rfl .refl h.root hok
  case h_2 =>
    split
    case h_1 hf =>
      apply ofHolder h hp rfl
      · rfl
      · rfl
      · exact .acquire hf
      · exact h.root
      · exact ⟨hok.1, hok.2, Locks.acquire_same ..⟩
    case h_2 => exact stay h p

/-- Only an empty queue goes on to its removal. -/
theorem fetchForRemoval (hp : w.phase p = .fetching re key a) :
    Move w (w.fetchForRemoval p re key a) p := by
  have hok := h.phaseOk hp
  obtain ⟨hre, hf, hl⟩ := hok
  unfold World.fetchForRemoval
  split
  case h_1 => exact ofHolder h hp rfl rfl rfl .refl h.root ⟨hre, hf⟩
  case h_2 o ho =>
    split
    case isFalse => exact ofHolder h hp rfl rfl rfl .refl h.root ⟨hre, hf⟩
    case isTrue =>
      split
      case isTrue => exact throw h hp rfl _
      case isFalse =>
        split
        case isTrue he =>
          exact ofHolder h hp rfl rfl rfl .refl h.root ⟨hre, hf, hl, o, ho, he⟩
        case isFalse => exact throw h hp rfl _

theorem checkGone {exn : Exn} (hp : w.phase p = .failedAccess re key a exn) :
    Move w (w.checkGone p re key a exn) p := by
  have hok := h.phaseOk hp
  unfold World.checkGone
  split
  case h_1 => exact throw h hp rfl _
  case h_2 hg =>
    exact ofHolder h hp rfl rfl rfl .refl h.root (Ok.removePointers hok.1 hok.2 hg)

/-- The queue is removed under its lock, before its pointer. -/
theorem removeQueue (hp : w.phase p = .deleting re key a) :
    Move w (w.removeQueue p re key a) p := by
  have hok := h.phaseOk hp
  obtain ⟨hre, hf, hl, _⟩ := hok
  unfold World.removeQueue
  split
  case h_1 => exact throw h hp rfl _
  case h_2 =>
    apply ofHolder h hp rfl
    · rfl
    · rfl
    · exact .write (.inr hl)
    · exact h.root.delete
    · exact Ok.removePointers hre.delete hf (update_self ..)

theorem proceed (p : Nat) : Move w (w.proceed p) p := by
  unfold World.proceed
  split
  case h_1 re key a hp =>
    have hok := h.phaseOk hp
    exact ofHolder h hp rfl rfl rfl .refl hok.1 ⟨hok.1, hok.2, hok.2⟩
  case h_2 re key a hp => exact insertQueue h hp
  case h_3 re key a hp => exact lockForRemoval h hp
  case h_4 re key a hp => exact fetchForRemoval h hp
  case h_5 re key a exn hp => exact checkGone h hp
  case h_6 re key a hp => exact removeQueue h hp
  case h_7 re key hp =>
    have hok := h.phaseOk hp
    exact ofHolder h hp rfl rfl rfl .releaseAll hok hok
  case h_8 => exact stay h p

theorem fail (p : Nat) (exn : Exn) : Move w (w.fail p exn) p := by
  unfold World.fail
  split
  case h_1 re key a hp =>
    have hok := h.phaseOk hp
    exact ofHolder h hp rfl rfl rfl .refl h.root hok
  case h_2 re key a hp =>
    have hok := h.phaseOk hp
    exact ofHolder h hp rfl rfl rfl .refl h.root ⟨hok.1, hok.2.1⟩
  case h_8 => exact stay h p
  all_goals
    rename_i hp
    exact throw h hp rfl _

theorem lockQueue (p : Nat) (a : String) : Move w (w.lockQueue p a) p := by
  unfold World.lockQueue
  split
  case h_2 => exact stay h p
  case h_1 hf =>
    apply ofOther h
    · rfl
    · rfl
    · rfl
    · exact .acquire hf
    · rfl
    · exact fun _ hre => hre
    · exact Locks.acquire_same ..

/-- Nobody else has the queue that is edited. -/
theorem edit (p : Nat) (contents : QueueContents) : Move w (w.edit p contents) p := by
  unfold World.edit
  split
  case h_2 => exact stay h p
  case h_1 a hp =>
    have hl := h.phaseOk hp
    split
    case h_2 => exact stay h p
    case h_1 o ho =>
      split
      case isFalse => exact stay h p
      case isTrue hs =>
        exact {
          others := fun _ _ => rfl
          respects := .write (.inr hl)
          rootLock := fun _ _ hq => hq
          unlocked := fun _ => ⟨rfl, fun _ hre => hre.edit ho hs.1 hs.2⟩
          root := h.root.edit ho hs.1 hs.2
          phase := by
            rw [hp]
            exact hl
          holder := h.holder p }

theorem unlockQueue (p : Nat) : Move w (w.unlockQueue p) p := by
  unfold World.unlockQueue
  split
  case h_2 => exact stay h p
  case h_1 a hp =>
    have hl := h.phaseOk hp
    apply ofOther h
    · rfl
    · rfl
    · rfl
    · exact .release hl
    · rfl
    · exact fun _ hre => hre
    · trivial

theorem crash (p : Nat) : Move w (w.crash p) p := by
  refine ofPhase rfl .releaseAll ?_ (fun _ => ⟨rfl, fun _ hre => hre⟩) h.root trivial (absurd rfl)
  intro q hq hq'
  rw [if_neg (fun he => hq (Option.some.inj (hq'.symm.trans he)))]
  exact hq'

end Steps

end Move

def Event.process : Event → Nat
  | .lockRoot p | .unlockRoot p | .addOrGetArchiveQueue p _ _ _ | .addOrGetRetrieveQueue p _ _ _
  | .removeArchiveQueue p _ _ | .removeRetrieveQueue p _ _ | .advance p _ | .lockQueue p _
  | .edit p _ | .unlockQueue p | .crash p => p

theorem Move.step {w : World} (h : Inv w) (e : Event) : Move w (w.step e) e.process := by
  cases e with
  | lockRoot p => exact .lockRoot h p
  | unlockRoot p => exact .unlockRoot h p
  | addOrGetArchiveQueue p | addOrGetRetrieveQueue p => exact .addOrGetQueueAndCommit h p _ _
  | removeArchiveQueue p | removeRetrieveQueue p => exact .removeQueueAndCommit h p _
  | advance p exn =>
    cases exn with
    | none => exact .proceed h p
    | some exn => exact .fail h p exn
  | lockQueue p a => exact .lockQueue h p a
  | edit p contents => exact .edit h p contents
  | unlockQueue p => exact .unlockQueue h p
  | crash p => exact .crash h p

theorem Inv.start (rootAddress : String) (maxShardSize : UInt64) :
    Inv (World.start rootAddress maxShardSize) where
  root := {
    distinct := by
      intro c t
      cases c <;> exact nodup_nil
    referenced := nofun }
  phase := fun _ => trivial
  holder := fun _ h => absurd rfl h

/-! ## Every run -/

/-- The first steps of a call write nothing. -/
theorem queues_addOrGet (w : World) (p : Nat) (key : QueueKey) (agentRef : AgentReference) :
    (w.addOrGetQueueAndCommit p key agentRef).queues = w.queues := by
  unfold World.addOrGetQueueAndCommit
  split
  · split <;> rfl
  · rfl

theorem queues_remove (w : World) (p : Nat) (key : QueueKey) :
    (w.removeQueueAndCommit p key).queues = w.queues := by
  unfold World.removeQueueAndCommit
  split
  · split <;> rfl
  · rfl

/-- **What a step does to the queues**: nothing, or it writes one, or it removes the one that its
process is about to delete. -/
theorem step_queues (w : World) (e : Event) : (w.step e).queues = w.queues ∨
    (∃ a o, (w.step e).queues = Function.update w.queues a (some o)) ∨
    ∃ re key a, w.phase e.process = .deleting re key a ∧
      (w.step e).queues = Function.update w.queues a none := by
  cases e with
  | lockRoot p =>
    left
    show (w.lockRoot p).queues = _
    unfold World.lockRoot
    split <;> rfl
  | unlockRoot p =>
    left
    show (w.unlockRoot p).queues = _
    unfold World.unlockRoot
    split <;> rfl
  | addOrGetArchiveQueue p tapePool queueType agentRef
  | addOrGetRetrieveQueue p vid queueType agentRef =>
    exact .inl (queues_addOrGet w p _ agentRef)
  | removeArchiveQueue p | removeRetrieveQueue p => exact .inl (queues_remove w p _)
  | advance p exn =>
    cases exn with
    | some exn =>
      left
      show (w.fail p exn).queues = _
      unfold World.fail
      split <;> rfl
    | none =>
      show (w.proceed p).queues = _ ∨ (∃ a o, (w.proceed p).queues = _) ∨ ∃ re key a, _ ∧
        (w.proceed p).queues = _
      unfold World.proceed
      split
      case h_2 re key a _ =>
        unfold World.insertQueue
        split
        · exact .inl rfl
        · exact .inr (.inl ⟨a, _, rfl⟩)
      case h_3 =>
        left
        unfold World.lockForRemoval
        split
        · rfl
        · split <;> rfl
      case h_4 =>
        left
        unfold World.fetchForRemoval
        split
        · rfl
        split
        · split
          · rfl
          · split <;> rfl
        · rfl
      case h_5 =>
        left
        unfold World.checkGone
        split <;> rfl
      case h_6 re key a hp =>
        unfold World.removeQueue
        split
        · exact .inl rfl
        · exact .inr (.inr ⟨re, key, a, hp, rfl⟩)
      all_goals exact .inl rfl
  | lockQueue p a =>
    left
    show (w.lockQueue p a).queues = _
    unfold World.lockQueue
    split <;> rfl
  | edit p contents =>
    show (w.edit p contents).queues = _ ∨ (∃ a o, (w.edit p contents).queues = _) ∨ _
    unfold World.edit
    split
    · split
      · split
        · exact .inr (.inl ⟨_, _, rfl⟩)
        · exact .inl rfl
      · exact .inl rfl
    · exact .inl rfl
  | unlockQueue p =>
    left
    show (w.unlockQueue p).queues = _
    unfold World.unlockQueue
    split <;> rfl
  | crash p => exact .inl rfl

/-- **Only an empty queue is removed.** -/
theorem Inv.empty_of_removed {w : World} (h : Inv w) {e : Event} {o : QueueObject}
    (ho : w.queues a = some o) (hg : (w.step e).queues a = none) :
    o.contents.isEmpty = true := by
  rcases step_queues w e with hs | ⟨b, o', hw⟩ | ⟨re, key, b, hp, hr⟩
  · rw [hs, ho] at hg
    cases hg
  · rw [hw] at hg
    by_cases hab : a = b
    · rw [hab, update_self] at hg
      cases hg
    · rw [update_of_ne hab, ho] at hg
      cases hg
  · rw [hr] at hg
    by_cases hab : a = b
    · have hok := h.phase e.process
      rw [hp] at hok
      obtain ⟨_, _, _, o', ho', he⟩ := hok
      rw [← hab, ho] at ho'
      cases ho'
      exact he
    · rw [update_of_ne hab, ho] at hg
      cases hg

/-- **The root entry and its queues**, after every run with exceptions and deaths: one pointer at
most per class, type and name, every queue object is referenced under its own name, and no step
removes one that contains a job. -/
theorem queues_stay_referenced (rootAddress : String) (maxShardSize : UInt64) (es : List Event) :
    let w := run World.step (World.start rootAddress maxShardSize) es
    (∀ c t, ((w.root.pointers c t).map (·.name)).Nodup) ∧
    (∀ a o, w.queues a = some o →
      ∃ t, ⟨o.contents.name, a⟩ ∈ w.root.pointers o.contents.queueClass t) ∧
    ∀ e a o, w.queues a = some o → (w.step e).queues a = none → o.contents.ContainsNoJob := by
  intro w
  have h : Inv w := run_preserves (fun _ e hw => hw.move (.step hw e)) (Inv.start _ _)
  refine ⟨h.root.distinct, h.root.referenced, ?_⟩
  intro e a o ho hg
  exact QueueContents.containsNoJob_of_isEmpty (h.empty_of_removed ho hg)

/-! ## Removing the root entry. The check goes through three of the six lists of archive queues
and four of those of retrieve queues, and never looks at the repack queues and index. -/

/-- The objects of which the root entry has at most one. -/
inductive SinglePointer where
  | driveRegister | agentRegisterIntent | agentRegister | schedulerLock | repackIndex
  | repackQueuePending | repackQueueToExpand
  deriving DecidableEq

/-- The payload: the lists of queues, and the addresses of the single objects, empty if not set. -/
structure Payload where
  queues : RootEntry
  single : SinglePointer → String

/-- `RootEntry::initialize`. -/
def Payload.fresh : Payload := ⟨⟨fun _ => [], fun _ => []⟩, fun _ => ""⟩

/-- The queue types that the check goes through. -/
def checkedTypes : QueueClass → List JobQueueType
  | .archive => [.jobsToTransferForUser, .jobsToReportToUser, .failedJobs]
  | .retrieve => [.jobsToTransferForUser, .jobsToReportToUser, .failedJobs,
      .jobsToReportToRepackForSuccess]

def checkedPointers : List SinglePointer :=
  [.driveRegister, .agentRegisterIntent, .agentRegister, .schedulerLock]

def Payload.isEmpty (re : Payload) : Bool :=
  checkedPointers.all (fun p => re.single p == "")
    && (checkedTypes .archive).all (fun t => (re.queues.pointers .archive t).isEmpty)
    && (checkedTypes .retrieve).all (fun t => (re.queues.pointers .retrieve t).isEmpty)

def Payload.removeIfEmpty (re : Payload) : Except RequestExn Unit :=
  if !re.isEmpty then .error (.exception "In RootEntry::removeIfEmpty(): root entry not empty")
  else .ok ()

/-- The calls that add and remove. A removal that finds the object in use changes nothing. -/
inductive Registration where
  /-- `addOrGet…QueueAndCommit`. -/
  | addQueue (key : QueueKey) (address : String)
  /-- `remove…QueueAndCommit` and `removeMissing…QueueReference`. -/
  | removeQueue (key : QueueKey) (empty : Bool)
  | addOrGet (p : SinglePointer) (address : String)
  | remove (p : SinglePointer) (empty : Bool)

def Payload.step (re : Payload) : Registration → Payload
  | .addQueue key address => match re.queues.findAddress key with
    | some _ => re
    | none => { re with queues := re.queues.addPointer key address }
  | .removeQueue key empty =>
    if empty then { re with queues := re.queues.removePointers key } else re
  | .addOrGet p address =>
    if re.single p ≠ "" then re
    else if p = .agentRegister then
      -- the register moves from the intent to the pointer
      { re with single :=
          Function.update (Function.update re.single p address) (.agentRegisterIntent) "" }
    else { re with single := Function.update re.single p address }
  | .remove p empty => if empty then { re with single := Function.update re.single p "" } else re

/-- What is registered is something that the check looks at. -/
def Registration.Checked : Registration → Prop
  | .addQueue key _ => key.queueType ∈ checkedTypes key.queueClass
  | .addOrGet p _ => p ∈ checkedPointers
  | _ => True

/-- Nothing is registered that the check does not look at. -/
structure Payload.Seen (re : Payload) : Prop where
  queues : ∀ c t, t ∉ checkedTypes c → re.queues.pointers c t = []
  single : ∀ p, p ∉ checkedPointers → re.single p = ""

variable {re : Payload}

theorem seen_update (h : re.Seen) {p : SinglePointer} {address : String}
    (hp : p ∈ checkedPointers ∨ address = "") :
    Payload.Seen { re with single := Function.update re.single p address } := by
  refine ⟨h.queues, fun q hq => ?_⟩
  by_cases hqp : q = p
  · subst hqp
    exact (update_self ..).trans (hp.resolve_left hq)
  · exact (update_of_ne hqp ..).trans (h.single q hq)

/-- **One registration** of something that the check looks at. -/
theorem seen_step {r : Registration} (h : re.Seen) (hr : r.Checked) : (re.step r).Seen := by
  cases r with
  | addQueue key address =>
    dsimp only [Payload.step]
    split
    · exact h
    refine ⟨fun c t ht => ?_, h.single⟩
    refine (pointers_setPointers ..).trans ((if_neg ?_).trans (h.queues c t ht))
    rintro ⟨rfl, rfl⟩
    exact ht hr
  | removeQueue key empty =>
    dsimp only [Payload.step]
    split
    · refine ⟨fun c t ht => ?_, h.single⟩
      refine (pointers_setPointers ..).trans ?_
      split
      next hk =>
        rw [← hk.1, ← hk.2, h.queues c t ht]
        rfl
      next => exact h.queues c t ht
    · exact h
  | addOrGet p address =>
    dsimp only [Payload.step]
    split
    · exact h
    split
    · exact seen_update (seen_update h (Or.inl hr)) (Or.inr rfl)
    · exact seen_update h (Or.inl hr)
  | remove p empty =>
    dsimp only [Payload.step]
    split
    · exact seen_update h (Or.inr rfl)
    · exact h

/-- No queue of any type, no repack queue and no repack index is left. -/
structure Payload.NothingLeft (re : Payload) : Prop where
  queues : ∀ c t, re.queues.pointers c t = []
  repack : ∀ p ∈ [SinglePointer.repackIndex, .repackQueuePending, .repackQueueToExpand],
    re.single p = ""

/-- **A ROOT ENTRY THAT IS REMOVED HAS NOTHING LEFT**, after registrations of what the check looks
at. -/
theorem removed_has_nothing_left {rs : List Registration}
    (hrs : Along Payload.step (fun _ r => r.Checked) .fresh rs)
    (hremoved : (run Payload.step .fresh rs).removeIfEmpty = .ok ()) :
    (run Payload.step .fresh rs).NothingLeft := by
  have hf : Payload.fresh.Seen := ⟨fun c _ _ => by cases c <;> rfl, fun _ _ => rfl⟩
  have hs := run_invariant (I := Payload.Seen) (fun _ _ h hr => seen_step h hr) hf hrs
  have he : (run Payload.step .fresh rs).isEmpty = true := by
    by_contra hne
    simp [Payload.removeIfEmpty, hne] at hremoved
  simp only [Payload.isEmpty, Bool.and_eq_true, List.all_eq_true, List.isEmpty_iff] at he
  obtain ⟨⟨-, ha⟩, hre⟩ := he
  refine ⟨fun c t => ?_, fun p hp => hs.single p (by revert p; decide)⟩
  by_cases ht : t ∈ checkedTypes c
  · cases c
    · exact ha t ht
    · exact hre t ht
  · exact hs.queues c t ht

/-- A queue is added and removed, and the root entry goes. -/
theorem removed_after_use :
    (run Payload.step .fresh [.addQueue ⟨.archive, .failedJobs, "pool"⟩ "ArchiveQueueFailed-1",
      .removeQueue ⟨.archive, .failedJobs, "pool"⟩ true]).NothingLeft :=
  removed_has_nothing_left ⟨show _ ∈ checkedTypes .archive by decide, trivial, trivial⟩ (by decide)

def withRepackQueue : Payload := run Payload.step .fresh
  [.addQueue ⟨.archive, .jobsToTransferForRepack, "pool"⟩ "ArchiveQueueToTransferForRepack-1"]

/-- **A QUEUE OF REPACK ARCHIVES IS LOST**: the check does not see it. -/
theorem removed_with_repack_queue : withRepackQueue.removeIfEmpty = .ok ()
      ∧ withRepackQueue.queues.pointers .archive .jobsToTransferForRepack
        = [⟨"pool", "ArchiveQueueToTransferForRepack-1"⟩] := by
  decide

end RootEntry

end TapeArchive.Objectstore
