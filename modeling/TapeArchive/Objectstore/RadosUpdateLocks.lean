/-
  The lock of a `BackendRados::AsyncUpdater`. It is taken by the constructor, and is given
  up at one place only, at the end of the callbacks of an update that writes the object;
  a lock also goes with its object. Every exception before that place goes to the
  promise, and leaves the lock on the object:

      lock ─▶ stat ─▶ aio_read ─▶ update ─▶ aio_write_full ─▶ aio_unlock
                                       └──▶ remove
-/
import TapeArchive.Objectstore.RadosReads

namespace TapeArchive.Objectstore.Rados

/-! ## An update on its object -/

/-- An object of the store, and the client that has locked it. -/
structure RadosObject where
  content : Option String
  lockedBy : Option String
  deriving DecidableEq

/-- `remove`, which takes the lock with the object. -/
def RadosObject.remove (o : RadosObject) (called : Called) : RadosObject :=
  if called = .returned 0 then ⟨none, none⟩ else o

/-- The object may be gone when a call is made: a lock binds nobody. -/
def RadosObject.seen (o : RadosObject) (stored : Option String) : RadosObject :=
  if stored = none then ⟨none, none⟩ else o

section Updater

variable (name client : String) (update : String → Updated) (r : UpdateRun)

def launchRead : Except Exn Unit :=
  match launch r.aio_read ("In AsyncUpdater::AsyncUpdater::lock_lambda(): "
      ++ "failed getRadosCtx().aio_read(): " ++ name) with
  | .error e => .error e
  | .ok rc =>
      if rc ≠ 0 then
        .error (.noSuchObject ("In BackendRados::AsyncUpdater::AsyncUpdater::lock_lambda(): "
          ++ "failed to launch aio_read(): " ++ name))
      else .ok ()

/-- `fetchCallback` and the beginning of `execute`. -/
def fetched : Except Exn String :=
  if r.reply.readRet < 0 then
    .error (.couldNotFetch ("In BackendRados::AsyncUpdater::fetchCallback(): could not read object: "
      ++ name))
  else if r.reply.bufferList = "" then
    .error (.noSuchObject ("In BackendRados::AsyncUpdater::UpdateJob::execute(): "
      ++ "considering empty object (name=" ++ name ++ ")  as non-existing"))
  else .ok r.reply.bufferList

/-- What becomes of the object of an update, and what `wait` returns or throws. -/
abbrev Outcome := Except Exn String × RadosObject

/-- The rest of `execute` and its callbacks: only the write is followed by an unlock. -/
def storeObject (content : String) (o : RadosObject) : Updated → Outcome
  | .throws e => (.error e, o)
  | .withDelete => ((deleteUpdated name r).map fun _ => content, o.remove r.remove)
  | .value content' =>
      match commitUpdated name r with
      | .error e => (.error e, o)
      | .ok () =>
          let o := { o with content := some content' }
          match unlockUpdated name r with
          | .error e => (.error e, o)
          | .ok () => (.ok content, { o with lockedBy := none })

/-- `aio_read`, and what follows it. -/
def readObject (o : RadosObject) : Outcome :=
  let o := o.seen r.atLaunch
  match launchRead name r with
  | .error e => (.error e, o)
  | .ok () =>
      let o := o.seen r.atRead
      match fetched name r with
      | .error e => (.error e, o)
      | .ok content => storeObject name r content o (update content)

/-- The updater, with the result of the loop of `BackendRados::lock`. -/
def updateObject (locked : Except Exn Unit) (o : RadosObject) : Outcome :=
  match locked with
  | .error e => (.error e, o)
  | .ok () =>
      let o := (⟨some (o.content.getD ""), some client⟩ : RadosObject).seen r.atStat
      match checkLocked name r.stat r.removeEmpty with
      | .error e => (.error e, if r.stat.called Reply.statRet = .returned 0 ∧ r.stat.size = 0
          then o.remove r.removeEmpty else o)
      | .ok () => readObject name update r o

end Updater

/-! ## What `wait` returns -/

variable {name client : String} {update : String → Updated} {r : UpdateRun}

theorem execute_eq (o : RadosObject) :
    execute name update r = (match fetched name r with
      | .error e => ((.error e, o) : Outcome)
      | .ok content => storeObject name r content o (update content)).1 := by
  unfold execute fetched
  split
  · rfl
  split
  · rfl
  dsimp only
  cases update r.reply.bufferList with
  | throws e => rfl
  | withDelete =>
    unfold storeObject
    cases deleteUpdated name r <;> rfl
  | value content =>
    unfold storeObject writeUpdated
    cases commitUpdated name r with
    | error e => rfl
    | ok u => cases unlockUpdated name r <;> rfl

theorem mapError_exn (x : Except Exn String) (stored : Option String) :
    (x.mapError (Failure.mk · stored)).mapError Failure.exn = x := by
  cases x <;> rfl

/-- The updater on its object returns and throws what `asyncUpdate` does. -/
theorem asyncUpdate_eq {locked : Except Exn Unit}
    (hlocked : lockLoop name r.lockAttempts = some locked) (o : RadosObject) :
    (asyncUpdate name update r).map (·.mapError Failure.exn)
      = some (updateObject name client update r locked o).1 := by
  unfold asyncUpdate UpdateRun.lock updateObject
  rw [hlocked]
  cases locked with
  | error e => rfl
  | ok u =>
    cases checkLocked name r.stat r.removeEmpty with
    | error e => rfl
    | ok u =>
      unfold readObject launchRead
      cases launch r.aio_read _ with
      | error e => rfl
      | ok rc =>
        by_cases hrc : rc = 0
        · simp only [hrc, ne_eq, not_true_eq_false, if_false, Option.map_some]
          rw [mapError_exn]
          exact congrArg some (execute_eq _)
        · simp only [hrc, ne_eq, not_false_eq_true, if_true, Option.map_some, Except.mapError]

/-! ## The lock when `wait` is over -/

/-- The last phase gives up the lock. -/
def UpdateRun.storeReleases (r : UpdateRun) : Updated → Prop
  | .throws _ => False
  | .withDelete => r.remove = .returned 0
  | .value _ => r.aio_write_full = .returned 0 ∧ r.commitRet = 0

/-- The object is gone before it is read, or it is read and the last phase gives up the lock. -/
def UpdateRun.readReleases (r : UpdateRun) (update : String → Updated) : Prop :=
  r.atLaunch = none
    ∨ r.aio_read = .returned 0
      ∧ (r.atRead = none
        ∨ 0 ≤ r.reply.readRet ∧ r.reply.bufferList ≠ ""
          ∧ r.storeReleases (update r.reply.bufferList))

/-- No lock, no object at the `stat`, an empty one removed, or the rest gives up the lock. -/
def UpdateRun.releases (r : UpdateRun) (update : String → Updated) (locked : Except Exn Unit) :
    Prop :=
  locked ≠ .ok () ∨ r.atStat = none
    ∨ r.stat.called Reply.statRet = .returned 0
      ∧ (if r.stat.size = 0 then r.removeEmpty = .returned 0 else r.readReleases update)

/-- What a launched operation did if no exception came of it. -/
theorem completed_ok_iff {called : Called} {context : String} {notLaunched failed : Exn} {ret : Int} :
    completed called context notLaunched ret failed = .ok () ↔ called = .returned 0 ∧ ret = 0 := by
  cases called with
  | returned rc =>
    by_cases hr : rc = 0 <;> by_cases ht : ret = 0 <;>
      simp [completed, launch, bind, Except.bind, hr, ht, throw, throwThe, MonadExceptOf.throw, pure,
        Except.pure]
  | threwErrorCode | threwStdException => simp [completed, launch, bind, Except.bind]

theorem throwOn_neg_ok_iff {called : Called} {context : String} :
    throwOnReturnedErrnoOrThrownStdException (fun rc => -rc) called context = .ok ()
      ↔ called = .returned 0 := by
  cases called with
  | returned rc =>
    by_cases hr : rc = 0 <;>
      simp [throwOnReturnedErrnoOrThrownStdException, throwOnReturnedErrno, hr]
  | threwErrorCode | threwStdException => simp [throwOnReturnedErrnoOrThrownStdException]

theorem checkLocked_ok_iff {stored : Option String} {stat : Call stored} {remove : Called} :
    checkLocked name stat remove = .ok () ↔ stat.called Reply.statRet = .returned 0 ∧ stat.size ≠ 0 := by
  unfold checkLocked
  rw [← @throwOn_neg_ok_iff _ ("In BackendRados::lockBackoff, failed to librados::IoCtx::stat: " ++ name)]
  cases throwOnReturnedErrnoOrThrownStdException (fun rc => -rc) (stat.called Reply.statRet)
      ("In BackendRados::lockBackoff, failed to librados::IoCtx::stat: " ++ name) with
  | error e => simp [bind, Except.bind]
  | ok u =>
    by_cases hs : stat.size = 0
    · cases throwOnReturnedErrnoOrThrownStdException (fun rc => -rc) remove
          ("In BackendRados::lockBackoff, failed to librados::IoCtx::remove: " ++ name) <;>
        simp [bind, Except.bind, hs, throw, throwThe, MonadExceptOf.throw]
    · simp [bind, Except.bind, hs, pure, Except.pure]

theorem launchRead_ok_iff : launchRead name r = .ok () ↔ r.aio_read = .returned 0 := by
  unfold launchRead
  cases r.aio_read with
  | threwErrorCode | threwStdException => simp [launch]
  | returned rc => by_cases hrc : rc = 0 <;> simp [launch, hrc]

theorem fetched_ok_iff {content : String} : fetched name r = .ok content
    ↔ 0 ≤ r.reply.readRet ∧ r.reply.bufferList ≠ "" ∧ r.reply.bufferList = content := by
  unfold fetched
  by_cases hre : r.reply.readRet < 0
  · simp [hre]
  · by_cases hbu : r.reply.bufferList = "" <;> simp [hre, hbu, not_lt.mp hre]

/-- An object that is gone has no lock. -/
theorem lockedBy_ite {p : Prop} [Decidable p] {o : RadosObject} :
    (if p then ⟨none, none⟩ else o : RadosObject).lockedBy ≠ some client
      ↔ p ∨ o.lockedBy ≠ some client := by
  split <;> simp [*]

/-- The last phase, if the unlock works when it is reached. -/
theorem storeObject_free_iff (hunlock : r.aio_unlock = .returned 0 ∧ r.unlockRet = 0)
    (content : String) (updated : Updated) (o : RadosObject) :
    (storeObject name r content o updated).2.lockedBy ≠ some client
      ↔ o.lockedBy ≠ some client ∨ r.storeReleases updated := by
  cases updated with
  | throws e => exact (or_iff_left id).symm
  | withDelete => exact lockedBy_ite.trans or_comm
  | value content =>
    have hco : commitUpdated name r = .ok () ↔ r.storeReleases (.value content) := completed_ok_iff
    have hun : unlockUpdated name r = .ok () := completed_ok_iff.mpr hunlock
    rw [← hco]
    unfold storeObject
    cases commitUpdated name r with
    | error e => exact (or_iff_left nofun).symm
    | ok u =>
      rw [hun]
      exact iff_of_true nofun (Or.inr rfl)

/-- The read leaves the object alone, so an update that stops there stops with its lock. -/
theorem readObject_free_iff (hunlock : r.aio_unlock = .returned 0 ∧ r.unlockRet = 0)
    (o : RadosObject) :
    (readObject name update r o).2.lockedBy ≠ some client
      ↔ o.lockedBy ≠ some client ∨ r.readReleases update := by
  unfold readObject UpdateRun.readReleases RadosObject.seen
  rw [← @launchRead_ok_iff name]
  cases launchRead name r with
  | error e =>
    refine lockedBy_ite.trans ?_
    simp [or_comm]
  | ok u =>
    dsimp only
    have hfe := @fetched_ok_iff name r
    cases hf : fetched name r with
    | error e =>
      have hno : ¬(0 ≤ r.reply.readRet ∧ r.reply.bufferList ≠ "") := fun h => by
        rw [hfe.mpr ⟨h.1, h.2, rfl⟩] at hf
        cases hf
      rw [lockedBy_ite, lockedBy_ite]
      tauto
    | ok content =>
      obtain ⟨h0, hb, rfl⟩ := hfe.mp hf
      dsimp only
      rw [storeObject_free_iff hunlock, lockedBy_ite, lockedBy_ite]
      tauto

theorem updateObject_free_iff (hunlock : r.aio_unlock = .returned 0 ∧ r.unlockRet = 0)
    (locked : Except Exn Unit) (o : RadosObject) (ho : o.lockedBy ≠ some client) :
    (updateObject name client update r locked o).2.lockedBy ≠ some client
      ↔ r.releases update locked := by
  unfold updateObject UpdateRun.releases
  cases locked with
  | error e => exact iff_of_true ho (Or.inl nofun)
  | ok u =>
    have hch := @checkLocked_ok_iff name _ r.stat r.removeEmpty
    dsimp only
    cases hc : checkLocked name r.stat r.removeEmpty with
    | error e =>
      have hno : ¬(r.stat.called Reply.statRet = .returned 0 ∧ r.stat.size ≠ 0) := by
        rw [← hch, hc]
        nofun
      dsimp only
      split
      case isTrue hem => simp [RadosObject.remove, RadosObject.seen, lockedBy_ite, hem, or_comm]
      case isFalse hem =>
        have hst : r.stat.called Reply.statRet ≠ .returned 0 :=
          fun h => hem ⟨h, by_contra fun hs => hno ⟨h, hs⟩⟩
        simp [RadosObject.seen, lockedBy_ite, hst]
    | ok u =>
      obtain ⟨hst, hsi⟩ := hch.mp hc
      dsimp only
      rw [readObject_free_iff hunlock, RadosObject.seen, lockedBy_ite, if_neg hsi]
      simp [hst]

/-- **The lock of an updater.** When no unlock has failed, the object is free of the updater
exactly if the lock was not obtained, the object is gone, or the update came to a write that was
committed or to a removal. -/
theorem lock_free_iff (name client : String) (update : String → Updated) (r : UpdateRun)
    (locked : Except Exn Unit) (hlocked : lockLoop name r.lockAttempts = some locked)
    (hunlock : r.aio_unlock = .returned 0 ∧ r.unlockRet = 0)
    (o : RadosObject) (ho : o.lockedBy ≠ some client) :
    (asyncUpdate name update r).map (·.mapError Failure.exn)
        = some (updateObject name client update r locked o).1
      ∧ ((updateObject name client update r locked o).2.lockedBy ≠ some client
        ↔ r.releases update locked) :=
  ⟨asyncUpdate_eq hlocked o, updateObject_free_iff hunlock locked o ho⟩

/-- A read that is launched, so that the update function is reached. -/
def launchedRead : UpdateRun := { refusedRead with aio_read := .returned 0 }

theorem written_object_unlocked :
    lockLoop "request" launchedRead.lockAttempts = some (.ok ())
      ∧ (updateObject "request" "agent" (fun _ => .value "new") launchedRead (.ok ())
          ⟨some "content", none⟩).2.lockedBy ≠ some "agent" :=
  ⟨by decide, (lock_free_iff "request" "agent" (fun _ => .value "new") launchedRead (.ok ()) (by decide)
    ⟨rfl, rfl⟩ ⟨some "content", none⟩ nofun).2.mpr
      (Or.inr (Or.inr ⟨by decide, Or.inr ⟨rfl, Or.inr ⟨by decide, by decide, rfl, rfl⟩⟩⟩))⟩

/-- The function throws on a wrong owner: the object stays locked although no unlock failed. -/
theorem wrong_owner_leaves_lock :
    lockLoop "request" launchedRead.lockAttempts = some (.ok ())
      ∧ launchedRead.aio_unlock = .returned 0 ∧ launchedRead.unlockRet = 0
      ∧ updateObject "request" "agent" (fun _ => .throws (.ofCaller "wrong previous owner")) launchedRead
          (.ok ()) ⟨some "content", none⟩
        = (.error (.ofCaller "wrong previous owner"), ⟨some "content", some "agent"⟩) :=
  ⟨by decide, rfl, rfl, rfl⟩

end TapeArchive.Objectstore.Rados
