/-
  The three ways to read an object of the Rados backend, and when they throw
  `NoSuchObject`. A reply of the store is true to the object it is about (`Reply`), or is
  an error code that says nothing about it. An empty object counts as absent.

      read                 rc < 0 ──Errnum(rc)──▶ swallowed, the buffer is empty
      AsyncLockfreeFetcher aio_read not launched ──▶ NoSuchObject
      AsyncUpdater         lock, aio_read not launched ──▶ NoSuchObject
-/
import TapeArchive.Objectstore.RadosCalls

namespace TapeArchive.Objectstore.Rados

/-! ## Replies -/

def hasContent (stored : Option String) : Bool := stored.any (fun content => content ≠ "")

inductive Reply (stored : Option String) where
  | found (content : String) (h : stored = some content)
  | noEntry (h : stored = none)
  /-- An error that says nothing about the object. -/
  | failed (errno : Int) (hpos : 0 < errno) (hne : errno ≠ ENOENT)

namespace Reply

variable {stored : Option String}

/-- What `read` returns: the number of bytes. -/
def readRet : Reply stored → Int
  | found content _ => content.utf8ByteSize
  | noEntry _ => -ENOENT
  | failed errno _ _ => -errno

/-- What `read` leaves in the buffer list. -/
def bufferList : Reply stored → String
  | found content _ => content
  | _ => ""

/-- What `stat` returns. -/
def statRet : Reply stored → Int
  | found _ _ => 0
  | noEntry _ => -ENOENT
  | failed errno _ _ => -errno

/-- The size that `stat` gives. -/
def size : Reply stored → Nat
  | found content _ => content.utf8ByteSize
  | _ => 0

end Reply

inductive Call (stored : Option String) where
  | replied (reply : Reply stored)
  | threwErrorCode (value : Int) (message : String) (hne : value ≠ ENOENT)
  | threwStdException (what : String)

namespace Call

variable {stored : Option String}

def called (ret : Reply stored → Int) : Call stored → Called
  | replied reply => .returned (ret reply)
  | threwErrorCode value message _ => .threwErrorCode value message
  | threwStdException what => .threwStdException what

def bufferList : Call stored → String
  | replied reply => reply.bufferList
  | _ => ""

def size : Call stored → Nat
  | replied reply => reply.size
  | _ => 0

/-- The call ends with an error code that says nothing about the object. -/
def isErrorCode : Call stored → Bool
  | replied (.failed _ _ _) => true
  | threwErrorCode _ _ _ => true
  | _ => false

end Call

/-- An exception, with the object as it was when the operation that failed was executed. -/
structure Failure where
  exn : Exn
  stored : Option String

/-- `NoSuchObject` means that there was no object, and what is returned is what was stored. -/
structure Honest (stored : Option String) (result : Except Failure String) : Prop where
  absent : ∀ message s, result = .error ⟨.noSuchObject message, s⟩ → hasContent s = false
  delivers : ∀ content, result = .ok content → stored = some content

/-! ## `read` -/

variable (name : String)

/-- The end of `read`, where an empty object is taken for none. -/
def returnBuffer {stored : Option String} (bl : String) : Except Failure String :=
  if bl = "" then
    .error ⟨.noSuchObject ("In BackendRados::read(): considering empty object (name=" ++ name
      ++ ") as non-existing."), stored⟩
  else .ok bl

def read (name : String) {stored : Option String} (call : Call stored) : Except Failure String :=
  match throwOnReturnedErrnoOrThrownStdException (fun rc => if rc < 0 then rc else 0)
      (call.called Reply.readRet) ("In BackendRados::read,  failed to read: " ++ name) with
  | .error (.errnum errorNumber message) =>
      if errorNumber = ENOENT then .error ⟨.noSuchObject message, stored⟩
      -- the handler ends here, and the function goes on
      else @returnBuffer name stored call.bufferList
  | .error e => .error ⟨e, stored⟩
  | .ok () => @returnBuffer name stored call.bufferList

/-! ## `AsyncLockfreeFetcher` -/

def fetchCallback (name : String) {stored : Option String} (reply : Reply stored) :
    Except Failure String :=
  if reply.readRet < 0 then
    if -reply.readRet = ENOENT then
      .error ⟨.noSuchObject ("In BackendRados::AsyncLockfreeFetcher::fetchCallback(): "
        ++ "could not read object: " ++ name), stored⟩
    else
      .error ⟨.couldNotFetch ("In BackendRados::AsyncLockfreeFetcher::fetchCallback(): "
        ++ "could not read object: " ++ name), stored⟩
  else if reply.bufferList = "" then
    .error ⟨.noSuchObject ("In BackendRados::AsyncLockfreeFetcher::fetchCallback(): "
      ++ "considering empty object (name=" ++ name ++ ") as non-existing"), stored⟩
  else .ok reply.bufferList

/-- `asyncLockfreeFetch` and `wait`: the launch of `aio_read`, and its completion. -/
def asyncLockfreeFetch (atLaunch : Option String) (aio_read : Called)
    {stored : Option String} (reply : Reply stored) : Except Failure String :=
  match launch aio_read ("In BackendRados::AsyncLockfreeFetcher::AioReadPoster::execute(): "
      ++ "failed m_backend.getRadosCtx().aio_read()") with
  | .error e => .error ⟨e, atLaunch⟩
  | .ok rc =>
      if rc ≠ 0 then
        .error ⟨.noSuchObject ("In BackendRados::AsyncLockfreeFetcher::AsyncLockfreeFetcher(): "
          ++ "failed to launch aio_read(): " ++ name), atLaunch⟩
      else fetchCallback name reply

/-! ## `AsyncUpdater` -/

/-- An attempt to lock; `late` when the timeout is over. -/
structure LockAttempt where
  called : Called
  late : Bool := false

/-- The loop of `lockBackoff`; `none` while it goes on. -/
def lockLoop (name : String) : List LockAttempt → Option (Except Exn Unit)
  | [] => none
  | a :: attempts =>
      match launch a.called "In BackendRados::lockBackoff(): failed radosCtx.lock_exclusive()" with
      | .error e => some (.error e)
      | .ok rc =>
          if rc = -EBUSY then
            if a.late then
              some (.error (.exception ("In BackendRados::lockBackoff(): timeout, object: " ++ name)))
            else lockLoop name attempts
          else
            some (throwOnReturnedErrno (-rc)
              ("In BackendRados::lock(), failed to librados::IoCtx::lock_exclusive: " ++ name))

/-- The end of `lockBackoff`: an object that is empty is removed. -/
def checkLocked {stored : Option String} (stat : Call stored) (remove : Called) :
    Except Exn Unit := do
  throwOnReturnedErrnoOrThrownStdException (fun rc => -rc) (stat.called Reply.statRet)
    ("In BackendRados::lockBackoff, failed to librados::IoCtx::stat: " ++ name)
  if stat.size = 0 then
    throwOnReturnedErrnoOrThrownStdException (fun rc => -rc) remove
      ("In BackendRados::lockBackoff, failed to librados::IoCtx::remove: " ++ name)
    throw (.noSuchObject ("In BackendRados::lockBackoff(): trying to lock a non-existing object: "
      ++ name))

/-- What the function of the caller makes of the content. -/
inductive Updated where
  | value (content : String)
  /-- `AsyncUpdateWithDelete`. -/
  | withDelete
  | throws (e : Exn)

/-- What an update comes across, from its lock to its unlock. -/
structure UpdateRun where
  lockAttempts : List LockAttempt
  atStat : Option String
  stat : Call atStat
  removeEmpty : Called
  atLaunch : Option String
  aio_read : Called
  atRead : Option String
  reply : Reply atRead
  remove : Called
  atExists : Option String
  statAfterRemove : Call atExists
  aio_write_full : Called
  commitRet : Int
  aio_unlock : Called
  unlockRet : Int

variable (r : UpdateRun)

/-- `BackendRados::lock`, then the check; `none` while the lock is tried. -/
def UpdateRun.lock (name : String) : Option (Except Exn Unit) :=
  match lockLoop name r.lockAttempts with
  | none => none
  | some (.error e) => some (.error e)
  | some (.ok ()) => some (checkLocked name r.stat r.removeEmpty)

/-- `BackendRados::exists`; an empty object does not count. -/
def existsObject {stored : Option String} (call : Call stored) : Except Exn Bool := do
  let statRet ← launch (call.called Reply.statRet)
    "In BackendRados::exists: failed to getRadosCtx().stat()"
  if ENOENT = -statRet then return false
  throwOnReturnedErrno statRet "In BackendRados::exists(): m_radosCtx.stat() failed"
  return !(call.size == 0)

/-- The branch of `execute` that deletes the object. -/
def deleteUpdated : Except Exn Unit :=
  let deleted : Except Exn Unit := do
    throwOnReturnedErrnoOrThrownStdException (fun rc => -rc) r.remove ""
    let stillThere ← existsObject r.statAfterRemove
    if stillThere then throw (.exception "Object exists after remove")
  match deleted with
  | .ok () => .ok ()
  | .error _ =>
      .error (.couldNotUpdateValue ("In BackendRados::AsyncUpdater::fetchCallback::update_lambda(): "
        ++ "failed to remove value: " ++ name))

/-- An asynchronous operation is launched, and completes with a return value. -/
def completed (called : Called) (context : String) (notLaunched : Exn) (ret : Int) (failed : Exn) :
    Except Exn Unit := do
  let rc ← launch called context
  if rc ≠ 0 then throw notLaunched
  if ret ≠ 0 then throw failed

/-- The branch of `execute` that writes the object, up to the check of `commitCallback`. -/
def commitUpdated : Except Exn Unit :=
  completed r.aio_write_full ("In BackendRados::AsyncUpdater::UpdateJob::execute(): "
      ++ "failed m_backend.getRadosCtx().aio_write_full()")
    (.couldNotCommit ("In BackendRados::AsyncUpdater::fetchCallback::update_lambda(): "
      ++ "failed to launch aio_write_full()" ++ name))
    r.commitRet
    (.couldNotCommit ("In BackendRados::AsyncUpdater::commitCallback(): could not write object: "
      ++ name))

/-- The rest of `commitCallback`, and `unlockCallback`. -/
def unlockUpdated : Except Exn Unit :=
  completed r.aio_unlock ("In BackendRados::AsyncUpdater::commitCallback(): "
      ++ "failed to m_backend.getRadosCtx().aio_unlock()")
    (.couldNotUnlock ("In BackendRados::AsyncUpdater::commitCallback(): "
      ++ "failed to launch aio_unlock()" ++ name))
    r.unlockRet
    (.couldNotUnlock ("In BackendRados::AsyncUpdater::unlockCallback(): "
      ++ "could not unlock object: " ++ name))

def writeUpdated : Except Exn Unit := do
  commitUpdated name r
  unlockUpdated name r

/-- `fetchCallback` and `UpdateJob::execute`; the value is what the caller's function got. -/
def execute (name : String) (update : String → Updated) (r : UpdateRun) : Except Exn String :=
  if r.reply.readRet < 0 then
    .error (.couldNotFetch ("In BackendRados::AsyncUpdater::fetchCallback(): could not read object: "
      ++ name))
  else if r.reply.bufferList = "" then
    .error (.noSuchObject ("In BackendRados::AsyncUpdater::UpdateJob::execute(): "
      ++ "considering empty object (name=" ++ name ++ ")  as non-existing"))
  else
    match update r.reply.bufferList with
    | .throws e => .error e
    | .withDelete => do deleteUpdated name r; return r.reply.bufferList
    | .value _ => do writeUpdated name r; return r.reply.bufferList

/-- `asyncUpdate` and `wait`. -/
def asyncUpdate (update : String → Updated) (r : UpdateRun) :
    Option (Except Failure String) :=
  match r.lock name with
  | none => none
  | some (.error e) => some (.error ⟨e, r.atStat⟩)
  | some (.ok ()) =>
      match launch r.aio_read ("In AsyncUpdater::AsyncUpdater::lock_lambda(): "
          ++ "failed getRadosCtx().aio_read(): " ++ name) with
      | .error e => some (.error ⟨e, r.atLaunch⟩)
      | .ok rc =>
          if rc ≠ 0 then
            some (.error ⟨.noSuchObject ("In BackendRados::AsyncUpdater::AsyncUpdater::lock_lambda(): "
              ++ "failed to launch aio_read(): " ++ name), r.atLaunch⟩)
          else some ((execute name update r).mapError (⟨·, r.atRead⟩))

/-! ## When the three are honest -/

/-- The launch of an operation returns an error. -/
def Called.isRefused : Called → Bool
  | .returned rc => rc ≠ 0
  | _ => false

/-- The lock is taken, and `aio_read` cannot be launched although the object is there. -/
def UpdateRun.refusedWithContent (name : String) : Bool :=
  (match r.lock name with
    | some (.ok ()) => true
    | _ => false)
  && r.aio_read.isRefused && hasContent r.atLaunch

/-- The function of the caller throws `NoSuchObject` for a content it is given. -/
def Reply.refusedByCaller {stored : Option String} (reply : Reply stored)
    (update : String → Updated) : Bool :=
  match reply with
  | .found content _ => content ≠ "" && (match update content with
      | .throws (.noSuchObject _) => true
      | _ => false)
  | _ => false

/-- The function of the caller is given the content, and throws `NoSuchObject` itself. -/
def UpdateRun.callerSaysNoSuchObject (name : String) (update : String → Updated) :
    Bool :=
  (match r.lock name with
    | some (.ok ()) => true
    | _ => false)
  && r.aio_read == .returned 0 && r.reply.refusedByCaller update

variable {stored s : Option String} {e : Exn}

theorem Honest.of_other (h : ∀ message, e ≠ .noSuchObject message) :
    Honest stored (.error ⟨e, s⟩) := by
  constructor
  · intro message s' heq
    cases heq
    exact absurd rfl (h message)
  · intro content heq
    cases heq

variable {message : String}

theorem honest_noSuchObject_iff :
    Honest stored (.error ⟨.noSuchObject message, s⟩) ↔ hasContent s = false := by
  constructor
  · intro h
    exact h.absent message s rfl
  intro h
  constructor
  · intro message' s' heq
    cases heq
    exact h
  · intro content heq
    cases heq

variable {stored : Option String} {content : String}

theorem honest_ok (h : stored = some content) : Honest stored (.ok content) := by
  constructor
  · intro message s heq
    cases heq
  intro content' heq
  cases heq
  exact h

/-- What was found is returned, or taken for absent if it is empty. -/
theorem honest_found (message : String) (h : stored = some content) :
    Honest stored (if content = "" then .error ⟨.noSuchObject message, stored⟩ else .ok content) := by
  by_cases he : content = ""
  · rw [if_pos he, honest_noSuchObject_iff, h, he]
    rfl
  · rw [if_neg he]
    exact honest_ok h

/-- A reply with a content in it: the return value is its size. -/
theorem Reply.readRet_found (h : stored = some content) : ¬ (Reply.found content h).readRet < 0 :=
  Int.not_lt.mpr (Int.natCast_nonneg _)

theorem Reply.readRet_noEntry (h : stored = none) : (Reply.noEntry h).readRet < 0 :=
  show -(2 : Int) < 0 by decide

theorem Reply.readRet_failed {errno : Int} (hpos : 0 < errno) (hne : errno ≠ ENOENT) :
    (@Reply.failed stored errno hpos hne).readRet < 0 := by
  show -errno < 0
  omega

/-- The wrapper around `read`: an error code is passed on with its sign. -/
theorem throwOn_readRet (rc : Int) (context : String) :
    throwOnReturnedErrnoOrThrownStdException (fun rc => if rc < 0 then rc else 0) (.returned rc)
      context
      = if rc < 0 then .error (.errnum rc context) else .ok () := by
  show throwOnReturnedErrno (if rc < 0 then rc else 0) context = _
  by_cases hn : rc < 0
  · rw [if_pos hn, if_pos hn]
    exact if_neg (by omega)
  · rw [if_neg hn, if_neg hn]
    rfl

/-- **`read`** takes an object for absent when the store answers with an error code. -/
theorem read_honest_iff (call : Call stored) :
    Honest stored (read name call) ↔ (hasContent stored && call.isErrorCode) = false := by
  -- whatever error code it is, the buffer is empty
  have he : Honest stored (@returnBuffer name stored "") ↔ hasContent stored = false :=
    honest_noSuchObject_iff
  cases call with
  | threwStdException what =>
    have hc : (@Call.threwStdException stored what).isErrorCode = false := rfl
    rw [hc, Bool.and_false]
    exact iff_of_true (Honest.of_other (fun message => nofun)) rfl
  | threwErrorCode value message hne =>
    have hr : read name (@Call.threwErrorCode stored value message hne)
        = @returnBuffer name stored "" := if_neg hne
    have hc : (@Call.threwErrorCode stored value message hne).isErrorCode = true := rfl
    rw [hr, hc, Bool.and_true]
    exact he
  | replied reply =>
    unfold read Call.called
    rw [throwOn_readRet]
    cases reply with
    | found content h =>
      have hc : (Call.replied (Reply.found content h)).isErrorCode = false := rfl
      rw [if_neg (Reply.readRet_found h), hc, Bool.and_false]
      exact iff_of_true (honest_found _ h) rfl
    | noEntry h =>
      have hs : (Reply.noEntry h).readRet ≠ ENOENT := show -(2 : Int) ≠ 2 by decide
      have hn : hasContent stored = false := by
        rw [h]
        rfl
      rw [if_pos (Reply.readRet_noEntry h)]
      dsimp only
      rw [if_neg hs, hn, Bool.false_and]
      exact iff_of_true (he.mpr hn) rfl
    | failed errno hpos hne =>
      have hs : (@Reply.failed stored errno hpos hne).readRet ≠ ENOENT := by
        show -errno ≠ 2
        omega
      have hc : (Call.replied (@Reply.failed stored errno hpos hne)).isErrorCode = true := rfl
      rw [if_pos (Reply.readRet_failed hpos hne)]
      dsimp only
      rw [if_neg hs, hc, Bool.and_true]
      exact he

/-- `fetchCallback` is honest, whatever the reply. -/
theorem fetchCallback_honest (reply : Reply stored) :
    Honest stored (fetchCallback name reply) := by
  unfold fetchCallback
  cases reply with
  | found content h =>
    exact honest_found _ h
  | noEntry h =>
    have hc : -(Reply.noEntry h).readRet = ENOENT := show -(-(2 : Int)) = 2 by decide
    rw [if_pos (Reply.readRet_noEntry h), if_pos hc, honest_noSuchObject_iff, h]
    rfl
  | failed errno hpos hne =>
    have hc : -(@Reply.failed stored errno hpos hne).readRet ≠ ENOENT := by
      show - -errno ≠ ENOENT
      rw [Int.neg_neg]
      exact hne
    rw [if_pos (Reply.readRet_failed hpos hne), if_neg hc]
    exact Honest.of_other (fun message => nofun)

variable {called : Called} {context : String}

theorem launch_error (h : launch called context = .error e) :
    ∀ message, e ≠ .noSuchObject message := by
  intro message heq
  subst heq
  cases called with
  | returned | threwErrorCode | threwStdException => cases h

theorem launch_ok {rc : Int} (h : launch called context = .ok rc) : called = .returned rc := by
  cases called with
  | returned rc' =>
    cases h
    rfl
  | threwErrorCode | threwStdException => cases h

/-- A launch that throws was not refused, and launched nothing. -/
theorem isRefused_of_launch_error (h : launch called context = .error e) :
    called.isRefused = false ∧ (called == .returned 0) = false := by
  cases called with
  | returned rc => cases h
  | threwErrorCode | threwStdException => exact ⟨rfl, rfl⟩

/-- **`AsyncLockfreeFetcher`** takes an object for absent when it cannot launch the read. -/
theorem fetch_honest_iff (atLaunch : Option String) (aio_read : Called) (reply : Reply stored) :
    Honest stored (asyncLockfreeFetch name atLaunch aio_read reply)
      ↔ (hasContent atLaunch && aio_read.isRefused) = false := by
  unfold asyncLockfreeFetch
  cases hl : launch aio_read _ with
  | error e =>
    rw [(isRefused_of_launch_error hl).1, Bool.and_false]
    exact iff_of_true (Honest.of_other (launch_error hl)) rfl
  | ok rc =>
    obtain rfl := launch_ok hl
    dsimp only
    by_cases hrc : rc = 0
    · have hr : (Called.returned rc).isRefused = false := decide_eq_false (not_not.mpr hrc)
      rw [if_neg (not_not.mpr hrc), hr, Bool.and_false]
      exact iff_of_true (fetchCallback_honest name reply) rfl
    · have hr : (Called.returned rc).isRefused = true := decide_eq_true hrc
      rw [if_pos hrc, hr, Bool.and_true]
      exact honest_noSuchObject_iff

section Update

variable {name : String} {r : UpdateRun}

theorem throwOn_error {f : Int → Int}
    (h : throwOnReturnedErrnoOrThrownStdException f called context = .error e) :
    ∀ message, e ≠ .noSuchObject message := by
  intro message heq
  subst heq
  cases called with
  | returned rc =>
    unfold throwOnReturnedErrnoOrThrownStdException throwOnReturnedErrno at h
    dsimp only at h
    split at h <;> cases h
  | threwErrorCode | threwStdException => cases h

theorem lockLoop_error {attempts : List LockAttempt}
    (h : lockLoop name attempts = some (.error e)) : ∀ message, e ≠ .noSuchObject message := by
  induction attempts with
  | nil => cases h
  | cons a attempts ih =>
    unfold lockLoop at h
    cases hl : launch a.called _ with
    | error e' =>
      rw [hl] at h
      cases h
      exact launch_error hl
    | ok rc =>
      rw [hl] at h
      dsimp only at h
      split at h
      · split at h
        · cases h
          exact fun message => nofun
        · exact ih h
      · unfold throwOnReturnedErrno at h
        split at h
        · cases h
        · cases h
          exact fun message => nofun

/-- The lock is refused with `NoSuchObject` when the object is empty. -/
theorem checkLocked_error {stat : Call stored} {remove : Called}
    (h : checkLocked name stat remove = .error (.noSuchObject message)) :
    hasContent stored = false := by
  unfold checkLocked at h
  cases hs : throwOnReturnedErrnoOrThrownStdException (fun rc => -rc) (stat.called Reply.statRet)
      ("In BackendRados::lockBackoff, failed to librados::IoCtx::stat: " ++ name) with
  | error e =>
    rw [hs] at h
    cases h
    exact absurd rfl (throwOn_error hs message)
  | ok u =>
    rw [hs] at h
    have h' : (if stat.size = 0 then _ else _ : Except Exn Unit) = _ := h
    by_cases hsi : stat.size = 0
    · -- the call has replied with the size of the object
      cases stat with
      | threwErrorCode | threwStdException => cases hs
      | replied reply =>
        cases reply with
        | found content hstored =>
          rw [hstored]
          have he : content = "" := String.utf8ByteSize_eq_zero_iff.mp hsi
          rw [he]
          rfl
        | noEntry hstored =>
          rw [hstored]
          rfl
        | failed errno hpos hne =>
          have hc : throwOnReturnedErrno (- -errno) _ = .ok u := hs
          unfold throwOnReturnedErrno at hc
          rw [if_neg (by omega)] at hc
          cases hc
    · rw [if_neg hsi] at h'
      cases h'

theorem lock_error (h : r.lock name = some (.error (.noSuchObject message))) :
    hasContent r.atStat = false := by
  unfold UpdateRun.lock at h
  cases hl : lockLoop name r.lockAttempts with
  | none =>
    rw [hl] at h
    cases h
  | some result =>
    rw [hl] at h
    cases result with
    | error e =>
      cases h
      exact absurd rfl (lockLoop_error hl message)
    | ok u => exact checkLocked_error (Option.some.inj h)

theorem deleteUpdated_error (h : deleteUpdated name r = .error e) :
    ∀ message, e ≠ .noSuchObject message := by
  unfold deleteUpdated at h
  dsimp only at h
  split at h
  · cases h
  · cases h
    exact fun message => nofun

theorem completed_error {notLaunched failed : Exn} {ret : Int}
    (h : completed called context notLaunched ret failed = .error e)
    (hn : ∀ message, notLaunched ≠ .noSuchObject message)
    (hf : ∀ message, failed ≠ .noSuchObject message) : ∀ message, e ≠ .noSuchObject message := by
  unfold completed at h
  cases hl : launch called context with
  | error e' =>
    rw [hl] at h
    cases h
    exact launch_error hl
  | ok rc =>
    rw [hl] at h
    simp only [bind, Except.bind, throw, throwThe, MonadExceptOf.throw] at h
    split_ifs at h
    · cases h
      exact hn
    · cases h
      exact hf
    · cases h

theorem writeUpdated_error (h : writeUpdated name r = .error e) :
    ∀ message, e ≠ .noSuchObject message := by
  unfold writeUpdated at h
  cases hc : commitUpdated name r with
  | error e' =>
    rw [hc] at h
    cases h
    exact completed_error hc (fun _ => nofun) (fun _ => nofun)
  | ok u =>
    rw [hc] at h
    exact completed_error h (fun _ => nofun) (fun _ => nofun)

/-- What is returned once the update is done is the content that was found. -/
theorem honest_after_update (h : stored = some content)
    {finish : Except Exn Unit} (ho : ∀ e, finish = .error e → ∀ message, e ≠ .noSuchObject message) :
    Honest stored ((do finish; return content : Except Exn String).mapError (⟨·, stored⟩)) := by
  cases hf : finish with
  | error e => exact Honest.of_other (ho e hf)
  | ok u => exact honest_ok h

/-- From the completion of the read on, only the caller's function can be at fault. -/
theorem execute_honest_iff (update : String → Updated) :
    Honest r.atRead ((execute name update r).mapError (⟨·, r.atRead⟩))
      ↔ r.reply.refusedByCaller update = false := by
  unfold execute Reply.refusedByCaller
  cases hr : r.reply with
  | noEntry h =>
    exact iff_of_true (Honest.of_other (fun message => nofun)) rfl
  | failed errno hpos hne =>
    rw [if_pos (Reply.readRet_failed hpos hne)]
    exact iff_of_true (Honest.of_other (fun message => nofun)) rfl
  | found content h =>
    have hb : (Reply.found content h).bufferList = content := rfl
    rw [hb]
    dsimp only
    by_cases hem : content = ""
    · rw [if_pos hem, decide_eq_false (not_not.mpr hem), Bool.false_and]
      refine iff_of_true (honest_noSuchObject_iff.mpr ?_) rfl
      rw [h, hem]
      rfl
    · have hc : hasContent r.atRead = true := by
        rw [h]
        exact decide_eq_true hem
      rw [if_neg hem, decide_eq_true hem, Bool.true_and]
      cases hu : update content with
      | value content' =>
        exact iff_of_true (honest_after_update h (fun e he => writeUpdated_error he)) rfl
      | withDelete =>
        exact iff_of_true (honest_after_update h (fun e he => deleteUpdated_error he)) rfl
      | throws e =>
        cases e with
        | noSuchObject message =>
          have hd : ¬ Honest r.atRead (.error ⟨.noSuchObject message, r.atRead⟩) := by
            rw [honest_noSuchObject_iff, hc]
            decide
          exact iff_of_false hd (fun heq => nomatch heq)
        | exception _ | errnum _ _ | couldNotCreate _ | couldNotFetch _ | couldNotUpdateValue _
        | couldNotCommit _ | couldNotUnlock _ | ofCaller _ =>
          exact iff_of_true (Honest.of_other (fun message => nofun)) rfl

/-- **`AsyncUpdater`** takes an object for absent when it cannot launch the read, or when the
function of the caller says so. -/
theorem update_honest_iff (update : String → Updated) :
    (∀ result, asyncUpdate name update r = some result → Honest r.atRead result)
      ↔ (r.refusedWithContent name || r.callerSaysNoSuchObject name update) = false := by
  unfold asyncUpdate UpdateRun.refusedWithContent UpdateRun.callerSaysNoSuchObject
  cases hlo : r.lock name with
  | none =>
    exact iff_of_true (fun result heq => nomatch heq) rfl
  | some locked =>
    cases locked with
    | error e =>
      refine iff_of_true ?_ rfl
      intro result heq
      cases heq
      by_cases hn : ∃ message, e = .noSuchObject message
      · obtain ⟨message, rfl⟩ := hn
        exact honest_noSuchObject_iff.mpr (lock_error hlo)
      · exact Honest.of_other (fun message heq => hn ⟨message, heq⟩)
    | ok u =>
      rw [Bool.true_and, Bool.true_and]
      cases hl : launch r.aio_read _ with
      | error e =>
        have hc := isRefused_of_launch_error hl
        rw [hc.1, hc.2]
        refine iff_of_true ?_ rfl
        intro result heq
        cases heq
        exact Honest.of_other (launch_error hl)
      | ok rc =>
        rw [launch_ok hl]
        dsimp only
        by_cases hrc : rc = 0
        · have hr : (Called.returned rc).isRefused = false := decide_eq_false (not_not.mpr hrc)
          have hz : (Called.returned rc == .returned 0) = true := by
            rw [hrc]
            rfl
          rw [if_neg (not_not.mpr hrc), hr, hz, Bool.false_and, Bool.false_or, Bool.true_and]
          refine Iff.trans ⟨fun h => h _ rfl, fun h result heq => ?_⟩ (execute_honest_iff update)
          cases heq
          exact h
        · have hr : (Called.returned rc).isRefused = true := decide_eq_true hrc
          have hz : (Called.returned rc == .returned 0) = false := by
            rw [beq_eq_false_iff_ne]
            intro heq
            cases heq
            exact hrc rfl
          rw [if_pos hrc, hr, hz, Bool.true_and, Bool.false_and, Bool.or_false]
          refine ⟨fun h => honest_noSuchObject_iff.mp (h _ rfl), fun h result heq => ?_⟩
          cases heq
          exact honest_noSuchObject_iff.mpr h

end Update

/-- **`NoSuchObject` means absent**, and what is returned is what was stored: for `read` exactly
without error codes about an object with content; for the others when its read can be launched
and the caller's function throws none itself. -/
theorem noSuchObject_means_absent_iff (name : String) {stored : Option String} (call : Call stored)
    (atLaunch : Option String) (aio_read : Called) (reply : Reply stored)
    (update : String → Updated) (r : UpdateRun) :
    (Honest stored (read name call) ↔ (hasContent stored && call.isErrorCode) = false)
    ∧ (Honest stored (asyncLockfreeFetch name atLaunch aio_read reply)
        ↔ (hasContent atLaunch && aio_read.isRefused) = false)
    ∧ ((∀ result, asyncUpdate name update r = some result → Honest r.atRead result)
        ↔ (r.refusedWithContent name || r.callerSaysNoSuchObject name update) = false) :=
  ⟨read_honest_iff name call, fetch_honest_iff name atLaunch aio_read reply, update_honest_iff update⟩

/-- A locked object whose read cannot be launched. -/
def refusedRead : UpdateRun where
  lockAttempts := [⟨.returned 0, false⟩]
  atStat := some "content"
  stat := .replied (.found "content" rfl)
  removeEmpty := .returned 0
  atLaunch := some "content"
  aio_read := .returned (-12)
  atRead := some "content"
  reply := .found "content" rfl
  remove := .returned 0
  atExists := none
  statAfterRemove := .replied (.noEntry rfl)
  aio_write_full := .returned 0
  commitRet := 0
  aio_unlock := .returned 0
  unlockRet := 0

/-- `read` fails with an I/O error, the launches of the others for lack of memory. -/
theorem object_with_content_is_denied :
    @read "queue" (some "content") (.replied (.failed 5 (by decide) (by decide)))
      = .error ⟨.noSuchObject "In BackendRados::read(): considering empty object (name=queue) as non-existing.",
          some "content"⟩
    ∧ @asyncLockfreeFetch "queue" (some "content") (.returned (-12)) (some "content")
        (.found "content" rfl)
      = .error ⟨.noSuchObject ("In BackendRados::AsyncLockfreeFetcher::AsyncLockfreeFetcher(): "
          ++ "failed to launch aio_read(): queue"), some "content"⟩
    ∧ asyncUpdate "queue" Updated.value refusedRead
      = some (.error ⟨.noSuchObject ("In BackendRados::AsyncUpdater::AsyncUpdater::lock_lambda(): "
          ++ "failed to launch aio_read(): queue"), some "content"⟩) := by
  refine ⟨?_, ?_, ?_⟩
  · rfl
  · rfl
  · rfl

end TapeArchive.Objectstore.Rados
