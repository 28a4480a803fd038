/-
  How the Rados backend turns the results of its calls into exceptions
  (`Errnum::throwOnReturnedErrnoOrThrownStdException`), and the two ways to create an
  object. Both retry when the object is there and empty:

      create          operate ──0──▶ returns          AsyncCreator   operate ─▶ set_value
                        ▲ │EEXIST                                      ▲ │EEXIST
                    gone│ ▼                                        gone│ ▼  set_value
                        stat ──▶ throws                                stat ─▶ set_exception
-/
import Mathlib
import TapeArchive.Lib.Run

namespace TapeArchive.Objectstore.Rados

open Lib

/-! ## Calls and their exceptions -/

def ENOENT : Int := 2
def EBUSY : Int := 16
def EEXIST : Int := 17

inductive Called where
  | returned (rc : Int)
  /-- With an `std::error_code`. -/
  | threwErrorCode (value : Int) (message : String)
  | threwStdException (what : String)
  deriving DecidableEq

inductive Exn where
  | exception (message : String)
  | errnum (errorNumber : Int) (message : String)
  | noSuchObject (message : String)
  | couldNotCreate (message : String)
  | couldNotFetch (message : String)
  | couldNotUpdateValue (message : String)
  | couldNotCommit (message : String)
  | couldNotUnlock (message : String)
  /-- An exception of the caller's own. -/
  | ofCaller (what : String)
  deriving DecidableEq

def throwOnReturnedErrno (err : Int) (context : String) : Except Exn Unit :=
  if err = 0 then .ok () else .error (.errnum err context)

/-- `Errnum::throwOnReturnedErrnoOrThrownStdException`; `f` is what the lambda returns. -/
def throwOnReturnedErrnoOrThrownStdException (f : Int → Int) (called : Called) (context : String) :
    Except Exn Unit :=
  match called with
  | .returned rc => throwOnReturnedErrno (f rc) context
  | .threwErrorCode value message =>
      .error (.errnum value (context ++ " Got an std::error_code: " ++ message))
  | .threwStdException what =>
      .error (.exception (context ++ " Got a standard exception: " ++ what))

/-- The launch of an asynchronous operation: its result is kept, what it throws is passed on. -/
def launch (called : Called) (context : String) : Except Exn Int :=
  match called with
  | .returned rc => .ok rc
  | .threwErrorCode value message =>
      .error (.errnum value (context ++ " Got an std::error_code: " ++ message))
  | .threwStdException what =>
      .error (.exception (context ++ " Got a standard exception: " ++ what))

/-! ## `create` -/

/-- How a `stat` ends; `late` when the timer is past 10 s. -/
inductive StatResult where
  | returned (statRet : Int) (size : UInt64) (late : Bool)
  | threw (what : String)

inductive Polled where
  | gone
  | throws (e : Exn)
  deriving DecidableEq

/-- The loop at the label `restat`; `none` while it goes on. -/
def restat (message : String) : List StatResult → Option Polled
  | [] => none
  | .threw what :: _ => some (.throws (.exception what))
  | .returned statRet size late :: stats =>
      if -ENOENT = statRet then some .gone
      else if statRet = 0 then
        if size ≠ 0 then
          some (.throws (.errnum EEXIST (message ++ " After statRet=" ++ toString statRet
            ++ " size=" ++ toString size)))
        else if late then
          some (.throws (.errnum EEXIST (message ++ " Object is still here after 10s. statRet="
            ++ toString statRet ++ " size=" ++ toString size)))
        else restat message stats
      else some (.throws (.errnum EEXIST (message ++ " And stating failed with errno="
        ++ toString (-statRet))))

/-- An attempt to create: the result of `operate`, and those of the `stat`s that follow it. -/
structure Attempt where
  operate : Called
  stats : List StatResult := []

/-- The loop at the label `retry`, with what the call has written; `none` while it goes on. -/
def createFrom (name content : String) : List Attempt → Option (Except Exn Unit × Option String)
  | [] => none
  | a :: attempts =>
      match throwOnReturnedErrnoOrThrownStdException (fun rc => -rc) a.operate
          ("In BackendRados::create(), failed to create exclusively or write: " ++ name) with
      | .ok () => some (.ok (), some content)
      | .error (.errnum errorNumber message) =>
          if errorNumber = EEXIST then
            match restat message a.stats with
            | some .gone => createFrom name content attempts
            | some (.throws e) => some (.error e, none)
            | none => none
          -- the handler ends here, and so does the function
          else some (.ok (), none)
      | .error e => some (.error e, none)

def create (name content : String) (attempts : List Attempt) :
    Option (Except Exn Unit × Option String) :=
  if content = "" then
    some (.error (.exception "In BackendRados::create: trying to create an empty object."), none)
  else createFrom name content attempts

def Called.saysExists : Called → Bool
  | .returned rc => -rc = EEXIST
  | .threwErrorCode value _ => value = EEXIST
  | .threwStdException _ => false

def Called.isOtherError : Called → Bool
  | .returned rc => rc ≠ 0 ∧ -rc ≠ EEXIST
  | .threwErrorCode value _ => value ≠ EEXIST
  | .threwStdException _ => false

/-- The last attempt ends with an error code other than `EEXIST`. -/
def endsWithOtherError : List Attempt → Bool
  | [] => false
  | a :: attempts =>
      a.operate.isOtherError
        || (a.operate.saysExists && restat "" a.stats == some .gone && endsWithOtherError attempts)

/-- Whether the polling finds the object gone does not depend on the message. -/
theorem restat_gone (message message' : String) (stats : List StatResult) :
    restat message stats = some .gone ↔ restat message' stats = some .gone := by
  induction stats with
  | nil => exact Iff.rfl
  | cons r stats ih =>
    cases r with
    | threw what => simp [restat]
    | returned statRet size late =>
      unfold restat
      split_ifs
      · exact Iff.rfl
      · simp
      · simp
      · exact ih
      · simp

/-- The four ways `operate` ends. -/
theorem operate_cases (called : Called) (context : String) :
    let result := throwOnReturnedErrnoOrThrownStdException (fun rc => -rc) called context
    (result = .ok () ∧ called.saysExists = false ∧ called.isOtherError = false)
    ∨ (∃ message, result = .error (.errnum EEXIST message)
        ∧ called.saysExists = true ∧ called.isOtherError = false)
    ∨ (∃ errorNumber message, errorNumber ≠ EEXIST ∧ result = .error (.errnum errorNumber message)
        ∧ called.isOtherError = true)
    ∨ (∃ message, result = .error (.exception message)
        ∧ called.saysExists = false ∧ called.isOtherError = false) := by
  cases called with
  | returned rc =>
    unfold throwOnReturnedErrnoOrThrownStdException throwOnReturnedErrno Called.saysExists
      Called.isOtherError
    by_cases hz : -rc = 0
    · have hrc : rc = 0 := by omega
      refine Or.inl ⟨if_pos hz, ?_, ?_⟩
      · rw [hrc]
        rfl
      · rw [hrc]
        rfl
    · have hrc : rc ≠ 0 := by omega
      by_cases he : -rc = EEXIST
      · refine Or.inr (Or.inl ⟨context, ?_, decide_eq_true he, decide_eq_false fun h => h.2 he⟩)
        dsimp only
        rw [if_neg hz, he]
      · refine Or.inr (Or.inr (Or.inl ⟨-rc, context, he, if_neg hz,
          decide_eq_true ⟨hrc, he⟩⟩))
  | threwErrorCode value message =>
    by_cases he : value = EEXIST
    · subst he
      exact Or.inr (Or.inl ⟨_, rfl, rfl, rfl⟩)
    · exact Or.inr (Or.inr (Or.inl ⟨value, _, he, rfl, decide_eq_true he⟩))
  | threwStdException what => exact Or.inr (Or.inr (Or.inr ⟨_, rfl, rfl, rfl⟩))

/-- **`create` tells the truth** exactly when it does not run into another error code. -/
theorem createFrom_created_iff (name content : String) (attempts : List Attempt) :
    (∀ written, createFrom name content attempts = some (.ok (), written) → written = some content)
      ↔ endsWithOtherError attempts = false := by
  induction attempts with
  | nil => simp [createFrom, endsWithOtherError]
  | cons a attempts ih =>
    unfold createFrom endsWithOtherError
    rcases operate_cases a.operate
        ("In BackendRados::create(), failed to create exclusively or write: " ++ name) with
      ⟨hr, hexists, hother⟩ | ⟨message, hr, hexists, hother⟩
      | ⟨errorNumber, message, hne, hr, hother⟩ | ⟨message, hr, hexists, hother⟩
    · rw [hr, hexists, hother]
      simp
    · -- the object exists: it is polled, and the rest of the attempts decides if it goes away
      rw [hr, hexists, hother, Bool.false_or, Bool.true_and]
      dsimp only
      by_cases hg : restat message a.stats = some .gone
      · rw [hg, (restat_gone message "" a.stats).mp hg, beq_self_eq_true, Bool.true_and]
        exact ih
      have hg' : restat "" a.stats ≠ some .gone :=
        fun h => hg ((restat_gone message "" a.stats).mpr h)
      rw [beq_eq_false_iff_ne.mpr hg', Bool.false_and]
      cases hp : restat message a.stats with
      | none => simp
      | some polled =>
        cases polled with
        | gone => exact absurd hp hg
        | throws e => simp
    · -- another error: the call returns, and nothing is written
      rw [hr, hother, Bool.true_or]
      dsimp only
      rw [if_neg hne]
      simp
    · rw [hr, hexists, hother]
      simp

/-! ## `AsyncCreator` -/

inductive Pending where
  | operate
  | stat
  deriving DecidableEq

inductive Completion where
  | value
  | exception (e : Exn)
  deriving DecidableEq

/-- With what it has written, and how often its promise was completed. -/
structure AsyncCreator where
  (m_name m_value : String)
  pending : Option Pending := none
  m_job : Option Completion := none
  completions : Nat := 0
  written : Option String := none

namespace AsyncCreator

/-- `m_job.set_value` and `m_job.set_exception`. -/
def complete (ac : AsyncCreator) (c : Completion) : AsyncCreator :=
  { ac with m_job := ac.m_job.or (some c), completions := ac.completions + 1 }

/-- The operation `next` is awaited if its launch returned 0. -/
def await (ac : AsyncCreator) (next : Pending) (rc : Int) : AsyncCreator :=
  { ac with pending := if rc = 0 then some next else none }

def construct (name value : String) (aio_operate : Called) : AsyncCreator :=
  let ac : AsyncCreator := { m_name := name, m_value := value }
  match launch aio_operate
      "In BackendRados::AsyncCreator::AsyncCreator(): failed m_backend.getRadosCtx().aio_operate()"
    with
  | .error e => ac.complete (.exception e)
  | .ok rc =>
      if rc ≠ 0 then
        ac.complete (.exception (.couldNotCreate
          ("In BackendRados::AsyncCreator::AsyncCreator(): failed to launch aio_operate(): "
            ++ name)))
      else ac.await .operate rc

def createExclusiveCallback (ac : AsyncCreator) (ret : Int) (aio_stat : Called) : AsyncCreator :=
  let ac := { ac with pending := none }
  if ret ≠ 0 then
    if EEXIST = -ret then
      match launch aio_stat ("In BackendRados::AsyncCreator::createExclusiveCallback(): "
          ++ "failed m_backend.getRadosCtx().aio_operate()") with
      | .error e => ac.complete (.exception e)
      -- the branch does not return: the promise is completed after it
      | .ok rc => (ac.await .stat rc).complete .value
    else
      ac.complete (.exception (.couldNotCreate ("In BackendRados::AsyncCreator::"
        ++ "createExclusiveCallback(): could not create object: " ++ ac.m_name)))
  else { ac with written := some ac.m_value }.complete .value

/-- `statCallback`; `next` is the launch of the retry. -/
def statCallback (ac : AsyncCreator) (ret : Int) (size : UInt64) (late : Bool) (next : Called) :
    AsyncCreator :=
  let ac := { ac with pending := none }
  if ret ≠ 0 then
    if ENOENT = -ret then
      match launch next
          "In BackendRados::AsyncCreator::statCallback(): failed m_backend.getRadosCtx().aio_operate()"
        with
      | .error e => ac.complete (.exception e)
      | .ok rc =>
          if rc ≠ 0 then
            ac.complete (.exception (.couldNotCreate ("In BackendRados::AsyncCreator::statCallback(): "
              ++ "failed to launch aio_operate(): " ++ ac.m_name)))
          else ac.await .operate rc
    else
      ac.complete (.exception (.couldNotCreate
        ("In BackendRados::AsyncCreator::statCallback(): could not stat object: " ++ ac.m_name)))
  else if size ≠ 0 then
    ac.complete (.exception (.errnum EEXIST
      ("In BackendRados::AsyncCreator::statCallback: object already exists: " ++ ac.m_name)))
  else if late then
    ac.complete (.exception (.errnum EEXIST
      ("In BackendRados::AsyncCreator::statCallback: Object is still here after 10s: "
        ++ ac.m_name)))
  else
    match launch next
        "In BackendRados::AsyncCreator::statCallback(): failed m_backend.getRadosCtx().aio_operate()"
      with
    | .error e => ac.complete (.exception e)
    | .ok rc => ac.await .stat rc

end AsyncCreator

/-- A callback, with the results it finds and that of the operation it launches. -/
inductive Callback where
  | createExclusive (ret : Int) (aio_stat : Called)
  | stat (ret : Int) (size : UInt64) (late : Bool) (next : Called)

/-- A callback is called for the operation that was launched. -/
def step (ac : AsyncCreator) : Callback → AsyncCreator
  | .createExclusive ret aio_stat =>
      if ac.pending = some .operate then ac.createExclusiveCallback ret aio_stat else ac
  | .stat ret size late next =>
      if ac.pending = some .stat then ac.statCallback ret size late next else ac

/-- What is reported is what happened, and it is reported once. -/
structure Truthful (ac : AsyncCreator) : Prop where
  created : ac.m_job = some .value → ac.written = some ac.m_value
  once : ac.completions ≤ 1
  reported : ac.pending = none → ac.completions = 1

/-- The object exists, and a `stat` of it is launched. -/
def ReportsTooSoon (ac : AsyncCreator) : Callback → Bool
  | .createExclusive ret aio_stat =>
      ac.pending = some .operate && decide (EEXIST = -ret) &&
        match aio_stat with
        | .returned _ => true
        | _ => false
  | .stat _ _ _ _ => false

/-! ## What a callback does to the promise -/

/-- Nothing was reported yet. -/
structure Fresh (ac : AsyncCreator) : Prop where
  pending : ac.pending = some .operate
  m_job : ac.m_job = none
  completions : ac.completions = 0
  written : ac.written = none

/-- The promise is completed, and no callback is to come. -/
structure Done (ac : AsyncCreator) : Prop where
  pending : ac.pending = none
  truthful : Truthful ac

/-- A creation was reported that did not happen, or the promise was completed twice. -/
def Lost (ac : AsyncCreator) : Prop :=
  1 < ac.completions ∨ (ac.completions = 1 ∧ ac.m_job = some .value ∧ ac.written = none)

variable {ac : AsyncCreator}

theorem Lost.not_truthful (h : Lost ac) : ¬ Truthful ac := by
  intro ht
  rcases h with htw | ⟨_, hv, hn⟩
  · have ho := ht.once
    omega
  have hw := ht.created hv
  rw [hn] at hw
  cases hw

theorem Fresh.truthful (h : Fresh ac) : Truthful ac := by
  constructor
  · intro hv
    rw [h.m_job] at hv
    cases hv
  · rw [h.completions]
    exact Nat.zero_le _
  · intro hn
    rw [h.pending] at hn
    cases hn

theorem Done.of_exception (hj : ac.m_job = none) (hz : ac.completions = 0)
    (hn : ac.pending = none) (e : Exn) : Done (ac.complete (.exception e)) := by
  refine ⟨hn, ?_, ?_, ?_⟩
  · intro hv
    unfold AsyncCreator.complete at hv
    rw [hj] at hv
    cases hv
  · show ac.completions + 1 ≤ 1
    omega
  · intro _
    show ac.completions + 1 = 1
    omega

/-- Whatever completes the promise again loses it. -/
theorem Lost.complete (h : 1 ≤ ac.completions) (c : Completion) : Lost (ac.complete c) := by
  refine Or.inl ?_
  show 1 < ac.completions + 1
  omega

theorem Lost.one_le (h : Lost ac) : 1 ≤ ac.completions := by
  rcases h with htw | ⟨ho, _⟩ <;> omega

theorem Done.construct_or_fresh (name value : String) (aio_operate : Called) :
    Fresh (AsyncCreator.construct name value aio_operate)
      ∨ Done (AsyncCreator.construct name value aio_operate) := by
  unfold AsyncCreator.construct
  cases launch aio_operate _ with
  | error e => exact Or.inr (Done.of_exception rfl rfl rfl e)
  | ok rc =>
    dsimp only
    by_cases hrc : rc = 0
    · rw [if_neg (not_not.mpr hrc), hrc]
      exact Or.inl ⟨rfl, rfl, rfl, rfl⟩
    · rw [if_pos hrc]
      exact Or.inr (Done.of_exception rfl rfl rfl _)

/-- **The first callback**: the creation is done with, unless the object exists. -/
theorem Fresh.step (h : Fresh ac) (c : Callback) :
    if ReportsTooSoon ac c then Lost (Rados.step ac c)
    else Fresh (Rados.step ac c) ∨ Done (Rados.step ac c) := by
  cases c with
  | stat ret size late next =>
    have hp : ac.pending ≠ some .stat := by
      rw [h.pending]
      decide
    simp only [Rados.step, if_neg hp, ReportsTooSoon]
    exact Or.inl h
  | createExclusive ret aio_stat =>
    simp only [Rados.step, ReportsTooSoon, h.pending, decide_true, Bool.true_and, if_true]
    unfold AsyncCreator.createExclusiveCallback
    have hex : ∀ e, Done (({ ac with pending := none } : AsyncCreator).complete (.exception e)) := by
      apply Done.of_exception
      · exact h.m_job
      · exact h.completions
      · rfl
    by_cases hret : ret = 0
    · subst hret
      refine Or.inr ⟨rfl, fun _ => rfl, ?_, ?_⟩
      · show ac.completions + 1 ≤ 1
        rw [h.completions]
      intro _
      show ac.completions + 1 = 1
      rw [h.completions]
    rw [if_pos hret]
    by_cases he : EEXIST = -ret
    · rw [if_pos he, decide_eq_true he, Bool.true_and]
      cases aio_stat with
      | returned rc =>
        -- the `stat` is on its way, and the value is set
        refine Or.inr ⟨?_, ?_, h.written⟩
        · show ac.completions + 1 = 1
          rw [h.completions]
        show ac.m_job.or (some .value) = some .value
        rw [h.m_job]
        rfl
      | threwErrorCode | threwStdException => exact Or.inr (hex _)
    · rw [if_neg he, decide_eq_false he]
      exact Or.inr (hex _)

/-- **Later callbacks** do not make up for it. -/
theorem Lost.step (h : Lost ac) (c : Callback) : Lost (Rados.step ac c) := by
  have ho := h.one_le
  cases c with
  | createExclusive ret aio_stat =>
    simp only [Rados.step]
    split
    · unfold AsyncCreator.createExclusiveCallback
      split_ifs
      · cases launch aio_stat _ with
        | error | ok => exact Lost.complete ho _
      · exact Lost.complete ho _
      · refine Lost.complete ?_ _
        exact ho
    · exact h
  | stat ret size late next =>
    simp only [Rados.step]
    split
    · unfold AsyncCreator.statCallback
      split_ifs
      · cases launch next _ with
        | error e => exact Lost.complete ho _
        | ok rc =>
          dsimp only
          split_ifs
          · exact Lost.complete ho _
          · exact h
      · exact Lost.complete ho _
      · exact Lost.complete ho _
      · exact Lost.complete ho _
      · cases launch next _ with
        | error e => exact Lost.complete ho _
        | ok rc => exact h
    · exact h

theorem Done.step (h : Done ac) (c : Callback) : Rados.step ac c = ac := by
  cases c with
  | createExclusive | stat =>
    simp only [Rados.step]
    rw [if_neg (by rw [h.pending]; decide)]

def Known (ac : AsyncCreator) : Prop := Fresh ac ∨ Done ac ∨ Lost ac

theorem Known.step (h : Known ac) (c : Callback) : Known (Rados.step ac c) := by
  rcases h with hf | hd | hl
  · have hs := hf.step c
    split at hs
    · exact Or.inr (Or.inr hs)
    · exact hs.imp id Or.inl
  · rw [hd.step c]
    exact Or.inr (Or.inl hd)
  · exact Or.inr (Or.inr (hl.step c))

/-- **One callback** keeps the report truthful if, and only if, it does not come too soon. -/
theorem Known.truthful_step_iff (h : Known ac) (c : Callback) :
    Truthful (Rados.step ac c) ↔ Truthful ac ∧ ReportsTooSoon ac c = false := by
  rcases h with hf | hd | hl
  · have hs := hf.step c
    split at hs
    next hso =>
      rw [hso]
      exact ⟨fun ht => absurd ht hs.not_truthful, fun ht => nomatch ht.2⟩
    next hso =>
      have hsl : Truthful (Rados.step ac c) := hs.elim Fresh.truthful Done.truthful
      exact ⟨fun _ => ⟨hf.truthful, Bool.not_eq_true _ ▸ hso⟩, fun _ => hsl⟩
  · rw [hd.step c]
    refine ⟨fun ht => ⟨ht, ?_⟩, fun ht => ht.1⟩
    cases c with
    | createExclusive ret aio_stat => simp [ReportsTooSoon, hd.pending]
    | stat ret size late next => rfl
  · exact ⟨fun ht => absurd ht (hl.step c).not_truthful, fun ht => absurd ht.1 hl.not_truthful⟩

/-- **The promise over whole runs.** -/
theorem asyncCreate_truthful_iff (name value : String) (aio_operate : Called)
    (callbacks : List Callback) :
    Truthful (run step (AsyncCreator.construct name value aio_operate) callbacks)
      ↔ Along step (fun ac c => ReportsTooSoon ac c = false)
          (AsyncCreator.construct name value aio_operate) callbacks := by
  have hs := Done.construct_or_fresh name value aio_operate
  rw [@run_iff _ _ step (fun ac c => ReportsTooSoon ac c = false) Known Truthful
    (fun _ c h => h.step c) (fun _ c h => h.truthful_step_iff c) callbacks _ (hs.imp id Or.inl)]
  exact and_iff_right (hs.elim Fresh.truthful Done.truthful)

/-! ## Reported creations -/

/-- **A creation that is reported has happened**: by `create` without an error code other than
`EEXIST` at the end, by an `AsyncCreator` without an `EEXIST`. -/
theorem reported_creation_iff (name content : String) (hcontent : content ≠ "")
    (attempts : List Attempt) (aio_operate : Called) (callbacks : List Callback) :
    ((∀ written, create name content attempts = some (.ok (), written) → written = some content)
        ↔ endsWithOtherError attempts = false)
      ∧ (Truthful (run step (AsyncCreator.construct name content aio_operate) callbacks)
        ↔ Along step (fun ac c => ReportsTooSoon ac c = false)
            (AsyncCreator.construct name content aio_operate) callbacks) := by
  refine ⟨?_, asyncCreate_truthful_iff name content aio_operate callbacks⟩
  unfold create
  rw [if_neg hcontent]
  exact createFrom_created_iff name content attempts

/-- The object is there, empty, for a moment; then it is created. -/
def retried : List Attempt :=
  [⟨.returned (-EEXIST), [.returned 0 0 false, .returned (-ENOENT) 0 false]⟩, ⟨.returned 0, []⟩]

theorem retried_is_reported :
    (∀ written, create "queue" "content" retried = some (.ok (), written) → written = some "content")
      ∧ Truthful (run step (AsyncCreator.construct "queue" "content" (.returned 0))
          [.createExclusive 0 (.returned 0)]) := by
  obtain ⟨hc, ha⟩ := reported_creation_iff "queue" "content" (by decide) retried (.returned 0)
    [.createExclusive 0 (.returned 0)]
  exact ⟨hc.mpr (by decide), ha.mpr (by decide)⟩

/-- An I/O error and nothing written; an `AsyncCreator` that meets an existing object reports its
creation, and may complete its promise again. -/
theorem creation_reported_in_vain :
    create "queue" "content" [⟨.returned (-5), []⟩] = some (.ok (), none)
    ∧ (run step (AsyncCreator.construct "queue" "content" (.returned 0))
          [.createExclusive (-EEXIST) (.returned 0)]).m_job = some .value
    ∧ (run step (AsyncCreator.construct "queue" "content" (.returned 0))
          [.createExclusive (-EEXIST) (.returned 0)]).written = none
    ∧ (run step (AsyncCreator.construct "queue" "content" (.returned 0))
          [.createExclusive (-EEXIST) (.returned 0), .stat 0 7 false (.returned 0)]).completions = 2
    ∧ (run step (AsyncCreator.construct "queue" "content" (.returned 0))
          [.createExclusive (-EEXIST) (.returned 0), .stat (-ENOENT) 0 false (.returned 0),
           .createExclusive 0 (.returned 0)]).completions = 2 := by
  refine ⟨rfl, by decide, by decide, by decide, by decide⟩

end TapeArchive.Objectstore.Rados
