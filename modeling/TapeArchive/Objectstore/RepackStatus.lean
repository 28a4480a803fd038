/-
  **WHEN A REPACK REQUEST IS COMPLETE.**

  A history is any sequence of reports, of changes of the two expansion flags and of calls
  of `setStatus()`. The decision COUNTS the archive requests that could not be created as
  done, but does not look at them when it chooses between Complete and Failed.
-/
import TapeArchive.Lib.MachineWord
import TapeArchive.Objectstore.RepackAccounting

namespace TapeArchive.Objectstore

open Std Lib Common List
open UInt64 (ofNat_add ofNat_one)

namespace RepackRequest

/-! ## Histories -/

inductive Event where
  | report (call : Call)
  | reportRetrieveCreationFailures (env : Surroundings) (notCreatedSubrequests : List Subrequest)
  | reportArchiveCreationFailures (nbFailedToCreateArchiveRequests : UInt64)
  | setExpandStarted (expandStarted : Bool)
  | setExpandFinished (expandFinished : Bool)
  | setStatus (env : Surroundings)

variable (r : RepackRequest)

def Event.exec : Event → Except RequestExn RepackRequest
  | .report call => call.kind.report.run call.env call.stats r
  | .reportRetrieveCreationFailures env l => r.reportRetrieveCreationFailures env l
  | .reportArchiveCreationFailures n => .ok (r.reportArchiveCreationFailures n)
  | .setExpandStarted b => .ok (r.setExpandStarted b)
  | .setExpandFinished b => .ok (r.setExpandFinished b)
  | .setStatus env => r.setStatus env

/-- The request that `setStatus()` finds, if the call gets there. -/
def Event.atSetStatus : Event → Option RepackRequest
  | .report call =>
      match call.kind.report.counting call.env call.stats r with
      | .ok c => if c.didUpdate then some c.payload else none
      | .error _ => none
  | .reportRetrieveCreationFailures _ l => some (r.countRetrieveCreationFailures l)
  | .setStatus _ => some r
  | _ => none

def Kind.isFailure : Kind → Bool
  | .retrieveFailure | .archiveFailure => true
  | .retrieveSuccess | .archiveSuccess => false

/-- The call records a failure that was not accounted before, or one to create a request. -/
def Event.recordsFailure : Event → Bool
  | .report call =>
      call.kind.isFailure
        && !(firsts Entry.key (mapFlag r.readMap) call.entries).isEmpty
  | .reportRetrieveCreationFailures _ l => !l.isEmpty
  | .reportArchiveCreationFailures n => n != 0
  | _ => false

/-- A status that `setStatus()` set. -/
structure Decision where
  status : RepackRequestStatus
  /-- The request the decision was taken on. -/
  request : RepackRequest
  /-- Whether a failure had been recorded by then. -/
  failureRecorded : Bool

structure History where
  request : RepackRequest
  failureRecorded : Bool
  decisions : List Decision

namespace History

def decision (h : History) (e : Event) : Option Decision := do
  let request ← e.atSetStatus h.request
  let status ← request.nextStatus
  pure ⟨status, request, h.failureRecorded || e.recordsFailure h.request⟩

/-- One call. The caller commits when it returns. -/
def step (h : History) (e : Event) : History :=
  let decisions := (h.decision e).toList ++ h.decisions
  match e.exec h.request with
  | .ok r => ⟨r, h.failureRecorded || e.recordsFailure h.request, decisions⟩
  | .error _ => { h with decisions := decisions }

end History

/-- A failure shows in one of the three counters. -/
def hasFailure : Bool :=
  r.failedtoretrievefiles != 0 || r.failedtoarchivefiles != 0 || r.failedtocreatearchivereq != 0

/-- The history of a request starts with what its counters say. -/
def begin : History := ⟨r, r.hasFailure, []⟩

/-- Complete means all was done without a failure; with a failure the end is Failed. -/
structure Decision.Honest (d : Decision) : Prop where
  complete : d.status = .complete →
    d.request.isExpandFinished = true
      ∧ d.request.totalfilestoretrieve ≤ d.request.retrievedfiles
      ∧ d.request.totalfilestoarchive ≤ d.request.archivedfiles
      ∧ d.failureRecorded = false
  failed : d.failureRecorded = true → d.status = .complete ∨ d.status = .failed →
    d.status = .failed

/-! ## The conditions -/

/-- Each failure names a file, and its counter does not overflow. -/
def Countable : Event → Prop
  | .report call =>
      match call.kind with
      | .retrieveFailure => (∀ s ∈ call.stats, s.files ≠ 0)
          ∧ r.failedtoretrievefiles.toNat + (call.stats.map (·.files.toNat)).sum < 2 ^ 64
      | .archiveFailure => (∀ s ∈ call.stats, s.files ≠ 0)
          ∧ r.failedtoarchivefiles.toNat + (call.stats.map (·.files.toNat)).sum < 2 ^ 64
      | _ => True
  | .reportRetrieveCreationFailures _ l => r.failedtoretrievefiles.toNat + l.length < 2 ^ 64
  | .reportArchiveCreationFailures n => r.failedtocreatearchivereq.toNat + n.toNat < 2 ^ 64
  | _ => True

/-- With archive requests that could not be created, a retrieve or an archive failed. -/
def accompanied : Bool :=
  r.failedtocreatearchivereq == 0 || r.failedtoretrievefiles != 0 || r.failedtoarchivefiles != 0

/-- Calls that may decide without a new failure find the failures accompanied. -/
def Covered : Event → Prop
  | .report call => call.kind.isFailure = true ∨ r.accompanied = true
  | .reportRetrieveCreationFailures _ l => l ≠ [] ∨ r.accompanied = true
  | .setStatus _ => r.accompanied = true
  | _ => True

instance (r : RepackRequest) : (e : Event) → Decidable (Countable r e)
  | .report ⟨.retrieveFailure, _, _⟩ => inferInstanceAs (Decidable (_ ∧ _))
  | .report ⟨.archiveFailure, _, _⟩ => inferInstanceAs (Decidable (_ ∧ _))
  | .report ⟨.retrieveSuccess, _, _⟩ => isTrue trivial
  | .report ⟨.archiveSuccess, _, _⟩ => isTrue trivial
  | .reportRetrieveCreationFailures _ _ => inferInstanceAs (Decidable (_ < _))
  | .reportArchiveCreationFailures _ => inferInstanceAs (Decidable (_ < _))
  | .setExpandStarted _ => isTrue trivial
  | .setExpandFinished _ => isTrue trivial
  | .setStatus _ => isTrue trivial

instance (r : RepackRequest) : (e : Event) → Decidable (Covered r e)
  | .report _ => inferInstanceAs (Decidable (_ ∨ _))
  | .reportRetrieveCreationFailures _ l =>
      match l with
      | [] => decidable_of_iff (r.accompanied = true) (by simp [Covered])
      | _ :: _ => isTrue (.inl (cons_ne_nil _ _))
  | .setStatus _ => inferInstanceAs (Decidable (_ = true))
  | .reportArchiveCreationFailures _ => isTrue trivial
  | .setExpandStarted _ => isTrue trivial
  | .setExpandFinished _ => isTrue trivial

/-! ## One decision -/

variable {r : RepackRequest}

theorem nextStatus_complete (h : r.nextStatus = some .complete) :
    r.isExpandFinished = true ∧ r.reachedTheEnd = true ∧ r.failedtoretrievefiles = 0
      ∧ r.failedtoarchivefiles = 0 := by
  unfold nextStatus at h
  split at h
  · split at h
    next he =>
      rw [Bool.and_eq_true] at he
      split at h
      · cases h
      next hf =>
        simp only [Bool.or_eq_true, bne_iff_ne, ne_eq, not_or, not_not] at hf
        exact ⟨he.1, he.2, hf.1, hf.2⟩
    next =>
      split at h
      · cases h
      · cases h
  · cases h

theorem honest_of_accompanied (hr : r.accompanied = true)
    {status : RepackRequestStatus} (h : r.nextStatus = some status) :
    Decision.Honest ⟨status, r, r.hasFailure⟩ := by
  have hco : status = .complete → r.isExpandFinished = true
      ∧ r.totalfilestoretrieve ≤ r.retrievedfiles ∧ r.totalfilestoarchive ≤ r.archivedfiles
      ∧ r.hasFailure = false := by
    intro hs
    rw [hs] at h
    obtain ⟨hf, he, hre, ha⟩ := nextStatus_complete h
    have hcr : r.failedtocreatearchivereq = 0 := by
      simpa [accompanied, hre, ha] using hr
    -- the three failures are zero, so the sums are those of the files done
    simp only [reachedTheEnd, hre, ha, hcr, UInt64.add_zero, Bool.and_eq_true,
      decide_eq_true_eq] at he
    exact ⟨hf, he.1, he.2, by simp [hasFailure, hre, ha, hcr]⟩
  refine ⟨hco, ?_⟩
  intro hfa hs
  refine hs.resolve_left (fun hc => ?_)
  exact absurd (hfa.symm.trans (hco hc).2.2.2) (by decide)

/-! ## The failure counters along one call -/

/-- Two requests agree on the counters of failures. -/
structure SameFailures (r r' : RepackRequest) : Prop where
  retrieve : r'.failedtoretrievefiles = r.failedtoretrievefiles
  archive : r'.failedtoarchivefiles = r.failedtoarchivefiles
  create : r'.failedtocreatearchivereq = r.failedtocreatearchivereq

variable {r r' : RepackRequest}

theorem SameFailures.hasFailure (h : SameFailures r r') : r'.hasFailure = r.hasFailure := by
  unfold RepackRequest.hasFailure
  rw [h.retrieve, h.archive, h.create]

theorem SameFailures.accompanied (h : SameFailures r r') : r'.accompanied = r.accompanied := by
  unfold RepackRequest.accompanied
  rw [h.retrieve, h.archive, h.create]

theorem sameFailures_setStatus {env : Surroundings} (h : r.setStatus env = .ok r') :
    SameFailures r r' := by
  have hc := counter_setStatus h
  refine ⟨congrFun hc .failedToRetrieveFiles, congrFun hc .failedToArchiveFiles, ?_⟩
  rw [setStatus_ok h]
  split
  · rfl
  · unfold setStatusTo
    split <;> rfl

variable {call : Call} {seen : Key → Bool}

theorem kind_of_mem_firsts {e : Entry} (he : e ∈ firsts Entry.key seen call.entries) :
    e.kind = call.kind := by
  obtain ⟨s, -, rfl⟩ := List.mem_map.mp ((firsts_sublist seen call.entries).subset he)
  rfl

theorem sum_adds_eq_zero {es : List Entry} {n : Counter} (h : ∀ e ∈ es, e.adds n = 0) :
    (es.map (·.adds n)).sum = 0 := by
  induction es with
  | nil => rfl
  | cons e es ih =>
    rw [map_cons, sum_cons, h e mem_cons_self, ih (fun e' he' => h e' (.tail _ he'))]
    rfl

theorem add_failures_ne_zero {n : Counter} {base : UInt64}
    (ha : ∀ e ∈ firsts Entry.key seen call.entries, e.adds n = e.stat.files)
    (hne : firsts Entry.key seen call.entries ≠ []) (hpos : ∀ s ∈ call.stats, s.files ≠ 0)
    (hlt : base.toNat + (call.stats.map (·.files.toNat)).sum < 2 ^ 64) :
    base + ((firsts Entry.key seen call.entries).map (·.adds n)).sum ≠ 0 := by
  have hsu : (firsts Entry.key seen call.entries).Sublist call.entries := firsts_sublist _ _
  rw [map_congr_left ha]
  apply add_sum_ne_zero
  · exact fun h => hne (List.map_eq_nil_iff.mp h)
  · intro files hf
    obtain ⟨e, he, rfl⟩ := List.mem_map.mp hf
    obtain ⟨s, hs, rfl⟩ := List.mem_map.mp (hsu.subset he)
    exact hpos s hs
  · -- the sum over the entries that count is at most the sum over all of them
    have hle : (((firsts Entry.key seen call.entries).map (·.stat.files)).map UInt64.toNat).sum
        ≤ (call.stats.map (·.files.toNat)).sum := by
      have hm : call.stats.map (·.files.toNat)
          = (call.entries.map (·.stat.files)).map UInt64.toNat := by
        simp [Call.entries, Function.comp_def]
      rw [hm]
      exact ((hsu.map _).map _).sum_le_sum (fun _ _ => Nat.zero_le _)
    omega

/-- The failures of a call show in the counters; without any they are as they were. -/
structure Records (r r' : RepackRequest) (failure : Bool) : Prop where
  shows : failure = true → r'.failedtoretrievefiles ≠ 0 ∨ r'.failedtoarchivefiles ≠ 0
  same : failure = false → SameFailures r r'

variable {failure : Bool}

theorem Records.hasFailure (h : Records r r' failure) :
    r'.hasFailure = (r.hasFailure || failure) := by
  cases failure with
  | false => rw [(h.same rfl).hasFailure, Bool.or_false]
  | true =>
    rcases h.shows rfl with h | h
    · simp [RepackRequest.hasFailure, h]
    · simp [RepackRequest.hasFailure, h]

theorem Records.accompanied (h : Records r r' failure)
    (hr : failure = true ∨ r.accompanied = true) : r'.accompanied = true := by
  cases failure with
  | false =>
    rw [(h.same rfl).accompanied]
    exact hr.resolve_left (by decide)
  | true =>
    rcases h.shows rfl with h | h
    · simp [RepackRequest.accompanied, h]
    · simp [RepackRequest.accompanied, h]

/-- The counters of failures after the loop of a report. -/
theorem counting_records {c : Counting}
    (hc : call.kind.report.counting call.env call.stats r = .ok c)
    (hco : Countable r (.report call)) :
    Records r c.payload (Event.recordsFailure r (.report call)) := by
  have hcd : Counted ⟨r.readMap, r, false⟩ c call.entries := foldlM_countOne_ok hc
  have hr : c.payload.failedtoretrievefiles = r.failedtoretrievefiles
      + ((firsts Entry.key (mapFlag r.readMap) call.entries).map
          (·.adds .failedToRetrieveFiles)).sum := hcd.counters .failedToRetrieveFiles
  have ha : c.payload.failedtoarchivefiles = r.failedtoarchivefiles
      + ((firsts Entry.key (mapFlag r.readMap) call.entries).map
          (·.adds .failedToArchiveFiles)).sum := hcd.counters .failedToArchiveFiles
  have hki : ∀ e ∈ firsts Entry.key (mapFlag r.readMap) call.entries, e.kind = call.kind :=
    fun e he => kind_of_mem_firsts he
  have hs (h1 : ∀ e ∈ firsts Entry.key (mapFlag r.readMap) call.entries,
        e.adds .failedToRetrieveFiles = 0)
      (h2 : ∀ e ∈ firsts Entry.key (mapFlag r.readMap) call.entries,
        e.adds .failedToArchiveFiles = 0) : SameFailures r c.payload := by
    rw [sum_adds_eq_zero h1, UInt64.add_zero] at hr
    rw [sum_adds_eq_zero h2, UInt64.add_zero] at ha
    exact ⟨hr, ha, hcd.frame.failedtocreatearchivereq⟩
  unfold Event.recordsFailure
  constructor
  · intro hf
    simp only [Bool.and_eq_true, Bool.not_eq_true', isEmpty_eq_false_iff] at hf
    cases hk : call.kind with
    | retrieveFailure =>
      simp only [Countable, hk] at hco
      left
      rw [hr]
      refine add_failures_ne_zero (fun e he => ?_) hf.2 hco.1 hco.2
      simp [Entry.adds, hki e he, hk]
    | archiveFailure =>
      simp only [Countable, hk] at hco
      right
      rw [ha]
      refine add_failures_ne_zero (fun e he => ?_) hf.2 hco.1 hco.2
      simp [Entry.adds, hki e he, hk]
    | retrieveSuccess | archiveSuccess => simp [hk, Kind.isFailure] at hf
  · intro hf
    simp only [Bool.and_eq_false_iff, Bool.not_eq_false', List.isEmpty_iff] at hf
    rcases hf with hsu | hn
    · refine hs (fun e he => ?_) (fun e he => ?_) <;>
        cases hk : call.kind <;> simp_all [Entry.adds, Kind.isFailure]
    · exact hs (by simp [hn]) (by simp [hn])

/-- What a subrequest that was not created adds: a file, its bytes and its copies. -/
def creationWeight (subreq : Subrequest) : UInt64 × UInt64 × UInt64 :=
  (1, subreq.archiveFile.fileSize, UInt64.ofNat subreq.copyNbsToRearchive.size)

theorem foldl_add_one {α : Type} (l : List α) (n : UInt64) :
    l.foldl (fun n _ => n + 1) n = n + UInt64.ofNat l.length := by
  induction l generalizing n with
  | nil => simp
  | cons a l ih =>
    rw [foldl_cons, ih, length_cons, ofNat_add, ofNat_one]
    ac_rfl

theorem creationFailures_eq_sum (l : List Subrequest) :
    creationFailures l = (l.map creationWeight).sum := by
  have hf : ∀ (l : List Subrequest) (c : UInt64 × UInt64 × UInt64),
      l.foldl (fun (c : UInt64 × UInt64 × UInt64) subreq =>
        (c.1 + 1, c.2.1 + subreq.archiveFile.fileSize,
          subreq.copyNbsToRearchive.toList.foldl (fun n _ => n + 1) c.2.2)) c
        = c + (l.map creationWeight).sum := by
    intro l
    induction l with
    | nil => exact fun c => (add_zero c).symm
    | cons subreq l ih =>
      intro c
      rw [foldl_cons, ih, map_cons, sum_cons, ← add_assoc, foldl_add_one, TreeSet.length_toList]
      rfl
  rw [← zero_add (l.map creationWeight).sum]
  exact hf l 0

theorem creationFailures_files (l : List Subrequest) :
    (creationFailures l).1 = UInt64.ofNat l.length := by
  rw [creationFailures_eq_sum]
  induction l with
  | nil => rfl
  | cons subreq l ih =>
    rw [map_cons, sum_cons, Prod.fst_add, ih, length_cons, ofNat_add, ofNat_one, add_comm]
    rfl

theorem countRetrieveCreationFailures_records {l : List Subrequest}
    (hc : r.failedtoretrievefiles.toNat + l.length < 2 ^ 64) :
    Records r (r.countRetrieveCreationFailures l) (!l.isEmpty) := by
  constructor
  · intro hne
    left
    show r.failedtoretrievefiles + (creationFailures l).1 ≠ 0
    rw [creationFailures_files]
    have hle : l.length ≠ 0 := by simpa using hne
    intro hz
    have hn := congrArg UInt64.toNat hz
    rw [UInt64.toNat_add, UInt64.toNat_ofNat'] at hn
    simp only [UInt64.toNat_zero] at hn
    omega
  · intro hni
    have hl : l = [] := by simpa using hni
    subst hl
    exact ⟨UInt64.add_zero _, rfl, UInt64.add_zero _⟩

/-! ## One call -/

variable {e : Event} {r r₁ : RepackRequest}

/-- What a call leaves in the counters, when it decides and when it returns. -/
theorem atSetStatus_records (h : e.atSetStatus r = some r₁) (hco : Countable r e) :
    Records r r₁ (e.recordsFailure r) := by
  cases e with
  | report call =>
    simp only [Event.atSetStatus] at h
    cases hc : call.kind.report.counting call.env call.stats r with
    | error e => simp [hc] at h
    | ok c =>
      simp only [hc, Option.ite_none_right_eq_some, Option.some.injEq] at h
      exact h.2 ▸ counting_records hc hco
  | reportRetrieveCreationFailures env l =>
    cases h
    exact countRetrieveCreationFailures_records hco
  | setStatus env =>
    cases h
    exact ⟨fun h => (by cases h), fun _ => ⟨rfl, rfl, rfl⟩⟩
  | reportArchiveCreationFailures | setExpandStarted | setExpandFinished => cases h

theorem exec_hasFailure (h : e.exec r = .ok r') (hco : Countable r e) :
    r'.hasFailure = (r.hasFailure || e.recordsFailure r) := by
  cases e with
  | report call =>
    obtain ⟨c, hc, h⟩ := bind_eq_ok.mp h
    have hr := counting_records hc hco
    rw [← hr.hasFailure]
    split at h
    · obtain ⟨r1, hs, h⟩ := bind_eq_ok.mp h
      cases h
      exact (sameFailures_setStatus hs).hasFailure
    · cases h
      rfl
  | reportRetrieveCreationFailures env l =>
    rw [(sameFailures_setStatus h).hasFailure]
    exact (countRetrieveCreationFailures_records hco).hasFailure
  | reportArchiveCreationFailures n =>
    cases h
    have hn : (r.failedtocreatearchivereq + n != 0)
        = (r.failedtocreatearchivereq != 0 || n != 0) := add_ne_zero_of_lt hco
    simp [hasFailure, RepackRequest.reportArchiveCreationFailures, Event.recordsFailure, hn,
      Bool.or_assoc]
  | setExpandStarted | setExpandFinished =>
    cases h
    exact (Bool.or_false _).symm
  | setStatus env =>
    rw [(sameFailures_setStatus h).hasFailure]
    exact (Bool.or_false _).symm

/-- Failures are accompanied when a covered call decides. -/
theorem atSetStatus_accompanied
    (h : e.atSetStatus r = some r₁) (hct : Countable r e) (hcv : Covered r e) :
    r₁.accompanied = true := by
  have hr := atSetStatus_records h hct
  apply hr.accompanied
  cases e with
  | report call =>
    refine hcv.imp_left (fun hf => ?_)
    simp only [Event.atSetStatus] at h
    cases hc : call.kind.report.counting call.env call.stats r with
    | error e => simp [hc] at h
    | ok c =>
      simp only [hc, Option.ite_none_right_eq_some] at h
      have hco : Counted ⟨r.readMap, r, false⟩ c call.entries := foldlM_countOne_ok hc
      have hne := (hco.didUpdate.mp h.1).resolve_left (by simp)
      simpa [Event.recordsFailure, hf] using hne
  | reportRetrieveCreationFailures env l =>
    exact hcv.imp_left (fun hl => by simpa [Event.recordsFailure] using hl)
  | setStatus env => exact .inr hcv
  | reportArchiveCreationFailures | setExpandStarted | setExpandFinished => cases h

/-! ## Whole histories -/

/-- The counters tell whether a failure was recorded, and all decisions were honest. -/
structure History.Inv (h : History) : Prop where
  recorded : h.failureRecorded = h.request.hasFailure
  honest : ∀ d ∈ h.decisions, d.Honest

theorem History.Inv.decision {h : History} (hi : h.Inv)
    (hc : Countable h.request e) (hco : Covered h.request e) {d : Decision}
    (hd : h.decision e = some d) : d.Honest := by
  obtain ⟨r1, hr1, hd⟩ := Option.bind_eq_some_iff.mp hd
  obtain ⟨status, hs, hd⟩ := Option.bind_eq_some_iff.mp hd
  cases hd
  have hf : (h.failureRecorded || e.recordsFailure h.request) = r1.hasFailure := by
    rw [hi.recorded, (atSetStatus_records hr1 hc).hasFailure]
  rw [hf]
  exact honest_of_accompanied (atSetStatus_accompanied hr1 hc hco) hs

theorem History.Inv.step (h : History) (e : Event) (hi : h.Inv)
    (he : Countable h.request e ∧ Covered h.request e) : (h.step e).Inv := by
  obtain ⟨hc, hco⟩ := he
  have hh : ∀ d ∈ (h.decision e).toList ++ h.decisions, d.Honest := by
    intro d hd
    rcases List.mem_append.mp hd with hd | hd
    · exact hi.decision hc hco (Option.mem_toList.mp hd)
    · exact hi.honest d hd
  unfold History.step
  cases hex : e.exec h.request with
  | error exn => exact ⟨hi.recorded, hh⟩
  | ok r =>
    refine ⟨?_, hh⟩
    rw [hi.recorded, exec_hasFailure hex hc]

/-- **Completion is honest.** Complete means that the expansion is finished, all files were
retrieved and archived and no failure was recorded; after a failure the end is Failed. -/
theorem completion_honest (r : RepackRequest) (es : List Event)
    (hes : Along History.step (fun h e => Countable h.request e ∧ Covered h.request e) r.begin es) :
    ∀ d ∈ (run History.step r.begin es).decisions, d.Honest :=
  (run_invariant History.Inv.step ⟨rfl, by simp [begin]⟩ hes).honest

/-- One file to archive, of which the archive request could not be created. -/
def archiveRequestNotCreated : List Event :=
  [.setExpandStarted true, .setExpandFinished true, .reportArchiveCreationFailures 1,
    .setStatus calm]

def oneFileToArchive : RepackRequest := { initial "V00001" with totalfilestoarchive := 1 }

/-- **Complete with a failure.** -/
theorem complete_without_archiving :
    ∃ d ∈ (run History.step oneFileToArchive.begin archiveRequestNotCreated).decisions,
      d.status = .complete ∧ d.failureRecorded = true
        ∧ d.request.archivedfiles < d.request.totalfilestoarchive := by
  decide

/-- The file that failed to be retrieved comes with the archive request that is not created. -/
def retrieveFailed : List Event :=
  [.setExpandStarted true, .setExpandFinished true, .reportArchiveCreationFailures 1,
    .report ⟨.retrieveFailure, calm, [fileReport false]⟩, .setStatus calm]

theorem retrieveFailed_honest : (run History.step onePointer.begin retrieveFailed).decisions ≠ []
      ∧ ∀ d ∈ (run History.step onePointer.begin retrieveFailed).decisions, d.Honest :=
  ⟨by decide, completion_honest onePointer retrieveFailed (by decide)⟩

end RepackRequest

end TapeArchive.Objectstore
