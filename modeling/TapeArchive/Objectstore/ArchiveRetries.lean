/-
  **HOW OFTEN A COPY IS TRIED AGAIN** (`ArchiveRequest::addTransferFailure`), with
  `maxtotalretries` R and `maxretrieswithinmount` W:

      failure n of the copy             back to transfer iff n < R
      failure k in a row in one mount   queued again     iff n < R and k < W

  Both counters are 32 bits wide: the bounds hold for fewer than 2^32 failures.
-/
import TapeArchive.Lib.Machine
import TapeArchive.Objectstore.ArchiveRequest

namespace TapeArchive.Objectstore

open Lib List

/-! ## A history of failures -/

def ArchiveJobStatus.isToTransfer : ArchiveJobStatus → Bool
  | .toTransferForUser | .toTransferForRepack => true
  | _ => false

namespace ArchiveRequest

/-- The copy is queued again, for the mount it failed in. -/
def NextStep.isRequeue : NextStep → Bool
  | .enqueueForTransferForUser | .enqueueForTransferForRepack => true
  | _ => false

structure Failure where
  mountId : UInt64
  failureReason : String

/-- `addTransferFailure`, and the status it returned is stored. -/
def failTransfer (r : ArchiveRequest) (c : UInt32) (f : Failure) :
    Except RequestExn (ArchiveRequest × EnqueueingNextStep) := do
  let added ← r.addTransferFailure c f.mountId f.failureReason
  let stored ← added.1.setJobStatus c added.2.nextStatus
  pure (stored, added.2)

/-- One failure after the other, with the step that follows each. -/
def failTransfers (c : UInt32) :
    ArchiveRequest → List Failure → Except RequestExn (ArchiveRequest × List EnqueueingNextStep)
  | r, [] => .ok (r, [])
  | r, f :: fs => do
      let failed ← r.failTransfer c f
      let rest ← failTransfers c failed.1 fs
      pure (rest.1, failed.2 :: rest.2)

/-! ## One failure -/

/-- What one failure makes of a job, and what follows. -/
structure FailedOnce (j : ArchiveJob) (f : Failure) (j' : ArchiveJob) (next : EnqueueingNextStep) :
    Prop where
  total : j'.totalretries = j.totalretries + 1
  maxtotalretries : j'.maxtotalretries = j.maxtotalretries
  maxretrieswithinmount : j'.maxretrieswithinmount = j.maxretrieswithinmount
  within : j'.retrieswithinmount
    = if j.lastmountwithfailure = f.mountId then j.retrieswithinmount + 1 else 1
  last : j'.lastmountwithfailure = f.mountId
  status : j'.status = next.nextStatus
  toTransfer : next.nextStatus.isToTransfer = true ↔ j'.totalretries < j'.maxtotalretries
  requeue : next.nextStep.isRequeue = true → j'.retrieswithinmount < j'.maxretrieswithinmount

variable {j : ArchiveJob} {next : EnqueueingNextStep}

/-- The counters of the job, with any status. -/
theorem FailedOnce.of_status {f : Failure}
    (htr : next.nextStatus.isToTransfer = true ↔ j.totalretries + 1 < j.maxtotalretries)
    (hr : next.nextStep.isRequeue = true →
      (countTransferFailure f.mountId f.failureReason j).retrieswithinmount
        < j.maxretrieswithinmount) :
    FailedOnce j f { countTransferFailure f.mountId f.failureReason j with
      status := next.nextStatus } next := by
  unfold countTransferFailure at hr ⊢
  by_cases hm : j.lastmountwithfailure = f.mountId
  · simp only [hm, beq_self_eq_true, if_true] at hr ⊢
    exact ⟨rfl, rfl, rfl, by simp [hm], rfl, rfl, htr, hr⟩
  have hb : (j.lastmountwithfailure == f.mountId) = false := beq_eq_false_iff_ne.mpr hm
  simp only [hb] at hr ⊢
  exact ⟨rfl, rfl, rfl, by simp [hm], rfl, rfl, htr, hr⟩

theorem countTransferFailure_counters (mountId : UInt64) (reason : String) (j : ArchiveJob) :
    (countTransferFailure mountId reason j).totalretries = j.totalretries + 1
      ∧ (countTransferFailure mountId reason j).maxtotalretries = j.maxtotalretries
      ∧ (countTransferFailure mountId reason j).maxretrieswithinmount
          = j.maxretrieswithinmount := by
  unfold countTransferFailure
  split <;> exact ⟨rfl, rfl, rfl⟩

variable {r : ArchiveRequest} {c : UInt32}

/-- What is decided once the retries are used up does not lead back to transfer. -/
theorem determineNextStep_final (hj : r.findJob c = some j) :
    ∃ r' next, r.determineNextStep c .transferFailed = .ok (r', next) ∧ r'.findJob c = some j
      ∧ next.nextStatus.isToTransfer = false ∧ next.nextStep.isRequeue = false := by
  unfold determineNextStep
  rw [hj]
  dsimp only
  split
  · refine ⟨_, _, rfl, hj, ?_, ?_⟩ <;> cases r.isrepack <;> rfl
  · refine ⟨_, _, rfl, hj, ?_, ?_⟩ <;> cases r.isrepack <;> rfl

theorem addTransferFailure_ok (hj : r.findJob c = some j) (f : Failure) :
    ∃ r' next, r.addTransferFailure c f.mountId f.failureReason = .ok (r', next)
      ∧ r'.findJob c = some (countTransferFailure f.mountId f.failureReason j)
      ∧ (next.nextStatus.isToTransfer = true ↔ j.totalretries + 1 < j.maxtotalretries)
      ∧ (next.nextStep.isRequeue = true →
          (countTransferFailure f.mountId f.failureReason j).retrieswithinmount
            < j.maxretrieswithinmount) := by
  obtain ⟨htl, hma, hw⟩ := countTransferFailure_counters f.mountId f.failureReason j
  have hf : (r.updateJob c (countTransferFailure f.mountId f.failureReason)).findJob c
      = some (countTransferFailure f.mountId f.failureReason j) := by
    rw [findJob_updateJob (countTransferFailure_copynb f.mountId f.failureReason), if_pos rfl, hj]
    rfl
  unfold addTransferFailure
  rw [hj]
  dsimp only
  split
  next hge =>
    obtain ⟨r', next, hnext, hj', hs, hsp⟩ := determineNextStep_final hf
    rw [htl, hma] at hge
    refine ⟨r', next, hnext, hj', ?_, ?_⟩
    · rw [hs]
      exact iff_of_false Bool.false_ne_true (UInt32.not_lt.mpr hge)
    · rw [hsp]
      exact fun h => absurd h Bool.false_ne_true
  next hlt =>
    rw [htl, hma] at hlt
    refine ⟨_, _, rfl, hf, ?_, ?_⟩
    · refine iff_of_true ?_ (UInt32.not_le.mp hlt)
      dsimp only
      split <;> rfl
    · dsimp only
      split
      · exact fun h => absurd h Bool.false_ne_true
      next hm =>
        rw [hw] at hm
        exact fun _ => UInt32.not_le.mp hm

theorem failTransfer_ok (hj : r.findJob c = some j) (f : Failure) :
    ∃ r' j' next, r.failTransfer c f = .ok (r', next) ∧ r'.findJob c = some j'
      ∧ FailedOnce j f j' next := by
  obtain ⟨r1, next, ha, hj1, htr, hr⟩ := addTransferFailure_ok hj f
  refine ⟨r1.updateJob c (fun j => { j with status := next.nextStatus }), _, next, ?_, ?_,
    .of_status htr hr⟩
  · unfold failTransfer setJobStatus
    simp only [ha, hj1, bind, Except.bind, pure, Except.pure]
  · rw [findJob_updateJob (fun _ => by rfl), if_pos rfl, hj1]
    rfl

/-! ## Every history -/

inductive History : ArchiveJob → List Failure → ArchiveJob → List EnqueueingNextStep → Prop
  | nil (j : ArchiveJob) : History j [] j []
  | cons {j j₁ j' : ArchiveJob} {f : Failure} {fs : List Failure} {next : EnqueueingNextStep}
      {nexts : List EnqueueingNextStep} (h : FailedOnce j f j₁ next)
      (hrest : History j₁ fs j' nexts) : History j (f :: fs) j' (next :: nexts)

theorem failTransfers_history (fs : List Failure) (hj : r.findJob c = some j) :
    ∃ r' j' nexts, failTransfers c r fs = .ok (r', nexts) ∧ r'.findJob c = some j'
      ∧ History j fs j' nexts := by
  induction fs generalizing r j with
  | nil => exact ⟨r, j, [], rfl, hj, .nil j⟩
  | cons f fs ih =>
    obtain ⟨r1, j1, next, hf, hj1, ho⟩ := failTransfer_ok hj f
    obtain ⟨r', j', nexts, hrest, hj', hh⟩ := ih hj1
    refine ⟨r', j', next :: nexts, ?_, hj', .cons ho hh⟩
    unfold failTransfers
    rw [hf]
    show failTransfers c r1 fs >>= _ = _
    rw [hrest]
    rfl

namespace History

variable {j j' : ArchiveJob} {fs gs : List Failure} {nexts : List EnqueueingNextStep}

theorem length_eq (h : History j fs j' nexts) : nexts.length = fs.length := by
  induction h with
  | nil => rfl
  | cons _ _ ih => exact congrArg (· + 1) ih

/-- A history is cut where its list of failures is. -/
theorem split (h : History j (fs ++ gs) j' nexts) :
    ∃ j₁ n₁ n₂, nexts = n₁ ++ n₂ ∧ History j fs j₁ n₁ ∧ History j₁ gs j' n₂ := by
  induction fs generalizing j nexts with
  | nil => exact ⟨j, [], nexts, rfl, .nil j, h⟩
  | cons f fs ih =>
    cases h with
    | cons ho hrest =>
      obtain ⟨j₁, n₁, n₂, rfl, h1, h2⟩ := ih hrest
      exact ⟨j₁, _ :: n₁, n₂, rfl, .cons ho h1, h2⟩

theorem status_eq (h : History j fs j' nexts) :
    j'.status = (nexts.getLast?.map (·.nextStatus)).getD j.status := by
  induction h with
  | nil => rfl
  | cons ho hrest ih =>
    rw [ih, ho.status, List.getLast?_cons]
    cases hlast : List.getLast? _ <;> rfl

/-- **The counter decides**: after `i + 1` failures the copy goes back to transfer if, and only if,
the 32-bit counter is below the limit. -/
theorem toTransfer_iff (h : History j fs j' nexts) {i : Nat} (hi : nexts[i]? = some next) :
    next.nextStatus.isToTransfer = true
      ↔ j.totalretries + UInt32.ofNat (i + 1) < j.maxtotalretries := by
  induction h generalizing i with
  | nil => simp at hi
  | cons ho hrest ih =>
    cases i with
    | zero =>
      cases hi
      rw [ho.toTransfer, ho.total, ho.maxtotalretries]
      rfl
    | succ i =>
      rw [ih hi, ho.total, ho.maxtotalretries, UInt32.add_assoc]
      have hon : (1 : UInt32) + UInt32.ofNat (i + 1) = UInt32.ofNat (i + 1 + 1) := by
        rw [UInt32.ofNat_add (i + 1) 1, UInt32.add_comm]
        rfl
      rw [hon]

/-- The counter does not wrap. -/
theorem succ_toNat {x : UInt32} {n : Nat} (h : x.toNat + (n + 1) < 2 ^ 32) :
    (x + 1).toNat = x.toNat + 1 := by
  exact Nat.mod_eq_of_lt (by show x.toNat + 1 < 2 ^ 32; omega)

theorem countP_toTransfer (h : History j fs j' nexts)
    (hw : j.totalretries.toNat + fs.length < 2 ^ 32) :
    nexts.countP (·.nextStatus.isToTransfer)
      ≤ j.maxtotalretries.toNat - 1 - j.totalretries.toNat := by
  induction h with
  | nil => exact Nat.zero_le _
  | @cons j j1 j' f fs next nexts ho hrest ih =>
    have hs : j1.totalretries.toNat = j.totalretries.toNat + 1 := by
      rw [ho.total]
      exact succ_toNat hw
    have hl : (f :: fs).length = fs.length + 1 := length_cons
    have hr' := ih (by omega)
    have hi := ho.toTransfer
    rw [UInt32.lt_iff_toNat_lt] at hi
    rw [ho.maxtotalretries] at hr' hi
    rw [countP_cons]
    split
    next hnext =>
      have := hi.mp hnext
      omega
    next => omega

/-- The failures in a row that a job had in a mount. -/
def streak (j : ArchiveJob) (m : UInt64) : Nat :=
  if j.lastmountwithfailure = m then j.retrieswithinmount.toNat else 0

theorem countP_requeue {m : UInt64} (h : History j fs j' nexts) (hm : ∀ f ∈ fs, f.mountId = m)
    (hw : j.retrieswithinmount.toNat + fs.length < 2 ^ 32) :
    nexts.countP (·.nextStep.isRequeue) ≤ j.maxretrieswithinmount.toNat - 1 - streak j m := by
  induction h with
  | nil => exact Nat.zero_le _
  | @cons j j1 j' f fs next nexts ho hrest ih =>
    have hl : (f :: fs).length = fs.length + 1 := length_cons
    have hf : f.mountId = m := hm f mem_cons_self
    have hon : j1.retrieswithinmount.toNat = streak j m + 1 := by
      rw [ho.within, hf]
      unfold streak
      split
      · exact succ_toNat hw
      · rfl
    have hs : streak j1 m = streak j m + 1 := by
      rw [← hon]
      exact if_pos (ho.last.trans hf)
    have hle : streak j m ≤ j.retrieswithinmount.toNat := by
      unfold streak
      split <;> omega
    have hr' := ih (fun f' hf' => hm f' (mem_cons_of_mem f hf')) (by omega)
    rw [ho.maxretrieswithinmount, hs] at hr'
    rw [countP_cons]
    split
    next hnext =>
      have hlt := UInt32.lt_iff_toNat_lt.mp (ho.requeue hnext)
      rw [ho.maxretrieswithinmount] at hlt
      omega
    next => omega

/-- The counter of a mount never runs ahead of the number of failures. -/
theorem within_le (h : History j fs j' nexts)
    (hw : j.retrieswithinmount.toNat + fs.length < 2 ^ 32) :
    j'.retrieswithinmount.toNat ≤ j.retrieswithinmount.toNat + fs.length := by
  induction h with
  | nil => exact Nat.le_refl _
  | @cons j j1 j' f fs next nexts ho hrest ih =>
    have hl : (f :: fs).length = fs.length + 1 := length_cons
    have hon : j1.retrieswithinmount.toNat ≤ j.retrieswithinmount.toNat + 1 := by
      rw [ho.within]
      split
      · rw [succ_toNat hw]
      · show 1 ≤ _
        omega
    omega

end History

/-- **Bounded archive retries** without a wrapped counter: at most R-1 returns to transfer, at
most W-1 of them in a row for one mount, and none from the failure number R on. -/
theorem archive_retries_bounded (r : ArchiveRequest) (c : UInt32) (j : ArchiveJob)
    (hj : r.findJob c = some j) (fs : List Failure)
    (htotal : j.totalretries.toNat + fs.length < 2 ^ 32)
    (hwithin : j.retrieswithinmount.toNat + fs.length < 2 ^ 32) :
    ∃ r' nexts, failTransfers c r fs = .ok (r', nexts) ∧ nexts.length = fs.length
      ∧ r'.statusOf c = some ((nexts.getLast?.map (·.nextStatus)).getD j.status)
      ∧ nexts.countP (·.nextStatus.isToTransfer) ≤ j.maxtotalretries.toNat - 1
      ∧ (∀ before row after m, fs = before ++ (row ++ after) → (∀ f ∈ row, f.mountId = m) →
          ((nexts.drop before.length).take row.length).countP (·.nextStep.isRequeue)
            ≤ j.maxretrieswithinmount.toNat - 1)
      ∧ ∀ i next, nexts[i]? = some next → j.maxtotalretries.toNat ≤ j.totalretries.toNat + (i + 1) →
          next.nextStatus.isToTransfer = false := by
  obtain ⟨r', j', nexts, hf, hj', hh⟩ := failTransfers_history fs hj
  refine ⟨r', nexts, hf, hh.length_eq, ?_, ?_, ?_, ?_⟩
  · unfold statusOf
    rw [hj', ← hh.status_eq]
    rfl
  · exact (hh.countP_toTransfer htotal).trans (Nat.sub_le _ _)
  · intro before row after m hfs hm
    subst hfs
    obtain ⟨j1, n1, n2, rfl, hb, hrest⟩ := hh.split
    obtain ⟨j2, n3, n4, rfl, hr, _⟩ := hrest.split
    simp only [length_append] at hwithin
    have hle := hb.within_le (by omega)
    have hma : j1.maxretrieswithinmount = j.maxretrieswithinmount := by
      clear hle hr hrest hh hf hj' hj htotal hwithin
      induction hb with
      | nil => rfl
      | cons ho _ ih => exact ih.trans ho.maxretrieswithinmount
    rw [← hb.length_eq, drop_left, ← hr.length_eq, take_left, ← hma]
    exact (hr.countP_requeue hm (by omega)).trans (Nat.sub_le _ _)
  · intro i next hi hl
    have hlt : i < fs.length := by
      rw [← hh.length_eq]
      exact (List.getElem?_eq_some_iff.mp hi).1
    apply Bool.eq_false_iff.mpr
    intro hba
    have hc := UInt32.lt_iff_toNat_lt.mp ((hh.toTransfer_iff hi).mp hba)
    rw [UInt32.toNat_add, UInt32.toNat_ofNat_of_lt' (by show i + 1 < 2 ^ 32; omega),
      Nat.mod_eq_of_lt (by omega)] at hc
    omega

/-- A request with one copy that may be tried once more, also within a mount. -/
def twoTries : ArchiveRequest := (initial 12).addJob 1 "pool" "agent" 2 2 2

theorem twoTries_bounded :
    ∃ r' nexts, failTransfers 1 twoTries [⟨7, "a"⟩, ⟨7, "b"⟩, ⟨8, "c"⟩] = .ok (r', nexts)
      ∧ nexts.countP (·.nextStatus.isToTransfer) ≤ 1 := by
  obtain ⟨r', nexts, hf, _, _, hc, _⟩ := archive_retries_bounded twoTries 1 _ rfl
    [⟨7, "a"⟩, ⟨7, "b"⟩, ⟨8, "c"⟩] (by decide) (by decide)
  exact ⟨r', nexts, hf, hc⟩

/-- The failure number 2^32 sends a copy back to transfer that was out of retries. -/
theorem counter_wraps :
    ∃ r' nexts before last, failTransfers 1 twoTries (List.replicate (2 ^ 32) ⟨7, "error"⟩)
        = .ok (r', nexts)
      ∧ nexts[1]? = some before ∧ before.nextStatus.isToTransfer = false
      ∧ nexts[2 ^ 32 - 1]? = some last ∧ last.nextStatus.isToTransfer = true := by
  obtain ⟨r', j', nexts, hf, _, hh⟩ := failTransfers_history (List.replicate (2 ^ 32) ⟨7, "error"⟩)
      (show twoTries.findJob 1 = some _ from rfl)
  have hl : nexts.length = 2 ^ 32 := hh.length_eq.trans length_replicate
  obtain ⟨before, hb⟩ : ∃ before, nexts[1]? = some before :=
    ⟨_, List.getElem?_eq_getElem (by omega)⟩
  obtain ⟨last, hlast⟩ : ∃ last, nexts[2 ^ 32 - 1]? = some last :=
    ⟨_, List.getElem?_eq_getElem (by omega)⟩
  refine ⟨r', nexts, before, last, hf, hb, ?_, hlast, ?_⟩
  · apply Bool.eq_false_iff.mpr
    rw [Ne, hh.toTransfer_iff hb]
    decide
  · rw [hh.toTransfer_iff hlast]
    decide

end ArchiveRequest

end TapeArchive.Objectstore
