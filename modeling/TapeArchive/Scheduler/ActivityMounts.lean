/-
  **THE POTENTIAL MOUNTS OF A RETRIEVE QUEUE** (`OStoreDB::fetchMountInfo`,
  `RetrieveQueue::getJobsSummary`).

  A queue should be listed for every activity of its jobs, and once more when a job
  has none. The code compares the number of jobs with that of the activities:

      jobs without activity?   unless   #activities ≥ #jobs

  Two jobs of one activity already make the right side smaller than the left.
-/
import TapeArchive.Objectstore.RetrieveQueueShardStep
import TapeArchive.Scheduler.MountInfo

namespace TapeArchive.Scheduler

open Lib Common Objectstore List
open Multiset (card_cons card_le_card dedup_le mem_add mem_coe)
open Objectstore.RetrieveQueue (activities SummarisesAll)

/-! ## The values of a counter array -/

theorem mem_content_iff {K : Type} {m : ValueCountMap K} (h : ∀ pair ∈ m, 1 ≤ pair.count)
    (a : K) : a ∈ m.content ↔ a ∈ m.map (·.value) := by
  induction m with
  | nil => simp
  | cons pair rest ih =>
    have hpos : pair.count ≠ 0 := by
      have := h pair mem_cons_self
      omega
    have hrest := ih fun p hp => h p (.tail _ hp)
    rw [ValueCountMap.content_cons, mem_add, Multiset.mem_replicate, hrest, map_cons, mem_cons]
    tauto

theorem values_eq_dedup {m : ValueCountMap String} {s : Multiset String} (h : m.Counts s) :
    ((m.map (·.value) : List String) : Multiset String) = s.dedup := by
  refine (Multiset.Nodup.ext (Multiset.coe_nodup.mpr h.wf.nodup) (Multiset.nodup_dedup s)).mpr ?_
  intro a
  rw [mem_coe, Multiset.mem_dedup, ← h.content_eq, mem_content_iff h.wf.pos]

/-! ## Jobs with and without an activity -/

theorem card_activities_add (jobs : Multiset RetrieveJobPointer) :
    (activities jobs).card + jobs.countP (·.activity = none) = jobs.card := by
  induction jobs using Multiset.induction with
  | empty => rfl
  | cons j jobs ih =>
    unfold activities at ih ⊢
    cases hj : j.activity with
    | none =>
      rw [Multiset.filterMap_cons_none j jobs hj,
        Multiset.countP_cons_of_pos (p := (·.activity = none)) jobs hj, card_cons, ← ih]
      rfl
    | some a =>
      have hs : ¬ j.activity = none := by rw [hj]; exact Option.some_ne_none a
      rw [Multiset.filterMap_cons_some _ j jobs hj,
        Multiset.countP_cons_of_neg (p := (·.activity = none)) jobs hs, card_cons,
        card_cons, ← ih]
      exact Nat.add_right_comm ..

/-! ## The mounts that are listed -/

structure SummaryOf (summary : RetrieveJobsSummary) (jobs : Multiset RetrieveJobPointer) :
    Prop where
  counted : summary.jobs.toNat = jobs.card
  listed : ∃ m : ValueCountMap String,
    m.Counts (activities jobs) ∧ summary.activityCounts = m.map (·.value)

variable {jobs : Multiset RetrieveJobPointer} {summary : RetrieveJobsSummary}

/-- One mount for each activity of the jobs, and one without exactly when a job has none. -/
structure ListsActivities (listed : List (Option String)) (jobs : Multiset RetrieveJobPointer) :
    Prop where
  nodup : listed.Nodup
  some_mem : ∀ a, some a ∈ listed ↔ a ∈ activities jobs
  none_mem : none ∈ listed ↔ ∃ j ∈ jobs, j.activity = none

/-- The activities are always listed once each; only the mount without one can be wrong. -/
theorem listsActivities_iff (h : SummaryOf summary jobs) :
    ListsActivities (listedActivities summary) jobs
      ↔ (none ∈ listedActivities summary ↔ ∃ j ∈ jobs, j.activity = none) := by
  refine ⟨fun hl => hl.none_mem, fun hno => ⟨?_, ?_, hno⟩⟩
  · obtain ⟨m, hm, hv⟩ := h.listed
    have hn : summary.activityCounts.Nodup := hv ▸ hm.wf.nodup
    refine List.Nodup.append (hn.map (Option.some_injective _)) (by split <;> simp) ?_
    split <;> simp
  · intro a
    obtain ⟨m, hm, hv⟩ := h.listed
    rw [← hm.content_eq, mem_content_iff hm.wf.pos, ← hv, listedActivities]
    split <;> simp

/-- Where the mount without an activity is listed. -/
theorem none_mem_listedActivities (h : SummaryOf summary jobs) (hpos : 0 < jobs.card) :
    none ∈ listedActivities summary ↔ (activities jobs).dedup.card < jobs.card := by
  obtain ⟨m, hm, hv⟩ := h.listed
  have hl : summary.activityCounts.length = (activities jobs).dedup.card := by
    rw [← values_eq_dedup hm, hv, Multiset.coe_card]
  have hle : (activities jobs).dedup.card ≤ jobs.card := (card_le_card (dedup_le _)).trans
      ((Nat.le_add_right ..).trans_eq (card_activities_add jobs))
  have hlt : summary.activityCounts.length < 2 ^ 64 := by
    have := summary.jobs.toNat_lt
    rw [h.counted] at this
    omega
  have hge : UInt64.ofNat summary.activityCounts.length ≥ summary.jobs
      ↔ jobs.card ≤ (activities jobs).dedup.card := by
    rw [ge_iff_le, UInt64.le_iff_toNat_le, h.counted, UInt64.toNat_ofNat_of_lt' hlt, hl]
  have hne : summary.activityCounts = [] ↔ (activities jobs).dedup.card = 0 := by
    rw [← hl, length_eq_zero_iff]
  simp only [listedActivities, mem_append, mem_map, reduceCtorEq, and_false, exists_false,
    false_or, Bool.and_eq_true, Bool.not_eq_true', isEmpty_eq_false_iff, decide_eq_true_eq,
    hge, ne_eq, hne]
  split
  next hc => simp; omega
  next hc => simp; omega

theorem retrievePolicy_returns (mountPolicies : List Common.MountPolicy)
    (summary : RetrieveJobsSummary) :
    ∃ policy, retrievePolicy mountPolicies summary = .ok policy := by
  unfold retrievePolicy
  cases getMountPoliciesInQueue mountPolicies summary.mountPolicyCountMap with
  | nil | cons => exact ⟨_, rfl⟩

/-- **THE MOUNTS OF A QUEUE ARE RIGHT** exactly when a job has no activity or no two jobs have
the same. -/
theorem activity_mounts_iff {env : QueuesAndDrives} {purpose : Purpose}
    {tmdi : TapeMountDecisionInfo} {vid : String} {tape : Tape} {summary : RetrieveJobsSummary}
    {jobs : Multiset RetrieveJobPointer} (htape : env.getTapeByVid vid = .ok tape)
    (hactive : tape.state = .active) (hsummary : SummaryOf summary jobs) (hpos : 0 < jobs.card) :
    ∃ mounts, fetchRetrieveQueue env purpose tmdi (vid, some summary)
        = .ok { tmdi with potentialMounts := tmdi.potentialMounts ++ mounts }
      ∧ (ListsActivities (mounts.map (·.activity)) jobs
        ↔ (∃ j ∈ jobs, j.activity = none) ∨ (activities jobs).Nodup) := by
  obtain ⟨policy, hp⟩ := retrievePolicy_returns env.mountPolicies summary
  have hj : summary.jobs ≠ 0 := by
    intro h0
    have := hsummary.counted
    rw [h0, UInt64.toNat_zero] at this
    omega
  refine ⟨(listedActivities summary).map
    (retrievePotentialMount env.time vid tape summary policy), ?_, ?_⟩
  · simp [fetchRetrieveQueue, htape, hactive, hj, hp, bind, Except.bind, pure, Except.pure]
  have ha : ((listedActivities summary).map
      (retrievePotentialMount env.time vid tape summary policy)).map (·.activity)
        = listedActivities summary := by
    rw [map_map]
    refine (map_congr_left fun a _ => ?_).trans (map_id _)
    simp only [Function.comp, retrievePotentialMount]
    split <;> rfl
  have hadd := card_activities_add jobs
  have hd := card_le_card (dedup_le (activities jobs))
  have hn := Multiset.toFinset_card_eq_card_iff_nodup (m := activities jobs)
  rw [Multiset.toFinset, Finset.card_mk] at hn
  rw [ha, listsActivities_iff hsummary, none_mem_listedActivities hsummary hpos,
    ← Multiset.countP_pos, ← hn]
  -- as many activities as jobs: each job has one, and no two the same
  omega

/-! ## A queue with jobs of one activity -/

def prodJob : RetrieveJobPointer :=
  ⟨10, "RetrieveRequest-1", 1, 1, 1, 0, 0, "policy", some "prod", none⟩

def prodSummary (n : Nat) : RetrieveJobsSummary :=
  ⟨UInt64.ofNat n, 10, 0, 0, 1, 0, ∅, ["prod"], none⟩

def prodQueues : QueuesAndDrives :=
  ⟨[], [], [], [], fun _ => .ok ⟨"V1", "lib", "pool", "vo", "LTO8", "IBM", 0, 0, .active⟩, [], 0⟩

theorem activities_replicate (n : Nat) :
    activities (Multiset.replicate n prodJob) = Multiset.replicate n "prod" := by
  induction n with
  | zero => rfl
  | succ n ih =>
    rw [Multiset.replicate_succ, Multiset.replicate_succ, ← ih]
    exact Multiset.filterMap_cons_some _ _ _ rfl

theorem prodSummary_of {n : Nat} (hpos : 1 ≤ n) (hlt : n < 2 ^ 64) :
    SummaryOf (prodSummary n) (Multiset.replicate n prodJob) := by
  refine ⟨?_, [⟨"prod", n⟩], ⟨⟨by simp, by simpa using hpos⟩, ?_⟩, rfl⟩
  · rw [Multiset.card_replicate]
    exact UInt64.toNat_ofNat_of_lt' hlt
  · rw [ValueCountMap.content_cons, activities_replicate]
    exact add_zero _

theorem one_job_of_activity : ∃ mounts, fetchRetrieveQueue prodQueues .getNextMount ⟨[], [], false⟩
          ("V1", some (prodSummary 1)) = .ok ⟨mounts, [], false⟩
      ∧ ListsActivities (mounts.map (·.activity)) (Multiset.replicate 1 prodJob) := by
  obtain ⟨mounts, h, hi⟩ := @activity_mounts_iff prodQueues .getNextMount ⟨[], [], false⟩ "V1" _ _
    _ rfl rfl (prodSummary_of (n := 1) (by decide) (by decide)) (by decide)
  refine ⟨mounts, h, hi.mpr (Or.inr ?_)⟩
  exact Multiset.nodup_singleton "prod"

/-- **A SECOND JOB OF THE SAME ACTIVITY** adds a mount without activity. -/
theorem second_job_adds_mount :
    SummaryOf (prodSummary 2) (Multiset.replicate 2 prodJob) ∧ prodJob.activity = some "prod"
      ∧ (fetchRetrieveQueue prodQueues .getNextMount ⟨[], [], false⟩
          ("V1", some (prodSummary 2))).toOption.map (·.potentialMounts.map (·.activity))
        = some [some "prod", none] :=
  ⟨prodSummary_of (by decide) (by decide), rfl, by decide +kernel⟩

end TapeArchive.Scheduler
