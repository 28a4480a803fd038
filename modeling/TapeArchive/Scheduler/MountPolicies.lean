/-
  **THE MOUNT POLICY OF A QUEUE** (`OStoreDB::createBestArchiveMountPolicy`,
  `OStoreDB::createBestRetrieveMountPolicy`).

  The function that is reduced with starts from a copy of the policy so far and assigns that
  policy's own values to it, so the first policy comes out whatever follows.
-/
import TapeArchive.Lib.Lists
import TapeArchive.Scheduler.MountInfo

namespace TapeArchive.Scheduler

open Std (TreeMap)
open Lib Common List
open Objectstore (RequestExn)

/-! ## The first policy comes out -/

structure Criteria where
  (priority minRequestAge : MountPolicy → UInt64)

def archiveCriteria : Criteria := ⟨(·.archivePriority), (·.archiveMinRequestAge)⟩
def retrieveCriteria : Criteria := ⟨(·.retrievePriority), (·.retrieveMinRequestAge)⟩

structure Best (c : Criteria) (mountPolicies : List MountPolicy) (priority age : UInt64) :
    Prop where
  priority : IsGreatest (Set.image c.priority {p | p ∈ mountPolicies}) priority
  age : IsLeast (Set.image c.minRequestAge {p | p ∈ mountPolicies}) age

/-- The first policy of a list has the highest priority and the smallest age. -/
def FirstIsBest (c : Criteria) : List MountPolicy → Prop
  | [] => False
  | first :: rest =>
      ∀ p ∈ rest, c.priority p ≤ c.priority first ∧ c.minRequestAge first ≤ c.minRequestAge p

instance (c : Criteria) : (l : List MountPolicy) → Decidable (FirstIsBest c l)
  | [] => isFalse id
  | _ :: _ => inferInstanceAs (Decidable (∀ _ ∈ _, _ ∧ _))

theorem reduce_of_left {op : MountPolicy → MountPolicy → MountPolicy} (h : ∀ mp1 mp2, op mp1 mp2 = mp1)
    (first : MountPolicy) (rest : List MountPolicy) : reduce op first rest = first := by
  unfold reduce
  induction rest with
  | nil => rfl
  | cons p rest ih => rw [foldl_cons, h, ih]

-- both assignments of the two functions give the policy its own value

theorem createBestArchiveMountPolicy_cons (first : MountPolicy) (rest : List MountPolicy) :
    createBestArchiveMountPolicy (first :: rest) = .ok first :=
  congrArg Except.ok (reduce_of_left (by simp) first rest)

theorem createBestRetrieveMountPolicy_cons (first : MountPolicy) (rest : List MountPolicy) :
    createBestRetrieveMountPolicy (first :: rest) = .ok first :=
  congrArg Except.ok (reduce_of_left (by simp) first rest)

theorem best_first_iff (c : Criteria) (first : MountPolicy) (rest : List MountPolicy) :
    Best c (first :: rest) (c.priority first) (c.minRequestAge first)
      ↔ FirstIsBest c (first :: rest) := by
  have hm : first ∈ {p | p ∈ first :: rest} := mem_cons_self ..
  constructor
  · intro h p hp
    have hp' : p ∈ {p | p ∈ first :: rest} := .tail _ hp
    exact ⟨h.priority.2 ⟨p, hp', rfl⟩, h.age.2 ⟨p, hp', rfl⟩⟩
  · intro h
    refine ⟨⟨⟨first, hm, rfl⟩, ?_⟩, ⟨⟨first, hm, rfl⟩, ?_⟩⟩
    · rintro - ⟨p, hp, rfl⟩
      rcases List.mem_cons.mp hp with rfl | hp
      · exact le_refl _
      · exact (h p hp).1
    · rintro - ⟨p, hp, rfl⟩
      rcases List.mem_cons.mp hp with rfl | hp
      · exact le_refl _
      · exact (h p hp).2

/-! ## The potential mounts -/

/-- Priority and age of a potential mount are the best of a list of policies. -/
def MountIsBest (c : Criteria) (mountPolicies : List MountPolicy) (m : PotentialMount) : Prop :=
  ∃ age, Best c mountPolicies m.priority age ∧ m.minRequestAge = age.toInt64

/-- Made from a queue whose catalogue policies are `mountPolicies`, by the criteria `c`. -/
inductive MadeFrom (env : QueuesAndDrives) : PotentialMount → Criteria → List MountPolicy → Prop
  | archiveForUser {m : PotentialMount} {summary : ArchiveJobsSummary}
      (h : (m.tapePool, some summary) ∈ env.archiveQueuesForUser) (ht : m.type = .archiveForUser) :
      MadeFrom env m archiveCriteria
        (getMountPoliciesInQueue env.mountPolicies summary.mountPolicyCountMap)
  | archiveForRepack {m : PotentialMount} {summary : ArchiveJobsSummary}
      (h : (m.tapePool, some summary) ∈ env.archiveQueuesForRepack)
      (ht : m.type = .archiveForRepack) :
      MadeFrom env m archiveCriteria
        (getMountPoliciesInQueue env.mountPolicies summary.mountPolicyCountMap)
  | retrieve {m : PotentialMount} {summary : RetrieveJobsSummary}
      (h : (m.vid, some summary) ∈ env.retrieveQueues) (ht : m.type = .retrieve) :
      MadeFrom env m retrieveCriteria
        (getMountPoliciesInQueue env.mountPolicies summary.mountPolicyCountMap)

/-- Priority and age of a potential mount are those of the first policy of its queue. -/
def FromFirst (c : Criteria) (mountPolicies : List MountPolicy) (m : PotentialMount) : Prop :=
  ∀ first ∈ mountPolicies.head?,
    m.priority = c.priority first ∧ m.minRequestAge = (c.minRequestAge first).toInt64

variable {mountPolicies : List MountPolicy} {m : PotentialMount}

theorem mountIsBest_iff {c : Criteria} (h : FromFirst c mountPolicies m) :
    MountIsBest c mountPolicies m ↔ FirstIsBest c mountPolicies := by
  cases mountPolicies with
  | nil =>
    refine ⟨fun ⟨_, hb, _⟩ => ?_, False.elim⟩
    obtain ⟨p, hp, -⟩ := hb.priority.1
    cases hp
  | cons first rest =>
    obtain ⟨hpr, ha⟩ := h first rfl
    rw [← best_first_iff]
    unfold MountIsBest
    rw [hpr]
    constructor
    · rintro ⟨age, hb, heq⟩
      have hs : age = c.minRequestAge first := by
        simpa using congrArg Int64.toUInt64 (heq.symm.trans ha)
      exact hs ▸ hb
    · exact fun hb => ⟨_, hb, ha⟩

variable {type : MountType}

theorem archivePotentialMount_ok {tapePool : String} {summary : ArchiveJobsSummary}
    (h : archivePotentialMount mountPolicies type tapePool summary = .ok m) :
    m.type = type ∧ m.tapePool = tapePool ∧ FromFirst archiveCriteria
      (getMountPoliciesInQueue mountPolicies summary.mountPolicyCountMap) m := by
  unfold archivePotentialMount at h
  split at h
  next he =>
    cases h
    have hni : mountPolicies = [] := List.isEmpty_iff.mp he
    refine ⟨rfl, rfl, ?_⟩
    rw [hni]
    intro first hf
    cases hf
  next =>
    split at h
    next hn =>
      cases h
      refine ⟨rfl, rfl, ?_⟩
      rw [hn]
      intro first hf
      cases hf
    next =>
      obtain ⟨best, hb, h⟩ := bind_eq_ok.mp h
      obtain ⟨hi, _, h⟩ := bind_eq_ok.mp h
      obtain ⟨lowest, _, h⟩ := bind_eq_ok.mp h
      cases h
      refine ⟨rfl, rfl, fun first hf => ?_⟩
      obtain ⟨rest, hli⟩ := List.head?_eq_some_iff.mp hf
      rw [hli, createBestArchiveMountPolicy_cons] at hb
      cases hb
      exact ⟨rfl, rfl⟩

theorem retrievePolicy_ok {summary : RetrieveJobsSummary}
    {policy : RetrievePolicy} (h : retrievePolicy mountPolicies summary = .ok policy) :
    ∀ first ∈ (getMountPoliciesInQueue mountPolicies summary.mountPolicyCountMap).head?,
      policy.priority = first.retrievePriority
        ∧ policy.minRetrieveRequestAge = first.retrieveMinRequestAge := by
  intro first hf
  obtain ⟨rest, hli⟩ := List.head?_eq_some_iff.mp hf
  unfold retrievePolicy at h
  rw [hli] at h
  obtain ⟨best, hb, h⟩ := bind_eq_ok.mp h
  cases h
  rw [createBestRetrieveMountPolicy_cons] at hb
  cases hb
  exact ⟨rfl, rfl⟩

theorem retrievePotentialMount_fields (time : Int64) (vid : String) (tape : Tape)
    (summary : RetrieveJobsSummary) (policy : RetrievePolicy) (activity : Option String) :
    (retrievePotentialMount time vid tape summary policy activity).type = .retrieve
      ∧ (retrievePotentialMount time vid tape summary policy activity).vid = vid
      ∧ (retrievePotentialMount time vid tape summary policy activity).priority = policy.priority
      ∧ (retrievePotentialMount time vid tape summary policy activity).minRequestAge
        = policy.minRetrieveRequestAge.toInt64 := by
  unfold retrievePotentialMount
  split <;> exact ⟨rfl, rfl, rfl, rfl⟩

/-- Every potential mount listed so far takes its values from the first policy of its queue. -/
def Sound (env : QueuesAndDrives) (tmdi : TapeMountDecisionInfo) : Prop :=
  ∀ m ∈ tmdi.potentialMounts, ∃ c mountPolicies,
    MadeFrom env m c mountPolicies ∧ FromFirst c mountPolicies m

variable {env : QueuesAndDrives} {tmdi tmdi' : TapeMountDecisionInfo}

theorem fetchArchiveQueue_sound {queue : String × Option ArchiveJobsSummary}
    (hqu : ∀ summary, queue.2 = some summary → ∀ m : PotentialMount, m.type = type →
      m.tapePool = queue.1 → MadeFrom env m archiveCriteria
        (getMountPoliciesInQueue env.mountPolicies summary.mountPolicyCountMap))
    (hs : Sound env tmdi) (h : fetchArchiveQueue env type tmdi queue = .ok tmdi') :
    Sound env tmdi' := by
  unfold fetchArchiveQueue at h
  split at h
  · cases h
    exact hs
  next summary hsu =>
    split at h
    · cases h
      exact hs
    obtain ⟨m, hm, h⟩ := bind_eq_ok.mp h
    cases h
    obtain ⟨hty, hp, hf⟩ := archivePotentialMount_ok hm
    intro m' hm'
    rcases List.mem_append.mp hm' with hm' | hm'
    · exact hs m' hm'
    rw [mem_singleton] at hm'
    subst hm'
    exact ⟨_, _, hqu summary hsu m' hty hp, hf⟩

variable {purpose : Purpose}

theorem fetchRetrieveQueue_sound
    {queue : String × Option RetrieveJobsSummary} (hqu : queue ∈ env.retrieveQueues)
    (hs : Sound env tmdi) (h : fetchRetrieveQueue env purpose tmdi queue = .ok tmdi') :
    Sound env tmdi' := by
  unfold fetchRetrieveQueue at h
  split at h
  · cases h
    exact hs
  next summary hsu =>
    obtain ⟨tape, -, h⟩ := bind_eq_ok.mp h
    dsimp only at h
    split at h
    · obtain ⟨policy, hpo, h⟩ := bind_eq_ok.mp h
      cases h
      intro m hm
      rcases List.mem_append.mp hm with hm | hm
      · exact hs m hm
      obtain ⟨activity, -, rfl⟩ := List.mem_map.mp hm
      obtain ⟨hty, hv, hp, ha⟩ :=
        retrievePotentialMount_fields env.time queue.1 tape summary policy activity
      refine ⟨retrieveCriteria, _, @MadeFrom.retrieve env _ summary ?_ hty, fun first hf => ?_⟩
      · rw [hv, ← hsu]
        exact hqu
      obtain ⟨h1, h2⟩ := retrievePolicy_ok hpo first hf
      rw [hp, ha, h1, h2]
      exact ⟨rfl, rfl⟩
    · split at h
      · cases h
        exact hs
      · cases h
        exact hs

/-- Every potential mount takes its values from the first policy of its queue. -/
theorem fetchMountInfo_sound
    {tmdi : TapeMountDecisionInfo} (h : fetchMountInfo env purpose = .ok tmdi) :
    Sound env tmdi := by
  obtain ⟨tmdi1, h1, h⟩ := bind_eq_ok.mp h
  obtain ⟨tmdi2, h2, h⟩ := bind_eq_ok.mp h
  obtain ⟨tmdi3, h3, h⟩ := bind_eq_ok.mp h
  cases h
  have hs0 : Sound env ⟨[], [], false⟩ := by
    intro m hm
    cases hm
  have hs1 : Sound env tmdi1 := foldlM_ok_invariant hs0 h1 (fun _ _ queue hqu hs ho =>
    fetchArchiveQueue_sound (fun summary hsu m ht hp =>
      .archiveForUser (by rw [hp, ← hsu]; exact hqu) ht) hs ho)
  have hs2 : Sound env tmdi2 := foldlM_ok_invariant hs1 h2 (fun _ _ queue hqu hs ho =>
    fetchArchiveQueue_sound (fun summary hsu m ht hp =>
      .archiveForRepack (by rw [hp, ← hsu]; exact hqu) ht) hs ho)
  have hs3 : Sound env tmdi3 := foldlM_ok_invariant hs2 h3 (fun _ _ queue hqu hs ho =>
    fetchRetrieveQueue_sound hqu hs ho)
  exact hs3

/-- **The policy that is made has the highest priority and the smallest age exactly when the
first policy has**, and a potential mount gets the best values exactly then. -/
theorem best_mount_policy_iff (mountPolicies : List MountPolicy) (hl : mountPolicies ≠ []) :
    (∃ mp, createBestArchiveMountPolicy mountPolicies = .ok mp
      ∧ (Best archiveCriteria mountPolicies mp.archivePriority mp.archiveMinRequestAge
          ↔ FirstIsBest archiveCriteria mountPolicies))
      ∧ (∃ mp, createBestRetrieveMountPolicy mountPolicies = .ok mp
        ∧ (Best retrieveCriteria mountPolicies mp.retrievePriority mp.retrieveMinRequestAge
            ↔ FirstIsBest retrieveCriteria mountPolicies))
      ∧ ∀ env purpose tmdi, fetchMountInfo env purpose = .ok tmdi →
          ∀ m ∈ tmdi.potentialMounts, ∃ c inQueue, MadeFrom env m c inQueue
            ∧ (MountIsBest c inQueue m ↔ FirstIsBest c inQueue) := by
  obtain ⟨first, rest, rfl⟩ := exists_cons_of_ne_nil hl
  refine ⟨⟨first, createBestArchiveMountPolicy_cons first rest, best_first_iff _ first rest⟩,
    ⟨first, createBestRetrieveMountPolicy_cons first rest, best_first_iff _ first rest⟩, ?_⟩
  intro env purpose tmdi h m hm
  obtain ⟨c, inQueue, hfr, hf⟩ := fetchMountInfo_sound h m hm
  exact ⟨c, inQueue, hfr, mountIsBest_iff hf⟩

/-- A policy with the same values for archives and retrieves. -/
def policy (name : String) (priority age : UInt64) : MountPolicy :=
  ⟨name, priority, age, priority, age⟩

theorem best_policy_of_urgent_first :
    ∃ mp, createBestArchiveMountPolicy [policy "urgent" 10 60, policy "slow" 1 3600] = .ok mp
      ∧ Best archiveCriteria [policy "urgent" 10 60, policy "slow" 1 3600] mp.archivePriority
          mp.archiveMinRequestAge := by
  obtain ⟨⟨mp, h, hi⟩, -, -⟩ :=
    best_mount_policy_iff [policy "urgent" 10 60, policy "slow" 1 3600] (by simp)
  exact ⟨mp, h, hi.mpr (by decide)⟩

/-- **With the best policy last the worst values come out.** -/
theorem first_policy_wins :
    createBestArchiveMountPolicy [policy "slow" 1 3600, policy "urgent" 10 60]
        = .ok (policy "slow" 1 3600)
      ∧ createBestRetrieveMountPolicy [policy "slow" 1 3600, policy "urgent" 10 60]
        = .ok (policy "slow" 1 3600)
      ∧ ¬ Best archiveCriteria [policy "slow" 1 3600, policy "urgent" 10 60] 1 3600
      ∧ ¬ Best retrieveCriteria [policy "slow" 1 3600, policy "urgent" 10 60] 1 3600 := by
  have hu : policy "urgent" 10 60 ∈ [policy "slow" 1 3600, policy "urgent" 10 60] := by simp
  refine ⟨rfl, rfl, fun h => ?_, fun h => ?_⟩
  · exact absurd (h.priority.2 ⟨_, hu, rfl⟩) (by decide)
  · exact absurd (h.priority.2 ⟨_, hu, rfl⟩) (by decide)

end TapeArchive.Scheduler
