/-
  **NO CALL ON A QUEUE LOSES A JOB, WHEREVER IT IS CUT OFF**: a new shard is referenced
  before it is inserted, a split inserts the new shard before it trims its source, and a
  removal writes the shard before the queue forgets it.

  A split trims its source BY ADDRESS.  It keeps the very record when no other queued job
  shares the address; `Known` carries that through an addition.
-/
import TapeArchive.Objectstore.QueueCrash
import TapeArchive.Objectstore.ArchiveQueueHistory
import TapeArchive.Objectstore.RetrieveQueueHistory

namespace TapeArchive.Objectstore

open Lib List
open Machine (store_push store_push_put store_push_put_of_ne)

/-- The addresses a call takes out of the queue. -/
def Call.removed {B : Type} : Call B → List String
  | .add _ => []
  | .remove jobsToRemove => jobsToRemove

section Steps

variable {Q J R : Type}
variable {pointers : Q → List (ShardPointer R)} {addr : String} {P : J → Prop}
variable {m : QMachine Q J} {q : Q}

/-- A name was given out. -/
theorem Safe.setMem (h : Safe pointers addr P m q) (ar : AgentReference) :
    Safe pointers addr P { m with mem := ar } q :=
  ⟨Machine.always_setMem.mpr h.always, h.reaches⟩

theorem Safe.ne_queue (h : Safe pointers addr P m q) {a : String} {s : Shard J}
    (hs : m.store a = some (.shard s)) : a ≠ addr := by
  obtain ⟨q0, hq0, -⟩ := h.stored
  rintro rfl
  rw [hs] at hq0
  cases hq0

theorem Safe.ne_queue_of_absent (h : Safe pointers addr P m q) {a : String}
    (ha : m.store a = none) : a ≠ addr := by
  obtain ⟨q0, hq0, -⟩ := h.stored
  rintro rfl
  rw [ha] at hq0
  cases hq0

/-- Fetching a shard changes nothing. -/
theorem Safe.fetchShard (h : Safe pointers addr P m q) (a : String)
    {Post : Shard J → QMachine Q J → Prop} (hp : ∀ s, m.store a = some (.shard s) → Post s m) :
    wp (Objectstore.fetchShard a) Post
      (fun _ m' => m'.Always (Persisted pointers addr P)) m := by
  unfold Objectstore.fetchShard
  rw [wp_bind, wp_getStore]
  cases hs : m.store a with
  | none => exact h.always
  | some o =>
    cases o with
    | queue | other => exact h.always
    | shard s => exact hp s hs

end Steps

/-! ## The archive queue -/

namespace ArchiveQueue

variable {addr : String} {P : ArchiveJobPointer → Prop} {m : AMachine} {q : ArchiveQueue}

/-- `Safe` for archive queues. -/
abbrev SafeAt (addr : String) (P : ArchiveJobPointer → Prop) (m : AMachine)
    (q : ArchiveQueue) : Prop :=
  Safe (fun q : ArchiveQueue => q.queueshards) addr P m q

/-- The crash condition of a call on an archive queue. -/
abbrev Unlost (addr : String) (P : ArchiveJobPointer → Prop) (m : AMachine) : Prop :=
  m.Always (Persisted (fun q : ArchiveQueue => q.queueshards) addr P)

theorem rebuild_keeps : RepairKeeps (·.toQueuePayload) rebuild := by
  intro q m Post X hp hX
  unfold rebuild
  rw [wp_bind]
  exact wp_rebuildSummaries_keeps kind (fun q' m' hm hk => hp _ m' hm hk) hX

theorem wp_commit_safe (h : SafeAt addr P m q) : wp (commit addr q)
      (fun q' m' => SafeAt addr P m' q' ∧ jobsAt m'.store = jobsAt m.store)
      (fun _ => Unlost addr P) m :=
  Safe.commit rebuild_keeps h (fun _ _ hs hj => ⟨hs, hj⟩) (fun _ _ hx => hx)

theorem wp_rebuild_commit_safe (h : SafeAt addr P m q) (jobs : List JobToAdd) : wp (do
        let q ← rebuild q
        let q ← commit addr q
        pure (jobs, q))
      (fun r m' => SafeAt addr P m' r.2) (fun _ => Unlost addr P) m := by
  rw [wp_bind]
  refine rebuild_keeps q m _ _ (fun q' m' hm hk => ?_)
    (fun e m' hm => (h.refresh hm (Keeps.refl _ _)).always)
  rw [wp_bind]
  exact wp_post (wp_commit_safe (h.refresh hm hk)) (fun _ _ hq => hq.1)

variable {p : ShardPointer Unit}

theorem wp_addToLastShard_safe (h : SafeAt addr P m q)
    (hlast : q.queueshards.getLast? = some p) (jobs : List JobToAdd) :
    wp (addToLastShard addr p jobs q) (fun r m' => SafeAt addr P m' r.2)
      (fun _ => Unlost addr P) m := by
  unfold addToLastShard
  rw [wp_bind, wp_getStore]
  cases hs : m.store p.address with
  | none => exact wp_rebuild_commit_safe h jobs
  | some o =>
    cases o with
    | queue | other => exact h.always
    | shard aqs =>
      dsimp only
      split
      · exact wp_rebuild_commit_safe h jobs
      rw [wp_bind, wp_ofExcept]
      cases hfi : fillShard jobs ⟨q, p, aqs⟩ with
      | error e => exact h.always
      | ok r =>
        obtain ⟨added, -, hf, -⟩ := fillShard_filled jobs hfi
        have ha : (q.queueshards.dropLast ++ [r.2.aqsp]).map (·.address)
            = q.queueshards.map (·.address) := by
          obtain ⟨ps, hps⟩ := List.getLast?_eq_some_iff.mp hlast
          rw [hps, dropLast_concat, map_append, map_append]
          simpa using hf.address
        have hq1 : SafeAt addr P m
            { r.2.q with queueshards := q.queueshards.dropLast ++ [r.2.aqsp] } :=
          h.withQueue (h.reaches.keeps (Keeps.of_address ha))
        dsimp only
        rw [wp_bind]
        refine wp_post (wp_commit_safe hq1) (fun q' m1 hm1 => ?_)
        rw [wp_bind]
        refine wp_atomicOverwrite_cases hm1.1.always fun o ho => ?_
        refine hm1.1.putShard (h.ne_queue hs) ?_
        rw [hm1.2, jobsAt_of_shard hs, hf.jobs]
        exact subset_append_left _ _

theorem wp_addToNewShard_safe (h : SafeAt addr P m q) (jobs : List JobToAdd) :
    wp (addToNewShard addr jobs q) (fun r m' => SafeAt addr P m' r.2)
      (fun _ => Unlost addr P) m := by
  unfold addToNewShard
  rw [wp_bind, wp_nextId, wp_bind, wp_ofExcept]
  have h0 := h.setMem { m.mem with m_nextId := m.mem.m_nextId + 1 }
  cases hf : fillShard jobs ⟨q, ⟨m.mem.idAt ("ArchiveQueueShard-" ++ q.tapepool)
      m.mem.m_nextId, 0, 0, ()⟩, ⟨[], 0⟩⟩ with
  | error e => exact h0.always
  | ok r =>
    have hq1 : SafeAt addr P { m with mem := { m.mem with m_nextId := m.mem.m_nextId + 1 } }
        { r.2.q with queueshards := q.queueshards ++ [r.2.aqsp] } :=
      h0.withQueue (h0.reaches.mono fun p hp hj => ⟨p, mem_append_left _ hp, hj⟩)
    dsimp only
    rw [wp_bind]
    refine wp_post (wp_commit_safe hq1) (fun q' m1 hm1 => ?_)
    rw [wp_bind]
    refine wp_create_cases hm1.1.always fun ha => ?_
    refine hm1.1.putShard (hm1.1.ne_queue_of_absent ha) ?_
    rw [jobsAt_of_none ha]
    exact nil_subset _

theorem wp_addRound_safe (h : SafeAt addr P m q) (jobs : List JobToAdd) :
    wp (addRound addr jobs q) (fun r m' => SafeAt addr P m' r.2)
      (fun _ => Unlost addr P) m := by
  unfold addRound
  cases hlast : q.queueshards.getLast? with
  | none => exact wp_addToNewShard_safe h jobs
  | some p =>
    dsimp only
    split
    · exact wp_addToLastShard_safe h hlast jobs
    · exact wp_addToNewShard_safe h jobs

theorem wp_addJobsLoop_safe (fuel : Nat) :
    ∀ {m : AMachine} {q : ArchiveQueue} (jobs : List JobToAdd), SafeAt addr P m q →
      wp (addJobsLoop addr fuel jobs q) (fun q' m' => SafeAt addr P m' q')
        (fun _ => Unlost addr P) m := by
  induction fuel with
  | zero =>
    intro m q jobs h
    cases jobs with
    | nil => exact h
    | cons j jobs => exact h.always
  | succ fuel ih =>
    intro m q jobs h
    cases jobs with
    | nil => exact h
    | cons j jobs =>
      rw [addJobsLoop, wp_bind]
      exact wp_post (wp_addRound_safe h (j :: jobs)) (fun r m' hr => ih r.1 hr)

/-- Recomputing the creation times erases only pointers to shards that are gone. -/
theorem wp_recomputeShards_keeps (addresses : List String) :
    ∀ {e : Extremes} {Post : Extremes → AMachine → Prop} {X : Exn → AMachine → Prop},
      (∀ e', Keeps m.store e.shards e'.shards → Post e' m) → (∀ x, X x m) →
      wp (recomputeShards addresses e) Post X m := by
  induction addresses with
  | nil =>
    intro e Post X hp _
    exact hp e (Keeps.refl _ _)
  | cons a addresses ih =>
    intro e Post X hp hX
    rw [recomputeShards, wp_bind, wp_getStore]
    cases ha : m.store a with
    | none =>
      refine ih (fun e' hk => hp e' ?_) hX
      exact (Keeps.dropPointers ha _).trans hk (fun _ h => h)
    | some o =>
      cases o with
      | queue | other => exact hX _
      | shard s =>
        refine ih (fun e' hk => hp e' ?_) hX
        rwa [addJobs_eq] at hk

theorem wp_recompute_keeps {Post : ArchiveQueue → AMachine → Prop} {X : Exn → AMachine → Prop}
    (hp : ∀ q', Keeps m.store q.queueshards q'.queueshards → Post q' m) (hX : ∀ x, X x m) :
    wp (recomputeOldestAndYoungestJobCreationTime q) Post X m := by
  unfold recomputeOldestAndYoungestJobCreationTime
  rw [wp_bind]
  refine wp_recomputeShards_keeps _ (fun e' hk => ?_) hX
  refine hp _ ?_
  split <;> split <;> exact hk

theorem foldlM_decCounts_queueshards {removed : List ArchiveJobPointer} {p p' : QueuePayload Unit}
    (h : removed.foldlM QueuePayload.decCounts p = .ok p') : p'.queueshards = p.queueshards :=
  foldlM_ok_preserves (·.queueshards) (fun _ _ _ hp => by rw [decCounts_eq hp]) removed h

theorem wp_removeRound_safe (h : SafeAt addr P m q) {addresses : List String}
    (hP : ∀ j, P j → QueueJob.address j ∉ addresses) {shardIndex : Nat}
    (hp : q.queueshards[shardIndex]? = some p) :
    wp (removeRound addr addresses shardIndex p q)
      (fun r m' => SafeAt addr P m' r.2.2 ∧ ∀ j, P j → QueueJob.address j ∉ r.1)
      (fun _ => Unlost addr P) m := by
  unfold removeRound
  rw [wp_bind]
  refine h.fetchShard _ fun s hs => ?_
  rw [wp_bind]
  refine h.storeRemoval hs hP fun m1 hm1 hd => ?_
  rw [wp_bind, wp_ofExcept]
  cases hde : (s.removeJobs addresses).2.removedJobs.foldlM QueuePayload.decCounts
      q.toQueuePayload with
  | error e => exact hm1.always
  | ok p1 =>
    have hps := foldlM_decCounts_queueshards hde
    have hq1 : SafeAt addr P m1
        { q with toQueuePayload := p1.afterRemoval shardIndex p (s.removeJobs addresses).2 } :=
      hm1.withQueue (Reaches.afterRemoval (hps ▸ hm1.reaches) (hps ▸ hp) hd)
    dsimp only
    rw [wp_bind]
    refine rebuild_keeps.repairIf _ (fun q2 m2 hm2 hk => ?_)
      (fun e m' hm => (hq1.refresh hm (Keeps.refl _ _)).always)
    have hq2 := hq1.refresh hm2 hk
    rw [wp_bind]
    refine wp_recompute_keeps (fun q3 hk3 => ?_) (fun _ => hq2.always)
    rw [wp_bind]
    refine wp_post (wp_commit_safe (hq2.withQueue (hq2.reaches.keeps hk3))) (fun q' m' hm' => ?_)
    exact ⟨hm'.1, fun j hj => not_mem_trimRemoved (hP j hj) _⟩

/-- **A call on an archive queue keeps every job it does not remove**, in every state of
the store on its way. -/
theorem wp_call_safe (c : Call JobToAdd) (hP : ∀ j, P j → QueueJob.address j ∉ c.removed)
    (hq : m.store addr = some (.queue q)) (h : SafeAt addr P m q) :
    wp (ops.call addr c) (fun _ => Unlost addr P)
      (fun _ => Unlost addr P) m := by
  unfold QueueOps.call
  rw [wp_bind, wp_fetchQueue hq]
  cases c with
  | add jobsToAdd =>
    exact wp_post (wp_addJobsLoop_safe _ jobsToAdd h) (fun _ _ hs => hs.always)
  | remove jobsToRemove =>
    refine wp_post (wp_removeLoop_safe ?_ _ h hP) (fun _ _ hs => hs.always)
    exact fun addresses shardIndex p q m h hp hP => wp_removeRound_safe h hP hp

end ArchiveQueue

/-! ## The retrieve queue: commits and removals -/

namespace RetrieveQueue

open RetrieveQueueShard (Extends addJobsBatch_extends jobsToAddSet_perm)

variable {addr : String} {P U : RetrieveJobPointer → Prop} {m : RMachine}
variable {q : RetrieveQueue}

/-- `Safe` for retrieve queues. -/
abbrev SafeAt (addr : String) (P : RetrieveJobPointer → Prop) (m : RMachine)
    (q : RetrieveQueue) : Prop :=
  Safe (fun q : RetrieveQueue => q.queueshards) addr P m q

/-- The crash condition of a call on a retrieve queue. -/
abbrev Unlost (addr : String) (P : RetrieveJobPointer → Prop) (m : RMachine) : Prop :=
  m.Always (Persisted (fun q : RetrieveQueue => q.queueshards) addr P)

theorem rebuild_keeps : RepairKeeps (·.toQueuePayload) rebuild := by
  intro q m Post X hp hX
  unfold rebuild
  rw [wp_bind]
  exact wp_rebuildSummaries_keeps kind (fun q' m' hm hk => hp _ m' hm hk) hX

theorem countedRebuild_keeps : RepairKeeps (·.toQueuePayload) countedRebuild := by
  intro q m Post X hp hX
  unfold countedRebuild
  rw [wp_bind]
  exact rebuild_keeps q m _ _ (fun q' m' hm hk => hp _ m' hm hk) hX

theorem wp_commit_safe (h : SafeAt addr P m q) : wp (commit addr q)
      (fun q' m' => SafeAt addr P m' q' ∧ jobsAt m'.store = jobsAt m.store)
      (fun _ => Unlost addr P) m :=
  Safe.commit countedRebuild_keeps h (fun _ _ hs hj => ⟨hs, hj⟩) (fun _ _ hx => hx)

variable {q q' : RetrieveQueue}

theorem discountJob_queueshards {j : RetrieveJobPointer} (h : discountJob q j = .ok q') :
    q'.queueshards = q.queueshards := by
  simp only [discountJob, bind_eq_ok] at h
  obtain ⟨p, hp, _, -, heq⟩ := h
  cases heq
  rw [decCounts_eq hp]

theorem foldlM_discountJob_queueshards {removed : List RetrieveJobPointer}
    (h : removed.foldlM discountJob q = .ok q') : q'.queueshards = q.queueshards :=
  foldlM_ok_preserves (fun q : RetrieveQueue => q.queueshards)
    (fun _ _ _ => discountJob_queueshards) removed h

variable {shardIndex : Nat}

theorem wp_removeRound_safe (h : SafeAt addr P m q) {addresses : List String}
    (hP : ∀ j, P j → QueueJob.address j ∉ addresses)
    {p : RetrieveQueueShardPointer} (hp : q.queueshards[shardIndex]? = some p) :
    wp (removeRound addr addresses shardIndex p q)
      (fun r m' => SafeAt addr P m' r.2.2 ∧ ∀ j, P j → QueueJob.address j ∉ r.1)
      (fun _ => Unlost addr P) m := by
  unfold removeRound
  rw [wp_bind]
  refine h.fetchShard _ fun s hs => ?_
  rw [wp_bind]
  refine h.storeRemoval hs hP fun m1 hm1 hd => ?_
  rw [wp_bind, wp_ofExcept]
  cases hde : (s.removeJobs addresses).2.removedJobs.foldlM discountJob q with
  | error e => exact hm1.always
  | ok q1 =>
    have hps := foldlM_discountJob_queueshards hde
    have hq1 : SafeAt addr P m1
        { q1 with toQueuePayload :=
            q1.toQueuePayload.afterRemoval shardIndex p (s.removeJobs addresses).2 } :=
      hm1.withQueue (Reaches.afterRemoval (hps ▸ hm1.reaches) (hps ▸ hp) hd)
    dsimp only
    rw [wp_bind]
    refine rebuild_keeps.repairIf _ (fun q2 m2 hm2 hk => ?_)
      (fun e m' hm => (hq1.refresh hm (Keeps.refl _ _)).always)
    rw [wp_bind]
    refine wp_post (wp_commit_safe (hq1.refresh hm2 hk)) (fun q' m' hm' => ?_)
    exact ⟨hm'.1, fun j hj => not_mem_trimRemoved (hP j hj) _⟩

/-! ## The retrieve queue: additions -/

/-- The jobs in the shards that a plan finds in the store. -/
def Known (U : RetrieveJobPointer → Prop) (plan : List ShardForAddition) (st : RStore) : Prop :=
  ∀ source ∈ plan, source.newShard = false → ∀ j ∈ jobsAt st source.address, U j

variable {plan : List ShardForAddition}

theorem Known.of_jobsAt {st st' : RStore} (h : Known U plan st) (hst : jobsAt st' = jobsAt st) :
    Known U plan st' := by
  intro source hsource hnew j hj
  exact h source hsource hnew j (hst ▸ hj)

variable {st : RStore} {a : String} {s : RetrieveQueueShard}

theorem Known.put (h : Known U plan st) (hs : ∀ j ∈ s.jobs, U j) :
    Known U plan ((Write.put a (.shard s)).apply st) := by
  intro source hsource hnew j hj
  by_cases ha : source.address = a
  · rw [ha, jobsAt_put_shard] at hj
    exact hs j hj
  · rw [jobsAt_apply_of_ne _ _ ha] at hj
    exact h source hsource hnew j hj

/-- What is ready before the first write for a shard of the plan, whatever the plan. -/
structure Ready (st : RStore) (plan : List ShardForAddition) (shard : ShardForAddition)
    (a : String) (q : RetrieveQueue) (p : Prepared) : Prop where
  kept : q.queueshards.map (·.address) ⊆ p.q.queueshards.map (·.address)
  new : shard.newShard = true → a ∈ p.q.queueshards.map (·.address)
  old : shard.newShard = false → ∃ s, st shard.address = some (.shard s) ∧ s.jobs ⊆ p.rqs.jobs
  split : ∀ src s₁, p.rqsSplitFrom = some (src, s₁) →
    shard.newShard = true ∧ shard.fromSplit = true ∧
      ∃ s₀ moved, st src = some (.shard s₀) ∧ moved ⊆ s₀.jobs ∧ moved ⊆ p.rqs.jobs
        ∧ s₁ = (s₀.removeJobs (moved.map (·.address))).1
        ∧ ∃ source ∈ plan, source.newShard = false ∧ source.address = src
  content : ∀ j ∈ p.rqs.jobs, j ∈ shard.newJobs
    ∨ ∃ source ∈ plan, source.newShard = false ∧ j ∈ jobsAt st source.address

theorem readShard_ok (h : readShard st a = .ok s) : st a = some (.shard s) := by
  unfold readShard at h
  split at h
  · rename_i s' hs
    cases h
    exact hs
  · cases h
  · cases h

theorem addShardPointer_address (h : addShardPointer shardIndex a q = .ok q') :
    q.queueshards.map (·.address) ⊆ q'.queueshards.map (·.address)
      ∧ a ∈ q'.queueshards.map (·.address) := by
  unfold addShardPointer at h
  split at h
  · rename_i hle
    cases h
    refine ⟨fun b hb => ?_, ?_⟩
    · obtain ⟨x, hx, rfl⟩ := List.mem_map.mp hb
      exact List.mem_map.mpr ⟨x, (mem_insertIdx hle).mpr (.inr hx), rfl⟩
    · exact List.mem_map.mpr ⟨_, (mem_insertIdx hle).mpr (.inl rfl), rfl⟩
  · cases h

theorem modify_map_address {ps : List RetrieveQueueShardPointer} {i : Nat}
    {f : RetrieveQueueShardPointer → RetrieveQueueShardPointer}
    (hf : ∀ p, (f p).address = p.address) :
    (ps.modify i f).map (·.address) = ps.map (·.address) := by
  refine ext_getElem? fun k => ?_
  rw [List.getElem?_map, List.getElem?_map, List.getElem?_modify]
  cases ps[k]? with
  | none => simp
  | some p =>
    by_cases hk : i = k
    · simp [hk, hf]
    · simp [hk]

theorem splitPointers_address (shardIndex sourceIndex : Nat) (shard source : ShardForAddition)
    (ps : List RetrieveQueueShardPointer) :
    (splitPointers shardIndex sourceIndex shard source ps).map (·.address)
      = ps.map (·.address) := by
  unfold splitPointers
  rw [modify_map_address, modify_map_address]
  · exact fun _ => rfl
  · exact fun _ => rfl

variable {shard : ShardForAddition} {p : Prepared}

theorem prepareNewShard_ready (hnew : shard.newShard = true)
    (h : prepareNewShard st plan shardIndex shard a q = .ok p) : Ready st plan shard a q p := by
  simp only [prepareNewShard, bind_eq_ok] at h
  obtain ⟨q1, hq1, h⟩ := h
  obtain ⟨hk, ha⟩ := addShardPointer_address hq1
  split at h
  · rename_i hfr
    split at h
    · cases h
    rename_i sourceIndex hi
    split at h
    · cases h
    rename_i source hsource
    split at h
    · cases h
    simp only [bind_eq_ok] at h
    obtain ⟨s0, hs0, rqs, hr, heq⟩ := h
    have hs0 := readShard_ok hs0
    have hold : source.newShard = false := by
      obtain ⟨hlt, hfo, -⟩ := List.findIdx?_eq_some_iff_getElem.mp hi
      rw [List.getElem?_eq_getElem hlt, Option.some.injEq] at hsource
      rw [hsource] at hfo
      simp only [Bool.and_eq_true, Bool.not_eq_true'] at hfo
      exact hfo.1
    have hme : source ∈ plan := mem_of_getElem? hsource
    obtain ⟨rqs', hr', he⟩ := foldlM_addJobsBatch (jobsToTransfer shard s0) ⟨[], 0⟩
    rw [hr, Except.ok.injEq] at hr'
    subst hr'
    have hm : jobsToTransfer shard s0 ⊆ s0.jobs := filter_subset_self _
    cases heq
    refine ⟨?_, fun _ => ?_, ?_, ?_, ?_⟩
    · dsimp only
      rwa [splitPointers_address]
    · dsimp only
      rwa [splitPointers_address]
    · intro hf
      rw [hnew] at hf
      cases hf
    · rintro src s1 heq
      obtain ⟨rfl, rfl⟩ := heq
      refine ⟨hnew, hfr, s0, _, hs0, hm, ?_, rfl, source, hme, hold, rfl⟩
      exact fun j hj => he.perm.mem_iff.mpr (by simpa using hj)
    · intro j hj
      have hj : j ∈ jobsToTransfer shard s0 := by simpa using he.perm.mem_iff.mp hj
      refine .inr ⟨source, hme, hold, ?_⟩
      rw [jobsAt_of_shard hs0]
      exact hm hj
  · cases h
    refine ⟨hk, fun _ => ha, ?_, ?_, ?_⟩
    · intro hf
      rw [hnew] at hf
      cases hf
    · rintro src s1 heq
      cases heq
    · intro j hj
      cases hj

/-- An existing shard, before the jobs of the plan join it. -/
theorem prepareOldShard_ready (hm : shard ∈ plan) (hold : shard.newShard = false)
    (h : prepareOldShard st shardIndex shard q = .ok p) (a : String) :
    Ready st plan shard a q p := by
  simp only [prepareOldShard, bind_eq_ok] at h
  obtain ⟨s, hs, h⟩ := h
  have hs := readShard_ok hs
  split at h
  · cases h
  cases h
  refine ⟨fun _ hb => hb, ?_, fun _ => ⟨s, hs, fun _ hj => hj⟩, ?_, ?_⟩
  · intro hf
    rw [hold] at hf
    cases hf
  · rintro src s1 heq
    cases heq
  · intro j hj
    refine .inr ⟨shard, hm, hold, ?_⟩
    rwa [jobsAt_of_shard hs]

theorem accountJob_queueshards {j : JobToAdd} (h : accountJob q j = .ok q') :
    q'.queueshards = q.queueshards := by
  simp only [accountJob, bind_eq_ok] at h
  obtain ⟨p, hp, _, -, heq⟩ := h
  cases heq
  rw [(incCounts_eq hp).2.2.2]

theorem Ready.addPlannedJobs {p p' : Prepared} (h : Ready st plan shard a q p)
    (hp : addPlannedJobs shardIndex shard p = .ok p') : Ready st plan shard a q p' := by
  simp only [RetrieveQueue.addPlannedJobs, bind_eq_ok] at hp
  obtain ⟨q1, hq1, rqs, hr, _, -, heq⟩ := hp
  have hps : q1.queueshards = p.q.queueshards :=
    foldlM_ok_preserves (fun q : RetrieveQueue => q.queueshards)
      (fun _ _ _ => accountJob_queueshards) _ hq1
  obtain ⟨rqs', hr', he⟩ := addJobsBatch_extends p.rqs
    (RetrieveQueueShard.jobsToAddSet shard.jobsToAdd)
  rw [hr, Except.ok.injEq] at hr'
  subst hr'
  have hsu : p.rqs.jobs ⊆ rqs.jobs := fun j hj =>
    he.perm.mem_iff.mpr (mem_append_left _ hj)
  cases heq
  refine ⟨?_, fun hnew => ?_, fun hold => ?_, fun src s1 hsr => ?_, fun j hj => ?_⟩
  · dsimp only
    rw [modify_map_address, hps]
    · exact h.kept
    · exact fun _ => rfl
  · dsimp only
    rw [modify_map_address, hps]
    · exact h.new hnew
    · exact fun _ => rfl
  · obtain ⟨s, hs, hjo⟩ := h.old hold
    exact ⟨s, hs, List.Subset.trans hjo hsu⟩
  · obtain ⟨hnew, hf, s0, moved, hs0, hm, hr0, hrest⟩ := h.split src s1 hsr
    exact ⟨hnew, hf, s0, moved, hs0, hm, List.Subset.trans hr0 hsu, hrest⟩
  · rcases List.mem_append.mp (he.perm.mem_iff.mp hj) with hj | hj
    · exact h.content j hj
    · exact .inl (((jobsToAddSet_perm _).map _).mem_iff.mp hj)

theorem prepareShard_ready (hm : shard ∈ plan)
    (h : prepareShard st plan shardIndex shard a q = .ok p) : Ready st plan shard a q p := by
  unfold prepareShard at h
  cases hnew : shard.newShard with
  | true =>
    rw [hnew, if_pos rfl, bind_eq_ok] at h
    obtain ⟨p0, hp0, hp⟩ := h
    exact (prepareNewShard_ready hnew hp0).addPlannedJobs hp
  | false =>
    rw [hnew, if_neg (by simp), bind_eq_ok] at h
    obtain ⟨p0, hp0, hp⟩ := h
    exact (prepareOldShard_ready hm hnew hp0 a).addPlannedJobs hp

def AlikeByAddress (U P : RetrieveJobPointer → Prop) : Prop :=
  ∀ j j', U j → U j' → j.address = j'.address → P j → P j'

section Writes

variable {st : RStore} {plan : List ShardForAddition} {shard : ShardForAddition} {a : String}
variable {p : Prepared}

theorem Ready.known (h : Ready st plan shard a q p) (hk : Known U plan st)
    (hnew : ∀ j ∈ shard.newJobs, U j) : ∀ j ∈ p.rqs.jobs, U j := by
  intro j hj
  rcases h.content j hj with hj | ⟨source, hsource, hold, hj⟩
  · exact hnew j hj
  · exact hk source hsource hold j hj

/-- The queue in memory after a shard was prepared. -/
theorem Ready.safe (h : Ready m.store plan shard a q p) (hs : SafeAt addr P m q) :
    SafeAt addr P m p.q := by
  refine hs.withQueue (hs.reaches.mono fun x hx hj => ?_)
  obtain ⟨x', hx', heq⟩ := List.mem_map.mp (h.kept (List.mem_map.mpr ⟨x, hx, rfl⟩))
  exact ⟨x', hx', heq ▸ hj⟩

/-- **The source of a split is trimmed last**: when the new shard is stored and referenced,
no such job is lost. -/
theorem Ready.trim (h : Ready st plan shard a q p) (hal : AlikeByAddress U P)
    (hk : Known U plan st) {src : String} {s₁ : RetrieveQueueShard}
    (hsp : p.rqsSplitFrom = some (src, s₁)) (hs : SafeAt addr P m p.q)
    (hqu : m.store addr = some (.queue p.q)) (hsr : m.store src = st src)
    (hstored : m.store a = some (.shard p.rqs)) (ha : a ≠ src) :
    SafeAt addr P (m.push (.put src (.shard s₁))) p.q := by
  obtain ⟨hnew, -, s0, moved, hs0, hm, hrq, rfl, source, hsource, hold, rfl⟩ := h.split _ _ hsp
  have hU : ∀ j ∈ s0.jobs, U j := fun j hj =>
    hk source hsource hold j (by rwa [jobsAt_of_shard hs0])
  have hr : Reaches P ((Write.put source.address
      (.shard (s0.removeJobs (moved.map (·.address))).1)).apply m.store) p.q.queueshards := by
    refine hs.reaches.mono ?_
    rintro x hx ⟨j, hj, hP⟩
    by_cases hxs : x.address = source.address
    · rw [hxs, jobsAt_of_shard (hsr.trans hs0)] at hj
      by_cases hg : j.address ∈ moved.map (·.address)
      · -- a job with this address is in the new shard
        obtain ⟨j', hj', heq⟩ := List.mem_map.mp hg
        obtain ⟨x', hx', hxa⟩ := List.mem_map.mp (h.new hnew)
        refine ⟨x', hx', j', ?_, hal j j' (hU j hj) (hU j' (hm hj')) heq.symm hP⟩
        rw [hxa, jobsAt_apply_of_ne _ _ ha, jobsAt_of_shard hstored]
        exact hrq hj'
      · refine ⟨x, hx, j, ?_, hP⟩
        rw [hxs, jobsAt_put_shard, removeJobs_jobs]
        exact List.mem_filter.mpr ⟨hj, by simpa [QueueJob.address] using hg⟩
    · refine ⟨x, hx, j, ?_, hP⟩
      rwa [jobsAt_apply_of_ne _ _ hxs]
  refine hs.write (hs.ne_queue (hsr.trans hs0)) ?_ hr
  rintro q0 hq0 -
  rw [hqu, Option.some.injEq, Obj.queue.injEq] at hq0
  exact hq0 ▸ hr

/-- The shard itself is inserted, or written over what it had, before the rest `k`. -/
theorem Ready.wp_store (h : Ready st plan shard a q p)
    (ha : shard.newShard = false → a = shard.address) {q' : RetrieveQueue}
    (hsa : SafeAt addr P m q') (hj : jobsAt m.store = jobsAt st)
    (hp : ∀ b s, st b = some (.shard s) → b ≠ addr) {k : M RetrieveQueue}
    {Post : RetrieveQueue → RMachine → Prop}
    (hrest : SafeAt addr P (m.push (.put a (.shard p.rqs))) q' →
      (shard.newShard = true → m.store a = none) → a ≠ addr →
      wp k Post (fun _ => Unlost addr P) (m.push (.put a (.shard p.rqs)))) :
    wp (if shard.newShard = true then do
          create a (.shard p.rqs)
          k
        else do
          atomicOverwrite a (.shard p.rqs)
          k)
      Post (fun _ => Unlost addr P) m := by
  cases hnew : shard.newShard with
  | true =>
    rw [if_pos rfl, wp_bind]
    refine wp_create_cases hsa.always fun hab => ?_
    have hne := hsa.ne_queue_of_absent hab
    refine hrest (hsa.putShard hne ?_) (fun _ => hab) hne
    rw [jobsAt_of_none hab]
    exact nil_subset _
  | false =>
    rw [if_neg (by simp), wp_bind]
    obtain ⟨s, hs, hsu⟩ := h.old hnew
    have hne : a ≠ addr := by
      rw [ha hnew]
      exact hp _ s hs
    refine wp_atomicOverwrite_cases hsa.always fun o _ => ?_
    refine hrest (hsa.putShard hne ?_) (fun hf => ?_) hne
    · rw [hj, ha hnew, jobsAt_of_shard hs]
      exact hsu
    · rw [hnew] at hf
      cases hf

theorem Ready.wp_writeShard (h : Ready m.store plan shard a q p)
    (ha : shard.newShard = false → a = shard.address) (hal : AlikeByAddress U P)
    (hsa : SafeAt addr P m q) (hk : Known U plan m.store) (hnew : ∀ j ∈ shard.newJobs, U j) :
    wp (writeShard addr shard a p)
      (fun q' m' => SafeAt addr P m' q' ∧ Known U plan m'.store)
      (fun _ => Unlost addr P) m := by
  have hp : ∀ b s, m.store b = some (.shard s) → b ≠ addr := fun b s hs => hsa.ne_queue hs
  have hr : ∀ j ∈ p.rqs.jobs, U j := h.known hk hnew
  cases hf : shard.fromSplit with
  | false =>
    have hn : p.rqsSplitFrom = none := by
      cases hsp : p.rqsSplitFrom with
      | none => rfl
      | some x =>
        have := (h.split x.1 x.2 hsp).2.1
        rw [hf] at this
        cases this
    simp only [writeShard, hf, Bool.false_eq_true, if_false, wp_bind, hn]
    refine wp_post (wp_commit_safe (h.safe hsa)) (fun q' m1 hm1 => ?_)
    refine h.wp_store ha hm1.1 hm1.2 hp fun hstored _ _ => ⟨hstored, ?_⟩
    rw [store_push]
    exact (hk.of_jobsAt hm1.2).put hr
  | true =>
    obtain ⟨q0, hq0, -⟩ := hsa.stored
    simp only [writeShard, hf, if_true, wp_bind, wp_pure]
    rw [wp_atomicOverwrite hq0]
    have hm1 := (h.safe hsa).writeQueue
    have hj1 : jobsAt (m.push (.put addr (.queue p.q))).store = jobsAt m.store := by
      rw [store_push, jobsAt_put_queue hq0]
    refine h.wp_store ha hm1 hj1 hp fun hstored hab hne => ?_
    have hk2 : Known U plan ((m.push (.put addr (.queue p.q))).push
        (.put a (.shard p.rqs))).store := by
      rw [store_push]
      exact (hk.of_jobsAt hj1).put hr
    cases hsp : p.rqsSplitFrom with
    | none => exact ⟨hstored, hk2⟩
    | some x =>
      obtain ⟨src, s1⟩ := x
      obtain ⟨hns, -, s0, moved, hs0, hm, -, rfl, source, hsource, hold, rfl⟩ := h.split src s1 hsp
      have hnq := hp _ s0 hs0
      have hab : m.store a = none := by
        rw [← hab hns, store_push_put_of_ne _ hne]
      have hac : a ≠ source.address := by
        rintro rfl
        rw [hab] at hs0
        cases hs0
      have hsr : ((m.push (.put addr (.queue p.q))).push
          (.put a (.shard p.rqs))).store source.address = m.store source.address := by
        rw [store_push_put_of_ne _ hac.symm, store_push_put_of_ne _ hnq]
      rw [wp_bind, wp_atomicOverwrite (hsr.trans hs0), wp_pure]
      refine ⟨h.trim hal hk hsp hstored ?_ hsr (store_push_put _ _ _) hac, ?_⟩
      · rw [store_push_put_of_ne _ hne.symm, store_push_put]
      rw [store_push]
      refine hk2.put fun j hj => ?_
      rw [removeJobs_jobs] at hj
      refine hk source hsource hold j ?_
      rw [jobsAt_of_shard hs0]
      exact mem_of_mem_filter hj

end Writes

theorem wp_applyShard_safe (hm : shard ∈ plan) (shardIndex : Nat) (hal : AlikeByAddress U P)
    (hs : SafeAt addr P m q) (hk : Known U plan m.store) (hnew : ∀ j ∈ shard.newJobs, U j) :
    wp (applyShard addr plan shardIndex shard q)
      (fun q' m' => SafeAt addr P m' q' ∧ Known U plan m'.store)
      (fun _ => Unlost addr P) m := by
  -- with the name of the shard known, what is left is to prepare and to write
  have hrest : ∀ (a : String) (m : RMachine), (shard.newShard = false → a = shard.address) →
      SafeAt addr P m q → Known U plan m.store →
      wp (do
          let st ← Prog.getStore
          let p ← Prog.ofExcept (prepareShard st plan shardIndex shard a q)
          writeShard addr shard a p)
        (fun q' m' => SafeAt addr P m' q' ∧ Known U plan m'.store)
        (fun _ => Unlost addr P) m := by
    intro a m ha hs hk
    rw [wp_bind, wp_getStore, wp_bind, wp_ofExcept]
    cases hp : prepareShard m.store plan shardIndex shard a q with
    | error e => exact hs.always
    | ok p => exact (prepareShard_ready hm hp).wp_writeShard ha hal hs hk hnew
  unfold applyShard
  cases hsh : shard.newShard with
  | true =>
    refine hrest _ _ (fun hf => ?_) (hs.setMem _) hk
    rw [hsh] at hf
    cases hf
  | false =>
    exact hrest _ m (fun _ => rfl) hs hk

theorem wp_applyShards_safe (ha : AlikeByAddress U P)
    (hp : ∀ j ∈ plannedJobs plan, U j) (rest : List ShardForAddition) :
    ∀ {m : RMachine} {q : RetrieveQueue} (shardIndex : Nat), rest ⊆ plan →
      SafeAt addr P m q → Known U plan m.store →
      wp (applyShards addr plan shardIndex rest q)
        (fun q' m' => SafeAt addr P m' q') (fun _ => Unlost addr P) m := by
  induction rest with
  | nil =>
    intro m q shardIndex _ hs _
    exact hs
  | cons shard rest ih =>
    intro m q shardIndex hsu hs hk
    obtain ⟨hm, hsu⟩ := List.cons_subset.mp hsu
    rw [applyShards, wp_bind]
    refine wp_post (wp_applyShard_safe hm shardIndex ha hs hk ?_)
      (fun q' m' hm' => ih (shardIndex + 1) hsu hm'.1 hm'.2)
    exact fun j hj => hp j (List.mem_flatMap.mpr ⟨shard, hm, hj⟩)

theorem layout_known {batch : List JobToAdd}
    (hpl : layout q.maxshardsize q.queueshards batch = .ok plan) (hb : batch ≠ [])
    (hU : ∀ j ∈ queuedJobs st q.queueshards ++ batch.map (·.toPointer), U j) :
    (∀ j ∈ plannedJobs plan, U j) ∧ Known U plan st := by
  simp only [forall_mem_append] at hU
  by_cases hps : q.queueshards = []
  · obtain ⟨s, hs, hnew, -, hjo⟩ := layout_empty q.maxshardsize hb
    rw [hps, hs] at hpl
    cases hpl
    refine ⟨fun j hj => hU.2 j ?_, ?_⟩
    · simpa [plannedJobs, ShardForAddition.newJobs, hjo] using hj
    intro source hsource hold
    rw [List.mem_singleton.mp hsource, hnew] at hold
    cases hold
  · obtain ⟨plan', hp', hp⟩ := layout_planned q.maxshardsize hps batch
    rw [hpl, Except.ok.injEq] at hp'
    subst hp'
    refine ⟨fun j hj => hU.2 j (hp.plannedJobs_perm.mem_iff.mp hj), ?_⟩
    intro source hsource hold j hj
    have hm := mem_existing hsource hold
    rw [hp.existing_eq, numbered, mem_mapIdx] at hm
    obtain ⟨i, hi, heq⟩ := hm
    refine hU.1 j (List.mem_flatMap.mpr ⟨q.queueshards[i], getElem_mem hi, ?_⟩)
    rwa [(Prod.mk.inj heq).2]

/-- **A call on a retrieve queue keeps every job it does not remove**, in every state of the
store on its way. -/
theorem wp_call_safe (c : Call JobToAdd) (hP : ∀ j, P j → QueueJob.address j ∉ c.removed)
    (ha : AlikeByAddress (· ∈ c.effect (·.toPointer) (queuedJobs m.store q.queueshards)) P)
    (hq : m.store addr = some (.queue q)) (h : SafeAt addr P m q) :
    wp (ops.call addr c) (fun _ => Unlost addr P)
      (fun _ => Unlost addr P) m := by
  unfold QueueOps.call
  rw [wp_bind, wp_fetchQueue hq]
  cases c with
  | add jobsToAdd =>
    simp only [ops, addJobsAndCommit]
    split
    · exact h.always
    rename_i hne
    cases hpl : layout q.maxshardsize q.queueshards jobsToAdd with
    | error e => exact h.always
    | ok plan =>
      obtain ⟨hjo, hk⟩ := layout_known hpl (by simpa using hne) (fun j hj => hj)
      exact wp_post (wp_applyShards_safe ha hjo plan 0 (List.Subset.refl _) h hk)
        (fun _ _ hs => hs.always)
  | remove jobsToRemove =>
    refine wp_post (wp_removeLoop_safe ?_ _ h hP) (fun _ _ hs => hs.always)
    exact fun addresses shardIndex p q m h hp hP => wp_removeRound_safe h hP hp

end RetrieveQueue

/-! ## Crashes -/

def storedJobs {Q J R : Type} (pointers : Q → List (ShardPointer R)) (addr : String)
    (st : QueueStore Q J) : List J :=
  match st addr with
  | some (.queue q) => queuedJobs st (pointers q)
  | _ => []

variable {addr : String} {Q J R : Type}

theorem persisted_iff {pointers : Q → List (ShardPointer R)} {P : J → Prop} {st : QueueStore Q J} :
    Persisted pointers addr P st ↔ ∃ j ∈ storedJobs pointers addr st, P j := by
  unfold Persisted storedJobs Reaches
  constructor
  · rintro ⟨q, hq, hj⟩
    simpa only [hq] using hj
  intro hj
  split at hj
  · rename_i q hq
    exact ⟨q, hq, hj⟩
  · simp at hj

theorem Safe.start {pointers : Q → List (ShardPointer R)}
    {P : J → Prop} {st : QueueStore Q J} {j : J} (hj : j ∈ storedJobs pointers addr st)
    (hP : P j) (agent : AgentReference) :
    ∃ q, st addr = some (.queue q)
      ∧ Safe pointers addr P (Machine.start st agent) q := by
  have hp : Persisted pointers addr P st := persisted_iff.mpr ⟨j, hj, hP⟩
  obtain ⟨q, hq, hr⟩ := hp
  exact ⟨q, hq, Machine.always_start ⟨q, hq, hr⟩, hr⟩

/-- **NO CALL LOSES A JOB, WHEREVER IT IS CUT OFF.** A retrieve queue moves jobs by their
address, and keeps every record when no address is queued twice. -/
theorem stored_jobs_survive_crash (addr : String) (agent : AgentReference) (k : Nat) :
    (∀ (st : ArchiveQueue.AStore) (c : Call ArchiveQueue.JobToAdd),
      ∀ j ∈ storedJobs (fun q : ArchiveQueue => q.queueshards) addr st,
        j.address ∉ c.removed →
        j ∈ storedJobs (fun q : ArchiveQueue => q.queueshards) addr
          ((ArchiveQueue.ops.run addr agent c st).2.crash k))
    ∧ (∀ (st : RetrieveQueue.RStore) (c : Call RetrieveQueue.JobToAdd),
      ∀ j ∈ storedJobs (fun q : RetrieveQueue => q.queueshards) addr st,
        j.address ∉ c.removed →
        (∃ j' ∈ storedJobs (fun q : RetrieveQueue => q.queueshards) addr
            ((RetrieveQueue.ops.run addr agent c st).2.crash k), j'.address = j.address)
        ∧ (((storedJobs (fun q : RetrieveQueue => q.queueshards) addr st).map
              (·.address)).Nodup →
            c.Admissible (·.toPointer)
              (storedJobs (fun q : RetrieveQueue => q.queueshards) addr st) →
            j ∈ storedJobs (fun q : RetrieveQueue => q.queueshards) addr
              ((RetrieveQueue.ops.run addr agent c st).2.crash k))) := by
  refine ⟨fun st c j hj hc => ?_, fun st c j hj hc => ⟨?_, fun hn hadm => ?_⟩⟩
  · obtain ⟨q, hq, hs⟩ := Safe.start (P := (· = j)) hj rfl agent
    have hca := ArchiveQueue.wp_call_safe (m := Machine.start st agent) (P := (· = j)) c
      (fun j' hj' => hj' ▸ hc) hq hs
    obtain ⟨j', hj', rfl⟩ := persisted_iff.mp (wp_final hca k)
    exact hj'
  · obtain ⟨q, hq, hs⟩ := Safe.start (P := (·.address = j.address)) hj rfl agent
    have hca := RetrieveQueue.wp_call_safe (m := Machine.start st agent) c
      (fun j' (hj' : j'.address = j.address) => by
        change j'.address ∉ c.removed
        rwa [hj'])
      (fun _ _ _ _ heq hP => heq.symm.trans hP) hq hs
    exact persisted_iff.mp (wp_final hca k)
  · obtain ⟨q, hq, hs⟩ := Safe.start (P := (· = j)) hj rfl agent
    have hstored : storedJobs (fun q : RetrieveQueue => q.queueshards) addr st
        = queuedJobs st q.queueshards := by
      simp only [storedJobs, hq]
    rw [hstored] at hn hadm
    have hca := RetrieveQueue.wp_call_safe (m := Machine.start st agent) (P := (· = j)) c
      (fun j' hj' => hj' ▸ hc)
      (fun j1 j2 h1 h2 heq hP => (inj_on_of_nodup_map (hadm.nodup hn) h1 h2 heq) ▸ hP)
      hq hs
    obtain ⟨j', hj', rfl⟩ := persisted_iff.mp (wp_final hca k)
    exact hj'

/-- A queue is filled up and cut off before the shard, or split and cut off before the trim. -/
theorem stored_jobs_survive_sample_crashes : (ArchiveQueue.sampleJob "a" 7).toPointer
        ∈ storedJobs (fun q : ArchiveQueue => q.queueshards) "queue"
          ((ArchiveQueue.ops.run "queue" ⟨"agent", 30⟩ (.add [ArchiveQueue.sampleJob "d" 1])
            (ArchiveQueue.ops.replay "queue" ArchiveQueue.addAndRemove
              ArchiveQueue.initialStore)).2.crash 1)
      ∧ (RetrieveQueue.sampleJob "b" 10).toPointer
        ∈ storedJobs (fun q : RetrieveQueue => q.queueshards) "queue"
          ((RetrieveQueue.ops.run "queue" ⟨"agent", 30⟩
            (.add [RetrieveQueue.sampleJob "d" 7, RetrieveQueue.sampleJob "e" 8])
            (RetrieveQueue.ops.replay "queue" RetrieveQueue.splitAndRemove
              (RetrieveQueue.initialStore 2))).2.crash 2) := by
  refine ⟨(stored_jobs_survive_crash "queue" ⟨"agent", 30⟩ 1).1 _ _ _ ?_ ?_,
    ((stored_jobs_survive_crash "queue" ⟨"agent", 30⟩ 2).2 _ _ _ ?_ ?_).2 ?_ ?_⟩
  · decide +kernel
  · exact not_mem_nil
  · decide +kernel
  · exact not_mem_nil
  · decide +kernel
  · decide +kernel

end TapeArchive.Objectstore
