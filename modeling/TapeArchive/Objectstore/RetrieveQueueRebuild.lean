/-
  **WHAT `RetrieveQueue::rebuild` RESTORES.**

  A rebuild recomputes the pointers, the totals and three counter arrays from
  the shards that exist (`wp_rebuildSummaries`). The fourth counter array of a
  retrieve queue, the one of the activities, is neither cleared nor counted
  again: after a shard was lost it goes on counting the jobs of that shard. So
  a rebuild restores everything exactly when the activities were right before.
-/
import TapeArchive.Objectstore.RetrieveQueueHistory

namespace TapeArchive.Objectstore.RetrieveQueue

open Lib List
open RetrieveQueueShard (getJobsSummary getJobsSummary_empty HasRange rangeOf_hasRange)

variable {st : RStore} {q q' : RetrieveQueue}

/-! ## The statement -/

def existingShards (st : RStore) (ps : List RetrieveQueueShardPointer) :
    List RetrieveQueueShardPointer :=
  ps.filter (fun p => (st p.address).isSome)

/-- `q'` points to the existing shards of `q`, with summaries computed from them. -/
structure Restored (st : RStore) (q q' : RetrieveQueue) : Prop where
  pointers : q'.queueshards.map (·.address)
    = (existingShards st q.queueshards).map (·.address)
  counts : ∀ p ∈ q'.queueshards,
    p.shardjobscount = UInt64.ofNat (jobsAt st p.address).length
      ∧ p.shardbytescount = bytesOf (jobsAt st p.address)
  ranges : ∀ p ∈ q'.queueshards, HasRange (jobsAt st p.address) p.range
  summary : Summarises q'.toQueuePayload
    ((queuedJobs st q.queueshards : List RetrieveJobPointer) : Multiset RetrieveJobPointer)
  activity : q'.activity_map.Counts
    (activities (queuedJobs st q.queueshards : List RetrieveJobPointer))

/-- The pointers lead to shards that `getJobsSummary` can summarise. -/
def Readable (st : RStore) (q : RetrieveQueue) : Prop :=
  ∀ p ∈ q.queueshards, ∀ o, st p.address = some o →
    ∃ s, o = .shard s ∧ (getJobsSummary s).isOk = true

/-! ## A rebuild -/

theorem Readable.shards (h : Readable st q) : ∀ p ∈ q.queueshards, st p.address = none
      ∨ ∃ s, st p.address = some (.shard s) ∧ kind.summaryCheck s = .ok () := by
  intro p hp
  cases hst : st p.address with
  | none => exact .inl rfl
  | some o =>
    obtain ⟨s, rfl, hok⟩ := h p hp o hst
    refine .inr ⟨s, rfl, ?_⟩
    show (getJobsSummary s).map (fun _ => ()) = .ok ()
    cases hs : getJobsSummary s with
    | ok sum => rfl
    | error e =>
      rw [hs] at hok
      cases hok

variable {agent : AgentReference}

theorem readable_of_rebuild {m' : RMachine}
    (h : (rebuild q).exec (Machine.start st agent) = (.ok q', m')) : Readable st q := by
  intro p hp o ho
  by_contra hbad
  have hss : wp (rebuild q) (fun _ _ => False) (fun _ _ => True) (Machine.start st agent) := by
    unfold rebuild rebuildSummaries
    rw [wp_bind, wp_bind]
    refine wp_rebuildShards_stops kind ?_ _ (List.mem_map.mpr ⟨p, hp, rfl⟩) ho
    intro s hs hc
    refine hbad ⟨s, hs, ?_⟩
    cases hsu : getJobsSummary s with
    | ok sum => rfl
    | error e =>
      have hc' : (getJobsSummary s).map (fun _ => ()) = .ok () := hc
      rw [hsu] at hc'
      cases hc'
  exact wp_ok hss h

theorem refreshed_existing {ps : List RetrieveQueueShardPointer}
    (h : ∀ p ∈ ps, st p.address = none ∨ ∃ s, st p.address = some (.shard s)) :
    (ps.filterMap (kind.refreshed st)).map (·.address) = (existingShards st ps).map (·.address) := by
  induction ps with
  | nil => rfl
  | cons p ps ih =>
    have hrest := ih fun p' hp' => h p' (.tail _ hp')
    unfold existingShards at hrest ⊢
    rcases h p mem_cons_self with hn | ⟨s, hs⟩
    · rw [filterMap_cons_none (by simp [QueueKind.refreshed, hn]),
        filter_cons_of_neg (by simp [hn]), hrest]
    · rw [filter_cons_of_pos (by simp [hs]), map_cons, ← hrest]
      simp [QueueKind.refreshed, hs]

/-- **A rebuild with readable shards returns**, and leaves the activity counters alone. -/
theorem wp_rebuild (hn : (q.queueshards.map (·.address)).Nodup) (hre : Readable st q) :
    wp (rebuild q) (fun q' _ => q'.activity_map = q.activity_map ∧ (q.activity_map.Counts
            (activities (queuedJobs st q.queueshards : List RetrieveJobPointer)) →
          Restored st q q'))
      (fun _ _ => False) (Machine.start st agent) := by
  have hsh := hre.shards
  unfold rebuild
  rw [wp_bind]
  refine wp_rebuildSummaries kind hn hsh ?_
  intro p' m' hm hc hps hqu _ _
  refine ⟨rfl, fun ha => ?_⟩
  -- what each pointer of the rebuilt queue is made of
  have hpo : ∀ p ∈ p'.queueshards, ∃ s, st p.address = some (.shard s)
      ∧ (getJobsSummary s).isOk = true ∧ p.shardjobscount = UInt64.ofNat s.jobs.length
      ∧ p.shardbytescount = bytesOf s.jobs ∧ p.range = RetrieveQueueShard.rangeOf s.jobs := by
    intro p hp
    rw [hps] at hp
    obtain ⟨p0, hp0, hr⟩ := List.mem_filterMap.mp hp
    rcases hsh p0 hp0 with hno | ⟨s, hs, -⟩
    · have hn' : (Machine.start st agent).store p0.address = none := hno
      simp [QueueKind.refreshed, hn'] at hr
    have hs' : (Machine.start st agent).store p0.address = some (.shard s) := hs
    simp only [QueueKind.refreshed, hs', Option.some.injEq] at hr
    obtain ⟨s', hs'', hok⟩ := hre p0 hp0 _ hs
    cases hs''
    subst hr
    exact ⟨s, hs, hok, rfl, rfl, rfl⟩
  refine ⟨?_, ?_, ?_, ?_, ha⟩
  · show p'.queueshards.map (·.address) = _
    rw [hps]
    refine refreshed_existing fun p hp => (hsh p hp).imp_right ?_
    rintro ⟨s, hs, -⟩
    exact ⟨s, hs⟩
  · intro p hp
    obtain ⟨s, hs, -, hj, hb, -⟩ := hpo p hp
    rw [jobsAt_of_shard hs]
    exact ⟨hj, hb⟩
  · intro p hp
    obtain ⟨s, hs, hok, -, -, hra⟩ := hpo p hp
    rw [jobsAt_of_shard hs, hra]
    refine rangeOf_hasRange fun he => ?_
    rw [getJobsSummary_empty he] at hok
    cases hok
  · have hsu := hc.summary
    rw [hqu] at hsu
    exact hsu

/-- **A REBUILD RETURNS WITH EVERY SUMMARY RESTORED EXACTLY WHEN** the existing shards can be
summarised and the counters of the activities were right. -/
theorem rebuild_restores_iff (agent : AgentReference)
    (hnodup : (q.queueshards.map (·.address)).Nodup) :
    (∃ q' m', (rebuild q).exec (Machine.start st agent) = (.ok q', m') ∧ Restored st q q')
      ↔ Readable st q ∧ q.activity_map.Counts
          (activities (queuedJobs st q.queueshards : List RetrieveJobPointer)) := by
  constructor
  · rintro ⟨q', m', he, hre⟩
    have hr := readable_of_rebuild he
    obtain ⟨hs, -⟩ := wp_ok (wp_rebuild hnodup hr) he
    exact ⟨hr, hs ▸ hre.activity⟩
  · rintro ⟨hr, ha⟩
    have hwp := @wp_rebuild st q agent hnodup hr
    rcases he : (rebuild q).exec (Machine.start st agent) with ⟨r, m'⟩
    cases r with
    | error e => exact (wp_error hwp he).elim
    | ok q' => exact ⟨q', m', rfl, (wp_ok hwp he).2 ha⟩

theorem rebuild_restores_split_and_remove :
    ∃ q, ops.replay "queue" splitAndRemove (initialStore 2) "queue" = some (.queue q)
      ∧ (q.queueshards.map (·.address)).Nodup
      ∧ ((∃ q' m', (rebuild q).exec
            (Machine.start (ops.replay "queue" splitAndRemove (initialStore 2)) ⟨"agent", 30⟩)
              = (.ok q', m')
            ∧ Restored (ops.replay "queue" splitAndRemove (initialStore 2)) q q')
        ↔ Readable (ops.replay "queue" splitAndRemove (initialStore 2)) q
          ∧ q.activity_map.Counts (activities (queuedJobs
              (ops.replay "queue" splitAndRemove (initialStore 2)) q.queueshards :
                List RetrieveJobPointer))) := by
  obtain ⟨q, he, -⟩ := holds_of_history
    ((initialStore_history (SplitsOnceAt "queue") 2 (by decide)).replay splitAndRemove
      (by decide +kernel))
  exact ⟨q, he.queue, he.nodup, rebuild_restores_iff ⟨"agent", 30⟩ he.nodup⟩

/-! ## A lost shard -/

/-- The queue after the addition of one job of the activity `user`. -/
def afterUserJob : RStore :=
  ops.replay "queue" [(⟨"agent", 0⟩, .add [{ sampleJob "a" 1 with activity := some "user" }])]
    (initialStore 2)

def loseShards (st : RStore) : RStore := fun a =>
  match st a with
  | some (.shard _) => none
  | o => o

def userQueue : RetrieveQueue where
  queueshards := [⟨"RetrieveQueueShard-vid-agent-0", 1, 1, ⟨1, 1⟩⟩]
  prioritymap := [⟨1, 1⟩]
  minrequestagemap := [⟨1, 1⟩]
  mountpolicynamemap := [⟨"policy", 1⟩]
  jobstotalsize := 1
  jobscount := 1
  oldestjobcreationtime := 1
  youngestjobcreationtime := 1
  mapsrebuildcount := 0
  vid := "vid"
  activity_map := [⟨"user", 1⟩]
  maxshardsize := 2

theorem lost_activity_is_counted : loseShards afterUserJob "queue" = some (.queue userQueue)
      ∧ (userQueue.queueshards.map (·.address)).Nodup
      ∧ ∃ q' m', (rebuild userQueue).exec
            (Machine.start (loseShards afterUserJob) ⟨"agent", 10⟩) = (.ok q', m')
          ∧ q'.queueshards = [] ∧ q'.jobscount = 0 ∧ q'.activity_map = [⟨"user", 1⟩]
          ∧ ¬ Restored (loseShards afterUserJob) userQueue q' := by
  have hru : ((rebuild userQueue).exec (Machine.start (loseShards afterUserJob) ⟨"agent", 10⟩)).1
        = .ok { initialized "vid" 2 with
            oldestjobcreationtime := 2 ^ 63 - 1
            youngestjobcreationtime := 2 ^ 63
            activity_map := [⟨"user", 1⟩] } := by
    decide +kernel
  rcases hexec : (rebuild userQueue).exec
    (Machine.start (loseShards afterUserJob) ⟨"agent", 10⟩) with ⟨r, m'⟩
  rw [hexec] at hru
  subst hru
  refine ⟨by decide +kernel, by decide, _, m', rfl, rfl, rfl, rfl, ?_⟩
  intro hr
  have hn : queuedJobs (loseShards afterUserJob) userQueue.queueshards = [] := by
    decide +kernel
  have hc := hr.activity.content_eq
  exact absurd (congrArg Multiset.card hc) (by decide)

end TapeArchive.Objectstore.RetrieveQueue
