/-
  **HISTORIES OF ADDITIONS AND REMOVALS ON AN ARCHIVE QUEUE.**

  An archive queue is a FIFO: along every history the shards, in the order of
  their pointers, hold what was added and not removed in the order of addition,
  with exact summaries. The creation times need start times that are neither
  negative (they are compared as `uint64_t`) nor `time_t`'s maximum (which
  `recomputeOldestAndYoungestJobCreationTime` takes for "no job").
-/
import TapeArchive.Objectstore.ArchiveQueueAddition
import TapeArchive.Objectstore.QueueHistory
import TapeArchive.Objectstore.QueueRebuild
import TapeArchive.Objectstore.QueueRemoval

namespace TapeArchive.Objectstore.ArchiveQueue

open Lib List

variable {addr : String} {st : AStore} {q q' : ArchiveQueue}
variable {X : Exn → AMachine → Prop} {m : AMachine}

/-! ## The recomputed creation times -/

/-- A start time that is not negative and not the maximum of `time_t`. -/
def OrdinaryTime (t : Int64) : Prop := 0 ≤ t ∧ t < Int64.maxValue

instance (t : Int64) : Decidable (OrdinaryTime t) := inferInstanceAs (Decidable (_ ∧ _))

def OrdinaryTimes (jobs : List ArchiveJobPointer) : Prop :=
  ∀ j ∈ jobs, OrdinaryTime j.starttime.toInt64

theorem Spans.of_extremes {q : QueuePayload Unit} {jobs : List ArchiveJobPointer}
    (hti : OrdinaryTimes jobs)
    (ho : jobs ≠ [] → q.oldestjobcreationtime = (earliest Int64.maxValue jobs).toUInt64)
    (hy : jobs ≠ [] → q.youngestjobcreationtime = (latest Int64.minValue jobs).toUInt64) :
    Spans q jobs := by
  by_cases hn : jobs = []
  · subst hn
    constructor <;> simp
  have hl := isLeast_earliest hti hn
  have hg := isGreatest_latest hti hn
  rw [← ho hn] at hl
  rw [← hy hn] at hg
  refine ⟨fun _ => ?_, fun j hj => hl.2 ⟨j, hj, rfl⟩, fun _ => ?_, fun j hj => hg.2 ⟨j, hj, rfl⟩⟩
  · obtain ⟨k, hk, heq⟩ := hl.1
    exact List.mem_map.mpr ⟨k, hk, heq⟩
  · obtain ⟨k, hk, heq⟩ := hg.1
    exact List.mem_map.mpr ⟨k, hk, heq⟩

theorem addJobs_eq (e : Extremes) (jobs : List ArchiveJobPointer) : e.addJobs jobs
      = { e with
          oldestJobCreationTime := earliest e.oldestJobCreationTime jobs
          youngestJobCreationTime := latest e.youngestJobCreationTime jobs } := by
  induction jobs generalizing e with
  | nil => rfl
  | cons j jobs ih =>
    exact ih _

/-- The loop over shards that exist. -/
theorem wp_recomputeShards (ps : List (ShardPointer Unit)) :
    ∀ {e : Extremes} {Post : Extremes → AMachine → Prop},
      (∀ p ∈ ps, ∃ s, m.store p.address = some (.shard s)) →
      wp (recomputeShards (ps.map (·.address)) e) Post X m
        = Post (e.addJobs (queuedJobs m.store ps)) m := by
  induction ps with
  | nil => exact fun _ => rfl
  | cons p ps ih =>
    intro e Post h
    obtain ⟨s, hs⟩ := h p mem_cons_self
    simp only [map_cons, recomputeShards, wp_bind, wp_getStore, hs]
    rw [ih (fun p' hp' => h p' (.tail _ hp')), queuedJobs_cons, jobsAt_of_shard hs,
      Extremes.addJobs, Extremes.addJobs, Extremes.addJobs, foldl_append]

/-- **The recomputation finds the extremes of the queued jobs.** -/
theorem wp_recompute {Post : ArchiveQueue → AMachine → Prop}
    (hs : ∀ p ∈ q.queueshards, ∃ s, m.store p.address = some (.shard s))
    (hti : OrdinaryTimes (queuedJobs m.store q.queueshards)) (hp : ∀ oldest youngest,
      Spans { q.toQueuePayload with
        oldestjobcreationtime := oldest
        youngestjobcreationtime := youngest } (queuedJobs m.store q.queueshards) →
      Post { q with
        oldestjobcreationtime := oldest
        youngestjobcreationtime := youngest } m) :
    wp (recomputeOldestAndYoungestJobCreationTime q) Post X m := by
  unfold recomputeOldestAndYoungestJobCreationTime
  rw [wp_bind, wp_recomputeShards q.queueshards hs, addJobs_eq, wp_pure]
  set jobs := queuedJobs m.store q.queueshards with hj
  have hq : ∀ (P Q : Prop) [Decidable P] [Decidable Q] (o y : UInt64),
      (let q1 := if P then { q with oldestjobcreationtime := o } else q
        if Q then { q1 with youngestjobcreationtime := y } else q1)
        = { q with
            oldestjobcreationtime := if P then o else q.oldestjobcreationtime
            youngestjobcreationtime := if Q then y else q.youngestjobcreationtime } := by
    intro P Q _ _ o y
    by_cases hP : P <;> by_cases hQ : Q <;> simp [hP, hQ]
  rw [hq]
  refine hp _ _ (Spans.of_extremes hti (fun hne => ?_) (fun hne => ?_))
  · obtain ⟨k, hk, hke⟩ := earliest_mem hti hne
    exact if_pos (hke ▸ ne_of_lt (hti k hk).2)
  obtain ⟨k, hk, hke⟩ := latest_mem hti hne
  refine if_pos fun hm => ?_
  have hz : (0 : Int64) ≤ Int64.minValue := (hke ▸ hm) ▸ (hti k hk).1
  exact absurd hz (by decide)

/-! ## A removal -/

/-- The queue at rest is a FIFO of jobs with ordinary start times. -/
def AtRest (addr : String) (st : AStore) (q : ArchiveQueue) : Prop :=
  Fifo addr st q (queuedJobs st q.queueshards)
    ∧ OrdinaryTimes (queuedJobs st q.queueshards)

/-- A coherent queue in memory is a FIFO once it is written. -/
theorem Fifo.of_coherent (hq : st addr = some (.queue q)) (hc : Coherent st q'.toQueuePayload)
    (hsi : ∀ p ∈ q'.queueshards, jobsAt st p.address ≠ []
      ∧ (jobsAt st p.address).length ≤ c_maxShardSize.toNat)
    (hsp : Spans q'.toQueuePayload (queuedJobs st q'.queueshards)) :
    Fifo addr ((Write.put addr (.queue q')).apply st) q'
      (queuedJobs st q'.queueshards) := by
  have hat := jobsAt_put_queue hq q'
  have hj : queuedJobs ((Write.put addr (.queue q')).apply st) q'.queueshards
      = queuedJobs st q'.queueshards := queuedJobs_congr (fun p _ => by rw [hat])
  refine ⟨Write.apply_put_same _ _ _, ⟨hc.nodup, ?_, ?_⟩, ?_, hj, hsp⟩
  · intro p hp
    obtain ⟨s, hs⟩ := hc.pointers p hp
    have hne : p.address ≠ addr := fun heq => by
      rw [← heq, hs.stored] at hq
      cases hq
    exact ⟨s, (Write.apply_of_ne _ _ hne).trans hs.stored, hs.sized, hs.jobs, hs.bytes⟩
  · rw [hj]
    exact hc.summary
  · rw [hat]
    exact hsi

/-- **A ROUND OF THE REMOVAL KEEPS THE QUEUE IN ORDER.** -/
theorem removeRound_spec :
    RoundSpec (fun q : ArchiveQueue => q.queueshards) (removeRound addr)
      (AtRest addr) X := by
  intro addresses done p todo q m Post ⟨hf, htimes⟩ (hps : q.queueshards = _) hPost
  have hp : p ∈ q.queueshards := by rw [hps]; simp
  obtain ⟨s, hs⟩ := hf.coherent.pointers p hp
  have hpq : p.address ≠ addr := hf.ne_queue hp
  have hn := hf.coherent.nodup
  rw [hps] at hn
  simp only [removeRound, wp_bind]
  rw [wp_fetchShard hs.stored]
  refine wp_storeRemoval hs.stored addresses ?_
  intro w hw hsr
  have hst1 : (m.push w).store
      = afterStoreRemoval m.store p.address (s.removeJobs addresses).1 := by
    rw [Machine.store_push, hsr]
  have hk := coe_queuedJobs_removal hps hs.stored addresses
  obtain ⟨pm, am, nm, hd, hco⟩ := Counted.foldlM_decCounts
    (s.removeJobs addresses).2.removedJobs (hk ▸ hf.coherent.summary.toCounted)
  rw [hd, wp_ofExcept_ok]
  set q1 : QueuePayload Unit :=
    { q.toQueuePayload with
      prioritymap := pm, minrequestagemap := am, mountpolicynamemap := nm } with hq1
  obtain ⟨hc, hm⟩ := hf.coherent.afterRemoval hps hs.stored addresses (by exact ⟨rfl, rfl, rfl⟩) hco
  have ha := map_address_afterRemoval (q := q1) (s := s) hps addresses
  have hjo := queuedJobs_afterRemoval m.store (q := q1) (s := s) hn hps addresses
  rw [← hst1] at hc hjo
  rw [hm, repairIf, if_neg (by simp), wp_pure]
  have hsu : queuedJobs (m.push w).store
      (q1.afterRemoval done.length p (s.removeJobs addresses).2).queueshards
        ⊆ queuedJobs m.store q.queueshards := by
    intro j hj
    have : j ∈ ((queuedJobs m.store q.queueshards : List ArchiveJobPointer)
        : Multiset ArchiveJobPointer) := by
      rw [hk]
      exact Multiset.mem_add.mpr (.inr (hjo ▸ hj))
    exact this
  refine wp_recompute (fun p' hp' => (hc.pointers p' hp').imp fun _ h => h.stored)
    (fun j hj => htimes j (hsu hj)) ?_
  intro oldest youngest hsp
  have hqu : (m.push w).store addr = some (.queue q) := by
    rw [hst1, afterStoreRemoval_of_ne m.store _ (Ne.symm hpq), hf.queue]
  rw [wp_commit (checkMapsAndShardsCoherency_ok hc.pointers
    ⟨hc.summary.toCounted.of_maps, hc.summary.jobscount,
      hc.summary.jobstotalsize⟩) hqu, wp_pure, nextIndex_eq]
  set q2 : ArchiveQueue :=
    { q with
      toQueuePayload :=
        { q1.afterRemoval done.length p (s.removeJobs addresses).2 with
          oldestjobcreationtime := oldest
          youngestjobcreationtime := youngest } } with hq2
  have hat : jobsAt ((Write.put addr (.queue q2)).apply (m.push w).store)
      = jobsAt (m.push w).store := jobsAt_put_queue hqu q2
  have hsi : ∀ p1 ∈ q2.queueshards, jobsAt (m.push w).store p1.address ≠ []
      ∧ (jobsAt (m.push w).store p1.address).length ≤ c_maxShardSize.toNat := by
    intro p1 hp1
    obtain ⟨s1, hs1⟩ := hc.pointers p1 hp1
    have hstored := hs1.stored
    rw [jobsAt_of_shard hstored]
    rw [hst1] at hstored
    by_cases heq : p1.address = p.address
    · rw [heq] at hstored
      obtain ⟨rfl, hne⟩ := afterStoreRemoval_shard hstored
      refine ⟨hne, ?_⟩
      have hle := (hf.sizes p hp).2
      rw [jobsAt_of_shard hs.stored] at hle
      rw [removeJobs_jobs]
      exact (length_filter_le _ _).trans hle
    · rw [afterStoreRemoval_of_ne m.store _ heq] at hstored
      obtain ⟨p2, hp2, hpp2⟩ : ∃ p2 ∈ q.queueshards, p2.address = p1.address := by
        have hme : p1.address ∈ (if (s.removeJobs addresses).1.jobs = [] then done ++ todo
            else done ++ p :: todo).map (·.address) := ha ▸ List.mem_map.mpr ⟨p1, hp1, rfl⟩
        exact exists_pointer_of_removal hps hme
      have := hf.sizes p2 hp2
      rwa [hpp2, jobsAt_of_shard hstored] at this
  refine hPost s q2 _ hs.stored ?_ ha ?_
  · have hc2 : Coherent _ q2.toQueuePayload := ⟨hc.nodup, hc.pointers, hc.summary.toCounted.of_maps,
        hc.summary.jobscount, hc.summary.jobstotalsize⟩
    have hf2 := Fifo.of_coherent hqu hc2 hsi hsp
    rw [AtRest, Machine.store_push, hf2.content]
    exact ⟨hf2, fun j hj => htimes j (hsu hj)⟩
  · intro b
    rw [Machine.store_push, hat, hst1, jobsAt_afterStoreRemoval_eq]

/-- **A REMOVAL DELETES THE JOBS OF THE ADDRESSES** and keeps the others in their order. -/
theorem wp_removeJobsAndCommit {Post : ArchiveQueue → AMachine → Prop} {addresses : List String}
    (h : AtRest addr m.store q) (hj : ((queuedJobs m.store q.queueshards).map (·.address)).Nodup)
    (hp : ∀ q' m', AtRest addr m'.store q' → queuedJobs m'.store q'.queueshards
        = (queuedJobs m.store q.queueshards).filter (fun j => !addresses.contains j.address) →
      Post q' m') :
    wp (removeJobsAndCommit addr addresses q) Post X m := by
  refine wp_removeLoop removeRound_spec (fun _ _ h => h.1.coherent.nodup) _ addresses 0 h
    (by simp) hj ?_
  exact fun q' m' h' hqu => hp q' m' h' hqu

/-! ## Histories of an archive queue -/

def ops : QueueOps ArchiveQueue ArchiveJobPointer JobToAdd where
  Initial := fun q => ∃ name, q = initialized name
  toPointer := (·.toPointer)
  addJobsAndCommit := addJobsAndCommit
  removeJobsAndCommit := removeJobsAndCommit

/-- Ordinary start times, and the counter of the jobs has room for the addition. -/
def OrdinaryAt (addr : String) (st : AStore) : Call JobToAdd → Prop
  | .add jobsToAdd =>
      (∀ j ∈ jobsToAdd, OrdinaryTime j.startTime)
        ∧ ∀ q, st addr = some (.queue q) →
            q.jobscount.toNat + jobsToAdd.length < UInt64.size
  | .remove _ => True

instance (addr : String) (st : AStore) (c : Call JobToAdd) :
    Decidable (OrdinaryAt addr st c) :=
  match c with
  | .add _ => inferInstanceAs (Decidable ((∀ _ ∈ _, _) ∧ ∀ _, _ → _))
  | .remove _ => isTrue trivial

/-- The store holds a FIFO of the jobs of `queued`, few enough to be counted. -/
structure Holds (addr : String) (st : AStore) (queued : List ArchiveJobPointer) :
    Prop where
  fifo : ∃ q, Fifo addr st q queued
  times : OrdinaryTimes queued
  few : queued.length < UInt64.size

/-- The names an addition of the call may give to new shards are free. -/
def FreshAt (addr : String) (m : AMachine) : Call JobToAdd → Prop
  | .add _ => ∀ q, m.store addr = some (.queue q) → Fresh m q
  | .remove _ => True

/-- **A CALL TAKES A FIFO TO THE FIFO IT SHOULD LEAVE**, and returns if the names it needs
are free. -/
theorem Holds.call {c : Call JobToAdd} {queued : List ArchiveJobPointer}
    (h : Holds addr m.store queued) (hn : (queued.map (·.address)).Nodup)
    (hok : OrdinaryAt addr m.store c) (hB : FreshAt addr m c ∨ ∀ a m', X (.backend a) m') :
    wp (ops.call addr c)
      (fun _ m' => Holds addr m'.store (c.effect ops.toPointer queued)) X m := by
  obtain ⟨⟨q, hf⟩, hti, hfe⟩ := h
  rw [QueueOps.call, wp_bind, wp_fetchQueue hf.queue]
  cases c with
  | add jobsToAdd =>
    obtain ⟨hs, hr⟩ := hok
    have hc : q.jobscount.toNat = queued.length := by
      rw [hf.totals.jobscount, UInt64.toNat_ofNat_of_lt' hfe]
    have hr := hc ▸ hr q hf.queue
    refine wp_addJobsAndCommit hf hr.le ?_ ?_
    · intro hnot
      rcases hB with hfr | hB
      · exact absurd (hfr q hf.queue) hnot
      · exact hB
    · intro q' m' hf'
      refine ⟨⟨q', hf'⟩, ?_, by simpa [Call.effect] using hr⟩
      intro j hj
      rcases List.mem_append.mp hj with hj | hj
      · exact hti j hj
      obtain ⟨b, hb, rfl⟩ := List.mem_map.mp hj
      have := hs b hb
      rwa [← Int64.toInt64_toUInt64 b.startTime] at this
  | remove jobsToRemove =>
    have hrest : AtRest addr m.store q := by
      rw [AtRest, hf.content]
      exact ⟨hf, hti⟩
    refine wp_removeJobsAndCommit hrest (by rw [hf.content]; exact hn) ?_
    intro q' m' hr' hqu
    obtain ⟨hf', ht'⟩ := hr'
    rw [hf.content] at hqu
    rw [hqu] at hf' ht'
    exact ⟨⟨q', hf'⟩, ht', lt_of_le_of_lt (length_filter_le _ _) hfe⟩

theorem initialized_fifo {name : String} (h : st addr = some (.queue (initialized name))) :
    Fifo addr st (initialized name) [] where
  queue := h
  coherent := ⟨nodup_nil, (fun p hp => by cases hp), ⟨.nil, .nil, .nil⟩, rfl, rfl⟩
  sizes := fun p hp => by cases hp
  content := rfl
  spans := by constructor <;> simp

theorem holds_of_history {queued : List ArchiveJobPointer}
    (h : History ops addr (OrdinaryAt addr) st queued) :
    Holds addr st queued := by
  refine h.invariant ?_ ?_
  · rintro st q hq ⟨name, rfl⟩
    exact ⟨⟨_, initialized_fifo hq⟩, (fun j hj => by cases hj), by decide⟩
  · intro st queued c agent hi hn _ hok
    exact Holds.call (X := fun _ _ => True) hi hn hok (.inr fun _ _ => trivial)

/-- **AN ARCHIVE QUEUE IS A FIFO WITH EXACT SUMMARIES** after every history with ordinary start
times, while the queued bytes can be counted in 64 bits; further calls return. -/
theorem fifo_of_history {queued : List ArchiveJobPointer}
    (h : History ops addr (OrdinaryAt addr) st queued) (hb : natBytes queued < 2 ^ 64) :
    (∃ q, Fifo addr st q queued ∧ RealTotals st q.toQueuePayload) ∧ ∀ c agent, OrdinaryAt addr st c →
          FreshAt addr (Machine.start st agent) c →
          (ops.run addr agent c st).1.isOk = true := by
  have hh := holds_of_history h
  refine ⟨?_, ?_⟩
  · obtain ⟨q, hf⟩ := hh.fifo
    exact ⟨q, hf, hf.coherent.realTotals (hf.content ▸ hh.few) (hf.content ▸ hb)⟩
  intro c agent hok hf
  exact wp_returns (Holds.call (m := Machine.start st agent) hh h.nodup hok (.inl hf))

def sampleJob (address : String) (startTime : Int64) : JobToAdd where
  copyNb := 1
  archiveRequestAddress := address
  archiveFileId := 1
  fileSize := 1
  policy := ⟨"policy", 1, 1, 1, 1⟩
  startTime := startTime

/-- A store with an initialised queue and nothing else. -/
def initialStore : AStore := fun a =>
  if a = "queue" then some (.queue (initialized "pool")) else none

theorem initialStore_history (Ok : AStore → Call JobToAdd → Prop) :
    History ops "queue" Ok initialStore [] :=
  .start rfl ⟨"pool", rfl⟩

def addAndRemove : List (AgentReference × Call JobToAdd) :=
  [(⟨"agent", 0⟩, .add [sampleJob "a" 7, sampleJob "b" 3]),
   (⟨"agent", 10⟩, .add [sampleJob "c" 5]),
   (⟨"agent", 20⟩, .remove ["b", "z"])]

theorem fifo_add_and_remove : (∃ q, Fifo "queue" (ops.replay "queue" addAndRemove initialStore) q
        [(sampleJob "a" 7).toPointer, (sampleJob "c" 5).toPointer]
        ∧ RealTotals (ops.replay "queue" addAndRemove initialStore) q.toQueuePayload)
      ∧ (ops.run "queue" ⟨"agent", 30⟩ (.remove ["a"])
          (ops.replay "queue" addAndRemove initialStore)).1.isOk = true := by
  have h := fifo_of_history
    ((initialStore_history (OrdinaryAt "queue")).replay addAndRemove (by decide +kernel))
    (by decide)
  exact ⟨h.1, h.2 (.remove ["a"]) ⟨"agent", 30⟩ trivial trivial⟩

def greatestStartTime : List (AgentReference × Call JobToAdd) :=
  [(⟨"agent", 0⟩, .add [sampleJob "a" 5, sampleJob "b" Int64.maxValue]),
   (⟨"agent", 10⟩, .remove ["a"])]

def recordedOldest (st : AStore) : Option UInt64 :=
  match st "queue" with
  | some (.queue q) => some q.oldestjobcreationtime
  | _ => none

/-- With the greatest start time, the recomputation keeps the time of the removed job. -/
theorem greatest_start_time_not_found : ∃ st queued, History ops "queue" (fun _ _ => True) st queued
      ∧ ¬ ∃ q, Fifo "queue" st q queued := by
  refine ⟨ops.replay "queue" greatestStartTime initialStore, ops.expected greatestStartTime [],
    (initialStore_history _).replay greatestStartTime (by decide +kernel), ?_⟩
  rintro ⟨q, hf⟩
  have ho : recordedOldest (ops.replay "queue" greatestStartTime initialStore) = some 5 := by
    decide +kernel
  rw [recordedOldest, hf.queue, Option.some.injEq] at ho
  have hm := hf.spans.oldest_mem (by decide +kernel)
  rw [ho] at hm
  revert hm
  decide +kernel

end TapeArchive.Objectstore.ArchiveQueue
