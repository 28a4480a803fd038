/-
  **ONE SHARD OF THE PLAN AT A TIME.**

  While an addition is under way the pointers of the queue are those of the
  shards done so far followed by those still to come (`Adding`). The totals and
  the counters are exact after every shard; between a new shard and the shard
  it is split from the pointer of the latter holds estimates only, which is why
  the code commits blindly there.
-/
import TapeArchive.Objectstore.QueueRemoval
import TapeArchive.Objectstore.RetrieveQueueLayout

namespace TapeArchive.Objectstore.RetrieveQueue

open Lib List
open Machine (store_push_of_ne store_push_put)
open Multiset (coe_add coe_eq_coe map_add sum_add)
open RetrieveQueueShard (addJobsBatch jobsToAddSet getJobsSummary Ordered Extends
  addJobsBatch_extends jobsToAddSet_perm getJobsSummary_ok getJobsSummary_empty HasRange
  hasRange_ends)

abbrev RMachine := Machine String (Obj RetrieveQueue RetrieveQueueShard) AgentReference

/-! ## Accounting for the planned jobs -/

def activities (jobs : Multiset RetrieveJobPointer) : Multiset String :=
  jobs.filterMap (·.activity)

/-- All four counter arrays of a retrieve queue count exactly the jobs. -/
structure CountedAll (q : RetrieveQueue) (jobs : Multiset RetrieveJobPointer) : Prop where
  counted : Counted q.toQueuePayload jobs
  activity : q.activity_map.Counts (activities jobs)

/-- The jobs a shard of the plan is given, as they are stored. -/
def ShardForAddition.newJobs (shard : ShardForAddition) : List RetrieveJobPointer :=
  shard.jobsToAdd.map (·.toPointer)

/-- `q'` differs from `q` in its counters and creation times only. -/
structure SameFrame (q q' : RetrieveQueue) : Prop where
  queueshards : q'.queueshards = q.queueshards
  jobscount : q'.jobscount = q.jobscount
  jobstotalsize : q'.jobstotalsize = q.jobstotalsize
  vid : q'.vid = q.vid
  maxshardsize : q'.maxshardsize = q.maxshardsize

/-- The oldest creation time after one more job; 0 stands for "unset". -/
def takeOldest (t : UInt64) (j : JobToAdd) : UInt64 :=
  if t ≠ 0 then if j.startTime.toUInt64 < t then j.startTime.toUInt64 else t
  else j.startTime.toUInt64

/-- The youngest creation time after one more job. -/
def takeYoungest (t : UInt64) (j : JobToAdd) : UInt64 :=
  if t ≠ 0 then if j.startTime.toUInt64 > t then j.startTime.toUInt64 else t
  else j.startTime.toUInt64

/-- The creation times of `q'` are those of `q` with the new jobs taken in. -/
structure Aged (q : RetrieveQueue) (new : List JobToAdd) (q' : RetrieveQueue) : Prop where
  oldest : q'.oldestjobcreationtime = new.foldl takeOldest q.oldestjobcreationtime
  youngest : q'.youngestjobcreationtime = new.foldl takeYoungest q.youngestjobcreationtime

theorem Aged.trans {q q' q'' : RetrieveQueue} {new new' : List JobToAdd} (h : Aged q new q')
    (h' : Aged q' new' q'') : Aged q (new ++ new') q'' where
  oldest := by rw [h'.oldest, h.oldest, foldl_append]
  youngest := by rw [h'.youngest, h.youngest, foldl_append]

variable {jobs : Multiset RetrieveJobPointer}

theorem activities_incCount {m : ValueCountMap String}
    (h : m.Counts (activities jobs)) (j : JobToAdd) :
    ∃ m', incActivity m j.activity = .ok m' ∧ m'.Counts (activities (j.toPointer ::ₘ jobs)) := by
  cases ha : j.activity with
  | none =>
    have : activities (j.toPointer ::ₘ jobs) = activities jobs :=
      Multiset.filterMap_cons_none _ _ ha
    exact ⟨m, rfl, this ▸ h⟩
  | some activity =>
    have : activities (j.toPointer ::ₘ jobs) = activity ::ₘ activities jobs :=
      Multiset.filterMap_cons_some _ _ _ ha
    rw [this]
    exact h.incCount activity

variable {q : RetrieveQueue}

theorem accountJob_ok (h : CountedAll q jobs) (j : JobToAdd) :
    ∃ q', accountJob q j = .ok q' ∧ CountedAll q' (j.toPointer ::ₘ jobs) ∧ SameFrame q q'
      ∧ Aged q [j] q' := by
  obtain ⟨p, a, n, hi, hc⟩ := h.counted.incCounts j.toPointer
  obtain ⟨am, ham, ha⟩ := activities_incCount h.activity j
  refine ⟨?q, ?step, ?counted, ?frame, ?aged⟩
  case step =>
    simp only [accountJob, hi, ham, bind, Except.bind]
    rfl
  case frame => exact ⟨rfl, rfl, rfl, rfl, rfl⟩
  case aged => exact ⟨rfl, rfl⟩
  case counted => exact ⟨hc.of_maps, ha⟩

theorem foldlM_accountJob_ok (h : CountedAll q jobs) (new : List JobToAdd) :
    ∃ q', new.foldlM accountJob q = .ok q'
      ∧ CountedAll q' (jobs + (new.map (·.toPointer) : List RetrieveJobPointer))
      ∧ SameFrame q q' ∧ Aged q new q' := by
  induction new generalizing q jobs with
  | nil => exact ⟨q, rfl, by simpa using h, ⟨rfl, rfl, rfl, rfl, rfl⟩, rfl, rfl⟩
  | cons j new ih =>
    obtain ⟨q1, hq1, hc1, hf1, ha1⟩ := accountJob_ok h j
    obtain ⟨q2, hq2, hc2, hf2, ha2⟩ := ih hc1
    refine ⟨q2, by rw [foldlM_cons, hq1]; exact hq2, ?_, ?_, ha1.trans ha2⟩
    · rw [map_cons, ← Multiset.cons_coe, Multiset.add_cons, ← Multiset.cons_add]
      exact hc2
    · exact ⟨hf2.1.trans hf1.1, hf2.2.trans hf1.2, hf2.3.trans hf1.3,
        hf2.4.trans hf1.4, hf2.5.trans hf1.5⟩

/-- What `addPlannedJobs` makes of a prepared shard that comes out with a job. -/
structure Filled (shardIndex : Nat) (shard : ShardForAddition) (p p' : Prepared) : Prop where
  rqs : Extends p.rqs p'.rqs shard.newJobs
  rqsSplitFrom : p'.rqsSplitFrom = p.rqsSplitFrom
  queueshards : ∃ range, p'.q.queueshards = p.q.queueshards.modify shardIndex (fun sp =>
    { sp with
      range := range
      shardbytescount := p'.rqs.jobstotalsize
      shardjobscount := UInt64.ofNat p'.rqs.jobs.length })
  jobscount : p'.q.jobscount = p.q.jobscount + UInt64.ofNat (p.addedJobs + shard.newJobs.length)
    - UInt64.ofNat p.transferedInSplitJobs
  jobstotalsize : p'.q.jobstotalsize
    = p.q.jobstotalsize + (p.addedBytes + bytesOf shard.newJobs) - p.transferedInSplitBytes
  vid : p'.q.vid = p.q.vid
  maxshardsize : p'.q.maxshardsize = p.q.maxshardsize

def RangeAt (shardIndex : Nat) (p : Prepared) : Prop :=
  ∀ sp, p.q.queueshards[shardIndex]? = some sp → HasRange p.rqs.jobs sp.range

variable {p : Prepared}

/-- A pointer that follows `done` has the range of the shard. -/
theorem RangeAt.range {done todo : List RetrieveQueueShardPointer}
    {sp : RetrieveQueueShardPointer} (h : RangeAt done.length p)
    (hps : p.q.queueshards = done ++ sp :: todo) : HasRange p.rqs.jobs sp.range := by
  refine h sp ?_
  rw [hps, List.getElem?_append_right (le_refl _), Nat.sub_self]
  rfl

variable {s s' : RetrieveQueueShard}

theorem Extends.of_perm {jobs jobs' : List RetrieveJobPointer}
    (h : Extends s s' jobs) (hp : jobs.Perm jobs') : Extends s s' jobs' :=
  ⟨h.perm.trans (hp.append_left _), h.ordered, by rw [h.bytes, bytesOf_perm hp]⟩

theorem addPlannedJobs_ok (shardIndex : Nat)
    (shard : ShardForAddition) (hc : CountedAll p.q jobs) (ho : Ordered p.rqs.jobs)
    (hne : p.rqs.jobs ++ shard.newJobs ≠ []) :
    ∃ p', addPlannedJobs shardIndex shard p = .ok p' ∧ Filled shardIndex shard p p'
      ∧ CountedAll p'.q (jobs + (shard.newJobs : Multiset RetrieveJobPointer))
      ∧ Aged p.q shard.jobsToAdd p'.q ∧ RangeAt shardIndex p' := by
  obtain ⟨q, hq, hc', hf, ha⟩ := foldlM_accountJob_ok hc shard.jobsToAdd
  obtain ⟨rqs, hr, he⟩ := addJobsBatch_extends p.rqs (jobsToAddSet shard.jobsToAdd)
  have he' : Extends p.rqs rqs shard.newJobs :=
    Extends.of_perm he ((jobsToAddSet_perm shard.jobsToAdd).map _)
  have hn' : rqs.jobs ≠ [] := fun h => hne (by
    have := he'.perm
    rw [h] at this
    exact nil_perm.mp this)
  obtain ⟨sum, hsu, hj, hb, hm, hma⟩ := getJobsSummary_ok (he'.ordered ho) hn'
  have hs : (shard.jobsToAdd.map (·.fileSize)).sum = bytesOf shard.newJobs := by
    simp only [ShardForAddition.newJobs, bytesOf, map_map]
    rfl
  refine ⟨?p, ?step, ?filled, ?counted, ?aged, ?range⟩
  case step =>
    simp only [addPlannedJobs, hq, hr, hsu, bind, Except.bind, pure, Except.pure]
    rfl
  case counted => exact ⟨hc'.counted.of_maps, hc'.activity⟩
  case aged => exact ⟨ha.oldest, ha.youngest⟩
  case range =>
    intro sp hsp
    obtain ⟨sp0, -, rfl⟩ : ∃ sp0, q.queueshards[shardIndex]? = some sp0 ∧ _ := by
      simpa using hsp
    rw [hm, hma]
    exact hasRange_ends (he'.ordered ho) hn'
  refine ⟨he', rfl, ⟨⟨sum.minFseq, sum.maxFseq⟩, ?_⟩, ?_, ?_, hf.vid, hf.maxshardsize⟩
  · rw [← hf.queueshards, ← hj, ← hb]
  · simp [hf.jobscount, ShardForAddition.newJobs]
  · simp [hf.jobstotalsize, hs]

/-- A shard that comes out without a job stops the addition. -/
theorem addPlannedJobs_empty (shardIndex : Nat)
    (shard : ShardForAddition) (hc : CountedAll p.q jobs) (he : p.rqs.jobs ++ shard.newJobs = []) :
    addPlannedJobs shardIndex shard p = .error (.undefined .emptyShardSummary) := by
  obtain ⟨q, hq, -, -, -⟩ := foldlM_accountJob_ok hc shard.jobsToAdd
  obtain ⟨hr, hnew⟩ := append_eq_nil_iff.mp he
  have hn' : shard.jobsToAdd = [] := map_eq_nil_iff.mp hnew
  have hb : addJobsBatch p.rqs (jobsToAddSet shard.jobsToAdd) = .ok p.rqs := by
    rw [hn']
    rfl
  simp [addPlannedJobs, hq, hb, getJobsSummary_empty hr, bind, Except.bind]

/-! ## The queue while an addition is under way -/

/-- A shard as the code leaves it: in order, with the right total. -/
structure ShardOk (s : RetrieveQueueShard) : Prop where
  ordered : Ordered s.jobs
  sized : s.jobstotalsize = bytesOf s.jobs

/-- The summaries of the queue are exact, those of the activities included. -/
structure SummarisesAll (q : RetrieveQueue) (jobs : Multiset RetrieveJobPointer) : Prop where
  summary : Summarises q.toQueuePayload jobs
  activity : q.activity_map.Counts (activities jobs)

/-- When `pending`, the first shard of `todo` was just split and holds estimates. -/
structure Adding (addr : String) (st : RStore)
    (done todo : List RetrieveQueueShardPointer) (pending : Bool) (q : RetrieveQueue) : Prop where
  queue : st addr = some (.queue q)
  queueshards : q.queueshards = done ++ todo
  nodup : ((done ++ todo).map (·.address)).Nodup
  shards : ∀ p ∈ done ++ todo, ∃ s, st p.address = some (.shard s) ∧ ShardOk s
  pointers : ∀ p ∈ done ++ (if pending then todo.tail else todo), ∃ s, PointerExact st p s
  summary : SummarisesAll q (queuedJobs st (done ++ todo) : List RetrieveJobPointer)

/-- A queue at rest: everything is exact, and every shard holds a job. -/
structure Exact (addr : String) (st : RStore) (q : RetrieveQueue) : Prop where
  queue : st addr = some (.queue q)
  nodup : (q.queueshards.map (·.address)).Nodup
  pointers : ∀ p ∈ q.queueshards, ∃ s, PointerExact st p s ∧ Ordered s.jobs ∧ s.jobs ≠ []
  summary : SummarisesAll q (queuedJobs st q.queueshards : List RetrieveJobPointer)

variable {addr : String} {st st' : RStore} {q q' : RetrieveQueue}
variable {done todo : List RetrieveQueueShardPointer} {p p' : RetrieveQueueShardPointer}
variable {pending : Bool}

theorem Exact.coherent (h : Exact addr st q) : Coherent st q.toQueuePayload :=
  ⟨h.nodup, fun p hp => (h.pointers p hp).imp fun _ hs => hs.1, h.summary.summary⟩

theorem Exact.adding (h : Exact addr st q) :
    Adding addr st [] q.queueshards false q where
  __ := h
  queueshards := rfl
  shards := fun p hp => by
    obtain ⟨s, hs, ho, -⟩ := h.pointers p hp
    exact ⟨s, hs.stored, ho, hs.sized⟩
  pointers := fun p hp => (h.pointers p hp).imp fun _ hs => hs.1

theorem Adding.exact (h : Adding addr st done [] false q)
    (hne : ∀ p ∈ done, jobsAt st p.address ≠ []) : Exact addr st q where
  queue := h.queue
  nodup := by
    rw [h.queueshards]
    exact h.nodup
  pointers := fun p hp => by
    rw [h.queueshards] at hp
    obtain ⟨s, hs⟩ := h.pointers p hp
    obtain ⟨s', hs', hok⟩ := h.shards p hp
    rw [hs.stored, Option.some.injEq, Obj.shard.injEq] at hs'
    refine ⟨s, hs, hs' ▸ hok.ordered, ?_⟩
    rw [← jobsAt_of_shard hs.stored]
    exact hne p (by simpa using hp)
  summary := by
    rw [h.queueshards]
    exact h.summary

theorem Adding.address_ne (h : Adding addr st done todo pending q)
    (hp : p ∈ done ++ todo) : p.address ≠ addr := by
  obtain ⟨s, hs, -⟩ := h.shards p hp
  intro heq
  rw [heq, h.queue] at hs
  cases hs

theorem Adding.ne_queue (h : Adding addr st done todo pending q) {b : String}
    (hb : st b = none) : b ≠ addr := by
  rintro rfl
  rw [h.queue] at hb
  cases hb

theorem Adding.ne_shard (h : Adding addr st done todo pending q) {b : String}
    (hp : p ∈ done ++ todo) (hb : st b = none) : b ≠ p.address := by
  obtain ⟨s, hs, -⟩ := h.shards p hp
  rintro rfl
  rw [hs] at hb
  cases hb

variable {new : List RetrieveJobPointer}

theorem SummarisesAll.add {jobs jobs' : Multiset RetrieveJobPointer} (h : SummarisesAll q jobs)
    (hj : jobs' = jobs + (new : Multiset RetrieveJobPointer)) (hc : CountedAll q' jobs')
    (hco : q'.jobscount = q.jobscount + UInt64.ofNat new.length)
    (hs : q'.jobstotalsize = q.jobstotalsize + bytesOf new) : SummarisesAll q' jobs' where
  summary := by
    refine ⟨hc.counted, ?_, ?_⟩
    · rw [hco, h.summary.jobscount, hj, Multiset.card_add, Multiset.coe_card, UInt64.ofNat_add]
    · rw [hs, h.summary.jobstotalsize, hj, map_add, sum_add]
      rfl
  activity := hc.activity

theorem SummarisesAll.counted (h : SummarisesAll q jobs) : CountedAll q jobs :=
  ⟨h.summary.toCounted, h.activity⟩

theorem Adding.check (h : Adding addr st done todo false q) :
    q.checkMapsAndShardsCoherency = .ok true := by
  have hp : ∀ p ∈ q.queueshards, ∃ s, PointerExact st p s := by
    rw [h.queueshards]
    exact h.pointers
  refine checkMapsAndShardsCoherency_ok hp ?_
  rw [h.queueshards]
  exact h.summary.summary

theorem wp_commit {X : Exn → RMachine → Prop} {Post : RetrieveQueue → RMachine → Prop}
    {m : RMachine} {o : Obj RetrieveQueue RetrieveQueueShard}
    (h : q.checkMapsAndShardsCoherency = .ok true) (hq : m.store addr = some o) :
    wp (commit addr q) Post X m = Post q (m.push (.put addr (.queue q))) :=
  wp_commitQueue h hq

/-! ## An existing shard -/

/-- The shards beside the one at hand are kept when the store keeps them. -/
theorem Adding.kept (h : Adding addr st done (p :: todo) pending q)
    (ho : ∀ p₁ ∈ done ++ todo, st' p₁.address = st p₁.address) :
    (∀ p₁ ∈ done ++ todo, (∃ s, st' p₁.address = some (.shard s) ∧ ShardOk s)
        ∧ ∃ s, PointerExact st' p₁ s)
      ∧ queuedJobs st' done = queuedJobs st done ∧ queuedJobs st' todo = queuedJobs st todo := by
  refine ⟨fun p₁ hp1 => ⟨?_, ?_⟩, queuedJobs_congr fun p₁ hp1 => ?_,
    queuedJobs_congr fun p₁ hp1 => ?_⟩
  · rw [ho p₁ hp1]
    exact h.shards p₁ (by simp only [mem_append, mem_cons] at hp1 ⊢; tauto)
  · refine (h.pointers p₁ ?_).imp
      fun t ht => ⟨(ho p₁ hp1).trans ht.stored, ht.sized, ht.jobs, ht.bytes⟩
    cases pending <;> simp at hp1 ⊢ <;> tauto
  · simp only [jobsAt, ho p₁ (mem_append_left _ hp1)]
  · simp only [jobsAt, ho p₁ (mem_append_right _ hp1)]

/-- The state after an existing shard was filled and its pointer updated. -/
theorem Adding.old (h : Adding addr st done (p :: todo) pending q)
    (hs : st p.address = some (.shard s)) (he : Extends s s' new)
    (hps : q'.queueshards = done ++ p' :: todo) (haddr : p'.address = p.address)
    (hj : p'.shardjobscount = UInt64.ofNat s'.jobs.length)
    (hb : p'.shardbytescount = s'.jobstotalsize)
    (hc : CountedAll q' ((queuedJobs st (done ++ p :: todo) : Multiset RetrieveJobPointer) + new))
    (hco : q'.jobscount = q.jobscount + UInt64.ofNat new.length)
    (hsi : q'.jobstotalsize = q.jobstotalsize + bytesOf new)
    (hq' : st' addr = some (.queue q')) (hs' : st' p.address = some (.shard s'))
    (hf : ∀ b, b ≠ addr → b ≠ p.address → st' b = st b) :
    Adding addr st' (done ++ [p']) todo false q'
      ∧ (queuedJobs st' (done ++ p' :: todo)).Perm (queuedJobs st (done ++ p :: todo) ++ new) := by
  have hok : ShardOk s := by
    obtain ⟨t, ht, hok⟩ := h.shards p (by simp)
    rw [hs, Option.some.injEq, Obj.shard.injEq] at ht
    exact ht ▸ hok
  have ho' : ShardOk s' := ⟨he.ordered hok.ordered, by
      rw [he.bytes, hok.sized, bytesOf_perm he.perm, bytesOf_append]⟩
  -- the other shards are as they were
  have ho : ∀ p1 ∈ done ++ todo, st' p1.address = st p1.address := fun p1 hp1 =>
    hf _ (h.address_ne (by simp only [mem_append, mem_cons] at hp1 ⊢; tauto))
      (address_ne_of_nodup h.nodup hp1)
  obtain ⟨hk, hd, htd⟩ := h.kept ho
  have hp : (queuedJobs st' (done ++ p' :: todo)).Perm
      (queuedJobs st (done ++ p :: todo) ++ new) := by
    rw [queuedJobs_append, queuedJobs_cons, haddr, jobsAt_of_shard hs',
      hd, htd, queuedJobs_append, queuedJobs_cons, jobsAt_of_shard hs, append_assoc,
      append_assoc]
    refine List.Perm.append_left _ ((he.perm.append_right _).trans ?_)
    rw [append_assoc]
    exact perm_append_comm.append_left _
  refine ⟨⟨hq', by simpa using hps, ?_, ?_, ?_, ?_⟩, hp⟩
  · simpa [haddr] using h.nodup
  · intro p1 hp1
    rw [append_assoc, singleton_append, mem_append, mem_cons] at hp1
    rcases hp1 with hp1 | rfl | hp1
    · exact (hk p1 (mem_append_left _ hp1)).1
    · exact ⟨s', haddr ▸ hs', ho'⟩
    · exact (hk p1 (mem_append_right _ hp1)).1
  · intro p1 hp1
    simp only [Bool.false_eq_true, if_false, append_assoc, singleton_append,
      mem_append, mem_cons] at hp1
    rcases hp1 with hp1 | rfl | hp1
    · exact (hk p1 (mem_append_left _ hp1)).2
    · exact ⟨s', haddr ▸ hs', ho'.sized, hj, hb.trans ho'.sized⟩
    · exact (hk p1 (mem_append_right _ hp1)).2
  · have heq : (queuedJobs st' ((done ++ [p']) ++ todo) : Multiset RetrieveJobPointer)
        = (queuedJobs st (done ++ p :: todo) : Multiset RetrieveJobPointer) + new := by
      simpa using hp
    exact h.summary.add heq (heq ▸ hc) hco hsi

variable {X : Exn → RMachine → Prop} {Post : RetrieveQueue → RMachine → Prop} {m : RMachine}

/-- The queue of the next step, apart from its summaries, is the one before. -/
structure SameQueue (q q' : RetrieveQueue) : Prop where
  vid : q'.vid = q.vid
  maxshardsize : q'.maxshardsize = q.maxshardsize

/-- The pointer leads to a shard with the jobs, and has their range. -/
structure Holding (st : RStore) (jobs : List RetrieveJobPointer) (p : RetrieveQueueShardPointer) :
    Prop where
  perm : (jobsAt st p.address).Perm jobs
  range : HasRange (jobsAt st p.address) p.range

variable {shard : ShardForAddition}

/-- **An existing shard of the plan.** -/
theorem wp_applyShard_old {plan : List ShardForAddition}
    (h : Adding addr m.store done (p :: todo) pending q)
    (hnew : shard.newShard = false) (hfrom : shard.fromSplit = false)
    (haddr : shard.address = p.address)
    (hX : jobsAt m.store p.address ++ shard.newJobs = [] → X (.undefined .emptyShardSummary) m)
    (hp : ∀ q' p' m', p'.address = p.address →
      Adding addr m'.store (done ++ [p']) todo false q' →
      (queuedJobs m'.store (done ++ p' :: todo)).Perm
        (queuedJobs m.store (done ++ p :: todo) ++ shard.newJobs) →
      jobsAt m'.store p.address ≠ [] →
      (∀ b, b ≠ addr → b ≠ p.address → m'.store b = m.store b) →
      m'.mem = m.mem → SameQueue q q' →
      Holding m'.store (jobsAt m.store p.address ++ shard.newJobs) p' →
      Aged q shard.jobsToAdd q' → Post q' m') :
    wp (applyShard addr plan done.length shard q) Post X m := by
  obtain ⟨s, hs, hok⟩ := h.shards p (by simp)
  have hre : readShard m.store shard.address = .ok s := by simp [readShard, haddr, hs]
  have hl : ¬ q.queueshards.length ≤ done.length := by rw [h.queueshards]; simp
  let p0 : Prepared :=
    { q := q, rqs := s, rqsSplitFrom := none, addedJobs := 0, addedBytes := 0
      transferedInSplitJobs := 0, transferedInSplitBytes := 0 }
  have hpr : ∀ a, prepareShard m.store plan done.length shard a q
      = addPlannedJobs done.length shard p0 := by
    intro a
    simp only [prepareShard, hnew, Bool.false_eq_true, if_false, prepareOldShard, hre, bind,
      Except.bind, if_neg hl]
    rfl
  simp only [applyShard, hnew, Bool.false_eq_true, if_false, wp_bind, wp_pure, wp_getStore, hpr]
  by_cases he : s.jobs ++ shard.newJobs = []
  · rw [addPlannedJobs_empty done.length shard (p := p0) h.summary.counted he]
    exact hX (by rw [jobsAt_of_shard hs]; exact he)
  obtain ⟨p1, hp1, hf, hc, hag, hr⟩ := addPlannedJobs_ok done.length shard
    (p := p0) h.summary.counted hok.ordered he
  obtain ⟨range, hps⟩ := hf.queueshards
  rw [hp1, wp_ofExcept_ok]
  have hp' := hps
  rw [show p0.q.queueshards = done ++ p :: todo from h.queueshards, modify_length_append]
    at hp'
  set p' : RetrieveQueueShardPointer :=
    { p with
      range := range
      shardbytescount := p1.rqs.jobstotalsize
      shardjobscount := UInt64.ofNat p1.rqs.jobs.length }
  have hpq : p.address ≠ addr := h.address_ne (by simp)
  -- the store after the two writes
  set m1 := m.push (.put addr (.queue p1.q))
  set m' := m1.push (.put p.address (.shard p1.rqs))
  have hq' : m'.store addr = some (.queue p1.q) := by
    rw [store_push_of_ne _ hpq.symm, store_push_put]
  have hs' : m'.store p.address = some (.shard p1.rqs) := store_push_put _ _ _
  have hfr : ∀ b, b ≠ addr → b ≠ p.address → m'.store b = m.store b := by
    intro b hb hb'
    rw [store_push_of_ne _ hb', store_push_of_ne _ hb]
  obtain ⟨ha, hpe⟩ := h.old hs hf.rqs hp' rfl rfl rfl hc
    (by simpa [p0] using hf.jobscount) (by simpa [p0] using hf.jobstotalsize)
    hq' hs' hfr
  have hpu : m1.store p.address = some (.shard s) := by
    rw [store_push_of_ne _ hpq, hs]
  have hn : p1.rqsSplitFrom = none := hf.rqsSplitFrom
  simp only [writeShard, hfrom, hnew, Bool.false_eq_true, if_false, wp_bind]
  rw [wp_commit ha.check h.queue, haddr, wp_atomicOverwrite hpu, hn, wp_pure]
  refine hp p1.q p' m' rfl ha hpe ?_ hfr rfl ⟨hf.vid, hf.maxshardsize⟩ ⟨?_, ?_⟩ hag
  · rw [jobsAt_of_shard hs']
    exact fun hni => he (nil_perm.mp (hni ▸ hf.rqs.perm))
  · show (jobsAt m'.store p.address).Perm _
    rw [jobsAt_of_shard hs', jobsAt_of_shard hs]
    exact hf.rqs.perm
  · show HasRange (jobsAt m'.store p.address) p'.range
    rw [jobsAt_of_shard hs']
    exact hr.range hp'

/-! ## A new shard that splits an existing one -/

def ShardForAddition.covers (shard : ShardForAddition) (j : RetrieveJobPointer) : Bool :=
  shard.minFseq ≤ j.fseq ∧ j.fseq ≤ shard.maxFseq

variable {before after : List ShardForAddition} {new source : ShardForAddition}

theorem findIdx?_source (hnodes : ((existing (before ++ new :: source :: after)).map (·.1)).Nodup)
    (hnew : new.newShard = true) (hsource : source.newShard = false) :
    (before ++ new :: source :: after).findIdx?
        (fun s => !s.newShard && s.node == source.node) = some (before.length + 1) := by
  have hbefore : before.findIdx? (fun s => !s.newShard && s.node == source.node) = none := by
    rw [List.findIdx?_eq_none_iff]
    intro s hs
    by_contra hsat
    simp only [Bool.not_eq_false, Bool.and_eq_true, Bool.not_eq_true', beq_iff_eq] at hsat
    rw [existing_append, map_append, nodup_append] at hnodes
    refine hnodes.2.2 s.node ?_ source.node ?_ hsat.2
    · exact mem_map.mpr ⟨_, mem_existing hs hsat.1, rfl⟩
    · exact mem_map.mpr ⟨_, mem_existing (by simp) hsource, rfl⟩
  rw [List.findIdx?_append, hbefore]
  simp [List.findIdx?_cons, hnew, hsource, Nat.add_comm]

/-- Moving jobs one by one. -/
theorem foldlM_addJobsBatch (jobs : List RetrieveJobPointer) (s : RetrieveQueueShard) :
    ∃ s', jobs.foldlM (fun rqs j => addJobsBatch rqs [JobToAdd.ofPointer j]) s = .ok s'
      ∧ Extends s s' jobs := by
  induction jobs generalizing s with
  | nil => exact ⟨s, rfl, RetrieveQueueShard.Extends.refl s⟩
  | cons j jobs ih =>
    obtain ⟨s1, hs1, he1⟩ := addJobsBatch_extends s [JobToAdd.ofPointer j]
    obtain ⟨s2, hs2, he2⟩ := ih s1
    refine ⟨s2, by rw [foldlM_cons, hs1]; exact hs2, ?_⟩
    simpa using he1.trans he2

theorem Adding.split {s rest rqs : RetrieveQueueShard} {new moved : List RetrieveJobPointer}
    {pnew : RetrieveQueueShardPointer} (h : Adding addr st done (p :: todo) false q)
    (hs : st p.address = some (.shard s)) (hm : (moved ++ rest.jobs).Perm s.jobs)
    (hrest : ShardOk rest) (hr : ShardOk rqs) (hp : rqs.jobs.Perm (moved ++ new))
    (hps : q'.queueshards = done ++ pnew :: p' :: todo) (haddr : p'.address = p.address)
    (hf : st pnew.address = none) (hj : pnew.shardjobscount = UInt64.ofNat rqs.jobs.length)
    (hb : pnew.shardbytescount = rqs.jobstotalsize)
    (hc : CountedAll q' ((queuedJobs st (done ++ p :: todo) : Multiset RetrieveJobPointer) + new))
    (hco : q'.jobscount = q.jobscount + UInt64.ofNat new.length)
    (hsi : q'.jobstotalsize = q.jobstotalsize + bytesOf new) (hq' : st' addr = some (.queue q'))
    (hr' : st' pnew.address = some (.shard rqs)) (hs' : st' p.address = some (.shard rest))
    (hfr : ∀ b, b ≠ addr → b ≠ p.address → b ≠ pnew.address → st' b = st b) :
    Adding addr st' (done ++ [pnew]) (p' :: todo) true q'
      ∧ (queuedJobs st' (done ++ pnew :: p' :: todo)).Perm
          (queuedJobs st (done ++ p :: todo) ++ new) := by
  have hold : ∀ p1 ∈ done ++ p :: todo, p1.address ≠ pnew.address := fun p1 hp1 =>
    (h.ne_shard hp1 hf).symm
  have hsu : ∀ p1 ∈ done ++ todo, p1 ∈ done ++ p :: todo := fun p1 hp1 => by
    simp only [mem_append, mem_cons] at hp1 ⊢
    tauto
  have ho : ∀ p1 ∈ done ++ todo, st' p1.address = st p1.address := fun p1 hp1 =>
    hfr _ (h.address_ne (hsu p1 hp1)) (address_ne_of_nodup h.nodup hp1) (hold p1 (hsu p1 hp1))
  obtain ⟨hk, hd, htd⟩ := h.kept ho
  have hqu : (queuedJobs st' (done ++ pnew :: p' :: todo)).Perm
      (queuedJobs st (done ++ p :: todo) ++ new) := by
    rw [queuedJobs_append, queuedJobs_cons, queuedJobs_cons, haddr, jobsAt_of_shard hs',
      jobsAt_of_shard hr', hd, htd, queuedJobs_append, queuedJobs_cons, jobsAt_of_shard hs]
    rw [← coe_eq_coe] at hm hp ⊢
    simp only [← coe_add] at hm hp ⊢
    rw [hp, ← hm]
    abel
  refine ⟨⟨hq', by simpa using hps, ?_, ?_, ?_, ?_⟩, hqu⟩
  · rw [append_assoc, singleton_append, map_append, map_cons, map_cons,
      haddr, nodup_middle, ← map_cons, ← map_append, nodup_cons]
    refine ⟨fun hme => ?_, h.nodup⟩
    obtain ⟨p1, hp1, heq⟩ := mem_map.mp hme
    exact hold p1 hp1 heq
  · intro p1 hp1
    rw [append_assoc, singleton_append, mem_append, mem_cons, mem_cons] at hp1
    rcases hp1 with hp1 | rfl | rfl | hp1
    · exact (hk p1 (mem_append_left _ hp1)).1
    · exact ⟨rqs, hr', hr⟩
    · exact ⟨rest, haddr ▸ hs', hrest⟩
    · exact (hk p1 (mem_append_right _ hp1)).1
  · intro p1 hp1
    simp only [if_true, tail_cons, append_assoc, singleton_append, mem_append, mem_cons] at hp1
    rcases hp1 with hp1 | rfl | hp1
    · exact (hk p1 (mem_append_left _ hp1)).2
    · exact ⟨rqs, hr', hr.sized, hj, hb.trans hr.sized⟩
    · exact (hk p1 (mem_append_right _ hp1)).2
  · have heq : (queuedJobs st' ((done ++ [pnew]) ++ p' :: todo) : Multiset RetrieveJobPointer)
        = (queuedJobs st (done ++ p :: todo) : Multiset RetrieveJobPointer) + new := by
      simpa using hqu
    exact h.summary.add heq (heq ▸ hc) hco hsi

def nextShard (m : RMachine) (q : RetrieveQueue) : String :=
  m.mem.idAt ("RetrieveQueueShard-" ++ q.vid) m.mem.m_nextId

def bump (m : RMachine) : RMachine :=
  { m with mem := { m.mem with m_nextId := m.mem.m_nextId + 1 } }

@[simp] theorem bump_store (m : RMachine) : (bump m).store = m.store := rfl

theorem taken_after_put {a b : String} {o} (h : m.store a ≠ none) :
    ∃ o', ((bump m).push (.put b o)).store a = some o' := by
  by_cases hne : a = b
  · rw [hne]
    exact ⟨_, store_push_put _ _ _⟩
  · rw [store_push_of_ne _ hne]
    exact Option.ne_none_iff_exists'.mp h

section Split

variable (hbefore : before.length = done.length)
  (hnodes : ((existing (before ++ new :: source :: after)).map (·.1)).Nodup)
  (hnew : new.newShard = true) (hfrom : new.fromSplit = true)
  (hsource : source.newShard = false) (hnode : source.node = new.splitSource)
  (haddr : source.address = p.address)
include hbefore hnodes hnew hfrom hsource hnode haddr

/-- The new shard and the rest of the source, in memory, before the planned jobs. -/
theorem prepareNewShard_split {s : RetrieveQueueShard} (a : String)
    (h : Adding addr st done (p :: todo) false q)
    (hs : st p.address = some (.shard s)) (ha : (s.jobs.map (·.address)).Nodup) :
    ∃ p₀ rest p', prepareNewShard st (before ++ new :: source :: after) done.length new a q = .ok p₀
      ∧ p₀.rqsSplitFrom = some (p.address, rest) ∧ ShardOk rest
      ∧ rest.jobs = s.jobs.filter (fun j => !new.covers j)
      ∧ ShardOk p₀.rqs ∧ p₀.rqs.jobs.Perm (s.jobs.filter new.covers)
      ∧ p'.address = p.address
      ∧ p₀.q = { q with
          queueshards := done ++ ⟨a, new.jobsCount, 1, ⟨new.minFseq, new.maxFseq⟩⟩ :: p' :: todo }
      ∧ p₀.addedJobs = p₀.transferedInSplitJobs
      ∧ p₀.addedBytes = p₀.transferedInSplitBytes := by
  have hok : ShardOk s := by
    obtain ⟨t, ht, hok⟩ := h.shards p (by simp)
    rw [hs, Option.some.injEq, Obj.shard.injEq] at ht
    exact ht ▸ hok
  have hm : jobsToTransfer new s = s.jobs.filter new.covers := rfl
  obtain ⟨hrest, hr⟩ := removeJobs_filter ha new.covers
  obtain ⟨rqs, hrq, he⟩ := foldlM_addJobsBatch (s.jobs.filter new.covers) ⟨[], 0⟩
  have hre : readShard st source.address = .ok s := by simp [readShard, haddr, hs]
  have hadd : addShardPointer done.length a q
      = .ok { q with queueshards := done ++ ⟨a, 0, 0, ⟨0, 0⟩⟩ :: p :: todo } := by
    unfold addShardPointer
    rw [h.queueshards, if_pos (by simp), insertIdx_length_append]
  have hi := findIdx?_source hnodes hnew hsource
  have hg : (before ++ new :: source :: after)[before.length + 1]? = some source := by
    simp
  refine ⟨?p₀, (s.removeJobs ((s.jobs.filter new.covers).map (·.address))).1,
    { p with range := ⟨source.minFseq, source.maxFseq⟩, shardjobscount := source.jobsCount },
    ?step, ?_⟩
  case step =>
    simp only [prepareNewShard, hadd, hfrom, if_true, ← hnode, hi, hg, bind, Except.bind,
      hre, hm, hrq]
    rw [if_neg (by simp [hbefore])]
    rfl
  refine ⟨by rw [← haddr], ⟨?_, removeJobs_sized s _ hok.sized⟩, hrest, ⟨?_, ?_⟩, ?_, rfl, ?_, ?_,
    ?_⟩
  · show Ordered (s.removeJobs ((s.jobs.filter new.covers).map address)).1.jobs
    rw [hrest]
    exact hok.ordered.filter _
  · exact he.ordered (by simp)
  · rw [he.bytes, bytesOf_perm he.perm]
    simp
  · simpa using he.perm
  · simp only [splitPointers, hbefore]
    congr 1
    rw [modify_length_append]
    have := modify_length_append (done ++ [(⟨a, new.jobsCount, 1, ⟨new.minFseq, new.maxFseq⟩⟩ :
      RetrieveQueueShardPointer)]) todo p (fun p =>
        { p with
          range := ⟨source.minFseq, source.maxFseq⟩
          shardjobscount := source.jobsCount })
    simpa using this
  · exact hr.length_eq.symm
  · exact (bytesOf_perm hr).symm

/-- **A new shard of the plan that splits the shard after it.** -/
theorem wp_applyShard_split (h : Adding addr m.store done (p :: todo) false q)
    (hadd : ((jobsAt m.store p.address).map (·.address)).Nodup)
    (hX : (jobsAt m.store p.address).filter new.covers ++ new.newJobs = [] →
      X (.undefined .emptyShardSummary) (bump m))
    (hB : m.store (nextShard m q) ≠ none → ∀ m', X (.backend (nextShard m q)) m')
    (hp : ∀ q' pnew p' m', pnew.address = nextShard m q → p'.address = p.address →
      Adding addr m'.store (done ++ [pnew]) (p' :: todo) true q' →
      (queuedJobs m'.store (done ++ pnew :: p' :: todo)).Perm
        (queuedJobs m.store (done ++ p :: todo) ++ new.newJobs) →
      jobsAt m'.store pnew.address ≠ [] →
      jobsAt m'.store p.address = (jobsAt m.store p.address).filter (fun j => !new.covers j) →
      (∀ b, b ≠ addr → b ≠ p.address → b ≠ pnew.address → m'.store b = m.store b) →
      m'.mem = (bump m).mem → SameQueue q q' →
      Holding m'.store ((jobsAt m.store p.address).filter new.covers ++ new.newJobs) pnew →
      Aged q new.jobsToAdd q' → Post q' m') :
    wp (applyShard addr (before ++ new :: source :: after) done.length new q) Post X m := by
  obtain ⟨s, hs, hok⟩ := h.shards p (by simp)
  rw [jobsAt_of_shard hs] at hadd hX hp
  obtain ⟨p0, rest, p', hpr, hsp, hrest, hr, hr0, hp0, ha', hq0, hj0,
    hb0⟩ := prepareNewShard_split hbefore hnodes hnew hfrom hsource hnode haddr (nextShard m q)
      h hs hadd
  have hc0 : CountedAll p0.q (queuedJobs m.store (done ++ p :: todo)) := by
    rw [hq0]
    exact ⟨h.summary.summary.toCounted.of_maps, h.summary.activity⟩
  have hp' : prepareShard m.store (before ++ new :: source :: after) done.length new
      (nextShard m q) q = addPlannedJobs done.length new p0 := by
    simp only [prepareShard, hnew, if_true, hpr, bind, Except.bind]
  simp only [applyShard, hnew, if_true, wp_bind, wp_nextId, wp_getStore]
  change wp (Prog.ofExcept (prepareShard m.store (before ++ new :: source :: after) done.length new
    (nextShard m q) q)) (fun p1 m' => wp (writeShard addr new (nextShard m q) p1) Post X m')
      X (bump m)
  rw [hp']
  by_cases he : p0.rqs.jobs ++ new.newJobs = []
  · rw [addPlannedJobs_empty done.length new hc0 he]
    refine hX ?_
    rw [append_eq_nil_iff] at he ⊢
    exact ⟨nil_perm.mp (he.1 ▸ hp0), he.2⟩
  · obtain ⟨p1, hp1, hf, hc, ha, hra⟩ := addPlannedJobs_ok done.length new hc0 hr0.ordered he
    obtain ⟨range, hps⟩ := hf.queueshards
    rw [hq0, modify_length_append] at hps
    rw [hp1, wp_ofExcept_ok]
    set pnew : RetrieveQueueShardPointer :=
      { address := nextShard m q
        range := range
        shardbytescount := p1.rqs.jobstotalsize
        shardjobscount := UInt64.ofNat p1.rqs.jobs.length }
    have ho1 : ShardOk p1.rqs := ⟨hf.rqs.ordered hr0.ordered, by
      rw [hf.rqs.bytes, hr0.sized, bytesOf_perm hf.rqs.perm, bytesOf_append]⟩
    have hpq : p.address ≠ addr := h.address_ne (by simp)
    simp only [writeShard, hfrom, hnew, if_true, wp_bind]
    have hque : (bump m).store addr = some (.queue q) := h.queue
    rw [wp_atomicOverwrite hque, wp_pure]
    set m1 := (bump m).push (.put addr (.queue p1.q))
    by_cases hfr : m.store (nextShard m q) = none
    · have hne : nextShard m q ≠ addr := h.ne_queue hfr
      have hnp : p.address ≠ nextShard m q := (h.ne_shard (by simp) hfr).symm
      have hn : m1.store (nextShard m q) = none := by
        rw [store_push_of_ne _ hne]
        exact hfr
      rw [wp_create hn]
      set m2 := m1.push (.put (nextShard m q) (.shard p1.rqs))
      have hold : m2.store p.address = some (.shard s) := by
        rw [store_push_of_ne _ hnp, store_push_of_ne _ hpq]
        exact hs
      rw [hf.rqsSplitFrom, hsp]
      dsimp only
      rw [wp_bind, wp_atomicOverwrite hold, wp_pure]
      set m' := m2.push (.put p.address (.shard rest))
      have hq' : m'.store addr = some (.queue p1.q) := by
        rw [store_push_of_ne _ hpq.symm, store_push_of_ne _ hne.symm, store_push_put]
      have hr' : m'.store (nextShard m q) = some (.shard p1.rqs) := by
        rw [store_push_of_ne _ hnp.symm, store_push_put]
      have hs' : m'.store p.address = some (.shard rest) := store_push_put _ _ _
      have hfm : ∀ b, b ≠ addr → b ≠ p.address → b ≠ nextShard m q →
          m'.store b = m.store b := by
        intro b hb hb' hb''
        rw [store_push_of_ne _ hb', store_push_of_ne _ hb'', store_push_of_ne _ hb]
        rfl
      have hm : (s.jobs.filter new.covers ++ rest.jobs).Perm s.jobs := by
        rw [hr]
        exact filter_append_perm _ _
      obtain ⟨hag, hqu⟩ := h.split hs hm hrest ho1
        (hf.rqs.perm.trans (hp0.append_right _)) hps ha' hfr rfl rfl hc
        (by rw [hf.jobscount, hj0, hq0, UInt64.ofNat_add]; abel)
        (by rw [hf.jobstotalsize, hb0, hq0]; abel) hq' hr' hs' hfm
      refine hp p1.q pnew p' m' rfl ha' hag hqu ?_ ?_ hfm rfl ?_ ⟨?_, ?_⟩ ?_
      · rw [jobsAt_of_shard hr']
        exact fun hni => he (nil_perm.mp (hni ▸ hf.rqs.perm))
      · rw [jobsAt_of_shard hs', hr]
      · exact ⟨by rw [hf.vid, hq0], by rw [hf.maxshardsize, hq0]⟩
      · rw [jobsAt_of_shard hr']
        exact hf.rqs.perm.trans (hp0.append_right _)
      · rw [jobsAt_of_shard hr']
        exact hra.range hps
      · rw [hq0] at ha
        exact ⟨ha.oldest, ha.youngest⟩
    · -- the name of the new shard is taken
      obtain ⟨o, ho⟩ := taken_after_put hfr
      rw [wp_create_taken ho]
      exact hB hfr m1

end Split

/-! ## The first shard of a queue -/

/-- **The only shard of the plan when the queue has none.** -/
theorem wp_applyShard_first (h : Adding addr m.store [] [] false q)
    (hnew : shard.newShard = true) (hfrom : shard.fromSplit = false) (hne : shard.newJobs ≠ [])
    (hB : m.store (nextShard m q) ≠ none → ∀ m', X (.backend (nextShard m q)) m')
    (hpt : ∀ q' pnew m', pnew.address = nextShard m q →
      Adding addr m'.store [pnew] [] false q' →
      (queuedJobs m'.store [pnew]).Perm shard.newJobs → jobsAt m'.store pnew.address ≠ [] →
      (∀ b, b ≠ addr → b ≠ pnew.address → m'.store b = m.store b) →
      m'.mem = (bump m).mem → SameQueue q q' → Holding m'.store shard.newJobs pnew →
      Aged q shard.jobsToAdd q' → Post q' m') :
    wp (applyShard addr [shard] 0 shard q) Post X m := by
  have hp0 : q.queueshards = [] := h.queueshards
  let p0 : Prepared :=
    { q := { q with queueshards := [⟨nextShard m q, 0, 0, ⟨0, 0⟩⟩] }
      rqs := ⟨[], 0⟩, rqsSplitFrom := none, addedJobs := 0, addedBytes := 0
      transferedInSplitJobs := 0, transferedInSplitBytes := 0 }
  have hpr : prepareShard m.store [shard] 0 shard (nextShard m q) q
      = addPlannedJobs 0 shard p0 := by
    simp only [prepareShard, hnew, if_true, prepareNewShard, addShardPointer, hp0, hfrom, bind,
      Except.bind]
    rfl
  have hc0 : CountedAll p0.q (queuedJobs m.store ([] : List RetrieveQueueShardPointer)) :=
    ⟨h.summary.summary.toCounted.of_maps, h.summary.activity⟩
  obtain ⟨p1, hp1, hf, hc, ha, hr⟩ := addPlannedJobs_ok 0 shard (p := p0)
    hc0 (by simp [p0]) (by simpa [p0] using hne)
  obtain ⟨range, hps⟩ := hf.queueshards
  set pnew : RetrieveQueueShardPointer :=
    { address := nextShard m q
      range := range
      shardbytescount := p1.rqs.jobstotalsize
      shardjobscount := UInt64.ofNat p1.rqs.jobs.length } with hpnew
  replace hps : p1.q.queueshards = [pnew] := hps
  simp only [applyShard, hnew, if_true, wp_bind, wp_nextId, wp_getStore]
  change wp (Prog.ofExcept (prepareShard m.store [shard] 0 shard (nextShard m q) q))
    (fun p1 m' => wp (writeShard addr shard (nextShard m q) p1) Post X m') X (bump m)
  rw [hpr, hp1, wp_ofExcept_ok]
  simp only [writeShard, hfrom, hnew, if_true, Bool.false_eq_true, if_false, wp_bind]
  have ho1 : ShardOk p1.rqs := ⟨hf.rqs.ordered (by simp [p0]), by
    rw [hf.rqs.bytes, bytesOf_perm hf.rqs.perm, bytesOf_append]
    rfl⟩
  have hpe : p1.rqs.jobs.Perm shard.newJobs := hf.rqs.perm
  have hs : SummarisesAll p1.q (p1.rqs.jobs : List RetrieveJobPointer) := by
    have heq : (p1.rqs.jobs : Multiset RetrieveJobPointer)
        = (queuedJobs m.store ([] : List RetrieveQueueShardPointer) : Multiset RetrieveJobPointer)
          + shard.newJobs := by
      simpa using hpe
    refine h.summary.add heq (heq ▸ hc) ?_ ?_
    · simpa [p0] using hf.jobscount
    · simpa [p0] using hf.jobstotalsize
  have hpo : ∀ st' : RStore, st' (nextShard m q) = some (.shard p1.rqs) →
      PointerExact st' pnew p1.rqs := fun st' hs' => ⟨hs', ho1.sized, rfl, ho1.sized⟩
  have hque : (bump m).store addr = some (.queue q) := h.queue
  have hch : p1.q.checkMapsAndShardsCoherency = .ok true := by
    -- the check does not look at the store: take one that has the shard
    let st' : RStore := fun _ => some (.shard p1.rqs)
    have hp : ∀ p ∈ p1.q.queueshards, ∃ s, PointerExact st' p s := by
      rw [hps]
      simpa using ⟨_, hpo st' rfl⟩
    refine checkMapsAndShardsCoherency_ok hp ?_
    rw [hps]
    simpa [jobsAt, st'] using hs.summary
  rw [wp_commit hch hque]
  set m1 := (bump m).push (.put addr (.queue p1.q))
  by_cases hfr : m.store (nextShard m q) = none
  · have hnq : nextShard m q ≠ addr := h.ne_queue hfr
    have hn : m1.store (nextShard m q) = none := by
      rw [store_push_of_ne _ hnq]
      exact hfr
    have hsp : p1.rqsSplitFrom = none := hf.rqsSplitFrom
    rw [wp_create hn, hsp]
    dsimp only
    rw [wp_pure]
    set m' := m1.push (.put (nextShard m q) (.shard p1.rqs))
    have hq' : m'.store addr = some (.queue p1.q) := by
      rw [store_push_of_ne _ hnq.symm, store_push_put]
    have hs' : m'.store (nextShard m q) = some (.shard p1.rqs) := store_push_put _ _ _
    have hqu : queuedJobs m'.store [pnew] = p1.rqs.jobs := by
      simp [hpnew, jobsAt_of_shard hs']
    have hp' : jobsAt m'.store pnew.address = p1.rqs.jobs := jobsAt_of_shard hs'
    refine hpt p1.q pnew m' rfl ⟨hq', hps, by simp, ?_, ?_, ?_⟩ ?_ ?_ ?_ rfl
      ⟨hf.vid, hf.maxshardsize⟩ ⟨hp' ▸ hpe, ?_⟩
      ⟨ha.oldest, ha.youngest⟩
    · simpa using ⟨_, hs', ho1⟩
    · simpa using ⟨_, hpo m'.store hs'⟩
    · rw [append_nil, hqu]
      exact hs
    · rw [hqu]
      exact hpe
    · rw [jobsAt_of_shard hs']
      exact fun hni => hne (nil_perm.mp (hni ▸ hpe))
    · intro b hb hb'
      rw [store_push_of_ne _ hb', store_push_of_ne _ hb]
      rfl
    · rw [hp']
      exact @RangeAt.range _ [] _ _ hr hps
  · obtain ⟨o, ho⟩ := taken_after_put hfr
    rw [wp_create_taken ho]
    exact hB hfr m1

end TapeArchive.Objectstore.RetrieveQueue
