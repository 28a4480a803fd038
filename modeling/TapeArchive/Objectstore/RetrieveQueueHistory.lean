/-
  **HISTORIES OF ADDITIONS AND REMOVALS ON A RETRIEVE QUEUE.**

  A removal keeps an exact queue exact (`removeRound_spec`), and so does an
  addition that splits no shard twice. Along every history of such calls the
  content of the queue is what was added and not removed, with exact summaries.
-/
import TapeArchive.Objectstore.QueueHistory
import TapeArchive.Objectstore.QueueRebuild
import TapeArchive.Objectstore.RetrieveQueueAddition

namespace TapeArchive.Objectstore.RetrieveQueue

open Lib
open RetrieveQueueShard (Ordered getJobsSummary getJobsSummary_ok)

variable {addr : String} {q q' : RetrieveQueue}
variable {X : Exn → RMachine → Prop} {m : RMachine}

/-! ## A removal from an exact queue -/

variable {jobs : Multiset RetrieveJobPointer} {j : RetrieveJobPointer}

theorem activities_decCount {m : ValueCountMap String} (h : m.Counts (activities (j ::ₘ jobs))) :
    ∃ m', decActivity m j.activity = .ok m' ∧ m'.Counts (activities jobs) := by
  cases ha : j.activity with
  | none =>
    have : activities (j ::ₘ jobs) = activities jobs := Multiset.filterMap_cons_none _ _ ha
    exact ⟨m, rfl, this ▸ h⟩
  | some activity =>
    have : activities (j ::ₘ jobs) = activity ::ₘ activities jobs :=
      Multiset.filterMap_cons_some _ _ _ ha
    rw [this] at h
    exact h.decCountIn "RetrieveActivityCountMap"

theorem discountJob_ok (h : CountedAll q (j ::ₘ jobs)) :
    ∃ q', discountJob q j = .ok q' ∧ CountedAll q' jobs ∧ SameFrame q q' ∧ Aged q [] q' := by
  obtain ⟨p, a, n, hd, hc⟩ := h.counted.decCounts
  obtain ⟨am, ham, ha⟩ := activities_decCount h.activity
  refine ⟨?q, ?step, ?counted, ?frame, ?aged⟩
  case step =>
    simp only [discountJob, hd, ham, bind, Except.bind]
    rfl
  case frame => exact ⟨rfl, rfl, rfl, rfl, rfl⟩
  case aged => exact ⟨rfl, rfl⟩
  case counted => exact ⟨hc.of_maps, ha⟩

theorem foldlM_discountJob_ok (removed : List RetrieveJobPointer) {q : RetrieveQueue}
    (h : CountedAll q ((removed : Multiset RetrieveJobPointer) + jobs)) :
    ∃ q', removed.foldlM discountJob q = .ok q' ∧ CountedAll q' jobs ∧ SameFrame q q'
      ∧ Aged q [] q' := by
  induction removed generalizing q with
  | nil => exact ⟨q, rfl, by simpa using h, ⟨rfl, rfl, rfl, rfl, rfl⟩, rfl, rfl⟩
  | cons j removed ih =>
    rw [← Multiset.cons_coe, Multiset.cons_add] at h
    obtain ⟨q1, hq1, hc1, hf1, ha1⟩ := discountJob_ok h
    obtain ⟨q2, hq2, hc2, hf2, ha2⟩ := ih hc1
    refine ⟨q2, by rw [List.foldlM_cons, hq1]; exact hq2, hc2, ?_, ha1.trans ha2⟩
    exact ⟨hf2.1.trans hf1.1, hf2.2.trans hf1.2, hf2.3.trans hf1.3,
      hf2.4.trans hf1.4, hf2.5.trans hf1.5⟩

/-- The shard can be summarised: it is ordered and holds a job. -/
def Summarisable (s : RetrieveQueueShard) : Prop := Ordered s.jobs ∧ s.jobs ≠ []

theorem Summarisable.check {s : RetrieveQueueShard} (h : Summarisable s) :
    kind.summaryCheck s = .ok () := by
  obtain ⟨sum, hs, -⟩ := getJobsSummary_ok h.1 h.2
  simp [kind, hs, Except.map]

variable {st : RStore}

theorem Exact.of_coherent (hq : st addr = some (.queue q)) (hc : Coherent st q'.toQueuePayload)
    (hsh : ∀ p ∈ q'.queueshards, ∀ s, st p.address = some (.shard s) → Summarisable s)
    (ha : q'.activity_map.Counts
      (activities (queuedJobs st q'.queueshards : List RetrieveJobPointer))) :
    Exact addr ((Write.put addr (.queue q')).apply st) q' := by
  have hj : queuedJobs ((Write.put addr (.queue q')).apply st) q'.queueshards
      = queuedJobs st q'.queueshards :=
    queuedJobs_congr (fun p _ => by rw [jobsAt_put_queue hq])
  refine ⟨Write.apply_put_same _ _ _, hc.nodup, ?_, ?_⟩
  · intro p hp
    obtain ⟨s, hs⟩ := hc.pointers p hp
    have hne : p.address ≠ addr := fun heq => by
      rw [← heq, hs.stored] at hq
      cases hq
    obtain ⟨ho, hn⟩ := hsh p hp s hs.stored
    refine ⟨s, ⟨?_, hs.sized, hs.jobs, hs.bytes⟩, ho, hn⟩
    rw [Write.apply_of_ne _ _ hne, hs.stored]
  · rw [hj]
    exact ⟨hc.summary, ha⟩

variable {p : RetrieveQueueShardPointer}

/-- The jobs of a shard of a queue at rest, with the pointer's place. -/
theorem Exact.ne_queue (h : Exact addr m.store q) (hp : p ∈ q.queueshards) :
    p.address ≠ addr := by
  obtain ⟨s, hs, -⟩ := h.pointers p hp
  intro heq
  have := hs.stored
  rw [heq, h.queue] at this
  cases this

/-- The creation times of `q'` are the ones a rebuild finds in the jobs. -/
structure Redated (jobs : List RetrieveJobPointer) (q' : RetrieveQueue) : Prop where
  oldest : q'.oldestjobcreationtime = (earliest Int64.maxValue jobs).toUInt64
  youngest : q'.youngestjobcreationtime = (latest Int64.minValue jobs).toUInt64

variable {Post : RetrieveQueue → RMachine → Prop}

/-- The end of a round: the queue is committed, after a rebuild if one is due. -/
theorem wp_rebuild_commit
    (hq : m.store addr = some (.queue q)) (hc : Coherent m.store q'.toQueuePayload)
    (hsh : ∀ p ∈ q'.queueshards, ∀ s, m.store p.address = some (.shard s) → Summarisable s)
    (hac : q'.activity_map.Counts
      (activities (queuedJobs m.store q'.queueshards : List RetrieveJobPointer))) (b : Bool)
    (hpo : ∀ q'' m', Exact addr m'.store q'' →
      q''.queueshards.map (·.address) = q'.queueshards.map (·.address) →
      jobsAt m'.store = jobsAt m.store →
      (if b then Redated (queuedJobs m.store q'.queueshards) q'' else Aged q' [] q'') →
      Post q'' m') :
    wp (repairIf rebuild b q') (fun q'' m' => wp (commit addr q'') Post X m') X m := by
  have he : ∀ q'' m', Refresh m m' → Coherent m'.store q''.toQueuePayload →
      q''.queueshards.map (·.address) = q'.queueshards.map (·.address) →
      q''.activity_map = q'.activity_map →
      (if b then Redated (queuedJobs m.store q'.queueshards) q'' else Aged q' [] q'') →
      wp (commit addr q'') Post X m' := by
    intro q'' m' hm hc' ha hma hd
    have hq' := hm.queue hq
    have hqu : queuedJobs m'.store q''.queueshards = queuedJobs m.store q'.queueshards := by
      rw [hm.queuedJobs, queuedJobs_map_address ha]
    rw [wp_commit (checkMapsAndShardsCoherency_ok hc'.pointers hc'.summary) hq']
    have hsu : ∀ p ∈ q''.queueshards, ∀ s, m'.store p.address = some (.shard s) →
        Summarisable s := by
      intro p hp s hs
      obtain ⟨p0, hp0, hpp0⟩ : ∃ p0 ∈ q'.queueshards, p0.address = p.address := by
        have : p.address ∈ q'.queueshards.map (·.address) := ha ▸ List.mem_map.mpr ⟨p, hp, rfl⟩
        simpa using this
      obtain ⟨s0, hs0⟩ := hc.pointers p0 hp0
      obtain ⟨s', hs', hj, -⟩ := hm.shard hs0.stored
      rw [hpp0, hs, Option.some.injEq, Obj.shard.injEq] at hs'
      subst hs'
      rw [Summarisable, hj]
      exact hsh p0 hp0 s0 hs0.stored
    refine hpo q'' _ ?_ ha ?_ hd
    · rw [Machine.store_push]
      exact Exact.of_coherent hq' hc' hsu (by rw [hma, hqu]; exact hac)
    · rw [Machine.store_push, jobsAt_put_queue hq', hm.jobsAt]
  cases b with
  | false => exact he q' m (Refresh.refl m) hc rfl rfl ⟨rfl, rfl⟩
  | true =>
    rw [repairIf, if_pos rfl, rebuild, wp_bind]
    refine wp_rebuildSummaries kind hc.nodup ?_ ?_
    · intro p hp
      obtain ⟨s, hs⟩ := hc.pointers p hp
      exact .inr ⟨s, hs.stored, (hsh p hp s hs.stored).check⟩
    · intro p' m' hm hc' hps _ hor hyr
      refine he _ m' hm hc' ?_ rfl ⟨hor, hyr⟩
      rw [hps]
      exact refreshed_map_address kind (fun p hp => (hc.pointers p hp).imp fun _ hs => hs.stored)

/-- Found again in what is left, or as they were if no extreme job was removed. -/
def DatesFollow (q : RetrieveQueue) (removed left : List RetrieveJobPointer)
    (q' : RetrieveQueue) : Prop :=
  Redated left q' ∨ needToRebuild q removed = false ∧ Aged q [] q'

variable {addresses : List String}

/-- **A ROUND OF THE REMOVAL FROM AN EXACT QUEUE.** -/
theorem wp_removeRound {done todo : List RetrieveQueueShardPointer}
    {Post : List String × Nat × RetrieveQueue → RMachine → Prop}
    (he : Exact addr m.store q) (hps : q.queueshards = done ++ p :: todo)
    (hpo : ∀ s q' m', m.store p.address = some (.shard s) → Exact addr m'.store q' →
      q'.queueshards.map (·.address) = (if (s.removeJobs addresses).1.jobs = [] then done ++ todo
            else done ++ p :: todo).map (·.address) → (∀ b, jobsAt m'.store b
        = if b = p.address then (s.removeJobs addresses).1.jobs else jobsAt m.store b) →
      (queuedJobs m.store q.queueshards).Perm
        ((s.removeJobs addresses).2.removedJobs ++ queuedJobs m'.store q'.queueshards) →
      DatesFollow q (s.removeJobs addresses).2.removedJobs (queuedJobs m'.store q'.queueshards) q' →
      Post (trimRemoved addresses (s.removeJobs addresses).2,
        if (s.removeJobs addresses).1.jobs = [] then done.length else done.length + 1, q') m') :
    wp (removeRound addr addresses done.length p q) Post X m := by
  have hp : p ∈ q.queueshards := by rw [hps]; simp
  obtain ⟨s, hs, ho, -⟩ := he.pointers p hp
  have hpq : p.address ≠ addr := he.ne_queue hp
  have hn := he.nodup
  rw [hps] at hn
  simp only [removeRound, wp_bind]
  rw [wp_fetchShard hs.stored]
  refine wp_storeRemoval hs.stored addresses ?_
  intro w hw hsr
  have hk := coe_queuedJobs_removal hps hs.stored addresses
  obtain ⟨q1, hq1, hc, hf, hag⟩ :=
    foldlM_discountJob_ok (s.removeJobs addresses).2.removedJobs (hk ▸ he.summary.counted)
  rw [hq1, wp_ofExcept_ok]
  obtain ⟨hco, -⟩ := he.coherent.afterRemoval hps hs.stored addresses
    ⟨hf.queueshards, hf.jobscount, hf.jobstotalsize⟩ hc.counted
  have hst1 : (m.push w).store
      = afterStoreRemoval m.store p.address (s.removeJobs addresses).1 := by
    rw [Machine.store_push, hsr]
  have ha1 := map_address_afterRemoval (q := q1.toQueuePayload) (s := s)
    (hf.queueshards.trans hps) addresses
  have hj1 : queuedJobs (m.push w).store (q1.toQueuePayload.afterRemoval done.length p
        (s.removeJobs addresses).2).queueshards
      = queuedJobs m.store done ++ (s.removeJobs addresses).1.jobs ++ queuedJobs m.store todo := by
    rw [hst1]
    exact queuedJobs_afterRemoval _ hn (hf.queueshards.trans hps) addresses
  refine wp_rebuild_commit (q := q) ?_ (hst1 ▸ hco) ?_ (hj1 ▸ hc.activity) _ ?_
  · rw [hst1, afterStoreRemoval_of_ne m.store _ (Ne.symm hpq), he.queue]
  · intro p1 hp1 s1 hs1
    rw [hst1] at hs1
    by_cases heq : p1.address = p.address
    · rw [heq] at hs1
      obtain ⟨rfl, hne⟩ := afterStoreRemoval_shard hs1
      refine ⟨?_, hne⟩
      rw [removeJobs_jobs]
      exact ho.filter _
    · rw [afterStoreRemoval_of_ne m.store _ heq] at hs1
      obtain ⟨p2, hp2, hpp2⟩ : ∃ p2 ∈ q.queueshards, p2.address = p1.address := by
        have hm : p1.address ∈ (if (s.removeJobs addresses).1.jobs = [] then done ++ todo
            else done ++ p :: todo).map (·.address) := ha1 ▸ List.mem_map.mpr ⟨p1, hp1, rfl⟩
        exact exists_pointer_of_removal hps hm
      obtain ⟨s2, hs2, hsu⟩ := he.pointers p2 hp2
      have := hs2.stored
      rw [hpp2, hs1, Option.some.injEq, Obj.shard.injEq] at this
      exact this ▸ hsu
  · intro q'' m' he' ha hat hd
    rw [nextIndex_eq]
    have hl : queuedJobs m'.store q''.queueshards = queuedJobs (m.push w).store
        (q1.toQueuePayload.afterRemoval done.length p (s.removeJobs addresses).2).queueshards :=
      (queuedJobs_congr fun p1 _ => by rw [hat]).trans (queuedJobs_map_address ha)
    refine hpo s q'' m' hs.stored he' (ha.trans ha1) ?_ ?_ ?_
    · intro b
      rw [hat, hst1, jobsAt_afterStoreRemoval_eq]
    · rw [hl, hj1, ← Multiset.coe_eq_coe, ← Multiset.coe_add]
      exact hk
    · rw [hl]
      by_cases hdu : (needToRebuild q (s.removeJobs addresses).2.removedJobs
          || (s.removeJobs addresses).2.mismatch p) = true
      · rw [if_pos hdu] at hd
        exact .inl hd
      rw [if_neg hdu] at hd
      simp only [Bool.or_eq_true, not_or, Bool.not_eq_true] at hdu
      exact .inr ⟨hdu.1, hag.trans ⟨hd.oldest, hd.youngest⟩⟩

theorem removeRound_spec :
    RoundSpec (fun q : RetrieveQueue => q.queueshards) (removeRound addr)
      (Exact addr) X := by
  intro addresses done p todo q m Post he hps hp
  refine wp_removeRound he hps ?_
  intro s q' m' hs he' ha hat _ _
  exact hp s q' m' hs he' ha hat

/-- **A REMOVAL FROM AN EXACT QUEUE ENDS IN AN EXACT QUEUE WITHOUT THE JOBS OF THE
ADDRESSES.** -/
theorem wp_removeJobsAndCommit (h : Exact addr m.store q)
    (hj : ((queuedJobs m.store q.queueshards).map (·.address)).Nodup)
    (hp : ∀ q' m', Exact addr m'.store q' → queuedJobs m'.store q'.queueshards
        = (queuedJobs m.store q.queueshards).filter (fun j => !addresses.contains j.address) →
      Post q' m') :
    wp (removeJobsAndCommit addr addresses q) Post X m := by
  refine wp_removeLoop removeRound_spec (fun _ _ h => h.nodup) _ addresses 0 h (by simp) hj ?_
  intro q' m' h' hqu
  exact hp q' m' h' hqu

/-! ## Histories of a retrieve queue -/

/-- The operations of a retrieve queue with a maximum shard size of at least one. -/
def ops : QueueOps RetrieveQueue RetrieveJobPointer JobToAdd where
  Initial := fun q => ∃ vid maxShardSize, 1 ≤ maxShardSize ∧ q = initialized vid maxShardSize
  toPointer := (·.toPointer)
  addJobsAndCommit := addJobsAndCommit
  removeJobsAndCommit := removeJobsAndCommit

/-- An addition of the call splits no shard twice. -/
def SplitsOnceAt (addr : String) (st : RStore) : Call JobToAdd → Prop
  | .add jobsToAdd => ∀ q, st addr = some (.queue q) → SplitsOnce q jobsToAdd
  | .remove _ => True

instance (addr : String) (st : RStore) (c : Call JobToAdd) :
    Decidable (SplitsOnceAt addr st c) :=
  match c with
  | .add _ => inferInstanceAs (Decidable (∀ _, _ → _))
  | .remove _ => isTrue trivial

/-- The store holds an exact queue with the jobs of `queued`. -/
def Holds (addr : String) (st : RStore) (queued : List RetrieveJobPointer) : Prop :=
  ∃ q, Exact addr st q ∧ (queuedJobs st q.queueshards).Perm queued

theorem initialized_exact {vid : String} {maxShardSize : UInt64}
    (h : st addr = some (.queue (initialized vid maxShardSize))) :
    Exact addr st (initialized vid maxShardSize) where
  queue := h
  nodup := List.nodup_nil
  pointers := fun p hp => by cases hp
  summary := ⟨⟨⟨.nil, .nil, .nil⟩, rfl, rfl⟩, .nil⟩

variable {queued : List RetrieveJobPointer} {c : Call JobToAdd}

/-- The addresses stay distinct. -/
theorem nodup_of_add {current : List RetrieveJobPointer} {jobsToAdd : List JobToAdd}
    (hp : current.Perm queued) (hadm : (Call.add jobsToAdd).Admissible ops.toPointer queued)
    (hn : (queued.map (·.address)).Nodup) :
    ((current ++ jobsToAdd.map (·.toPointer)).map (·.address)).Nodup :=
  ((hp.append_right _).map _).nodup_iff.mpr (hadm.nodup hn)

/-- **A CALL TAKES AN EXACT QUEUE TO AN EXACT QUEUE** with the content it should have, when
it splits no shard twice. -/
theorem Holds.call (h : Holds addr m.store queued) (hn : (queued.map (·.address)).Nodup)
    (hadm : c.Admissible ops.toPointer queued) (hok : SplitsOnceAt addr m.store c)
    (hX : ∀ jobsToAdd, c = .add jobsToAdd → ∀ q, m.store addr = some (.queue q) →
      ¬ Fed m.store q jobsToAdd → ∀ m', X (.undefined .emptyShardSummary) m')
    (hB : ∀ a m', X (.backend a) m') :
    wp (ops.call addr c)
      (fun _ m' => Holds addr m'.store (c.effect ops.toPointer queued)) X m := by
  obtain ⟨q, he, hp⟩ := h
  rw [QueueOps.call, wp_bind, wp_fetchQueue he.queue]
  cases c with
  | add jobsToAdd =>
    have ha := nodup_of_add hp hadm hn
    refine wp_addJobsAndCommit he (hok q he.queue) ha (hX jobsToAdd rfl q he.queue) (fun _ => hB) ?_
    intro q' m' he' hp' _ _
    exact ⟨q', he', hp'.trans (hp.append_right _)⟩
  | remove jobsToRemove =>
    refine wp_removeJobsAndCommit he ((hp.map _).nodup_iff.mpr hn) ?_
    intro q' m' he' hqu
    refine ⟨q', he', ?_⟩
    rw [hqu]
    exact hp.filter _

theorem holds_of_history (h : History ops addr (SplitsOnceAt addr) st queued) :
    Holds addr st queued := by
  refine h.invariant ?_ ?_
  · rintro st q hq ⟨vid, maxShardSize, -, rfl⟩
    exact ⟨_, initialized_exact hq, List.Perm.refl _⟩
  intro st queued c agent hi hn hadm hok
  exact Holds.call (X := fun _ _ => True) hi hn hadm hok (fun _ _ _ _ _ _ => trivial)
    (fun _ _ => trivial)

/-! ## The content of a retrieve queue -/

/-- The jobs of `queued`, with exact counters, and counts and bytes that are real numbers. -/
def ContentExact (addr : String) (st : RStore) (queued : List RetrieveJobPointer) : Prop :=
  ∃ q, st addr = some (.queue q)
    ∧ ((queuedJobs st q.queueshards : List RetrieveJobPointer) : Multiset RetrieveJobPointer)
        = (queued : Multiset RetrieveJobPointer)
    ∧ Coherent st q.toQueuePayload ∧ RealTotals st q.toQueuePayload

/-- **THE CONTENT IS WHAT WAS ADDED AND NOT REMOVED, AND THE SUMMARIES ARE EXACT**, while no
shard is split twice and the jobs and bytes can be counted in 64 bits. -/
theorem content_exact_of_history {st : RStore} {queued : List RetrieveJobPointer}
    (h : History ops addr (SplitsOnceAt addr) st queued)
    (hn : queued.length < 2 ^ 64) (hb : natBytes queued < 2 ^ 64) :
    ContentExact addr st queued := by
  obtain ⟨q, he, hp⟩ := holds_of_history h
  refine ⟨q, he.queue, Multiset.coe_eq_coe.mpr hp, he.coherent, he.coherent.realTotals ?_ ?_⟩
  · rwa [hp.length_eq]
  · rwa [natBytes_perm hp]

def sampleJob (address : String) (fSeq : UInt64) : JobToAdd where
  copyNb := 1
  fSeq := fSeq
  retrieveRequestAddress := address
  fileSize := 1
  policy := ⟨"policy", 1, 1, 1, 1⟩
  startTime := 1
  activity := none
  diskSystemName := none

/-- A store with an initialised queue and nothing else. -/
def initialStore (maxShardSize : UInt64) : RStore := fun a =>
  if a = "queue" then some (.queue (initialized "vid" maxShardSize)) else none

theorem initialStore_history (Ok : RStore → Call JobToAdd → Prop) (maxShardSize : UInt64)
    (h : 1 ≤ maxShardSize) : History ops "queue" Ok (initialStore maxShardSize) [] :=
  .start rfl ⟨"vid", maxShardSize, h, rfl⟩

def splitAndRemove : List (AgentReference × Call JobToAdd) :=
  [(⟨"agent", 0⟩, .add [sampleJob "a" 1, sampleJob "b" 10]),
   (⟨"agent", 10⟩, .add [sampleJob "c" 4]),
   (⟨"agent", 20⟩, .remove ["a", "z"])]

theorem content_exact_split_and_remove :
    ContentExact "queue" (ops.replay "queue" splitAndRemove (initialStore 2))
      [(sampleJob "b" 10).toPointer, (sampleJob "c" 4).toPointer] :=
  content_exact_of_history
    ((initialStore_history _ 2 (by decide)).replay splitAndRemove (by decide +kernel))
    (by decide) (by decide)

/-- The last batch splits the shard of the fSeqs 2 and 10 twice. -/
def doubleSplit : List (AgentReference × Call JobToAdd) :=
  [(⟨"agent", 0⟩, .add [sampleJob "a" 1, sampleJob "b" 10]),
   (⟨"agent", 10⟩, .add [sampleJob "c" 20]),
   (⟨"agent", 20⟩, .add [sampleJob "d" 30]),
   (⟨"agent", 30⟩, .add [sampleJob "e" 2]),
   (⟨"agent", 40⟩, .add [sampleJob "f" 5, sampleJob "g" 9, sampleJob "h" 8])]

def recordedJobs (st : RStore) : Option UInt64 :=
  match st "queue" with
  | some (.queue q) => some q.jobscount
  | _ => none

/-- Without the condition the total is wrong: eight jobs are queued, and the queue counts
seven. -/
theorem double_split_miscounts : ∃ st queued, History ops "queue" (fun _ _ => True) st queued
      ∧ ¬ ContentExact "queue" st queued := by
  refine ⟨ops.replay "queue" doubleSplit (initialStore 2), ops.expected doubleSplit [],
    (initialStore_history _ 2 (by decide)).replay doubleSplit (by decide +kernel), ?_⟩
  rintro ⟨q, hq, hj, hc, -⟩
  have hr : recordedJobs (ops.replay "queue" doubleSplit (initialStore 2)) = some 7 := by
    decide +kernel
  rw [recordedJobs, hq, Option.some.injEq] at hr
  have hco := hc.summary.jobscount
  rw [hj, hr] at hco
  revert hco
  decide +kernel

/-! ## No shard is empty -/

/-- No shard is split twice, and splits leave a job in both halves. -/
def SplitsWellAt (addr : String) (st : RStore) : Call JobToAdd → Prop
  | .add jobsToAdd =>
      ∀ q, st addr = some (.queue q) → SplitsOnce q jobsToAdd ∧ HalvesFed st q jobsToAdd
  | .remove _ => True

instance (addr : String) (st : RStore) (c : Call JobToAdd) :
    Decidable (SplitsWellAt addr st c) :=
  match c with
  | .add _ => inferInstanceAs (Decidable (∀ _, _ → _))
  | .remove _ => isTrue trivial

theorem SplitsWellAt.splitsOnceAt (h : SplitsWellAt addr st c) :
    SplitsOnceAt addr st c := by
  cases c with
  | add jobsToAdd => exact fun q hq => (h q hq).1
  | remove _ => trivial

/-- Every shard holds a job, and there is none exactly when no job is queued. -/
def NoEmptyShard (addr : String) (st : RStore) (queued : List RetrieveJobPointer) : Prop :=
  ∃ q, st addr = some (.queue q)
    ∧ (∀ p ∈ q.queueshards, ∃ s, st p.address = some (.shard s) ∧ s.jobs ≠ [])
    ∧ (q.queueshards = [] ↔ queued = [])

theorem Holds.noEmptyShard (h : Holds addr st queued) :
    NoEmptyShard addr st queued := by
  obtain ⟨q, he, hpe⟩ := h
  refine ⟨q, he.queue, fun p hp => ?_, fun hps => ?_, fun hqu => ?_⟩
  · obtain ⟨s, hs, -, hne⟩ := he.pointers p hp
    exact ⟨s, hs.stored, hne⟩
  · rw [hps] at hpe
    exact List.nil_perm.mp hpe
  · rw [hqu, List.perm_nil] at hpe
    -- a first pointer would lead to a job
    cases hps : q.queueshards with
    | nil => rfl
    | cons p ps =>
      obtain ⟨s, hs, -, hne⟩ := he.pointers p (by rw [hps]; simp)
      rw [hps, queuedJobs_cons, jobsAt_of_shard hs.stored] at hpe
      exact absurd (List.append_eq_nil_iff.mp hpe).1 hne

theorem holds_of_wellSplit (h : History ops addr (SplitsWellAt addr) st queued) :
    Holds addr st queued :=
  holds_of_history (h.mono fun _ _ => SplitsWellAt.splitsOnceAt)

/-- **NO SHARD IS EMPTY**, as long as the additions split no shard twice and leave a job in both
halves of a split. -/
theorem no_empty_shard_of_history {st : RStore} {queued : List RetrieveJobPointer}
    (h : History ops addr (SplitsWellAt addr) st queued) :
    NoEmptyShard addr st queued
      ∧ ∀ c agent, c.Admissible ops.toPointer queued → SplitsWellAt addr st c →
          (ops.run addr agent c st).1 ≠ .error (.undefined .emptyShardSummary) := by
  have hh := holds_of_wellSplit h
  refine ⟨hh.noEmptyShard, ?_⟩
  intro c agent hadm hw hr
  have hwp := Holds.call (m := Machine.start st agent)
    (X := fun e _ => e ≠ .undefined .emptyShardSummary) hh h.nodup hadm hw.splitsOnceAt
    ?_ (fun _ _ => by simp)
  · exact wp_error hwp (Prod.ext hr rfl) rfl
  rintro jobsToAdd rfl q hq hnot
  obtain ⟨q0, he, -⟩ := hh
  obtain rfl : q0 = q := by
    have := he.queue
    rw [show st addr = some (.queue q) from hq, Option.some.injEq, Obj.queue.injEq] at this
    exact this.symm
  exact absurd (he.fed_of_halves (hw q0 hq).1 (hw q0 hq).2) hnot

theorem no_empty_shard_split_and_remove :
    NoEmptyShard "queue" (ops.replay "queue" splitAndRemove (initialStore 2))
        [(sampleJob "b" 10).toPointer, (sampleJob "c" 4).toPointer]
      ∧ (ops.run "queue" ⟨"agent", 30⟩ (.add [sampleJob "d" 7])
          (ops.replay "queue" splitAndRemove (initialStore 2))).1
          ≠ .error (.undefined .emptyShardSummary) := by
  have h := no_empty_shard_of_history
    ((initialStore_history (SplitsWellAt "queue") 2 (by decide)).replay splitAndRemove
      (by decide +kernel))
  exact ⟨h.1, h.2 (.add [sampleJob "d" 7]) ⟨"agent", 30⟩ (by decide +kernel) (by decide +kernel)⟩

/-- With shards of one job, a second job with the same fSeq drains the first shard. -/
theorem equal_fseqs_drain_shard :
    ∃ st queued c agent, History ops "queue" (fun _ _ => True) st queued
      ∧ c.Admissible ops.toPointer queued
      ∧ (ops.run "queue" agent c st).1 = .error (.undefined .emptyShardSummary) := by
  refine ⟨ops.replay "queue" [(⟨"agent", 0⟩, .add [sampleJob "a" 5])] (initialStore 1), _,
    .add [sampleJob "b" 5], ⟨"agent", 10⟩,
    (initialStore_history _ 1 (by decide)).replay _ (by decide +kernel), ?_, ?_⟩
  · decide +kernel
  · decide +kernel

end TapeArchive.Objectstore.RetrieveQueue
