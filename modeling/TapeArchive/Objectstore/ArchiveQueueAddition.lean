/-
  **AN ADDITION TO AN ARCHIVE QUEUE.**

  A round fills up the last shard or a new one. `Filled` says what the inner
  loop does whenever it returns, whatever the queue looked like before; on a
  queue with exact summaries it always returns and keeps them exact.
-/
import TapeArchive.Objectstore.ArchiveQueue
import TapeArchive.Objectstore.QueueSummaries

namespace TapeArchive.Objectstore.ArchiveQueue

open Lib List
open Machine (store_push store_push_put store_push_put_of_ne)
open Multiset (coe_add coe_card map_add map_coe)

abbrev AStore := QueueStore ArchiveQueue ArchiveJobPointer

abbrev AMachine := Machine String (Obj ArchiveQueue ArchiveQueueShard) AgentReference

/-! ## The totals and the creation times -/

/-- The fields `addToTotals` is about are the same. -/
structure SameTotals (p p' : QueuePayload Unit) : Prop where
  jobscount : p'.jobscount = p.jobscount
  jobstotalsize : p'.jobstotalsize = p.jobstotalsize
  oldest : p'.oldestjobcreationtime = p.oldestjobcreationtime
  youngest : p'.youngestjobcreationtime = p.youngestjobcreationtime

theorem SameTotals.addToTotals {p p' : QueuePayload Unit} (h : SameTotals p p') (j : JobToAdd) :
    SameTotals (addToTotals p j) (addToTotals p' j) := by
  unfold ArchiveQueue.addToTotals
  rw [h.jobscount, h.jobstotalsize, h.oldest, h.youngest]
  by_cases hz : p.jobscount ≠ 0
  · simp only [if_pos hz]
    exact ⟨by simp, rfl, rfl, rfl⟩
  · simp only [if_neg hz]
    exact ⟨by simp, rfl, rfl, rfl⟩

theorem SameTotals.foldl (jobs : List JobToAdd) : ∀ {p p' : QueuePayload Unit}, SameTotals p p' →
      SameTotals (jobs.foldl ArchiveQueue.addToTotals p)
        (jobs.foldl ArchiveQueue.addToTotals p') := by
  induction jobs with
  | nil => exact fun h => h
  | cons j jobs ih => exact fun h => ih (h.addToTotals j)

/-- The creation times are the least and the greatest start time of the jobs. -/
structure Spans (q : QueuePayload Unit) (jobs : List ArchiveJobPointer) : Prop where
  oldest_mem : jobs ≠ [] → q.oldestjobcreationtime ∈ jobs.map (·.starttime)
  oldest_le : ∀ j ∈ jobs, q.oldestjobcreationtime ≤ j.starttime
  youngest_mem : jobs ≠ [] → q.youngestjobcreationtime ∈ jobs.map (·.starttime)
  le_youngest : ∀ j ∈ jobs, j.starttime ≤ q.youngestjobcreationtime

variable {jobs : List ArchiveJobPointer}

/-- Only the two times matter. -/
theorem Spans.of_times {q q' : QueuePayload Unit}
    (h : Spans q jobs) (ho : q'.oldestjobcreationtime = q.oldestjobcreationtime := by rfl)
    (hy : q'.youngestjobcreationtime = q.youngestjobcreationtime := by rfl) : Spans q' jobs where
  oldest_mem := fun hne => ho ▸ h.oldest_mem hne
  oldest_le := fun j hj => ho ▸ h.oldest_le j hj
  youngest_mem := fun hne => hy ▸ h.youngest_mem hne
  le_youngest := fun j hj => hy ▸ h.le_youngest j hj

/-- A further job can only push the limits. -/
theorem Spans.add {q q' : QueuePayload Unit} (h : Spans q jobs)
    (hne : jobs ≠ []) {j : ArchiveJobPointer}
    (ho : q'.oldestjobcreationtime = min j.starttime q.oldestjobcreationtime)
    (hy : q'.youngestjobcreationtime = max j.starttime q.youngestjobcreationtime) :
    Spans q' (jobs ++ [j]) where
  oldest_mem := fun _ => by
    rw [ho, map_append, mem_append]
    rcases min_choice j.starttime q.oldestjobcreationtime with hm | hm
    · exact .inr (by simp [hm])
    · exact .inl (by rw [hm]; exact h.oldest_mem hne)
  oldest_le := fun k hk => by
    rw [ho]
    rcases mem_append.mp hk with hk | hk
    · exact (min_le_right _ _).trans (h.oldest_le k hk)
    · rw [mem_singleton.mp hk]
      exact min_le_left _ _
  youngest_mem := fun _ => by
    rw [hy, map_append, mem_append]
    rcases max_choice j.starttime q.youngestjobcreationtime with hma | hma
    · exact .inr (by simp [hma])
    · exact .inl (by rw [hma]; exact h.youngest_mem hne)
  le_youngest := fun k hk => by
    rw [hy]
    rcases mem_append.mp hk with hk | hk
    · exact (h.le_youngest k hk).trans (le_max_right _ _)
    · rw [mem_singleton.mp hk]
      exact le_max_left _ _

/-- A first job sets both limits. -/
theorem Spans.single {q : QueuePayload Unit} {j : ArchiveJobPointer}
    (ho : q.oldestjobcreationtime = j.starttime) (hy : q.youngestjobcreationtime = j.starttime) :
    Spans q [j] := by
  constructor <;> simp [ho, hy]

/-- The totals are those of the jobs, which are few enough to be counted. -/
structure Totals (q : QueuePayload Unit) (jobs : List ArchiveJobPointer) : Prop where
  jobscount : q.jobscount = UInt64.ofNat jobs.length
  jobstotalsize : q.jobstotalsize = bytesOf jobs
  spans : Spans q jobs

theorem ofNat_eq_zero_iff {n : Nat} (h : n < UInt64.size) : UInt64.ofNat n = 0 ↔ n = 0 := by
  constructor
  · intro hn
    have := congrArg UInt64.toNat hn
    rwa [UInt64.toNat_ofNat_of_lt' h] at this
  · rintro rfl
    rfl

/-- The comparisons of the source are a minimum and a maximum. -/
theorem ite_lt_eq_min (a b : UInt64) : (if a < b then a else b) = min a b := by
  by_cases h : a < b
  · rw [if_pos h, min_eq_left h.le]
  · rw [if_neg h, min_eq_right (not_lt.mp h)]

theorem ite_gt_eq_max (a b : UInt64) : (if a > b then a else b) = max a b := by
  by_cases h : a > b
  · rw [if_pos h, max_eq_left (le_of_lt h)]
  · rw [if_neg h, max_eq_right (not_lt.mp h)]

/-- One more job. -/
theorem Totals.add {q : QueuePayload Unit} (h : Totals q jobs)
    (hfew : jobs.length < UInt64.size) (j : JobToAdd) :
    Totals (addToTotals q j) (jobs ++ [j.toPointer]) := by
  have hb : bytesOf (jobs ++ [j.toPointer]) = bytesOf jobs + j.fileSize := by
    rw [bytesOf_append, bytesOf_cons, bytesOf_nil, add_zero]
    rfl
  have hc : q.jobscount + 1 = UInt64.ofNat (jobs ++ [j.toPointer]).length := by
    rw [h.jobscount, length_append, UInt64.ofNat_add]
    rfl
  by_cases hn : jobs = []
  · have hz : ¬ q.jobscount ≠ 0 := by
      rw [h.jobscount, hn]
      simp
    unfold addToTotals
    simp only [if_neg hz]
    refine ⟨hc, ?_, ?_⟩
    · rw [hb, hn, bytesOf_nil, zero_add]
    · rw [hn]
      exact Spans.single rfl rfl
  · have hpos : q.jobscount ≠ 0 := by
      rw [h.jobscount, Ne, ofNat_eq_zero_iff hfew]
      simpa using hn
    unfold addToTotals
    simp only [if_pos hpos]
    refine ⟨hc, by rw [hb, h.jobstotalsize], h.spans.add hn ?_ ?_⟩
    · exact ite_lt_eq_min _ _
    · exact ite_gt_eq_max _ _

/-! ## Filling a shard -/

def pointers (jobs : List JobToAdd) : List ArchiveJobPointer := jobs.map (·.toPointer)

@[simp] theorem pointers_nil : pointers [] = [] := rfl

@[simp] theorem pointers_cons (j : JobToAdd) (jobs : List JobToAdd) :
    pointers (j :: jobs) = j.toPointer :: pointers jobs := rfl

@[simp] theorem pointers_append (jobs jobs' : List JobToAdd) :
    pointers (jobs ++ jobs') = pointers jobs ++ pointers jobs' := map_append

@[simp] theorem length_pointers (jobs : List JobToAdd) :
    (pointers jobs).length = jobs.length := length_map _

@[simp] theorem pointers_eq_nil {jobs : List JobToAdd} : pointers jobs = [] ↔ jobs = [] :=
  map_eq_nil_iff

/-- What the inner loop does when it adds the jobs of `added`. -/
structure Filled (f f' : Filling) (added : List JobToAdd) : Prop where
  jobs : f'.aqs.jobs = f.aqs.jobs ++ pointers added
  size : f'.aqs.jobstotalsize = f.aqs.jobstotalsize + bytesOf (pointers added)
  address : f'.aqsp.address = f.aqsp.address
  count : added ≠ [] → f'.aqsp.shardjobscount = UInt64.ofNat f'.aqs.jobs.length
  same : added = [] → f' = f
  bytes : f'.aqsp.shardbytescount = f.aqsp.shardbytescount + bytesOf (pointers added)
  queueshards : f'.q.queueshards = f.q.queueshards
  tapepool : f'.q.tapepool = f.q.tapepool
  totals : SameTotals (added.foldl addToTotals f.q.toQueuePayload) f'.q.toQueuePayload
  prioritymap : ValueCountMap.incAll ((pointers added).map QueueJob.priority) f.q.prioritymap
    = .ok f'.q.prioritymap
  minrequestagemap :
    ValueCountMap.incAll ((pointers added).map QueueJob.minRequestAge) f.q.minrequestagemap
      = .ok f'.q.minrequestagemap
  mountpolicynamemap :
    ValueCountMap.incAll ((pointers added).map QueueJob.mountPolicyName) f.q.mountpolicynamemap
      = .ok f'.q.mountpolicynamemap

theorem Filled.refl (f : Filling) : Filled f f [] where
  jobs := by simp
  size := by simp
  address := rfl
  count := fun h => absurd rfl h
  same := fun _ => rfl
  bytes := by simp
  queueshards := rfl
  tapepool := rfl
  totals := ⟨rfl, rfl, rfl, rfl⟩
  prioritymap := rfl
  minrequestagemap := rfl
  mountpolicynamemap := rfl

variable {added : List JobToAdd}

/-- One job before others. -/
theorem Filled.cons {f f₁ f' : Filling} {j : JobToAdd}
    (hj : f.addJob j = .ok f₁) (h : Filled f₁ f' added) : Filled f f' (j :: added) := by
  simp only [Filling.addJob, bind_eq_ok] at hj
  obtain ⟨p, hp, heq⟩ := hj
  cases heq
  obtain ⟨hpm, ham, hnm, hpe⟩ := incCounts_eq hp
  have hm : ∀ q : QueuePayload Unit, (addToTotals q j).prioritymap = q.prioritymap
      ∧ (addToTotals q j).minrequestagemap = q.minrequestagemap
      ∧ (addToTotals q j).mountpolicynamemap = q.mountpolicynamemap
      ∧ (addToTotals q j).queueshards = q.queueshards := by
    intro q
    unfold addToTotals
    by_cases hz : q.jobscount ≠ 0
    · simp [hz]
    · simp [hz]
  refine
    { jobs := ?_, size := ?_, address := h.address, count := ?_, same := fun hn => by cases hn
      bytes := ?_, queueshards := ?_, tapepool := h.tapepool, totals := ?_
      prioritymap := ?_, minrequestagemap := ?_, mountpolicynamemap := ?_ }
  · rw [h.jobs]
    simp [addJobToShard]
  · rw [h.size, pointers_cons, bytesOf_cons, ← add_assoc]
    rfl
  · intro _
    by_cases hn : added = []
    · rw [h.same hn]
    · exact h.count hn
  · rw [h.bytes, pointers_cons, bytesOf_cons, ← add_assoc]
    rfl
  · rw [h.queueshards]
    rw [(hm p).2.2.2, hpe]
  · have hs : SameTotals f.q.toQueuePayload p := by
      rw [hpe]
      exact ⟨rfl, rfl, rfl, rfl⟩
    have hf := (hs.addToTotals j).foldl added
    have hts := h.totals
    exact ⟨hts.jobscount.trans hf.jobscount,
      hts.jobstotalsize.trans hf.jobstotalsize, hts.oldest.trans hf.oldest,
      hts.youngest.trans hf.youngest⟩
  · rw [pointers_cons, map_cons, ValueCountMap.incAll, foldlM_cons, hpm]
    exact (hm p).1 ▸ h.prioritymap
  · rw [pointers_cons, map_cons, ValueCountMap.incAll, foldlM_cons, ham]
    exact (hm p).2.1 ▸ h.minrequestagemap
  · rw [pointers_cons, map_cons, ValueCountMap.incAll, foldlM_cons, hnm]
    exact (hm p).2.2.1 ▸ h.mountpolicynamemap

/-- **The inner loop adds a front part of the jobs**, and leaves some only in a full shard. -/
theorem fillShard_filled (jobs : List JobToAdd) :
    ∀ {f f' : Filling} {rest : List JobToAdd}, fillShard jobs f = .ok (rest, f') →
      ∃ added, jobs = added ++ rest ∧ Filled f f' added
        ∧ (rest ≠ [] → ¬ f'.aqsp.shardjobscount < c_maxShardSize) := by
  induction jobs with
  | nil =>
    intro f f' rest h
    obtain ⟨rfl, rfl⟩ := h
    exact ⟨[], rfl, Filled.refl f, fun hne => absurd rfl hne⟩
  | cons j jobs ih =>
    intro f f' rest h
    by_cases hr : f.aqsp.shardjobscount < c_maxShardSize
    · rw [fillShard, if_pos hr] at h
      cases hj : f.addJob j with
      | error e => simp [hj, bind, Except.bind] at h
      | ok f1 =>
        rw [hj] at h
        obtain ⟨added, rfl, hf, hfu⟩ := ih h
        exact ⟨j :: added, rfl, hf.cons hj, hfu⟩
    · rw [fillShard, if_neg hr, Except.ok.injEq, Prod.mk.injEq] at h
      obtain ⟨rfl, rfl⟩ := h
      exact ⟨[], rfl, Filled.refl f, fun _ => hr⟩

theorem fillShard_length_le (jobs : List JobToAdd) :
    ∀ {f f' : Filling} {rest : List JobToAdd}, fillShard jobs f = .ok (rest, f') →
      f.aqsp.shardjobscount = UInt64.ofNat f.aqs.jobs.length →
      f.aqs.jobs.length ≤ c_maxShardSize.toNat → f'.aqs.jobs.length ≤ c_maxShardSize.toNat := by
  induction jobs with
  | nil =>
    intro f f' rest h _ hle
    simp only [fillShard, Except.ok.injEq, Prod.mk.injEq] at h
    rwa [← h.2]
  | cons j jobs ih =>
    intro f f' rest h hc hle
    by_cases hr : f.aqsp.shardjobscount < c_maxShardSize
    · rw [fillShard, if_pos hr] at h
      cases hj : f.addJob j with
      | error e => simp [hj, bind, Except.bind] at h
      | ok f1 =>
        rw [hj] at h
        have ho := (Filled.refl f1).cons hj
        have hl : f1.aqs.jobs.length = f.aqs.jobs.length + 1 := by simp [ho.jobs]
        refine ih h (ho.count (by simp)) ?_
        rw [hc, UInt64.lt_iff_toNat_lt,
          UInt64.toNat_ofNat_of_lt' (lt_of_le_of_lt hle (UInt64.toNat_lt_size _))] at hr
        omega
    · rw [fillShard, if_neg hr, Except.ok.injEq, Prod.mk.injEq] at h
      rwa [← h.2]

theorem addJob_ok {f : Filling} {jobs : Multiset ArchiveJobPointer}
    (h : Counted f.q.toQueuePayload jobs) (j : JobToAdd) : ∃ f', f.addJob j = .ok f' := by
  obtain ⟨p, a, n, hi, -⟩ := h.incCounts j.toPointer
  exact ⟨_, by simp only [Filling.addJob, hi, bind, Except.bind]; rfl⟩

theorem Filled.counted {f f' : Filling} (h : Filled f f' added)
    {jobs : Multiset ArchiveJobPointer} (hc : Counted f.q.toQueuePayload jobs) :
    Counted f'.q.toQueuePayload (jobs + (pointers added : Multiset ArchiveJobPointer)) := by
  obtain ⟨p, hp, hp'⟩ := hc.prioritymap.incAll ((pointers added).map QueueJob.priority)
  obtain ⟨a, ha, ha'⟩ := hc.minrequestagemap.incAll ((pointers added).map QueueJob.minRequestAge)
  obtain ⟨n, hn, hn'⟩ :=
    hc.mountpolicynamemap.incAll ((pointers added).map QueueJob.mountPolicyName)
  rw [h.prioritymap, Except.ok.injEq] at hp
  rw [h.minrequestagemap, Except.ok.injEq] at ha
  rw [h.mountpolicynamemap, Except.ok.injEq] at hn
  subst hp ha hn
  refine ⟨?_, ?_, ?_⟩
  · rwa [map_add, map_coe]
  · rwa [map_add, map_coe]
  · rwa [map_add, map_coe]

theorem fillShard_ok (jobs : List JobToAdd) :
    ∀ {f : Filling} {counted : Multiset ArchiveJobPointer},
      Counted f.q.toQueuePayload counted → ∃ rest f', fillShard jobs f = .ok (rest, f') := by
  induction jobs with
  | nil => exact fun _ => ⟨_, _, rfl⟩
  | cons j jobs ih =>
    intro f counted h
    by_cases hr : f.aqsp.shardjobscount < c_maxShardSize
    · obtain ⟨f1, hf1⟩ := addJob_ok h j
      obtain ⟨rest, f', hrest⟩ := ih (((Filled.refl f1).cons hf1).counted h)
      exact ⟨rest, f', by rw [fillShard, if_pos hr, hf1]; exact hrest⟩
    · exact ⟨_, _, by rw [fillShard, if_neg hr]⟩

theorem Totals.of_same {p p' : QueuePayload Unit} (h : Totals p jobs) (hs : SameTotals p p') :
    Totals p' jobs where
  jobscount := hs.jobscount.trans h.jobscount
  jobstotalsize := hs.jobstotalsize.trans h.jobstotalsize
  spans := h.spans.of_times hs.oldest hs.youngest

theorem Totals.foldl (added : List JobToAdd) :
    ∀ {p : QueuePayload Unit} {jobs : List ArchiveJobPointer}, Totals p jobs →
      jobs.length + added.length ≤ UInt64.size →
      Totals (added.foldl addToTotals p) (jobs ++ pointers added) := by
  induction added with
  | nil => exact fun h _ => by simpa using h
  | cons j added ih =>
    intro p jobs h hfew
    rw [length_cons] at hfew
    have := ih (h.add (by omega) j) (by simp; omega)
    simpa using this

/-! ## A round -/

/-- **THE QUEUE AS A FIFO**: the shards in the order of their pointers hold the jobs of
`queued`, none is empty or too large, and all the summaries are exact. -/
structure Fifo (addr : String) (st : AStore) (q : ArchiveQueue)
    (queued : List ArchiveJobPointer) : Prop where
  queue : st addr = some (.queue q)
  coherent : Coherent st q.toQueuePayload
  sizes : ∀ p ∈ q.queueshards, jobsAt st p.address ≠ []
    ∧ (jobsAt st p.address).length ≤ c_maxShardSize.toNat
  content : queuedJobs st q.queueshards = queued
  spans : Spans q.toQueuePayload queued

variable {addr : String} {st st' : AStore} {q q' : ArchiveQueue}
variable {queued : List ArchiveJobPointer}

theorem Fifo.totals (h : Fifo addr st q queued) : Totals q.toQueuePayload queued where
  jobscount := by rw [h.coherent.summary.jobscount, h.content, coe_card]
  jobstotalsize := by rw [h.coherent.summary.jobstotalsize, h.content]; rfl
  spans := h.spans

theorem Fifo.ne_queue (h : Fifo addr st q queued) {p : ShardPointer Unit}
    (hp : p ∈ q.queueshards) : p.address ≠ addr := by
  obtain ⟨s, hs⟩ := h.coherent.pointers p hp
  intro heq
  have := hs.stored
  rw [heq, h.queue] at this
  cases this

theorem Fifo.summary_filled (h : Fifo addr st q queued) {sp : ShardPointer Unit}
    {s : ArchiveQueueShard} {f' : Filling}
    (hf : Filled ⟨q, sp, s⟩ f' added) (hfew : queued.length + added.length ≤ UInt64.size)
    (ps : List (ShardPointer Unit)) :
    Summarises { f'.q.toQueuePayload with queueshards := ps }
        ((queued ++ pointers added : List ArchiveJobPointer) : Multiset ArchiveJobPointer)
      ∧ Spans { f'.q.toQueuePayload with queueshards := ps } (queued ++ pointers added) := by
  have hts := (h.totals.foldl added hfew).of_same hf.totals
  have hc := hf.counted (h.content ▸ h.coherent.summary.toCounted)
  refine ⟨⟨hc.of_maps, ?_, ?_⟩, hts.spans.of_times⟩
  · rw [coe_card, ← hts.jobscount]
  · show _ = bytesOf (queued ++ pointers added)
    rw [← hts.jobstotalsize]

/-- The state after the last shard, behind the pointers of `done`, was filled. -/
theorem Fifo.filled (h : Fifo addr st q queued) {done : List (ShardPointer Unit)}
    {sp : ShardPointer Unit} {s : ArchiveQueueShard} {f' : Filling}
    (hd : ∀ p ∈ done, p ∈ q.queueshards) (hn : ((done ++ [sp]).map (·.address)).Nodup)
    (hqu : queued = queuedJobs st done ++ s.jobs) (hsi : s.jobstotalsize = bytesOf s.jobs)
    (hb : sp.shardbytescount = bytesOf s.jobs) (hf : Filled ⟨q, sp, s⟩ f' added)
    (ha : added ≠ []) (hle : f'.aqs.jobs.length ≤ c_maxShardSize.toNat)
    (hfew : queued.length + added.length ≤ UInt64.size)
    (hq' : q' = { f'.q with queueshards := done ++ [f'.aqsp] })
    (hque : st' addr = some (.queue q')) (hsh : st' sp.address = some (.shard f'.aqs))
    (hfr : ∀ b, b ≠ addr → b ≠ sp.address → st' b = st b) :
    Fifo addr st' q' (queued ++ pointers added) := by
  have hne : ∀ p ∈ done, p.address ≠ sp.address := fun p hp => by
    have := hn
    rw [map_append, nodup_append] at this
    exact this.2.2 _ (mem_map.mpr ⟨p, hp, rfl⟩) _ (by simp)
  have hs : ∀ p ∈ done, st' p.address = st p.address := fun p hp =>
    hfr _ (h.ne_queue (hd p hp)) (hne p hp)
  have hps : q'.queueshards = done ++ [f'.aqsp] := by rw [hq']
  have hat : jobsAt st' f'.aqsp.address = s.jobs ++ pointers added := by
    rw [hf.address, jobsAt_of_shard hsh, hf.jobs]
  have hdj : queuedJobs st' done = queuedJobs st done :=
    queuedJobs_congr (fun p hp => by simp only [jobsAt, hs p hp])
  have hc : queuedJobs st' q'.queueshards = queued ++ pointers added := by
    rw [hps, queuedJobs_append, queuedJobs_cons, hat, hqu, hdj]
    simp
  obtain ⟨hsu, hsp⟩ := h.summary_filled hf hfew (done ++ [f'.aqsp])
  refine ⟨hque, ⟨?_, ?_, ?_⟩, ?_, hc, hq' ▸ hsp⟩
  · rw [hps]
    simpa [hf.address] using hn
  · intro p hp
    rw [hps] at hp
    rcases mem_append.mp hp with hp | hp
    · obtain ⟨t, ht⟩ := h.coherent.pointers p (hd p hp)
      exact ⟨t, (hs p hp).trans ht.stored, ht.sized, ht.jobs, ht.bytes⟩
    rw [mem_singleton.mp hp]
    refine ⟨f'.aqs, by rw [hf.address, hsh], ?_, hf.count ha, ?_⟩
    · rw [hf.size, hf.jobs, bytesOf_append, hsi]
    · rw [hf.bytes, hf.jobs, bytesOf_append, hb]
  · rw [hc, hq']
    exact hsu
  · intro p hp
    rw [hps] at hp
    rcases mem_append.mp hp with hp | hp
    · have := h.sizes p (hd p hp)
      simpa only [jobsAt, hs p hp] using this
    rw [mem_singleton.mp hp, hat, ← hf.jobs]
    refine ⟨?_, hle⟩
    rw [hf.jobs]
    simpa using fun _ => ha

variable {X : Exn → AMachine → Prop} {m : AMachine}

theorem wp_commit {Post : ArchiveQueue → AMachine → Prop}
    {o : Obj ArchiveQueue ArchiveQueueShard} (h : q.checkMapsAndShardsCoherency = .ok true)
    (hq : m.store addr = some o) :
    wp (commit addr q) Post X m = Post q (m.push (.put addr (.queue q))) :=
  wp_commitQueue h hq

theorem Fifo.check (h : Fifo addr st q queued) : q.checkMapsAndShardsCoherency = .ok true :=
  checkMapsAndShardsCoherency_ok h.coherent.pointers h.coherent.summary

/-- The names an addition may give to new shards are free. -/
def Fresh (m : AMachine) (q : ArchiveQueue) : Prop :=
  NamesFree ("ArchiveQueueShard-" ++ q.tapepool) m

variable {jobs : List JobToAdd} {Post : List JobToAdd × ArchiveQueue → AMachine → Prop}

/-- The jobs that go to a shard with room are not none. -/
theorem added_ne_nil {f f' : Filling} {added rest : List JobToAdd} (hne : jobs ≠ [])
    (heq : jobs = added ++ rest) (hf : Filled f f' added)
    (hfu : rest ≠ [] → ¬ f'.aqsp.shardjobscount < c_maxShardSize)
    (hr : f.aqsp.shardjobscount < c_maxShardSize) : added ≠ [] := by
  rintro rfl
  rw [nil_append] at heq
  refine hfu (heq ▸ hne) ?_
  rw [hf.same rfl]
  exact hr

section Round

variable (h : Fifo addr m.store q queued) (hne : jobs ≠ [])
  (hfew : queued.length + jobs.length ≤ UInt64.size)
  (hPost : ∀ added rest q' m', jobs = added ++ rest → added ≠ [] →
    Fifo addr m'.store q' (queued ++ pointers added) → q'.tapepool = q.tapepool →
    (Fresh m q → Fresh m' q') → Post (rest, q') m')

include h hne hfew hPost

theorem wp_addToLastShard {done : List (ShardPointer Unit)} {p : ShardPointer Unit}
    (hps : q.queueshards = done ++ [p]) (hr : p.shardjobscount < c_maxShardSize) :
    wp (addToLastShard addr p jobs q) Post X m := by
  have hp : p ∈ q.queueshards := by rw [hps]; simp
  obtain ⟨s, hs⟩ := h.coherent.pointers p hp
  have hpq := h.ne_queue hp
  have hno := h.coherent.nodup
  rw [hps] at hno
  unfold addToLastShard
  rw [wp_bind, wp_getStore, hs.stored]
  dsimp only
  rw [if_neg (by simp [hs.bytes, hs.sized, hs.jobs]), wp_bind]
  obtain ⟨rest, f', hfi⟩ := fillShard_ok jobs (f := ⟨q, p, s⟩) h.coherent.summary.toCounted
  obtain ⟨added, hj, hf, hfu⟩ := fillShard_filled jobs hfi
  have ha := added_ne_nil hne hj hf hfu hr
  have hle : f'.aqs.jobs.length ≤ c_maxShardSize.toNat := by
    refine fillShard_length_le jobs hfi hs.jobs ?_
    have := (h.sizes p hp).2
    rwa [jobsAt_of_shard hs.stored] at this
  rw [hfi, wp_ofExcept_ok, wp_bind]
  have hd : q.queueshards.dropLast = done := by rw [hps]; simp
  rw [hd]
  set q' : ArchiveQueue := { f'.q with queueshards := done ++ [f'.aqsp] } with hq'
  set m' := (m.push (.put addr (.queue q'))).push (.put p.address (.shard f'.aqs)) with hm'
  have hfr : ∀ b, b ≠ addr → b ≠ p.address → m'.store b = m.store b := fun b hb hb' => by
    rw [hm', store_push, Write.apply_of_ne _ _ hb', store_push, Write.apply_of_ne _ _ hb]
  have hff : Fifo addr m'.store q' (queued ++ pointers added) := by
    refine h.filled (fun p1 hp1 => by rw [hps]; simp [hp1]) hno ?_ hs.sized hs.bytes
      hf ha hle ?_ hq' ?_ ?_ hfr
    · rw [← h.content, hps, queuedJobs_append, queuedJobs_cons, jobsAt_of_shard hs.stored]
      simp
    · rw [hj, length_append] at hfew
      omega
    · exact (store_push_put_of_ne _ (Ne.symm hpq) _).trans (store_push_put _ _ _)
    · exact store_push_put _ _ _
  rw [wp_commit hff.check h.queue, wp_bind,
    wp_atomicOverwrite ((store_push_put_of_ne _ hpq _).trans hs.stored), wp_pure]
  refine hPost added rest q' m' hj ha hff hf.tapepool ?_
  intro hfh
  unfold Fresh at hfh ⊢
  rw [show q'.tapepool = q.tapepool from hf.tapepool]
  refine hfh.step rfl (Nat.le_refl _) (fun n _ hn => ?_)
  rw [hfr _ (fun heq => by rw [heq, h.queue] at hn; cases hn)
    (fun heq => by rw [heq, hs.stored] at hn; cases hn), hn]

theorem wp_addToNewShard (hB : ¬ Fresh m q → ∀ a m', X (.backend a) m') :
    wp (addToNewShard addr jobs q) Post X m := by
  unfold addToNewShard
  rw [wp_bind, wp_nextId, wp_bind]
  set a := m.mem.idAt ("ArchiveQueueShard-" ++ q.tapepool) m.mem.m_nextId with ha
  set m0 : AMachine := { m with mem := { m.mem with m_nextId := m.mem.m_nextId + 1 } } with hm0
  have hs0 : m0.store = m.store := rfl
  obtain ⟨rest, f', hfi⟩ := fillShard_ok jobs (f := ⟨q, ⟨a, 0, 0, ()⟩, ⟨[], 0⟩⟩)
    h.coherent.summary.toCounted
  obtain ⟨added, hj, hf, hfu⟩ := fillShard_filled jobs hfi
  have hadd := added_ne_nil hne hj hf hfu (show (0 : UInt64) < c_maxShardSize by decide)
  have hle : f'.aqs.jobs.length ≤ c_maxShardSize.toNat :=
    fillShard_length_le jobs hfi rfl (Nat.zero_le _)
  rw [hfi, wp_ofExcept_ok, wp_bind]
  set q' : ArchiveQueue := { f'.q with queueshards := q.queueshards ++ [f'.aqsp] } with hq'
  set m' := (m0.push (.put addr (.queue q'))).push (.put a (.shard f'.aqs)) with hm'
  -- the check only looks at the payload: it passes whether or not the name is taken
  have hf' : queued.length + added.length ≤ UInt64.size := by
    rw [hj, length_append] at hfew
    omega
  have hch : q'.checkMapsAndShardsCoherency = .ok true := by
    refine checkMapsAndShardsCoherency_of_sums ?_ ?_ (h.summary_filled hf hf' _).1
    · rw [hq', map_append, sum_append, sum_shardjobscount h.coherent.pointers,
        h.content, length_append, UInt64.ofNat_add]
      simp [hf.count hadd, hf.jobs]
    · rw [hq', map_append, sum_append, sum_shardbytescount h.coherent.pointers,
        h.content, bytesOf_append]
      simp [hf.bytes]
  rw [wp_commit hch (hs0 ▸ h.queue), wp_bind]
  by_cases hno : m.store a = none
  · have haq : a ≠ addr := fun heq => by
      rw [heq, h.queue] at hno
      cases hno
    have hap : ∀ p ∈ q.queueshards, p.address ≠ a := fun p hp heq => by
      obtain ⟨s, hs⟩ := h.coherent.pointers p hp
      rw [← heq, hs.stored] at hno
      cases hno
    have hfm : ∀ b, b ≠ addr → b ≠ a → m'.store b = m.store b := fun b hb hb' =>
      (store_push_put_of_ne _ hb' _).trans (store_push_put_of_ne _ hb _)
    have hff : Fifo addr m'.store q' (queued ++ pointers added) := by
      refine h.filled (fun _ hp => hp) ?_ ?_ rfl rfl hf hadd hle ?_ hq' ?_ ?_ hfm
      · rw [map_append, nodup_append]
        refine ⟨h.coherent.nodup, by simp, ?_⟩
        intro b hb c hc
        obtain ⟨p, hp, rfl⟩ := mem_map.mp hb
        rw [show c = a by simpa using hc]
        exact hap p hp
      · simp [h.content]
      · exact hf'
      · exact (store_push_put_of_ne _ (Ne.symm haq) _).trans (store_push_put _ _ _)
      · exact store_push_put _ _ _
    have hn1 : (m0.push (.put addr (.queue q'))).store a = none :=
      (store_push_put_of_ne _ haq _).trans hno
    rw [wp_create hn1, wp_pure]
    refine hPost added rest q' m' hj hadd hff hf.tapepool ?_
    intro hfr
    unfold Fresh at hfr ⊢
    rw [show q'.tapepool = q.tapepool from hf.tapepool]
    refine hfr.step rfl (Nat.le_succ _) (fun n hn hfre => ?_)
    rw [hfm _ (fun heq => by rw [heq, h.queue] at hfre; cases hfre) ?_, hfre]
    intro heq
    have := AgentReference.idAt_inj heq
    change m.mem.m_nextId + 1 ≤ n at hn
    omega
  · have hnot : ¬ Fresh m q := fun hfr => hno (NamesFree.next hfr)
    obtain ⟨o, ho⟩ : ∃ o, (m0.push (.put addr (.queue q'))).store a = some o := by
      by_cases haq : a = addr
      · exact ⟨_, by rw [haq, store_push_put]⟩
      · obtain ⟨o, ho⟩ := Option.ne_none_iff_exists'.mp hno
        exact ⟨o, (store_push_put_of_ne _ haq _).trans ho⟩
    rw [wp_create_taken ho]
    exact hB hnot _ _

/-- One round of the outer loop adds at least one job. -/
theorem wp_addRound (hB : ¬ Fresh m q → ∀ a m', X (.backend a) m') :
    wp (addRound addr jobs q) Post X m := by
  unfold addRound
  rcases eq_nil_or_concat q.queueshards with hps | ⟨done, p, hps⟩
  · rw [hps]
    exact wp_addToNewShard h hne hfew hPost hB
  rw [concat_eq_append] at hps
  rw [hps, List.getLast?_concat]
  dsimp only
  split
  · next hr =>
    exact wp_addToLastShard h hne hfew hPost hps hr
  · exact wp_addToNewShard h hne hfew hPost hB

end Round

/-! ## The whole addition -/

/-- The outer loop ends, as every round takes jobs off the list. -/
theorem wp_addJobsLoop (fuel : Nat) :
    ∀ {jobs : List JobToAdd} {q : ArchiveQueue} {queued : List ArchiveJobPointer} {m : AMachine}
      {Post : ArchiveQueue → AMachine → Prop},
      Fifo addr m.store q queued → jobs.length ≤ fuel →
      queued.length + jobs.length ≤ UInt64.size → (¬ Fresh m q → ∀ a m', X (.backend a) m') →
      (∀ q' m', Fifo addr m'.store q' (queued ++ pointers jobs) → Post q' m') →
      wp (addJobsLoop addr fuel jobs q) Post X m := by
  induction fuel with
  | zero =>
    intro jobs q queued m Post h hf _ _ hPost
    obtain rfl : jobs = [] := length_eq_zero_iff.mp (Nat.le_zero.mp hf)
    exact hPost q m (by simpa using h)
  | succ fuel ih =>
    intro jobs q queued m Post h hf hfew hB hPost
    cases jobs with
    | nil =>
      exact hPost q m (by simpa using h)
    | cons j jobs =>
      rw [addJobsLoop, wp_bind]
      refine wp_addRound h (by simp) hfew ?_ hB
      intro added rest q' m' hj ha hfi hta hfr
      have hl : added.length + rest.length = (j :: jobs).length := by
        rw [hj, length_append]
      have hpos : 0 < added.length := length_pos_of_ne_nil ha
      dsimp only
      refine ih hfi (by omega) ?_ (fun hnot => hB (hnot ∘ hfr)) ?_
      · rw [length_append, length_pointers]
        omega
      intro q'' m'' hf'
      refine hPost q'' m'' ?_
      rw [hj, pointers_append, ← append_assoc]
      exact hf'

/-- **AN ADDITION APPENDS THE BATCH.** -/
theorem wp_addJobsAndCommit {Post : ArchiveQueue → AMachine → Prop}
    (h : Fifo addr m.store q queued) (hfew : queued.length + jobs.length ≤ UInt64.size)
    (hB : ¬ Fresh m q → ∀ a m', X (.backend a) m')
    (hPost : ∀ q' m', Fifo addr m'.store q' (queued ++ pointers jobs) → Post q' m') :
    wp (addJobsAndCommit addr jobs q) Post X m :=
  wp_addJobsLoop _ h (by omega) hfew hB hPost

end TapeArchive.Objectstore.ArchiveQueue
