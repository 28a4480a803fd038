/-
  **WHAT IS QUEUED, AND WHEN THE SUMMARIES OF A QUEUE ARE EXACT.**

  The content of a queue is what its shard pointers lead to (`queuedJobs`).
  The summaries are exact (`Coherent`) when every pointer counts what its shard
  holds and the totals and the counters of the queue are those of the content.
-/
import TapeArchive.Objectstore.ShardedQueue

namespace TapeArchive.Objectstore

open Lib List

variable {Q J R : Type}

/-! ## What is queued -/

variable (st : QueueStore Q J)

def jobsAt (a : String) : List J :=
  match st a with
  | some (.shard s) => s.jobs
  | _ => []

/-- The jobs the pointers lead to, in the order of the pointers. -/
def queuedJobs (ps : List (ShardPointer R)) : List J :=
  ps.flatMap (fun p => jobsAt st p.address)

@[simp] theorem queuedJobs_nil :
    queuedJobs st ([] : List (ShardPointer R)) = [] := rfl

@[simp] theorem queuedJobs_cons (p : ShardPointer R) (ps : List (ShardPointer R)) :
    queuedJobs st (p :: ps) = jobsAt st p.address ++ queuedJobs st ps := by
  simp [queuedJobs]

@[simp] theorem queuedJobs_append (ps ps' : List (ShardPointer R)) :
    queuedJobs st (ps ++ ps') = queuedJobs st ps ++ queuedJobs st ps' := by
  simp [queuedJobs]

variable {st : QueueStore Q J} {a : String}

theorem jobsAt_of_shard {s : Shard J} (h : st a = some (.shard s)) : jobsAt st a = s.jobs := by
  simp [jobsAt, h]

theorem jobsAt_of_none (h : st a = none) : jobsAt st a = [] := by
  simp [jobsAt, h]

@[simp] theorem jobsAt_put_shard (st : QueueStore Q J) (a : String) (s : Shard J) :
    jobsAt ((Write.put a (.shard s)).apply st) a = s.jobs := by
  simp [jobsAt]

@[simp] theorem jobsAt_del (st : QueueStore Q J) (a : String) :
    jobsAt ((Write.del a).apply st) a = [] := by
  simp [jobsAt]

theorem jobsAt_apply_of_ne (w : Write String (Obj Q (Shard J))) (st : QueueStore Q J) {b : String}
    (h : b ≠ w.addr) : jobsAt (w.apply st) b = jobsAt st b := by
  simp [jobsAt, w.apply_of_ne st h]

theorem jobsAt_put_queue {q : Q} (h : st a = some (.queue q)) (q' : Q) :
    jobsAt ((Write.put a (.queue q')).apply st) = jobsAt st := by
  funext b
  by_cases hb : b = a
  · subst hb
    simp [jobsAt, h]
  · exact jobsAt_apply_of_ne _ st hb

variable {ps : List (ShardPointer R)}

theorem queuedJobs_congr {st st' : QueueStore Q J}
    (h : ∀ p ∈ ps, jobsAt st' p.address = jobsAt st p.address) :
    queuedJobs st' ps = queuedJobs st ps :=
  flatMap_congr h

/-- The content depends on the addresses of the pointers only. -/
theorem queuedJobs_map_address {ps ps' : List (ShardPointer R)}
    (h : ps'.map (·.address) = ps.map (·.address)) : queuedJobs st ps' = queuedJobs st ps := by
  have : ∀ l : List (ShardPointer R),
      queuedJobs st l = (l.map (·.address)).flatMap (jobsAt st) := by
    simp [queuedJobs, flatMap_map]
  rw [this, this, h]

theorem address_ne_of_nodup {done todo : List (ShardPointer R)} {p : ShardPointer R}
    (h : ((done ++ p :: todo).map (·.address)).Nodup)
    {p₁ : ShardPointer R} (hp₁ : p₁ ∈ done ++ todo) : p₁.address ≠ p.address := by
  rw [map_append, map_cons, nodup_middle, nodup_cons, ← map_append] at h
  exact fun heq => h.1 (List.mem_map.mpr ⟨p₁, hp₁, heq⟩)

abbrev QMachine (Q J : Type) := Machine String (Obj Q (Shard J)) AgentReference

variable {X : Exn → QMachine Q J → Prop} {m : QMachine Q J}

theorem wp_fetchShard {Post : Shard J → QMachine Q J → Prop} {s : Shard J}
    (h : m.store a = some (.shard s)) :
    wp (fetchShard a) Post X m = Post s m := by
  simp [fetchShard, h]

variable {Post : Q → QMachine Q J → Prop}

theorem wp_fetchQueue {q : Q} (h : m.store a = some (.queue q)) :
    wp (fetchQueue a) Post X m = Post q m := by
  simp [fetchQueue, h]

/-! ## Exact summaries -/

section Exact

variable [QueueJob J]

/-- The three counter arrays count exactly the jobs. -/
structure Counted (q : QueuePayload R) (jobs : Multiset J) : Prop where
  prioritymap : q.prioritymap.Counts (jobs.map priority)
  minrequestagemap : q.minrequestagemap.Counts (jobs.map minRequestAge)
  mountpolicynamemap : q.mountpolicynamemap.Counts (jobs.map mountPolicyName)

variable {jobs : Multiset J}

/-- Only the counter arrays matter. -/
theorem Counted.of_maps {q q' : QueuePayload R} (h : Counted q jobs)
    (hp : q'.prioritymap = q.prioritymap := by rfl)
    (ha : q'.minrequestagemap = q.minrequestagemap := by rfl)
    (hn : q'.mountpolicynamemap = q.mountpolicynamemap := by rfl) : Counted q' jobs :=
  ⟨hp ▸ h.prioritymap, ha ▸ h.minrequestagemap, hn ▸ h.mountpolicynamemap⟩

/-- The counters and the totals are those of the jobs. -/
structure Summarises (q : QueuePayload R) (jobs : Multiset J) : Prop extends Counted q jobs where
  jobscount : q.jobscount = UInt64.ofNat jobs.card
  jobstotalsize : q.jobstotalsize = (jobs.map size).sum

/-- The pointer leads to the shard, whose total is right, and counts its jobs and bytes. -/
structure PointerExact (st : QueueStore Q J) (p : ShardPointer R) (s : Shard J) : Prop where
  stored : st p.address = some (.shard s)
  sized : s.jobstotalsize = bytesOf s.jobs
  jobs : p.shardjobscount = UInt64.ofNat s.jobs.length
  bytes : p.shardbytescount = bytesOf s.jobs

/-- **A COHERENT QUEUE**: the pointers lead to different shards, with exact summaries. -/
structure Coherent (st : QueueStore Q J) (q : QueuePayload R) : Prop where
  nodup : (q.queueshards.map (·.address)).Nodup
  pointers : ∀ p ∈ q.queueshards, ∃ s, PointerExact st p s
  summary : Summarises q (queuedJobs st q.queueshards : Multiset J)

/-- The counts and the bytes of the pointers, of the shards and of the queue are the real ones. -/
structure RealTotals (st : QueueStore Q J) (q : QueuePayload R) : Prop where
  pointers : ∀ p ∈ q.queueshards, ∃ s, st p.address = some (.shard s)
    ∧ p.shardjobscount.toNat = s.jobs.length ∧ p.shardbytescount.toNat = natBytes s.jobs
    ∧ s.jobstotalsize.toNat = natBytes s.jobs
  jobscount : q.jobscount.toNat = (queuedJobs st q.queueshards).length
  jobstotalsize : q.jobstotalsize.toNat = natBytes (queuedJobs st q.queueshards)

/-- A shard holds no more than the queue. -/
theorem jobsAt_le_queuedJobs {p : ShardPointer R} (hp : p ∈ ps) :
    (jobsAt st p.address).length ≤ (queuedJobs st ps).length
      ∧ natBytes (jobsAt st p.address) ≤ natBytes (queuedJobs st ps) := by
  obtain ⟨before, after, rfl⟩ := append_of_mem hp
  rw [queuedJobs, flatMap_append, flatMap_cons]
  simp only [length_append, natBytes_append]
  omega

/-- The summaries of a coherent queue are exact as numbers while its jobs and their bytes can be
counted in 64 bits. -/
theorem Coherent.realTotals {q : QueuePayload R} (h : Coherent st q)
    (hn : (queuedJobs st q.queueshards).length < 2 ^ 64)
    (hb : natBytes (queuedJobs st q.queueshards) < 2 ^ 64) : RealTotals st q where
  pointers p hp := by
    obtain ⟨s, hs⟩ := h.pointers p hp
    have hle := @jobsAt_le_queuedJobs _ _ _ st _ _ _ hp
    rw [jobsAt_of_shard hs.stored] at hle
    have hby := toNat_bytesOf (lt_of_le_of_lt hle.2 hb)
    refine ⟨s, hs.stored, ?_, by rw [hs.bytes, hby], by rw [hs.sized, hby]⟩
    rw [hs.jobs, UInt64.toNat_ofNat_of_lt' (lt_of_le_of_lt hle.1 hn)]
  jobscount := by
    rw [h.summary.jobscount, Multiset.coe_card, UInt64.toNat_ofNat_of_lt' hn]
  jobstotalsize := by
    rw [h.summary.jobstotalsize]
    exact toNat_bytesOf hb

theorem sum_shardjobscount (h : ∀ p ∈ ps, ∃ s, PointerExact st p s) :
    (ps.map (·.shardjobscount)).sum = UInt64.ofNat (queuedJobs st ps).length := by
  induction ps with
  | nil => rfl
  | cons p ps ih =>
    obtain ⟨s, hs⟩ := h p mem_cons_self
    have := ih (fun p' hp' => h p' (.tail _ hp'))
    rw [map_cons, sum_cons, this, hs.jobs, queuedJobs_cons, jobsAt_of_shard hs.stored,
      length_append, UInt64.ofNat_add]

theorem sum_shardbytescount (h : ∀ p ∈ ps, ∃ s, PointerExact st p s) :
    (ps.map (·.shardbytescount)).sum = bytesOf (queuedJobs st ps) := by
  induction ps with
  | nil => rfl
  | cons p ps ih =>
    obtain ⟨s, hs⟩ := h p mem_cons_self
    have := ih (fun p' hp' => h p' (.tail _ hp'))
    rw [map_cons, sum_cons, this, hs.bytes, queuedJobs_cons, jobsAt_of_shard hs.stored,
      bytesOf_append]

variable {q : QueuePayload R}

/-- The coherency check compares the summaries with the sums over the pointers. -/
theorem checkMapsAndShardsCoherency_of_sums {jobs : List J}
    (hj : (q.queueshards.map (·.shardjobscount)).sum = UInt64.ofNat jobs.length)
    (hb : (q.queueshards.map (·.shardbytescount)).sum = bytesOf jobs)
    (hs : Summarises q (jobs : Multiset J)) : q.checkMapsAndShardsCoherency = .ok true := by
  have hj' : q.jobscount = (q.queueshards.map (·.shardjobscount)).sum := by
    rw [hj, hs.jobscount, Multiset.coe_card]
  have hb' : q.jobstotalsize = (q.queueshards.map (·.shardbytescount)).sum := by
    rw [hb, hs.jobstotalsize]
    rfl
  unfold QueuePayload.checkMapsAndShardsCoherency
  rw [if_neg (by simp [← hj', ← hb']), hs.prioritymap.total, hs.minrequestagemap.total,
    hs.mountpolicynamemap.total]
  simp [bind, Except.bind, hs.jobscount, pure, Except.pure]

theorem checkMapsAndShardsCoherency_ok (hp : ∀ p ∈ q.queueshards, ∃ s, PointerExact st p s)
    (hs : Summarises q (queuedJobs st q.queueshards : Multiset J)) :
    q.checkMapsAndShardsCoherency = .ok true :=
  checkMapsAndShardsCoherency_of_sums (sum_shardjobscount hp) (sum_shardbytescount hp) hs

omit [QueueJob J] in
/-- A commit of summaries that pass the check writes the queue as it is. -/
theorem wp_commitQueue {payload : Q → QueuePayload R} {repair : Q → QueueM Q J Q}
    {addr : String} {q : Q}
    {o : Obj Q (Shard J)} (h : (payload q).checkMapsAndShardsCoherency = .ok true)
    (hq : m.store addr = some o) :
    wp (commitQueue payload repair addr q) Post X m
      = Post q (m.push (.put addr (.queue q))) := by
  simp [commitQueue, repairIf, h, wp_atomicOverwrite hq]

/-! ## Counting jobs in and out -/

/-- The three counts of a job. -/
theorem incCounts_eq {q p : QueuePayload R} {j : J} (h : q.incCounts j = .ok p) :
    q.prioritymap.incCount (priority j) = .ok p.prioritymap
      ∧ q.minrequestagemap.incCount (minRequestAge j) = .ok p.minrequestagemap
      ∧ q.mountpolicynamemap.incCount (mountPolicyName j) = .ok p.mountpolicynamemap
      ∧ p = { q with
          prioritymap := p.prioritymap
          minrequestagemap := p.minrequestagemap
          mountpolicynamemap := p.mountpolicynamemap } := by
  simp only [QueuePayload.incCounts, bind_eq_ok] at h
  obtain ⟨pm, hp, am, ha, nm, hn, heq⟩ := h
  cases heq
  exact ⟨hp, ha, hn, rfl⟩

theorem decCounts_eq {q p : QueuePayload R} {j : J} (h : q.decCounts j = .ok p) :
    p = { q with
      prioritymap := p.prioritymap
      minrequestagemap := p.minrequestagemap
      mountpolicynamemap := p.mountpolicynamemap } := by
  simp only [QueuePayload.decCounts, bind_eq_ok] at h
  obtain ⟨pm, -, am, -, nm, -, heq⟩ := h
  cases heq
  rfl

theorem Counted.incCounts (h : Counted q jobs) (j : J) : ∃ p a n, q.incCounts j
        = .ok { q with prioritymap := p, minrequestagemap := a, mountpolicynamemap := n }
      ∧ Counted { q with prioritymap := p, minrequestagemap := a, mountpolicynamemap := n }
          (j ::ₘ jobs) := by
  obtain ⟨p, hp, hp'⟩ := h.prioritymap.incCount (priority j)
  obtain ⟨a, ha, ha'⟩ := h.minrequestagemap.incCount (minRequestAge j)
  obtain ⟨n, hn, hn'⟩ := h.mountpolicynamemap.incCount (mountPolicyName j)
  refine ⟨p, a, n, by simp [QueuePayload.incCounts, hp, ha, hn, bind, Except.bind, pure,
    Except.pure], ?_, ?_, ?_⟩
  · simpa using hp'
  · simpa using ha'
  · simpa using hn'

/-- The counters let go every job they have counted. -/
theorem Counted.decCounts {j : J} (h : Counted q (j ::ₘ jobs)) : ∃ p a n, q.decCounts j
        = .ok { q with prioritymap := p, minrequestagemap := a, mountpolicynamemap := n }
      ∧ Counted { q with prioritymap := p, minrequestagemap := a, mountpolicynamemap := n }
          jobs := by
  have h1 := h.prioritymap
  have h2 := h.minrequestagemap
  have h3 := h.mountpolicynamemap
  rw [Multiset.map_cons] at h1 h2 h3
  obtain ⟨p, hp, hp'⟩ := h1.decCountIn "ValueCountMap"
  obtain ⟨a, ha, ha'⟩ := h2.decCountIn "ValueCountMap"
  obtain ⟨n, hn, hn'⟩ := h3.decCountIn "ValueCountMap"
  refine ⟨p, a, n, ?_, hp', ha', hn'⟩
  simp [QueuePayload.decCounts, ValueCountMap.decCount, hp, ha, hn, bind, Except.bind, pure,
    Except.pure]

end Exact

end TapeArchive.Objectstore
