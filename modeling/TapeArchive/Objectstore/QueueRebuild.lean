/-
  **A REBUILD MAKES THE SUMMARIES EXACT.**

  Whatever the summaries of a queue say, `rebuild` recomputes them from the
  shards that exist: it drops the pointers to the shards that do not, and the
  only objects it writes are shards whose own total was wrong (`Refresh`).
-/
import TapeArchive.Objectstore.QueueSummaries

namespace TapeArchive.Objectstore

open Lib List

variable {Q J R : Type}

/-! ## What a rebuild does to the store -/

section Refresh

variable [QueueJob J]

@[simp] theorem Shard.rebuild_jobs (s : Shard J) : s.rebuild.jobs = s.jobs := rfl

@[simp] theorem Shard.rebuild_sized (s : Shard J) :
    s.rebuild.jobstotalsize = bytesOf s.rebuild.jobs := rfl

/-- `m'` is `m` after some shards were rewritten with their right total. -/
structure Refresh (m m' : Machine String (Obj Q (Shard J)) AgentReference) : Prop where
  mem : m'.mem = m.mem
  store : ∀ a, m'.store a = m.store a
    ∨ ∃ s, m.store a = some (.shard s) ∧ m'.store a = some (.shard s.rebuild)
  always : ∀ I : QueueStore Q J → Prop,
    (∀ st a s, I st → st a = some (.shard s) → I ((Write.put a (.shard s.rebuild)).apply st)) →
    m.Always I → m'.Always I

variable {m m' m'' : QMachine Q J}

theorem Refresh.refl (m : QMachine Q J) : Refresh m m := ⟨rfl, fun _ => .inl rfl, fun _ _ h => h⟩

theorem Refresh.trans (h : Refresh m m') (h' : Refresh m' m'') : Refresh m m'' where
  mem := h'.mem.trans h.mem
  store := fun a => by
    rcases h'.store a with heq | ⟨s, hs, hs'⟩
    · rw [heq]
      exact h.store a
    rcases h.store a with heq | ⟨t, ht, ht'⟩
    · exact .inr ⟨s, heq ▸ hs, hs'⟩
    · rw [ht', Option.some.injEq, Obj.shard.injEq] at hs
      subst hs
      exact .inr ⟨t, ht, hs'⟩
  always := fun I hI hm => h'.always I hI (h.always I hI hm)

variable {a : String}

theorem Refresh.put {s : Shard J} (h : m.store a = some (.shard s)) :
    Refresh m (m.push (.put a (.shard s.rebuild))) where
  mem := rfl
  store := fun b => by
    rw [Machine.store_push]
    by_cases hb : b = a
    · subst hb
      exact .inr ⟨s, h, Write.apply_put_same _ _ _⟩
    · exact .inl (Write.apply_of_ne _ _ hb)
  always := fun I hI hm => Machine.always_push hm (hI _ _ _ hm.store h)

theorem Refresh.jobsAt (h : Refresh m m') : jobsAt m'.store = jobsAt m.store := by
  funext a
  rcases h.store a with heq | ⟨s, hs, hs'⟩
  · simp [Objectstore.jobsAt, heq]
  · rw [jobsAt_of_shard hs, jobsAt_of_shard hs', Shard.rebuild_jobs]

theorem Refresh.queuedJobs (h : Refresh m m') (ps : List (ShardPointer R)) :
    queuedJobs m'.store ps = queuedJobs m.store ps :=
  queuedJobs_congr (fun p _ => by rw [h.jobsAt])

theorem Refresh.queue (h : Refresh m m') {q : Q} (hq : m.store a = some (.queue q)) :
    m'.store a = some (.queue q) := by
  rcases h.store a with heq | ⟨s, hs, -⟩
  · rw [heq, hq]
  · rw [hq] at hs
    cases hs

/-- A shard keeps its jobs, and its total stays or becomes right. -/
theorem Refresh.shard (h : Refresh m m') {s : Shard J} (hs : m.store a = some (.shard s)) :
    ∃ s', m'.store a = some (.shard s') ∧ s'.jobs = s.jobs ∧ (s' = s ∨ s' = s.rebuild) := by
  rcases h.store a with heq | ⟨t, ht, ht'⟩
  · exact ⟨s, heq.trans hs, rfl, .inl rfl⟩
  rw [hs, Option.some.injEq, Obj.shard.injEq] at ht
  subst ht
  exact ⟨s.rebuild, ht', rfl, .inr rfl⟩

end Refresh

/-! ## A rebuild makes the summaries exact -/

section Rebuild

variable [QueueJob J]

/-- The earliest start time of the jobs, starting from `t`. -/
def earliest (t : Int64) (jobs : List J) : Int64 :=
  jobs.foldl (fun t j => if (starttime j).toInt64 < t then (starttime j).toInt64 else t) t

/-- The latest start time of the jobs, starting from `t`. -/
def latest (t : Int64) (jobs : List J) : Int64 :=
  jobs.foldl (fun t j => if (starttime j).toInt64 > t then (starttime j).toInt64 else t) t

theorem earliest_spec (jobs : List J) (t : Int64) :
    earliest t jobs ≤ t ∧ (∀ j ∈ jobs, earliest t jobs ≤ (starttime j).toInt64)
      ∧ (earliest t jobs = t ∨ ∃ j ∈ jobs, earliest t jobs = (starttime j).toInt64) :=
  foldl_least_spec (fun j : J => (starttime j).toInt64) jobs t

theorem latest_spec (jobs : List J) (t : Int64) :
    t ≤ latest t jobs ∧ (∀ j ∈ jobs, (starttime j).toInt64 ≤ latest t jobs)
      ∧ (latest t jobs = t ∨ ∃ j ∈ jobs, latest t jobs = (starttime j).toInt64) :=
  @foldl_least_spec Int64ᵒᵈ J _ (fun j : J => (starttime j).toInt64) jobs t

def startTimes (jobs : List J) : Set UInt64 := {t | ∃ j ∈ jobs, starttime j = t}

variable {jobs : List J}

section Extremes

variable (htimes : ∀ j ∈ jobs, 0 ≤ (starttime j).toInt64 ∧ (starttime j).toInt64 < Int64.maxValue)
  (hne : jobs ≠ [])

include htimes hne

/-- The loops do not end with the values they start from. -/
theorem earliest_mem : ∃ k ∈ jobs, earliest Int64.maxValue jobs = (starttime k).toInt64 := by
  obtain ⟨j, hj⟩ := exists_mem_of_ne_nil jobs hne
  obtain ⟨-, hle, hm | hme⟩ := earliest_spec jobs Int64.maxValue
  · exact absurd ((hm ▸ hle j hj).trans_lt (htimes j hj).2) (lt_irrefl _)
  · exact hme

theorem latest_mem : ∃ k ∈ jobs, latest Int64.minValue jobs = (starttime k).toInt64 := by
  obtain ⟨j, hj⟩ := exists_mem_of_ne_nil jobs hne
  obtain ⟨-, hge, hm | hme⟩ := latest_spec jobs Int64.minValue
  · have hz : (0 : Int64) ≤ Int64.minValue := (htimes j hj).1.trans (hm ▸ hge j hj)
    exact absurd hz (by decide)
  · exact hme

/-- The loops end with the extremes of ordinary start times. -/
theorem isLeast_earliest : IsLeast (startTimes jobs) (earliest Int64.maxValue jobs).toUInt64 := by
  obtain ⟨k, hk, hke⟩ := earliest_mem htimes hne
  obtain ⟨-, hle, -⟩ := earliest_spec jobs Int64.maxValue
  rw [hke, UInt64.toUInt64_toInt64]
  refine ⟨⟨k, hk, rfl⟩, ?_⟩
  rintro t ⟨j, hj, rfl⟩
  exact le_of_toInt64_le (htimes k hk).1 (htimes j hj).1 (hke ▸ hle j hj)

theorem isGreatest_latest : IsGreatest (startTimes jobs) (latest Int64.minValue jobs).toUInt64 := by
  obtain ⟨k, hk, hke⟩ := latest_mem htimes hne
  obtain ⟨-, hge, -⟩ := latest_spec jobs Int64.minValue
  rw [hke, UInt64.toUInt64_toInt64]
  refine ⟨⟨k, hk, rfl⟩, ?_⟩
  rintro t ⟨j, hj, rfl⟩
  exact le_of_toInt64_le (htimes j hj).1 (htimes k hk).1 (hke ▸ hge j hj)

end Extremes

variable (K : QueueKind J R)

/-- The pointer a rebuild leaves in the place of `p`: none if the shard is gone. -/
def QueueKind.refreshed (st : QueueStore Q J) (p : ShardPointer R) :
    Option (ShardPointer R) :=
  match st p.address with
  | some (.shard s) =>
      some { p with
        shardjobscount := UInt64.ofNat s.jobs.length
        shardbytescount := bytesOf s.jobs
        range := K.rangeOf s.jobs }
  | _ => none

theorem foldlM_countJob {r : RebuildState R} {jobs₀ : Multiset J} (h : Counted r.q jobs₀)
    (jobs : List J) :
    ∃ p a n, jobs.foldlM RebuildState.countJob r
        = .ok { r with
            q := { r.q with prioritymap := p, minrequestagemap := a, mountpolicynamemap := n }
            oldestJobCreationTime := earliest r.oldestJobCreationTime jobs
            youngestJobCreationTime := latest r.youngestJobCreationTime jobs }
      ∧ Counted { r.q with prioritymap := p, minrequestagemap := a, mountpolicynamemap := n }
          (jobs₀ + (jobs : Multiset J)) := by
  induction jobs generalizing r jobs₀ with
  | nil => exact ⟨r.q.prioritymap, r.q.minrequestagemap, r.q.mountpolicynamemap, rfl, by simpa using h⟩
  | cons j jobs ih =>
    obtain ⟨p, a, n, hi, hc⟩ := h.incCounts j
    let r' : RebuildState R :=
      { r with
        q := { r.q with prioritymap := p, minrequestagemap := a, mountpolicynamemap := n }
        oldestJobCreationTime := earliest r.oldestJobCreationTime [j]
        youngestJobCreationTime := latest r.youngestJobCreationTime [j] }
    obtain ⟨p', a', n', hf, hc'⟩ := ih (r := r') hc
    refine ⟨p', a', n', ?_, ?_⟩
    · have hs : r.countJob j = .ok r' := by
        simp [RebuildState.countJob, hi, bind, Except.bind, pure, Except.pure, r', earliest, latest]
      rw [foldlM_cons, hs]
      exact hf
    · have : jobs₀ + ((j :: jobs : List J) : Multiset J) = (j ::ₘ jobs₀) + (jobs : Multiset J) := by
        rw [← Multiset.cons_coe, Multiset.add_cons, Multiset.cons_add]
      rw [this]
      exact hc'

theorem recordSummary_append {before after : List (ShardPointer R)} {p : ShardPointer R}
    (h : p.address ∉ before.map (·.address)) (jobs bytes : UInt64) (range : R) :
    QueuePayload.recordSummary p.address jobs bytes range (before ++ p :: after)
      = some (before ++ { p with shardjobscount := jobs, shardbytescount := bytes, range := range }
          :: after) := by
  induction before with
  | nil => simp [QueuePayload.recordSummary]
  | cons p' before ih =>
    simp only [map_cons, mem_cons, not_or] at h
    simp [QueuePayload.recordSummary, Ne.symm h.1, ih h.2]

variable {ps : List (ShardPointer R)}

theorem dropPointers_eq_self {a : String} (h : a ∉ ps.map (·.address)) :
    QueuePayload.dropPointers a ps = ps := by
  unfold QueuePayload.dropPointers
  rw [filter_eq_self]
  intro p hp
  simpa using fun heq => h (mem_map.mpr ⟨p, hp, heq⟩)

variable {X : Exn → QMachine Q J → Prop}

/-- What the loop of a rebuild has added to its counters. -/
structure Summed (r r' : RebuildState R) (jobs : List J) : Prop where
  totalJobs : r'.totalJobs = r.totalJobs + UInt64.ofNat jobs.length
  totalBytes : r'.totalBytes = r.totalBytes + bytesOf jobs
  oldest : r'.oldestJobCreationTime = earliest r.oldestJobCreationTime jobs
  youngest : r'.youngestJobCreationTime = latest r.youngestJobCreationTime jobs

theorem Summed.trans {r r₁ r' : RebuildState R} {jobs jobs' : List J} (h : Summed r r₁ jobs)
    (h' : Summed r₁ r' jobs') : Summed r r' (jobs ++ jobs') where
  totalJobs := by
    rw [h'.totalJobs, h.totalJobs, length_append, UInt64.ofNat_add, add_assoc]
  totalBytes := by
    rw [h'.totalBytes, h.totalBytes, bytesOf_append, add_assoc]
  oldest := by
    rw [h'.oldest, h.oldest, earliest, earliest, earliest, foldl_append]
  youngest := by
    rw [h'.youngest, h.youngest, latest, latest, latest, foldl_append]

/-- **The loop of a rebuild**, when every pointer that remains to be visited leads to
nothing or to a shard that has a summary. -/
theorem wp_rebuildShards (todo : List (ShardPointer R)) :
    ∀ (before : List (ShardPointer R)) (jobs : Multiset J) {r : RebuildState R} {m : QMachine Q J}
      {Post : RebuildState R → QMachine Q J → Prop},
      ((before ++ todo).map (·.address)).Nodup → r.q.queueshards = before ++ todo →
      Counted r.q jobs →
      (∀ p ∈ todo, m.store p.address = none
        ∨ ∃ s, m.store p.address = some (.shard s) ∧ K.summaryCheck s = .ok ()) →
      (∀ r' m', Refresh m m' → r'.q.queueshards = before ++ todo.filterMap (K.refreshed m.store) →
        Counted r'.q (jobs + (queuedJobs m.store todo : Multiset J)) →
        Summed r r' (queuedJobs m.store todo) →
        (∀ p ∈ todo, ∀ s, m'.store p.address = some (.shard s) → s.jobstotalsize = bytesOf s.jobs) →
        Post r' m') →
      wp (rebuildShards K (todo.map (·.address)) r) Post X m := by
  induction todo with
  | nil =>
    intro before jobs r m Post _ hq hc _ hp
    simp only [map_nil, rebuildShards, wp_pure]
    exact hp r m (Refresh.refl m) (by simpa using hq) (by simpa using hc)
      ⟨by simp, by simp, rfl, rfl⟩ (by simp)
  | cons p todo ih =>
    intro before jobs r m Post hno hq hc hsh hp
    have hn' : ((before.map (·.address)) ++ p.address :: todo.map (·.address)).Nodup := by
      simpa using hno
    have hbe : p.address ∉ before.map (·.address) := fun hme =>
      (disjoint_of_nodup_append hn') hme mem_cons_self
    have ha : p.address ∉ todo.map (·.address) := (nodup_cons.mp (nodup_append.mp hn').2.1).1
    have hne : ∀ p' ∈ todo, p'.address ≠ p.address := fun p' hp' heq =>
      ha (mem_map.mpr ⟨p', hp', heq⟩)
    -- what remains to be done from any machine in which this shard is in order
    have hrest : ∀ before' r1 m1, Refresh m m1 →
        (∀ s', m1.store p.address = some (.shard s') → s'.jobstotalsize = bytesOf s'.jobs) →
        (∀ b ≠ p.address, m1.store b = m.store b) →
        ((before' ++ todo).map (·.address)).Nodup → r1.q.queueshards = before' ++ todo →
        before' ++ todo.filterMap (K.refreshed m.store)
          = before ++ (p :: todo).filterMap (K.refreshed m.store) →
        Counted r1.q (jobs + (jobsAt m.store p.address : Multiset J)) →
        Summed r r1 (jobsAt m.store p.address) →
        wp (rebuildShards K (todo.map (·.address)) r1) Post X m1 := by
      intro before' r1 m1 hm1 hsi1 hf hn1 hq1 hps1 hc1 hsu1
      have hsa : todo.filterMap (K.refreshed m1.store) = todo.filterMap (K.refreshed m.store) :=
        filterMap_congr (fun p1 hp1 => by
          simp [QueueKind.refreshed, hf _ (hne p1 hp1)])
      refine ih before' _ hn1 hq1 hc1 ?_ ?_
      · intro p1 hp1
        rw [hf _ (hne p1 hp1)]
        exact hsh p1 (.tail _ hp1)
      · intro r' m' hm hps hco hsu hsd
        rw [hm1.queuedJobs] at hco hsu
        refine hp r' m' (hm1.trans hm) ?_ ?_ (hsu1.trans hsu) ?_
        · rw [hps, hsa, hps1]
        · rwa [queuedJobs_cons, ← Multiset.coe_add, ← add_assoc]
        · intro p1 hp1 s1 hs1
          rcases mem_cons.mp hp1 with rfl | hp1
          · rcases hm.store p1.address with heq | ⟨s, -, hs⟩
            · exact hsi1 s1 (heq ▸ hs1)
            · rw [hs, Option.some.injEq, Obj.shard.injEq] at hs1
              exact hs1 ▸ s.rebuild_sized
          · exact hsd p1 hp1 s1 hs1
    simp only [map_cons, rebuildShards, wp_bind, wp_getStore]
    rcases hsh p mem_cons_self with hn | ⟨s, hs, hch⟩
    · -- the shard is gone: its pointer is erased
      rw [hn]
      refine hrest before _ m (Refresh.refl m) (by simp [hn]) (fun _ _ => rfl) ?_ ?_
        (by simp [QueueKind.refreshed, hn]) ?_ ?_
      · rw [map_append]
        exact (nodup_middle.mp hn').of_cons
      · show QueuePayload.dropPointers p.address r.q.queueshards = before ++ todo
        rw [hq]
        unfold QueuePayload.dropPointers
        rw [filter_append, filter_cons_of_neg (by simp)]
        congr 1
        · exact dropPointers_eq_self hbe
        · exact dropPointers_eq_self ha
      · rw [jobsAt_of_none hn, Multiset.coe_nil, add_zero]
        exact hc.of_maps
      · rw [jobsAt_of_none hn]
        exact ⟨by simp, by simp, rfl, rfl⟩
    · -- the shard exists: it is summarised, and rewritten if its total is wrong
      obtain ⟨pm, am, nm, hfo, hco⟩ := foldlM_countJob hc s.jobs
      rw [hs]
      dsimp only
      rw [wp_bind, hfo, wp_ofExcept_ok]
      dsimp only
      rw [hq, recordSummary_append hbe]
      dsimp only
      rw [wp_bind, hch, wp_ofExcept_ok]
      rw [jobsAt_of_shard hs] at hrest
      have hr' := fun m1 hm1 hsi1 hf => hrest (before ++ [_])
        ⟨{ r.q with
            queueshards := before ++
              { p with
                shardjobscount := UInt64.ofNat s.jobs.length
                shardbytescount := bytesOf s.jobs
                range := K.rangeOf s.jobs } :: todo
            prioritymap := pm
            minrequestagemap := am
            mountpolicynamemap := nm },
          _, _, _, _⟩ m1 hm1 hsi1 hf (by simpa using hn') (append_cons ..)
        (by simp [QueueKind.refreshed, hs]) hco.of_maps ⟨rfl, rfl, rfl, rfl⟩
      by_cases hsi : bytesOf s.jobs = s.jobstotalsize
      · rw [if_neg (by simpa using hsi)]
        refine hr' m (Refresh.refl m) ?_ (fun _ _ => rfl)
        intro s' hs'
        rw [hs, Option.some.injEq, Obj.shard.injEq] at hs'
        subst hs'
        exact hsi.symm
      · rw [if_pos (by simpa using hsi), wp_bind, wp_atomicOverwrite hs]
        refine hr' _ (Refresh.put hs) ?_ ?_
        · intro s' hs'
          rw [Machine.store_push, Write.apply_put_same, Option.some.injEq, Obj.shard.injEq] at hs'
          subst hs'
          rfl
        · intro b hb
          rw [Machine.store_push]
          exact Write.apply_of_ne _ _ hb

variable {st : QueueStore Q J}

theorem refreshed_address {K : QueueKind J R} {p p' : ShardPointer R}
    (h : K.refreshed st p = some p') : p'.address = p.address := by
  unfold QueueKind.refreshed at h
  split at h
  · rw [Option.some.injEq] at h
    rw [← h]
  · cases h

/-- The pointers a rebuild drops led to nothing. -/
theorem queuedJobs_refreshed (st : QueueStore Q J) (ps : List (ShardPointer R)) :
    queuedJobs st (ps.filterMap (K.refreshed st)) = queuedJobs st ps := by
  induction ps with
  | nil => rfl
  | cons p ps ih =>
    rw [queuedJobs_cons, ← ih]
    cases h : K.refreshed st p with
    | none =>
      rw [filterMap_cons_none h]
      have : jobsAt st p.address = [] := by
        unfold QueueKind.refreshed at h
        split at h
        · cases h
        rename_i hno
        unfold jobsAt
        split
        · rename_i s hs
          exact absurd hs (hno s)
        · rfl
      simp [this]
    | some p' => rw [filterMap_cons_some h, queuedJobs_cons, refreshed_address h]

theorem refreshed_sublist (st : QueueStore Q J) (ps : List (ShardPointer R)) :
    ((ps.filterMap (K.refreshed st)).map (·.address)).Sublist (ps.map (·.address)) := by
  induction ps with
  | nil => simp
  | cons p ps ih =>
    cases h : K.refreshed st p with
    | none =>
      rw [filterMap_cons_none h, map_cons]
      exact ih.cons _
    | some p' =>
      rw [filterMap_cons_some h, map_cons, map_cons, refreshed_address h]
      exact ih.cons_cons _

/-- When every shard exists, every pointer stays. -/
theorem refreshed_map_address (h : ∀ p ∈ ps, ∃ s, st p.address = some (.shard s)) :
    (ps.filterMap (K.refreshed st)).map (·.address) = ps.map (·.address) := by
  induction ps with
  | nil => rfl
  | cons p ps ih =>
    obtain ⟨s, hs⟩ := h p mem_cons_self
    have := ih (fun p' hp' => h p' (.tail _ hp'))
    simp [QueueKind.refreshed, hs, ← this]

/-- **A rebuild ends with exact summaries of what the pointers lead to**, and drops only
pointers to shards that do not exist. -/
theorem wp_rebuildSummaries {q : QueuePayload R} {m : QMachine Q J}
    {Post : QueuePayload R → QMachine Q J → Prop} (hn : (q.queueshards.map (·.address)).Nodup)
    (hsh : ∀ p ∈ q.queueshards, m.store p.address = none
      ∨ ∃ s, m.store p.address = some (.shard s) ∧ K.summaryCheck s = .ok ())
    (hpo : ∀ q' m', Refresh m m' → Coherent m'.store q' →
      q'.queueshards = q.queueshards.filterMap (K.refreshed m.store) →
      queuedJobs m'.store q'.queueshards = queuedJobs m.store q.queueshards →
      q'.oldestjobcreationtime
        = (earliest Int64.maxValue (queuedJobs m.store q.queueshards)).toUInt64 →
      q'.youngestjobcreationtime
        = (latest Int64.minValue (queuedJobs m.store q.queueshards)).toUInt64 →
      Post q' m') :
    wp (rebuildSummaries K q) Post X m := by
  unfold rebuildSummaries
  rw [wp_bind]
  refine wp_rebuildShards K q.queueshards [] 0 (by simpa using hn) rfl
    ⟨ValueCountMap.Counts.nil, ValueCountMap.Counts.nil, ValueCountMap.Counts.nil⟩ hsh ?_
  intro r' m' hm hps hc hsu hsi
  rw [nil_append] at hps
  have hqu : queuedJobs m'.store r'.q.queueshards = queuedJobs m.store q.queueshards := by
    rw [hps, hm.queuedJobs, queuedJobs_refreshed]
  refine hpo _ m' hm ⟨?_, ?_, ?_⟩ hps hqu (by rw [← hsu.oldest]) (by rw [← hsu.youngest])
  · show (r'.q.queueshards.map (·.address)).Nodup
    rw [hps]
    exact (refreshed_sublist K m.store q.queueshards).nodup hn
  · intro p' hp'
    have hme : p' ∈ q.queueshards.filterMap (K.refreshed m.store) := hps ▸ hp'
    obtain ⟨p, hp, hpp'⟩ := mem_filterMap.mp hme
    rcases hsh p hp with hno | ⟨s, hs, -⟩
    · simp [QueueKind.refreshed, hno] at hpp'
    simp only [QueueKind.refreshed, hs, Option.some.injEq] at hpp'
    subst hpp'
    obtain ⟨s', hs', hj', -⟩ := hm.shard hs
    exact ⟨s', hs', hsi p hp s' hs', by rw [hj'], by rw [hj']⟩
  · show Summarises _ ((queuedJobs m'.store r'.q.queueshards : List J) : Multiset J)
    rw [hqu]
    exact ⟨hc.of_maps, by rw [Multiset.coe_card, hsu.totalJobs, zero_add],
      by rw [hsu.totalBytes, zero_add]; rfl⟩

/-- A rebuild does not get past an object that is no shard, or a shard without a summary. -/
theorem wp_rebuildShards_stops {a : String} {o : Obj Q (Shard J)}
    (hba : ∀ s, o = .shard s → K.summaryCheck s ≠ .ok ()) (addresses : List String) :
    ∀ {r : RebuildState R} {m : QMachine Q J} {Post : RebuildState R → QMachine Q J → Prop},
      a ∈ addresses → m.store a = some o →
      wp (rebuildShards K addresses r) Post (fun _ _ => True) m := by
  induction addresses with
  | nil =>
    intro r m Post ha
    cases ha
  | cons b addresses ih =>
    intro r m Post ha ho
    rw [rebuildShards, wp_bind, wp_getStore]
    cases hb : m.store b with
    | none =>
      have hne : a ≠ b := fun heq => by
        rw [← heq, ho] at hb
        cases hb
      exact ih ((mem_cons.mp ha).resolve_left hne) ho
    | some o' =>
      cases o' with
      | queue | other => trivial
      | shard s =>
        rw [wp_bind, wp_ofExcept]
        cases s.jobs.foldlM RebuildState.countJob r with
        | error e => trivial
        | ok r1 =>
          dsimp only
          cases QueuePayload.recordSummary b (UInt64.ofNat s.jobs.length) (bytesOf s.jobs)
              (K.rangeOf s.jobs) r1.q.queueshards with
          | none => trivial
          | some ps =>
            rw [wp_bind, wp_ofExcept]
            cases hc : K.summaryCheck s with
            | error e => trivial
            | ok u =>
              have hne : a ≠ b := fun heq => by
                rw [← heq, ho, Option.some.injEq] at hb
                exact hba s hb hc
              have hrest := (mem_cons.mp ha).resolve_left hne
              by_cases hs : bytesOf s.jobs = s.jobstotalsize
              · rw [if_neg (by simpa using hs)]
                exact ih hrest ho
              rw [if_pos (by simpa using hs), wp_bind, wp_atomicOverwrite hb]
              refine ih hrest ?_
              rw [Machine.store_push_put_of_ne _ hne, ho]

end Rebuild

end TapeArchive.Objectstore
