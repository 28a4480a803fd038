/-
  **WHAT A CRASH CANNOT LOSE.**

  A process can die after any of its writes. `Safe` says of a process that
  holds a queue in memory that a job with a given property is reached from the
  queue object in every state the store went through, and from the queue in
  memory in the current one. Nothing is asked of the summaries: the queue may
  be coherent or not.
-/
import TapeArchive.Objectstore.QueueRebuild
import TapeArchive.Objectstore.QueueRemoval

namespace TapeArchive.Objectstore

open Lib QueueJob List

variable {Q J R : Type}

/-! ## Repairs keep the pointers to existing shards -/

/-- The pointers of `ps` to existing objects are still there in `ps'`. -/
def Keeps (st : QueueStore Q J) (ps ps' : List (ShardPointer R)) : Prop :=
  ∀ p ∈ ps, st p.address ≠ none → ∃ p' ∈ ps', p'.address = p.address

theorem Keeps.refl (st : QueueStore Q J) (ps : List (ShardPointer R)) : Keeps st ps ps :=
  fun p hp _ => ⟨p, hp, rfl⟩

variable {ps ps' : List (ShardPointer R)} {st : QueueStore Q J}

theorem Keeps.of_address (h : ps'.map (·.address) = ps.map (·.address)) :
    Keeps st ps ps' := by
  intro p hp _
  have : p.address ∈ ps'.map (·.address) := h ▸ List.mem_map.mpr ⟨p, hp, rfl⟩
  simpa using this

theorem Keeps.trans {st st' : QueueStore Q J} {ps ps' ps'' : List (ShardPointer R)}
    (h : Keeps st ps ps') (h' : Keeps st' ps' ps'')
    (hst : ∀ a, st a ≠ none → st' a ≠ none) : Keeps st ps ps'' := by
  intro p hp hne
  obtain ⟨p', hp', heq⟩ := h p hp hne
  obtain ⟨p'', hp'', he'⟩ := h' p' hp' (heq ▸ hst _ hne)
  exact ⟨p'', hp'', he'.trans heq⟩

variable {a : String}

theorem Keeps.dropPointers (h : st a = none) (ps : List (ShardPointer R)) :
    Keeps st ps (QueuePayload.dropPointers a ps) := by
  intro p hp hne
  refine ⟨p, List.mem_filter.mpr ⟨hp, ?_⟩, rfl⟩
  have : p.address ≠ a := fun heq => hne (heq ▸ h)
  simpa using this

theorem recordSummary_address {jobs bytes : UInt64} {range : R}
    (h : QueuePayload.recordSummary a jobs bytes range ps = some ps') :
    ps'.map (·.address) = ps.map (·.address) := by
  induction ps generalizing ps' with
  | nil => cases h
  | cons p ps ih =>
    rw [QueuePayload.recordSummary] at h
    split at h
    · cases h
      rfl
    · obtain ⟨ps1, hp1, rfl⟩ := Option.map_eq_some_iff.mp h
      rw [map_cons, map_cons, ih hp1]

section Repair

variable [QueueJob J] {r r' : RebuildState R}

theorem countJob_queueshards {j : J} (h : r.countJob j = .ok r') :
    r'.q.queueshards = r.q.queueshards := by
  simp only [RebuildState.countJob, bind_eq_ok] at h
  obtain ⟨p, hp, heq⟩ := h
  cases heq
  rw [(incCounts_eq hp).2.2.2]

theorem foldlM_countJob_queueshards {jobs : List J}
    (h : jobs.foldlM RebuildState.countJob r = .ok r') : r'.q.queueshards = r.q.queueshards :=
  foldlM_ok_preserves (fun r : RebuildState R => r.q.queueshards)
    (fun _ _ _ => countJob_queueshards) jobs h

theorem Refresh.present {m m' : QMachine Q J} (h : Refresh m m') (ha : m.store a ≠ none) :
    m'.store a ≠ none := by
  rcases h.store a with heq | ⟨s, -, hs⟩
  · rwa [heq]
  · rw [hs]
    simp

/-- **A rebuild drops only pointers to shards that do not exist**, wherever it stops. -/
theorem wp_rebuildShards_keeps (K : QueueKind J R) (addresses : List String) :
    ∀ {r : RebuildState R} {m : QMachine Q J} {Post : RebuildState R → QMachine Q J → Prop}
      {X : Exn → QMachine Q J → Prop},
      (∀ r' m', Refresh m m' → Keeps m.store r.q.queueshards r'.q.queueshards → Post r' m') →
      (∀ e m', Refresh m m' → X e m') → wp (rebuildShards K addresses r) Post X m := by
  induction addresses with
  | nil =>
    intro r m Post X hp _
    exact hp r m (Refresh.refl m) (Keeps.refl _ _)
  | cons a addresses ih =>
    intro r m Post X hp hX
    rw [rebuildShards, wp_bind, wp_getStore]
    cases ha : m.store a with
    | none =>
      refine ih (fun r' m' hm hk => hp r' m' hm ?_) hX
      exact (Keeps.dropPointers ha _).trans hk (fun _ h => h)
    | some o =>
      cases o with
      | queue | other => exact hX _ m (Refresh.refl m)
      | shard s =>
        rw [wp_bind, wp_ofExcept]
        cases hf : s.jobs.foldlM RebuildState.countJob r with
        | error e => exact hX e m (Refresh.refl m)
        | ok r1 =>
          have hp1 := foldlM_countJob_queueshards hf
          dsimp only
          cases hr : QueuePayload.recordSummary a (UInt64.ofNat s.jobs.length) (bytesOf s.jobs)
              (K.rangeOf s.jobs) r1.q.queueshards with
          | none => exact hX _ m (Refresh.refl m)
          | some ps =>
            have hps : Keeps m.store r.q.queueshards ps :=
              Keeps.of_address ((recordSummary_address hr).trans (by rw [hp1]))
            rw [wp_bind, wp_ofExcept]
            cases K.summaryCheck s with
            | error e => exact hX e m (Refresh.refl m)
            | ok _ =>
              have hrest : ∀ m1, Refresh m m1 → wp (rebuildShards K addresses
                  { r1 with
                    q := { r1.q with queueshards := ps }
                    totalJobs := r1.totalJobs + UInt64.ofNat s.jobs.length
                    totalBytes := r1.totalBytes + bytesOf s.jobs }) Post X m1 := by
                intro m1 hm1
                refine ih (fun r' m' hm hk => hp r' m' (hm1.trans hm) ?_)
                  (fun e m' hm => hX e m' (hm1.trans hm))
                exact hps.trans hk (fun _ h => hm1.present h)
              by_cases hs : bytesOf s.jobs = s.jobstotalsize
              · rw [if_neg (by simpa using hs)]
                exact hrest m (Refresh.refl m)
              · rw [if_pos (by simpa using hs), wp_bind, wp_atomicOverwrite ha]
                exact hrest _ (Refresh.put ha)

theorem wp_rebuildSummaries_keeps (K : QueueKind J R) {q : QueuePayload R} {m : QMachine Q J}
    {Post : QueuePayload R → QMachine Q J → Prop} {X : Exn → QMachine Q J → Prop}
    (hp : ∀ q' m', Refresh m m' → Keeps m.store q.queueshards q'.queueshards → Post q' m')
    (hX : ∀ e m', Refresh m m' → X e m') : wp (rebuildSummaries K q) Post X m := by
  unfold rebuildSummaries
  rw [wp_bind]
  refine wp_rebuildShards_keeps K _ (fun r' m' hm hk => ?_) hX
  exact hp _ m' hm hk

end Repair

/-! ## A job that is never out of reach -/

section Safe

/-- Some pointer leads to a shard with a job that has the property. -/
def Reaches (P : J → Prop) (st : QueueStore Q J) (ps : List (ShardPointer R)) : Prop :=
  ∃ j ∈ queuedJobs st ps, P j

/-- The queue object is there and reaches such a job. -/
def Persisted (pointers : Q → List (ShardPointer R)) (addr : String) (P : J → Prop)
    (st : QueueStore Q J) : Prop :=
  ∃ q, st addr = some (.queue q) ∧ Reaches P st (pointers q)

/-- The queue object reached such a job in every state, and so does the queue in memory. -/
structure Safe (pointers : Q → List (ShardPointer R)) (addr : String) (P : J → Prop)
    (m : QMachine Q J) (q : Q) : Prop where
  always : m.Always (Persisted pointers addr P)
  reaches : Reaches P m.store (pointers q)

variable {pointers : Q → List (ShardPointer R)} {addr : String} {P : J → Prop}
variable {m m' : QMachine Q J} {q q' : Q} {st st' : QueueStore Q J}
variable {ps ps' : List (ShardPointer R)}

theorem reaches_iff : Reaches P st ps ↔ ∃ p ∈ ps, ∃ j ∈ jobsAt st p.address, P j := by
  simp only [Reaches, queuedJobs, mem_flatMap]
  constructor
  · rintro ⟨j, ⟨p, hp, hj⟩, hP⟩
    exact ⟨p, hp, j, hj, hP⟩
  · rintro ⟨p, hp, j, hj, hP⟩
    exact ⟨j, ⟨p, hp, hj⟩, hP⟩

/-- Other pointers and another store: what was reached through a pointer is reached. -/
theorem Reaches.mono (h : Reaches P st ps) (hs : ∀ p ∈ ps, (∃ j ∈ jobsAt st p.address, P j) →
      ∃ p' ∈ ps', ∃ j ∈ jobsAt st' p'.address, P j) : Reaches P st' ps' := by
  obtain ⟨p, hp, hj⟩ := reaches_iff.mp h
  exact reaches_iff.mpr (hs p hp hj)

theorem present_of_mem_jobsAt {j : J} (h : j ∈ jobsAt st a) : st a ≠ none := by
  intro hn
  simp [jobsAt_of_none hn] at h

theorem Reaches.keeps (h : Reaches P st ps) (hk : Keeps st ps ps') : Reaches P st ps' :=
  h.mono fun p hp ⟨j, hj, hP⟩ => by
    obtain ⟨p', hp', heq⟩ := hk p hp (present_of_mem_jobsAt hj)
    exact ⟨p', hp', j, heq ▸ hj, hP⟩

theorem Reaches.of_jobsAt (h : Reaches P st ps) (hst : jobsAt st' = jobsAt st) : Reaches P st' ps :=
  h.mono fun p hp hj => ⟨p, hp, hst ▸ hj⟩

theorem Safe.stored (h : Safe pointers addr P m q) :
    ∃ q₀, m.store addr = some (.queue q₀) ∧ Reaches P m.store (pointers q₀) :=
  h.always.store

/-- Another queue in memory. -/
theorem Safe.withQueue (h : Safe pointers addr P m q)
    (hq' : Reaches P m.store (pointers q')) : Safe pointers addr P m q' :=
  ⟨h.always, hq'⟩

/-- The queue object is written. -/
theorem Safe.writeQueue (h : Safe pointers addr P m q) :
    Safe pointers addr P (m.push (.put addr (.queue q))) q := by
  obtain ⟨q0, hq0, -⟩ := h.stored
  have hr : Reaches P ((Write.put addr (.queue q)).apply m.store) (pointers q) :=
    h.reaches.of_jobsAt (jobsAt_put_queue hq0 q)
  refine ⟨Machine.always_push h.always ⟨q, Write.apply_put_same _ _ _, hr⟩, ?_⟩
  rw [Machine.store_push]
  exact hr

variable {w : Write String (Obj Q (Shard J))}

/-- Another object is written: it is enough to look at the two lists of pointers. -/
theorem Safe.write (h : Safe pointers addr P m q) (hw : w.addr ≠ addr)
    (hstored : ∀ q₀, m.store addr = some (.queue q₀) → Reaches P m.store (pointers q₀) →
      Reaches P (w.apply m.store) (pointers q₀)) (hm : Reaches P (w.apply m.store) (pointers q)) :
    Safe pointers addr P (m.push w) q := by
  obtain ⟨q₀, hq0, hr⟩ := h.stored
  refine ⟨Machine.always_push h.always ⟨q₀, ?_, hstored q₀ hq0 hr⟩, ?_⟩
  · rw [Write.apply_of_ne _ _ (Ne.symm hw), hq0]
  · rw [Machine.store_push]
    exact hm

/-- Another object is written and no address loses such a job. -/
theorem Safe.write_mono (h : Safe pointers addr P m q) (hw : w.addr ≠ addr)
    (hm : ∀ a, (∃ j ∈ jobsAt m.store a, P j) → ∃ j ∈ jobsAt (w.apply m.store) a, P j) :
    Safe pointers addr P (m.push w) q :=
  h.write hw (fun _ _ hr => hr.mono fun p hp hj => ⟨p, hp, hm _ hj⟩)
    (h.reaches.mono fun p hp hj => ⟨p, hp, hm _ hj⟩)

theorem Safe.putShard (h : Safe pointers addr P m q) (ha : a ≠ addr)
    {s : Shard J} (hs : jobsAt m.store a ⊆ s.jobs) :
    Safe pointers addr P (m.push (.put a (.shard s))) q := by
  refine h.write_mono ha ?_
  rintro b ⟨j, hj, hP⟩
  by_cases hb : b = a
  · subst hb
    exact ⟨j, by simpa using hs hj, hP⟩
  · refine ⟨j, ?_, hP⟩
    rwa [jobsAt_apply_of_ne _ _ hb]

/-- A repair went on. -/
theorem Safe.refresh [QueueJob J] (h : Safe pointers addr P m q) (hm : Refresh m m')
    (hk : Keeps m.store (pointers q) (pointers q')) :
    Safe pointers addr P m' q' := by
  refine ⟨hm.always _ ?_ h.always, (h.reaches.keeps hk).of_jobsAt hm.jobsAt⟩
  rintro st a s ⟨q0, hq0, hr⟩ hs
  have hne : addr ≠ a := fun heq => by
    rw [heq, hs] at hq0
    cases hq0
  refine ⟨q0, by rw [Write.apply_of_ne _ _ hne, hq0], hr.mono fun p hp hj => ⟨p, hp, ?_⟩⟩
  by_cases hb : p.address = a
  · rw [hb] at hj ⊢
    simpa [jobsAt_of_shard hs] using hj
  · rwa [jobsAt_apply_of_ne _ _ hb]

/-! ## Commits and removals -/

/-- A repair keeps the pointers to existing shards. -/
def RepairKeeps (payload : Q → QueuePayload R) (repair : Q → QueueM Q J Q) [QueueJob J] : Prop :=
  ∀ (q : Q) (m : QMachine Q J) (Post : Q → QMachine Q J → Prop) (X : Exn → QMachine Q J → Prop),
    (∀ q' m', Refresh m m' → Keeps m.store (payload q).queueshards (payload q').queueshards →
      Post q' m') →
    (∀ e m', Refresh m m' → X e m') → wp (repair q) Post X m

variable [QueueJob J] {payload : Q → QueuePayload R} {repair : Q → QueueM Q J Q}
variable {Post : Q → QMachine Q J → Prop} {X : Exn → QMachine Q J → Prop}

theorem RepairKeeps.repairIf (hr : RepairKeeps payload repair) (needed : Bool)
    (hp : ∀ q' m', Refresh m m' →
      Keeps m.store (payload q).queueshards (payload q').queueshards → Post q' m')
    (hX : ∀ e m', Refresh m m' → X e m') :
    wp (Objectstore.repairIf repair needed q) Post X m := by
  cases needed with
  | false => exact hp q m (Refresh.refl m) (Keeps.refl _ _)
  | true => exact hr q m Post X hp hX

/-- A commit checks, perhaps repairs, and writes the queue. -/
theorem RepairKeeps.commit (hr : RepairKeeps payload repair)
    (hp : ∀ q' m₁ o, Refresh m m₁ → m₁.store addr = some o →
      Keeps m.store (payload q).queueshards (payload q').queueshards →
      Post q' (m₁.push (.put addr (.queue q')))) (hX : ∀ e m', Refresh m m' → X e m') :
    wp (commitQueue payload repair addr q) Post X m := by
  unfold commitQueue
  rw [wp_bind, wp_ofExcept]
  cases (payload q).checkMapsAndShardsCoherency with
  | error e => exact hX e m (Refresh.refl m)
  | ok coherent =>
    dsimp only
    rw [wp_bind]
    refine hr.repairIf _ (fun q' m₁ hm hk => ?_) hX
    rw [wp_bind]
    refine wp_atomicOverwrite_cases (hX _ m₁ hm) fun o ho => ?_
    exact hp q' m₁ o hm ho hk

/-- A commit is safe and moves no job. -/
theorem Safe.commit (hr : RepairKeeps payload repair)
    (h : Safe (fun q => (payload q).queueshards) addr P m q)
    (hp : ∀ q' m', Safe (fun q => (payload q).queueshards) addr P m' q' →
      jobsAt m'.store = jobsAt m.store → Post q' m')
    (hX : ∀ e m', m'.Always (Persisted (fun q => (payload q).queueshards) addr P) →
      X e m') :
    wp (commitQueue payload repair addr q) Post X m := by
  refine hr.commit (fun q' m1 o hm ho hk => ?_)
    (fun e m' hm => hX e m' (h.refresh hm (Keeps.refl _ _)).always)
  have hs := h.refresh hm hk
  refine hp q' _ hs.writeQueue ?_
  obtain ⟨q0, hq0, -⟩ := hs.stored
  rw [Machine.store_push, jobsAt_put_queue hq0, hm.jobsAt]

variable {addresses : List String}

/-- A shard is written back without the jobs to remove, or removed. -/
theorem Safe.storeRemoval (h : Safe pointers addr P m q) {s : Shard J}
    (hs : m.store a = some (.shard s))
    (hP : ∀ j, P j → address j ∉ addresses) {Post : Unit → QMachine Q J → Prop}
    (hp : ∀ m', Safe pointers addr P m' q →
      ((s.removeJobs addresses).2.jobsAfter = 0 → jobsAt m'.store a = []) → Post () m') :
    wp (Objectstore.storeRemoval a (s.removeJobs addresses)) Post X m := by
  obtain ⟨q0, hq0, -⟩ := h.stored
  refine wp_storeRemoval hs addresses fun w hw hsr => hp _ ?_ ?_
  · refine h.write_mono ?_ ?_
    · rintro rfl
      rw [hw, hs] at hq0
      cases hq0
    · rintro b ⟨j, hj, hPj⟩
      refine ⟨j, ?_, hPj⟩
      rw [hsr, jobsAt_afterStoreRemoval_eq]
      by_cases hb : b = a
      · rw [hb, jobsAt_of_shard hs] at hj
        rw [if_pos hb, removeJobs_jobs]
        exact List.mem_filter.mpr ⟨hj, by simpa using hP j hPj⟩
      · rwa [if_neg hb]
  · intro hz
    rw [Machine.store_push, hsr, jobsAt_afterStoreRemoval]
    simpa using hz

omit [QueueJob J] in
theorem Reaches.afterRemoval {q : QueuePayload R} (h : Reaches P st q.queueshards)
    {shardIndex : Nat} {p : ShardPointer R} (hp : q.queueshards[shardIndex]? = some p)
    {r : RemovalResult J} (hd : r.jobsAfter = 0 → jobsAt st p.address = []) :
    Reaches P st (q.afterRemoval shardIndex p r).queueshards := by
  unfold QueuePayload.afterRemoval
  dsimp only
  split
  · refine h.keeps (Keeps.of_address ?_)
    rw [map_set]
    refine ext_getElem? fun i => ?_
    by_cases hi : shardIndex = i
    · subst hi
      simp [List.getElem?_set_self', hp]
    · rw [List.getElem?_set_ne hi]
  · rename_i hz
    refine h.mono fun p1 hp1 hj => ⟨p1, ?_, hj⟩
    rw [mem_eraseIdx_iff_getElem?]
    obtain ⟨i, hi⟩ := mem_iff_getElem?.mp hp1
    refine ⟨i, ?_, hi⟩
    rintro rfl
    rw [hp, Option.some.injEq] at hi
    obtain ⟨j, hj, -⟩ := hj
    rw [← hi, hd (by simpa using hz)] at hj
    cases hj

theorem wp_removeLoop_safe
    {round : List String → Nat → ShardPointer R → Q → QueueM Q J (List String × Nat × Q)}
    (hro : ∀ (addresses : List String) (shardIndex : Nat) (p : ShardPointer R) (q : Q)
      (m : QMachine Q J), Safe pointers addr P m q →
      (pointers q)[shardIndex]? = some p → (∀ j, P j → address j ∉ addresses) →
      wp (round addresses shardIndex p q)
        (fun r m' => Safe pointers addr P m' r.2.2 ∧ ∀ j, P j → address j ∉ r.1) X m)
    (rounds : Nat) :
    ∀ {addresses : List String} {shardIndex : Nat} {q : Q} {m : QMachine Q J},
      Safe pointers addr P m q → (∀ j, P j → address j ∉ addresses) →
      wp (removeLoop pointers round rounds addresses shardIndex q)
        (fun q' m' => Safe pointers addr P m' q') X m := by
  induction rounds with
  | zero =>
    intro addresses shardIndex q m h _
    exact h
  | succ rounds ih =>
    intro addresses shardIndex q m h hP
    cases addresses with
    | nil => simpa only [removeLoop, wp_pure] using h
    | cons a addresses =>
      cases hp : (pointers q)[shardIndex]? with
      | none => simpa only [removeLoop, hp, wp_pure] using h
      | some p =>
        simp only [removeLoop, hp, wp_bind]
        exact wp_post (hro _ shardIndex p q m h hp hP) (fun r m' hr => ih hr.1 hr.2)

theorem not_mem_trimRemoved (h : a ∉ addresses) (r : RemovalResult J) :
    a ∉ trimRemoved addresses r := fun hm =>
  h (mem_of_mem_filter hm)

end Safe

end TapeArchive.Objectstore
