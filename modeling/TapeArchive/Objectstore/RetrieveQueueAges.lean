/-
  **THE AGE OF A RETRIEVE QUEUE.**

  An addition takes the start times of its jobs into the two creation times, with 0 for
  "unset"; a removal of the oldest or the youngest job rebuilds them. A rebuild of a queue
  without jobs stores the minimum of `time_t` for the youngest: read as `uint64_t` it is
  2^63, later than every start time, and stays when the queue is filled again.
-/
import TapeArchive.Objectstore.RetrieveQueueHistory

namespace TapeArchive.Objectstore.RetrieveQueue

open Lib List

variable {addr : String} {st : RStore} {q q' : RetrieveQueue}
variable {X : Exn → RMachine → Prop} {m : RMachine}
variable {jobs removed left : List RetrieveJobPointer} {oldest youngest : UInt64}

/-! ## The extremes of the start times -/

/-- The two times are the least and the greatest start time of the jobs. -/
structure Dated (oldest youngest : UInt64) (jobs : List RetrieveJobPointer) : Prop where
  oldest : IsLeast (startTimes jobs) oldest
  youngest : IsGreatest (startTimes jobs) youngest

def ModerateTime (t : Int64) : Prop := 1 ≤ t.toInt ∧ t.toInt ≤ 2 ^ 62

instance (t : Int64) : Decidable (ModerateTime t) := inferInstanceAs (Decidable (_ ∧ _))

def Moderate (jobs : List RetrieveJobPointer) : Prop :=
  ∀ j ∈ jobs, ModerateTime j.starttime.toInt64

variable {jobs' : List RetrieveJobPointer}

theorem Moderate.perm (h : Moderate jobs) (hp : jobs.Perm jobs') :
    Moderate jobs' := fun j hj => h j (hp.mem_iff.mpr hj)

theorem Moderate.ordinary (h : Moderate jobs) :
    ∀ j ∈ jobs, 0 ≤ (starttime j).toInt64 ∧ (starttime j).toInt64 < Int64.maxValue := by
  intro j hj
  obtain ⟨hl, hh⟩ : 1 ≤ (starttime j).toInt64.toInt ∧ (starttime j).toInt64.toInt ≤ 2 ^ 62 := h j hj
  have hz : (0 : Int64).toInt = 0 := rfl
  have hm : Int64.maxValue.toInt = 2 ^ 63 - 1 := rfl
  rw [Int64.le_iff_toInt_le, Int64.lt_iff_toInt_lt, hz, hm]
  omega

theorem Moderate.ne_zero (h : Moderate jobs) {t : UInt64} (ht : t ∈ startTimes jobs) : t ≠ 0 := by
  obtain ⟨j, hj, rfl⟩ := ht
  intro hz
  have hl : 1 ≤ (starttime j).toInt64.toInt := (h j hj).1
  rw [hz] at hl
  exact absurd hl (by decide)

theorem startTimes_concat (jobs : List RetrieveJobPointer) (j : RetrieveJobPointer) :
    startTimes (jobs ++ [j]) = insert j.starttime (startTimes jobs) := by
  ext t
  constructor
  · rintro ⟨k, hk, rfl⟩
    rcases mem_append.mp hk with hk | hk
    · exact .inr ⟨k, hk, rfl⟩
    · rw [mem_singleton.mp hk]
      exact .inl rfl
  · rintro (rfl | ⟨k, hk, rfl⟩)
    · exact ⟨j, by simp, rfl⟩
    · exact ⟨k, mem_append_left _ hk, rfl⟩

theorem startTimes_perm (h : jobs.Perm jobs') : startTimes jobs = startTimes jobs' := by
  ext t
  exact exists_congr fun j => and_congr_left' h.mem_iff

/-! ## Additions -/

/-- One more job, when the times are set. -/
theorem Dated.take (h : Dated oldest youngest jobs) (hm : Moderate jobs) (j : JobToAdd) :
    Dated (takeOldest oldest j) (takeYoungest youngest j) (jobs ++ [j.toPointer]) := by
  have ho : oldest ≠ 0 := hm.ne_zero h.oldest.1
  have hy : youngest ≠ 0 := hm.ne_zero h.youngest.1
  have hmi : takeOldest oldest j = min j.toPointer.starttime oldest := by
    unfold takeOldest
    rw [if_pos ho, min_def_lt]
    rfl
  have hma : takeYoungest youngest j = max j.toPointer.starttime youngest := by
    unfold takeYoungest
    rw [if_pos hy, max_comm, max_def_lt]
    rfl
  rw [hmi, hma]
  constructor
  · rw [startTimes_concat]
    exact h.oldest.insert _
  · rw [startTimes_concat]
    exact h.youngest.insert _

theorem dated_first (j : JobToAdd) : Dated (takeOldest 0 j) (takeYoungest 0 j) [j.toPointer] := by
  have hs : startTimes [j.toPointer] = {j.startTime.toUInt64} := by
    ext t
    constructor
    · rintro ⟨k, hk, rfl⟩
      rw [mem_singleton.mp hk]
      rfl
    · rintro rfl
      exact ⟨_, mem_singleton_self _, rfl⟩
  constructor
  · rw [hs]
    exact isLeast_singleton
  · rw [hs]
    exact isGreatest_singleton

/-- A batch of jobs, when the times are set. -/
theorem Dated.takeAll (new : List JobToAdd) (hnew : ∀ j ∈ new, ModerateTime j.startTime) :
    ∀ {oldest youngest : UInt64} {jobs : List RetrieveJobPointer}, Dated oldest youngest jobs →
      Moderate jobs →
      Dated (new.foldl takeOldest oldest) (new.foldl takeYoungest youngest)
        (jobs ++ new.map (·.toPointer)) := by
  induction new with
  | nil =>
    intro oldest youngest jobs h _
    simpa using h
  | cons j new ih =>
    intro oldest youngest jobs h hm
    have hj : Moderate (jobs ++ [j.toPointer]) := by
      intro k hk
      rcases mem_append.mp hk with hk | hk
      · exact hm k hk
      rw [mem_singleton.mp hk]
      show ModerateTime j.startTime.toUInt64.toInt64
      exact hnew j mem_cons_self
    have hrest := ih (fun k hk => hnew k (.tail _ hk)) (h.take hm j) hj
    rwa [append_assoc, singleton_append] at hrest

theorem Dated.perm (h : Dated oldest youngest jobs) (hp : jobs.Perm jobs') :
    Dated oldest youngest jobs' where
  oldest := startTimes_perm hp ▸ h.oldest
  youngest := startTimes_perm hp ▸ h.youngest

/-- The times are the extremes; without jobs, the oldest is unset when the youngest is. -/
structure Ages (q : RetrieveQueue) (jobs : List RetrieveJobPointer) : Prop where
  dated : jobs ≠ [] → Dated q.oldestjobcreationtime q.youngestjobcreationtime jobs
  unset : jobs = [] → q.youngestjobcreationtime = 0 → q.oldestjobcreationtime = 0

theorem Ages.perm (h : Ages q jobs) (hp : jobs.Perm jobs') : Ages q jobs' where
  dated := fun hne => (h.dated fun hn => hne (nil_perm.mp (hn ▸ hp))).perm hp
  unset := fun hn => h.unset (perm_nil.mp (hn ▸ hp))

/-- **An addition keeps the times right**, unless the queue was drained before. -/
theorem Ages.add {new : List JobToAdd} (h : Ages q jobs) (hm : Moderate jobs)
    (hnew : ∀ j ∈ new, ModerateTime j.startTime)
    (hfi : new = [] ∨ jobs ≠ [] ∨ q.youngestjobcreationtime = 0) (ha : Aged q new q') :
    Ages q' (jobs ++ new.map (·.toPointer)) := by
  cases new with
  | nil =>
    have ho : q'.oldestjobcreationtime = q.oldestjobcreationtime := ha.oldest
    have hy : q'.youngestjobcreationtime = q.youngestjobcreationtime := ha.youngest
    rw [map_nil, append_nil]
    exact ⟨fun hne => ho ▸ hy ▸ h.dated hne, fun hn => ho ▸ hy ▸ h.unset hn⟩
  | cons j new =>
    refine ⟨fun _ => ?_, fun hn => by simp at hn⟩
    rw [ha.oldest, ha.youngest]
    by_cases hj : jobs = []
    · -- the first job of a queue whose times are unset
      have hy : q.youngestjobcreationtime = 0 := by
        rcases hfi with hn | hne | hy
        · cases hn
        · exact absurd hj hne
        · exact hy
      have hf : Moderate [j.toPointer] := by
        intro k hk
        rw [mem_singleton.mp hk]
        show ModerateTime j.startTime.toUInt64.toInt64
        exact hnew j mem_cons_self
      rw [h.unset hj hy, hy, hj]
      exact (dated_first j).takeAll new (fun k hk => hnew k (.tail _ hk)) hf
    · exact (h.dated hj).takeAll (j :: new) hnew hm

/-! ## Removals -/

theorem not_mem_removed {j : RetrieveJobPointer} (hn : needToRebuild q removed = false)
    (hj : j.starttime = q.oldestjobcreationtime ∨ j.starttime = q.youngestjobcreationtime) :
    j ∉ removed := by
  intro hm
  have hnot := any_eq_false.mp hn j hm
  apply hnot
  rw [Bool.or_eq_true, decide_eq_true_eq, decide_eq_true_eq]
  rcases hj with hj | hj
  · exact .inl (hj ▸ le_refl _)
  · exact .inr (hj ▸ le_refl _)

/-- A rebuild finds the extremes of what is left, and unsets neither time. -/
theorem Redated.ages (h : Redated left q') (hm : Moderate left) : Ages q' left where
  dated := fun hne => by
    rw [h.oldest, h.youngest]
    exact ⟨isLeast_earliest hm.ordinary hne, isGreatest_latest hm.ordinary hne⟩
  unset := fun hn hz => by
    rw [h.youngest, hn] at hz
    exact absurd hz (by decide)

/-- **A removal keeps the times right.** -/
theorem Ages.remove (h : Ages q jobs) (hm : Moderate jobs)
    (hp : jobs.Perm (removed ++ left)) (hda : DatesFollow q removed left q') :
    Ages q' left := by
  have hle : ∀ j ∈ left, j ∈ jobs := fun j hj =>
    hp.mem_iff.mpr (mem_append_right _ hj)
  rcases hda with hr | ⟨hn, ha⟩
  · exact hr.ages fun j hj => hm j (hle j hj)
  -- no rebuild: the jobs with the extreme times are still there
  have ho : q'.oldestjobcreationtime = q.oldestjobcreationtime := ha.oldest
  have hy : q'.youngestjobcreationtime = q.youngestjobcreationtime := ha.youngest
  have hs : ∀ j ∈ jobs, (j.starttime = q.oldestjobcreationtime
      ∨ j.starttime = q.youngestjobcreationtime) → j ∈ left := by
    intro j hj he
    rcases mem_append.mp (hp.mem_iff.mp hj) with hre | hj
    · exact absurd hre (not_mem_removed hn he)
    · exact hj
  have hsu : startTimes left ⊆ startTimes jobs := by
    rintro t ⟨j, hj, rfl⟩
    exact ⟨j, hle j hj, rfl⟩
  constructor
  · intro hne
    obtain ⟨j, hj⟩ := exists_mem_of_ne_nil left hne
    have hd := h.dated (ne_nil_of_mem (hle j hj))
    obtain ⟨k, hk, hke⟩ := hd.oldest.1
    obtain ⟨l, hl, hlq⟩ := hd.youngest.1
    rw [ho, hy]
    exact ⟨⟨⟨k, hs k hk (.inl hke), hke⟩, fun t ht => hd.oldest.2 (hsu ht)⟩,
      ⟨⟨l, hs l hl (.inr hlq), hlq⟩, fun t ht => hd.youngest.2 (hsu ht)⟩⟩
  · intro hni
    rw [ho, hy]
    refine h.unset ?_
    by_contra hne
    obtain ⟨k, hk, hke⟩ := (h.dated hne).oldest.1
    have hme := hs k hk (.inl hke)
    rw [hni] at hme
    cases hme

def AtAge (addr : String) (st : RStore) (q : RetrieveQueue) : Prop :=
  Exact addr st q ∧ Ages q (queuedJobs st q.queueshards)
    ∧ Moderate (queuedJobs st q.queueshards)

/-- A round keeps the times right. -/
theorem removeRound_atAge :
    RoundSpec (fun q : RetrieveQueue => q.queueshards) (removeRound addr)
      (AtAge addr) X := by
  intro addresses done p todo q m Post hag hps hpo
  obtain ⟨he, ha, hm⟩ := hag
  refine wp_removeRound he hps ?_
  intro s q' m' hs he' har hat hp hd
  refine hpo s q' m' hs ⟨he', ha.remove hm hp hd, ?_⟩ har hat
  exact fun j hj => hm j (hp.mem_iff.mpr (mem_append_right _ hj))

/-! ## Histories -/

/-- The jobs an addition of the call brings have moderate start times. -/
def ModerateCall : Call JobToAdd → Prop
  | .add jobsToAdd => ∀ j ∈ jobsToAdd, ModerateTime j.startTime
  | .remove _ => True

instance (c : Call JobToAdd) : Decidable (ModerateCall c) :=
  match c with
  | .add _ => inferInstanceAs (Decidable (∀ _ ∈ _, _))
  | .remove _ => isTrue trivial

/-- The addition does not fill a drained queue whose youngest creation time is set. -/
def NotRefilledAt (addr : String) (st : RStore) : Call JobToAdd → Prop
  | .add jobsToAdd => ∀ q, st addr = some (.queue q) →
      jobsToAdd = [] ∨ q.queueshards ≠ [] ∨ q.youngestjobcreationtime = 0
  | .remove _ => True

instance (addr : String) (st : RStore) (c : Call JobToAdd) :
    Decidable (NotRefilledAt addr st c) :=
  match c with
  | .add _ => inferInstanceAs (Decidable (∀ _, _ → _))
  | .remove _ => isTrue trivial

/-- Moderate start times, no shard split twice, no drained queue filled again. -/
def AgesAt (addr : String) (st : RStore) (c : Call JobToAdd) : Prop :=
  ModerateCall c ∧ SplitsOnceAt addr st c ∧ NotRefilledAt addr st c

instance (addr : String) (st : RStore) (c : Call JobToAdd) :
    Decidable (AgesAt addr st c) :=
  inferInstanceAs (Decidable (_ ∧ _ ∧ _))

/-- The store holds a queue with the jobs of `queued` and the right times. -/
def HoldsAtAge (addr : String) (st : RStore) (queued : List RetrieveJobPointer) : Prop :=
  ∃ q, AtAge addr st q ∧ (queuedJobs st q.queueshards).Perm queued

theorem Exact.queuedJobs_ne_nil (h : Exact addr st q) (hps : q.queueshards ≠ []) :
    queuedJobs st q.queueshards ≠ [] := by
  obtain ⟨p, hp⟩ := exists_mem_of_ne_nil _ hps
  obtain ⟨s, hs, -, hne⟩ := h.pointers p hp
  obtain ⟨j, hj⟩ := exists_mem_of_ne_nil _ hne
  have hm : j ∈ queuedJobs st q.queueshards := by
    refine mem_flatMap.mpr ⟨p, hp, ?_⟩
    rw [jobsAt_of_shard hs.stored]
    exact hj
  exact ne_nil_of_mem hm

/-- **A CALL KEEPS THE TIMES RIGHT.** -/
theorem HoldsAtAge.call {c : Call JobToAdd} {queued : List RetrieveJobPointer}
    (h : HoldsAtAge addr m.store queued) (hn : (queued.map (·.address)).Nodup)
    (hadm : c.Admissible ops.toPointer queued) (hok : AgesAt addr m.store c) :
    wp (ops.call addr c)
      (fun _ m' => HoldsAtAge addr m'.store (c.effect ops.toPointer queued))
      (fun _ _ => True) m := by
  obtain ⟨q, ⟨he, ha, hm⟩, hp⟩ := h
  obtain ⟨hti, ho, hf⟩ := hok
  rw [QueueOps.call, wp_bind, wp_fetchQueue he.queue]
  cases c with
  | add jobsToAdd =>
    have har := nodup_of_add hp hadm hn
    refine wp_addJobsAndCommit he (ho q he.queue) har (fun _ _ => trivial) (fun _ _ _ => trivial) ?_
    intro q' m' he' hp' _ hpl
    obtain ⟨new, hnew, hag⟩ := hpl.aged
    have hnt : ∀ j ∈ new, ModerateTime j.startTime := fun j hj =>
      hti j (hnew.mem_iff.mp hj)
    have hf' : new = [] ∨ queuedJobs m.store q.queueshards ≠ []
        ∨ q.youngestjobcreationtime = 0 := by
      rcases hf q he.queue with hni | hps | hy
      · exact .inl (perm_nil.mp (hni ▸ hnew))
      · exact .inr (.inl (he.queuedJobs_ne_nil hps))
      · exact .inr (.inr hy)
    have hal : (queuedJobs m.store q.queueshards ++ new.map (·.toPointer)).Perm
        (queuedJobs m'.store q'.queueshards) :=
      ((hnew.map _).append_left _).trans hp'.symm
    refine ⟨q', ⟨he', (ha.add hm hnt hf' hag).perm hal, ?_⟩, hp'.trans (hp.append_right _)⟩
    refine Moderate.perm ?_ hal
    intro j hj
    rcases mem_append.mp hj with hj | hj
    · exact hm j hj
    obtain ⟨b, hb, rfl⟩ := mem_map.mp hj
    show ModerateTime b.startTime.toUInt64.toInt64
    exact hnt b hb
  | remove jobsToRemove =>
    refine wp_removeLoop removeRound_atAge (fun _ _ hage => hage.1.nodup) _ jobsToRemove 0
      ⟨he, ha, hm⟩ (by simp) ((hp.map _).nodup_iff.mpr hn) ?_
    intro q' m' ha' hqu
    refine ⟨q', ha', ?_⟩
    rw [hqu]
    exact hp.filter _

/-- The recorded creation times are the extremes of the start times of the queued jobs. -/
def AgesExact (addr : String) (st : RStore) (queued : List RetrieveJobPointer) : Prop :=
  ∃ q, st addr = some (.queue q)
    ∧ (queued ≠ [] → Dated q.oldestjobcreationtime q.youngestjobcreationtime queued)

/-- **THE RECORDED TIMES ARE THE EXTREMES OF THE START TIMES** while additions neither split a
shard twice nor fill a drained queue again. -/
theorem ages_exact_of_history {queued : List RetrieveJobPointer}
    (h : History ops addr (AgesAt addr) st queued) :
    AgesExact addr st queued := by
  have hh : HoldsAtAge addr st queued := by
    refine h.invariant ?_ ?_
    · rintro st q hq ⟨vid, maxShardSize, -, rfl⟩
      exact ⟨_, ⟨initialized_exact hq, ⟨fun hne => absurd rfl hne, fun _ _ => rfl⟩,
        fun j hj => by cases hj⟩, List.Perm.refl _⟩
    · intro st queued c agent hi hn hadm hok
      exact HoldsAtAge.call hi hn hadm hok
  obtain ⟨q, ⟨he, ha, -⟩, hp⟩ := hh
  exact ⟨q, he.queue, (ha.perm hp).dated⟩

def startingAt (address : String) (fSeq : UInt64) (startTime : Int64) : JobToAdd :=
  { sampleJob address fSeq with startTime := startTime }

def removeYoungest : List (AgentReference × Call JobToAdd) :=
  [(⟨"agent", 0⟩, .add [startingAt "a" 1 7, startingAt "b" 10 3]),
   (⟨"agent", 10⟩, .add [startingAt "c" 4 9]),
   (⟨"agent", 20⟩, .remove ["c"])]

theorem ages_exact_remove_youngest :
    AgesExact "queue" (ops.replay "queue" removeYoungest (initialStore 2))
      [(startingAt "a" 1 7).toPointer, (startingAt "b" 10 3).toPointer] :=
  ages_exact_of_history
    ((initialStore_history _ 2 (by decide)).replay removeYoungest (by decide +kernel))

def refill : List (AgentReference × Call JobToAdd) :=
  [(⟨"agent", 0⟩, .add [startingAt "a" 1 7]),
   (⟨"agent", 10⟩, .remove ["a"]),
   (⟨"agent", 20⟩, .add [startingAt "b" 2 8])]

def recordedYoungest (st : RStore) : Option UInt64 :=
  match st "queue" with
  | some (.queue q) => some q.youngestjobcreationtime
  | _ => none

/-- Without the condition: the only job of the queue started at 8, and the recorded youngest
time is 2^63. -/
theorem refilled_queue_keeps_sentinel :
    ∃ st queued, History ops "queue" (fun _ c => ModerateCall c) st queued
      ∧ ¬ AgesExact "queue" st queued := by
  refine ⟨ops.replay "queue" refill (initialStore 2), ops.expected refill [],
    (initialStore_history _ 2 (by decide)).replay refill (by decide +kernel), ?_⟩
  rintro ⟨q, hq, ha⟩
  have hr : recordedYoungest (ops.replay "queue" refill (initialStore 2)) = some (2 ^ 63) := by
    decide +kernel
  rw [recordedYoungest, hq, Option.some.injEq] at hr
  obtain ⟨j, hj, hje⟩ := (ha (by decide)).youngest.1
  rw [hr] at hje
  have hal : ∀ j ∈ ops.expected refill [], j.starttime ≠ 2 ^ 63 := by decide +kernel
  exact hal j hj hje

end TapeArchive.Objectstore.RetrieveQueue
