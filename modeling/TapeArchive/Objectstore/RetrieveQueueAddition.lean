/-
  **AN ADDITION TO AN EXACT RETRIEVE QUEUE.**

  The loop over the shards of the plan (`wp_applyShards`) and the whole of
  `addJobsAndCommit` (`wp_addJobsAndCommit`), when no shard is split twice.
  A shard that would come out empty (not `Fed`) or the name of a new shard that
  is taken (not `Fresh`) can stop it.
-/
import TapeArchive.Objectstore.RetrieveQueueShardStep

namespace TapeArchive.Objectstore.RetrieveQueue

open Lib List

variable {addr : String} {st st' : RStore} {q q' : RetrieveQueue}
variable {done todo : List RetrieveQueueShardPointer} {p p' : RetrieveQueueShardPointer}
variable {pending : Bool}
variable {X : Exn → RMachine → Prop} {Post : RetrieveQueue → RMachine → Prop} {m : RMachine}

/-! ## The whole plan -/

/-- Every shard of the plan gets a job; `taken` go to a new shard before it. -/
def fed (st : RStore) (taken : RetrieveJobPointer → Bool) : List ShardForAddition → Bool
  | [] => true
  | shard :: rest =>
      if shard.newShard then
        (match rest with
          | source :: _ =>
              (jobsAt st source.address).any shard.covers || !shard.jobsToAdd.isEmpty
          | [] => !shard.jobsToAdd.isEmpty)
        && fed st shard.covers rest
      else
        ((jobsAt st shard.address).any (fun j => !taken j) || !shard.jobsToAdd.isEmpty)
        && fed st (fun _ => false) rest

variable {shard source : ShardForAddition}

theorem fed_split (h : shard.newShard = true)
    (rest : List ShardForAddition) (taken : RetrieveJobPointer → Bool) :
    fed st taken (shard :: source :: rest)
      = (((jobsAt st source.address).any shard.covers || !shard.jobsToAdd.isEmpty)
        && fed st shard.covers (source :: rest)) := by
  rw [fed.eq_def]
  simp only [h, if_true]

variable {shard : ShardForAddition}

theorem fed_old (h : shard.newShard = false)
    (rest : List ShardForAddition) (taken : RetrieveJobPointer → Bool) :
    fed st taken (shard :: rest)
      = (((jobsAt st shard.address).any (fun j => !taken j) || !shard.jobsToAdd.isEmpty)
        && fed st (fun _ => false) rest) := by
  rw [fed.eq_def]
  simp only [h, Bool.false_eq_true, if_false]

variable {rest : List ShardForAddition}

/-- What each shard of the plan comes out with. `taken` is as for `fed`. -/
def filling (st : RStore) (taken : RetrieveJobPointer → Bool) :
    List ShardForAddition → List (List RetrieveJobPointer)
  | [] => []
  | shard :: rest =>
      if shard.newShard then
        (match rest with
          | source :: _ => (jobsAt st source.address).filter shard.covers ++ shard.newJobs
          | [] => shard.newJobs) :: filling st shard.covers rest
      else
        ((jobsAt st shard.address).filter (fun j => !taken j) ++ shard.newJobs)
          :: filling st (fun _ => false) rest

theorem filling_split (h : shard.newShard = true)
    (rest : List ShardForAddition) (taken : RetrieveJobPointer → Bool) :
    filling st taken (shard :: source :: rest)
      = ((jobsAt st source.address).filter shard.covers ++ shard.newJobs)
        :: filling st shard.covers (source :: rest) := by
  rw [filling.eq_def]
  simp only [h, if_true]

theorem filling_old (h : shard.newShard = false)
    (rest : List ShardForAddition) (taken : RetrieveJobPointer → Bool) :
    filling st taken (shard :: rest)
      = ((jobsAt st shard.address).filter (fun j => !taken j) ++ shard.newJobs)
        :: filling st (fun _ => false) rest := by
  rw [filling.eq_def]
  simp only [h, Bool.false_eq_true, if_false]

/-- A plan is not fed when it leaves a shard with nothing. -/
theorem nil_mem_filling (taken : RetrieveJobPointer → Bool) :
    [] ∈ filling st taken rest ↔ fed st taken rest = false := by
  induction rest generalizing taken with
  | nil => simp [filling, fed]
  | cons shard rest ih =>
    rw [filling.eq_def, fed.eq_def]
    cases hs : shard.newShard <;> cases rest <;>
      simp [hs, ih, ShardForAddition.newJobs, -Bool.and_eq_false_imp, Bool.and_eq_false_iff]

/-- Only the shards of the plan matter. -/
theorem filling_congr (hp : Paired rest) (hnew : ∀ s ∈ rest, s.newShard = s.fromSplit)
    (h : ∀ s ∈ rest, s.newShard = false → jobsAt st' s.address = jobsAt st s.address)
    (taken : RetrieveJobPointer → Bool) : filling st' taken rest = filling st taken rest := by
  induction rest generalizing taken with
  | nil => rfl
  | cons shard rest ih =>
    have hrest := ih hp.2 (fun s hs => hnew s (.tail _ hs))
      (fun s hs => h s (.tail _ hs))
    cases hsh : shard.newShard with
    | true =>
      obtain ⟨source, rest', rfl, hsource, -, -⟩ := hp.1 ((hnew shard mem_cons_self).symm.trans hsh)
      rw [filling_split hsh, filling_split hsh, hrest, h source (by simp) hsource]
    | false =>
      rw [filling_old hsh, filling_old hsh, hrest, h shard mem_cons_self hsh]

/-- Pointers keep holding what they hold while their shards are left alone. -/
theorem forall₂_holding_congr {contents : List (List RetrieveJobPointer)}
    (h : List.Forall₂ (Holding st) contents done)
    (hs : ∀ p ∈ done, jobsAt st' p.address = jobsAt st p.address) :
    List.Forall₂ (Holding st') contents done := by
  induction h with
  | nil => exact .nil
  | cons hp _ ih =>
    have heq := hs _ mem_cons_self
    refine .cons ⟨?_, ?_⟩ (ih fun p hp => hs p (.tail _ hp))
    · rw [heq]
      exact hp.perm
    · rw [heq]
      exact hp.range

/-- No name of a shard that is still to be given out is taken. -/
def Fresh (m : RMachine) (q : RetrieveQueue) : Prop :=
  NamesFree ("RetrieveQueueShard-" ++ q.vid) m

theorem Fresh.nextShard {m : RMachine} (h : Fresh m q) : m.store (nextShard m q) = none :=
  NamesFree.next h

/-- Writing existing objects and the next new one keeps the other names free. -/
theorem Fresh.step {m m' : RMachine} (h : Fresh m q) (hq : q'.vid = q.vid)
    (hm : m'.mem = m.mem ∨ m'.mem = (bump m).mem)
    (hst : ∀ b, m.store b = none → (m'.mem = (bump m).mem → b ≠ RetrieveQueue.nextShard m q) →
      m'.store b = none) : Fresh m' q' := by
  unfold Fresh at h ⊢
  rw [hq]
  refine h.step ?_ ?_ ?_
  · rcases hm with hm | hm <;> rw [hm]
    rfl
  · rcases hm with hm | hm <;> rw [hm]
    exact Nat.le_succ _
  · intro n hn hno
    refine hst _ hno ?_
    intro hm heq
    rw [hm] at hn
    have := AgentReference.idAt_inj heq
    change m.mem.m_nextId + 1 ≤ n at hn
    omega

def plannedJobs (plan : List ShardForAddition) : List RetrieveJobPointer :=
  plan.flatMap (·.newJobs)

theorem nodup_jobsAt {new : List RetrieveJobPointer}
    (h : ((queuedJobs st (done ++ p :: todo) ++ new).map (·.address)).Nodup) :
    ((jobsAt st p.address).map (·.address)).Nodup := by
  refine h.sublist (List.Sublist.map _ ?_)
  rw [queuedJobs_append, queuedJobs_cons]
  exact ((sublist_append_left _ _).trans (sublist_append_right _ _)).trans (sublist_append_left _ _)

/-- The loop is through with `before` and `done`, and has yet to come to `rest` and `todo`. -/
structure Position (plan before rest : List ShardForAddition)
    (done todo : List RetrieveQueueShardPointer) (pending : Bool) : Prop where
  plan_eq : plan = before ++ rest
  length_eq : before.length = done.length
  nodes : ((existing plan).map (·.1)).Nodup
  paired : Paired rest
  new_eq : ∀ s ∈ rest, s.newShard = s.fromSplit
  todo_eq : (existing rest).map (·.2) = todo.map (·.address)
  head : pending = true → ∃ s rest', rest = s :: rest' ∧ s.newShard = false

section Position

variable {plan before rest : List ShardForAddition} {shard : ShardForAddition}

/-- At the end no pointer is left. -/
theorem Position.nil (h : Position plan before [] done todo pending) :
    todo = [] ∧ pending = false := by
  refine ⟨by simpa using h.todo_eq.symm, ?_⟩
  cases pending with
  | false => rfl
  | true =>
    obtain ⟨s, rest', heq, -⟩ := h.head rfl
    cases heq

theorem Position.old (h : Position plan before (shard :: rest) done todo pending)
    (hsh : shard.newShard = false) :
    ∃ p todo', todo = p :: todo' ∧ shard.fromSplit = false ∧ shard.address = p.address
      ∧ ∀ p', Position plan (before ++ [shard]) rest (done ++ [p']) todo' false := by
  have htd := h.todo_eq
  rw [existing_cons, if_neg (by simp [hsh])] at htd
  cases todo with
  | nil => simp at htd
  | cons p todo =>
    simp only [singleton_append, map_cons, List.cons.injEq] at htd
    refine ⟨p, todo, rfl, ?_, htd.1, fun p' => ⟨?_, ?_, h.nodes, h.paired.2, ?_, htd.2, ?_⟩⟩
    · rw [← h.new_eq shard mem_cons_self, hsh]
    · simpa using h.plan_eq
    · simp [h.length_eq]
    · exact fun s hs => h.new_eq s (.tail _ hs)
    · exact fun hf => by cases hf

/-- A new shard is followed by its source, which has the next pointer. -/
theorem Position.split (h : Position plan before (shard :: rest) done todo pending)
    (hsh : shard.newShard = true) :
    ∃ source rest' p todo', rest = source :: rest' ∧ todo = p :: todo' ∧ pending = false
      ∧ shard.fromSplit = true ∧ source.newShard = false ∧ source.node = shard.splitSource
      ∧ source.address = p.address
      ∧ ∀ pnew p', p'.address = p.address →
          Position plan (before ++ [shard]) rest (done ++ [pnew]) (p' :: todo') true := by
  have hf : shard.fromSplit = true := by
    rw [← h.new_eq shard mem_cons_self, hsh]
  obtain ⟨source, rest', rfl, hsource, hn, -⟩ := h.paired.1 hf
  have htd := h.todo_eq
  rw [existing_cons, if_pos hsh, nil_append, existing_cons, if_neg (by simp [hsource])]
    at htd
  have hp : pending = false := by
    cases pending with
    | false => rfl
    | true =>
      obtain ⟨s, rest'', heq, hs⟩ := h.head rfl
      rw [(List.cons.inj heq).1, hs] at hsh
      cases hsh
  cases todo with
  | nil => simp at htd
  | cons p todo =>
    simp only [singleton_append, map_cons, List.cons.injEq] at htd
    refine ⟨source, rest', p, todo, rfl, rfl, hp, hf, hsource, hn, htd.1, ?_⟩
    intro pnew p' hp'
    refine ⟨by simpa using h.plan_eq, by simp [h.length_eq], h.nodes, h.paired.2, ?_, ?_, ?_⟩
    · exact fun s hs => h.new_eq s (.tail _ hs)
    · rw [existing_cons, if_neg (by simp [hsource])]
      simp [hp', htd.1, htd.2]
    · exact fun _ => ⟨source, rest', rfl, hsource⟩

/-- The shards of the rest of the plan are those of the pointers to come. -/
theorem Position.address_mem (h : Position plan before rest done todo pending)
    {s : ShardForAddition} (hs : s ∈ rest) (hnew : s.newShard = false) :
    ∃ p ∈ todo, s.address = p.address := by
  have hm : s.address ∈ todo.map (·.address) := by
    rw [← h.todo_eq]
    exact mem_map.mpr ⟨_, mem_existing hs hnew, rfl⟩
  obtain ⟨p, hp, heq⟩ := mem_map.mp hm
  exact ⟨p, hp, heq.symm⟩

end Position

variable {plan : List ShardForAddition}

/-- **The loop over the shards of the plan**, when each new shard precedes its source. -/
theorem wp_applyShards (rest : List ShardForAddition) :
    ∀ (before : List ShardForAddition) (done todo : List RetrieveQueueShardPointer)
      (contents : List (List RetrieveJobPointer))
      {pending : Bool} {q : RetrieveQueue} {m : RMachine},
      Position plan before rest done todo pending →
      Adding addr m.store done todo pending q →
      ((queuedJobs m.store (done ++ todo) ++ plannedJobs rest).map (·.address)).Nodup →
      (∀ p ∈ done, jobsAt m.store p.address ≠ []) →
      List.Forall₂ (Holding m.store) contents done →
      ([] ∈ filling m.store (fun _ => false) rest → ∀ m', X (.undefined .emptyShardSummary) m') →
      (¬ Fresh m q → ∀ a m', X (.backend a) m') →
      (∀ q' m', Exact addr m'.store q' → (queuedJobs m'.store q'.queueshards).Perm
          (queuedJobs m.store (done ++ todo) ++ plannedJobs rest) →
        SameQueue q q' → Aged q (rest.flatMap (·.jobsToAdd)) q' →
        List.Forall₂ (Holding m'.store) (contents ++ filling m.store (fun _ => false) rest)
          q'.queueshards → Post q' m') →
      wp (applyShards addr plan done.length rest q) Post X m := by
  induction rest with
  | nil =>
    intro before done todo contents pending q m hpos h _ hne hh _ _ hpo
    obtain ⟨rfl, rfl⟩ := hpos.nil
    have hq : q.queueshards = done := by simpa using h.queueshards
    rw [applyShards, wp_pure]
    refine hpo q m (h.exact hne) ?_ ⟨rfl, rfl⟩ ⟨rfl, rfl⟩ ?_
    · simp [hq, plannedJobs]
    · rw [hq]
      simpa [filling] using hh
  | cons shard rest ih =>
    intro before done todo contents pending q m hpos h hj hne hh hX hB hpo
    -- the loop goes on from the pointer `p'` to what this shard comes out with
    have next : ∀ {q' p' todo' pending' m' content},
        Position plan (before ++ [shard]) rest (done ++ [p']) todo' pending' →
        Adding addr m'.store (done ++ [p']) todo' pending' q' →
        (queuedJobs m'.store (done ++ p' :: todo')).Perm
          (queuedJobs m.store (done ++ todo) ++ shard.newJobs) →
        (∀ p ∈ done, jobsAt m'.store p.address = jobsAt m.store p.address) →
        jobsAt m'.store p'.address ≠ [] → Holding m'.store content p' →
        filling m.store (fun _ => false) (shard :: rest)
          = content :: filling m'.store (fun _ => false) rest →
        (Fresh m q → Fresh m' q') → SameQueue q q' → Aged q shard.jobsToAdd q' →
        wp (applyShards addr plan (done.length + 1) rest q') Post X m' := by
      intro q' p' todo' pending' m' content hpo' ha hp hsa hn hho hfi hfh hq' hag
      have hqu : (queuedJobs m'.store ((done ++ [p']) ++ todo') ++ plannedJobs rest).Perm
          (queuedJobs m.store (done ++ todo) ++ plannedJobs (shard :: rest)) := by
        have := hp.append_right (plannedJobs rest)
        simpa [plannedJobs] using this
      have hle : done.length + 1 = (done ++ [p']).length := by simp
      rw [hle]
      refine ih (before ++ [shard]) (done ++ [p']) todo' (contents ++ [content]) hpo' ha
        ((hqu.map _).nodup_iff.mpr hj) ?_ ?_ ?_ (fun hf => hB fun hf' => hf (hfh hf')) ?_
      · intro p1 hp1
        rcases mem_append.mp hp1 with hp1 | hp1
        · rw [hsa p1 hp1]
          exact hne p1 hp1
        · rw [mem_singleton.mp hp1]
          exact hn
      · exact rel_append (forall₂_holding_congr hh hsa) (.cons hho .nil)
      · exact fun hm => hX (hfi ▸ .tail _ hm)
      · intro q'' m'' hex hp'' hq'' ha'' hh''
        refine hpo q'' m'' hex (hp''.trans hqu) ?_ (hag.trans ha'') ?_
        · exact ⟨hq''.vid.trans hq'.vid, hq''.maxshardsize.trans hq'.maxshardsize⟩
        · rw [hfi]
          simpa using hh''
    rw [applyShards, wp_bind]
    cases hsh : shard.newShard with
    | true =>
      obtain ⟨source, rest', p, todo, rfl, rfl, rfl, hfm, hsource, hno, har, hnext⟩ :=
        hpos.split hsh
      obtain rfl := hpos.plan_eq
      refine wp_applyShard_split hpos.length_eq hpos.nodes hsh hfm hsource hno har h
        (nodup_jobsAt hj) ?_ (fun hso => hB (fun hfh => hso hfh.nextShard) _) ?_
      · intro he
        refine hX ?_ _
        rw [filling_split hsh, har, he]
        exact mem_cons_self
      · intro q' pnew p' m' hpn hp' ha hp hn hsr hfr hm hq' hph hag
        have hn' : ((done ++ pnew :: p' :: todo).map (·.address)).Nodup := by
          simpa using ha.nodup
        have hpo' := hnext pnew p' hp'
        -- the shards before and after this pair are as they were
        have hsa : ∀ p1 ∈ done ++ todo, jobsAt m'.store p1.address = jobsAt m.store p1.address := by
          intro p1 hp1
          have hm1 : p1 ∈ done ++ p :: todo ∧ p1 ∈ done ++ p' :: todo := by
            simp only [mem_append, mem_cons] at hp1 ⊢
            tauto
          simp only [jobsAt, hfr _ (h.address_ne hm1.1) (address_ne_of_nodup h.nodup hp1)
            (address_ne_of_nodup hn' hm1.2)]
        have hl : ∀ s ∈ rest', s.newShard = false →
            jobsAt m'.store s.address = jobsAt m.store s.address := by
          intro s hs hs'
          obtain ⟨_, _, hc, _, _, hnt'⟩ := hpo'.old hsource
          obtain ⟨p1, hp1, heq⟩ := (hnt' p').address_mem hs hs'
          rw [← (List.cons.inj hc).2] at hp1
          rw [heq]
          exact hsa p1 (mem_append_right _ hp1)
        refine next hpo' ha hp (fun p1 hp1 => hsa p1 (mem_append_left _ hp1)) hn hph ?_ ?_ hq' hag
        · -- what the source has left is what the new shard did not take
          rw [filling_split hsh, filling_old hsource, filling_old hsource, har, hsr,
            filling_congr hpo'.paired.2 (fun s hs => hpo'.new_eq s (.tail _ hs)) hl]
          simp
        · refine fun hf => hf.step hq'.vid (.inr hm) ?_
          intro b hb hne'
          rw [hfr b (h.ne_queue hb) (h.ne_shard (by simp) hb) (hpn ▸ hne' hm), hb]
    | false =>
      obtain ⟨p, todo, rfl, hfm, har, hnext⟩ := hpos.old hsh
      refine wp_applyShard_old h hsh hfm har ?_ ?_
      · intro he
        refine hX ?_ _
        rw [filling_old hsh, har]
        simp [append_eq_nil_iff.mp he]
      · intro q' p' m' hp' ha hp hn hfr hm hq' hps hag
        have hpo' := hnext p'
        have hsa : ∀ p1 ∈ done ++ todo, jobsAt m'.store p1.address = jobsAt m.store p1.address := by
          intro p1 hp1
          have hm1 : p1 ∈ done ++ p :: todo := by
            simp only [mem_append, mem_cons] at hp1 ⊢
            tauto
          simp only [jobsAt, hfr _ (h.address_ne hm1) (address_ne_of_nodup h.nodup hp1)]
        have hl : ∀ s ∈ rest, s.newShard = false →
            jobsAt m'.store s.address = jobsAt m.store s.address := by
          intro s hs hs'
          obtain ⟨p1, hp1, heq⟩ := hpo'.address_mem hs hs'
          rw [heq]
          exact hsa p1 (mem_append_right _ hp1)
        refine next hpo' ha hp (fun p1 hp1 => hsa p1 (mem_append_left _ hp1))
          (hp' ▸ hn) hps ?_ ?_ hq' hag
        · rw [filling_old hsh, har, filling_congr hpo'.paired hpo'.new_eq hl]
          simp
        refine fun hf => hf.step hq'.vid (.inl hm) ?_
        intro b hb _
        rw [hfr b (h.ne_queue hb) (h.ne_shard (by simp) hb), hb]

/-! ## The whole addition -/

/-- Every shard of the plan for the batch comes out with a job. -/
def Fed (st : RStore) (q : RetrieveQueue) (jobsToAdd : List JobToAdd) : Prop :=
  (match layout q.maxshardsize q.queueshards jobsToAdd with
    | .ok plan => fed st (fun _ => false) plan
    | .error _ => false) = true

instance (st : RStore) (q : RetrieveQueue) (jobsToAdd : List JobToAdd) :
    Decidable (Fed st q jobsToAdd) :=
  inferInstanceAs (Decidable (_ = true))

variable {batch : List JobToAdd}

theorem Planned.plannedJobs_perm {olds : List (Nat × String)} (h : Planned olds batch plan) :
    (plannedJobs plan).Perm (batch.map (·.toPointer)) := by
  have : plannedJobs plan = (plan.flatMap (·.jobsToAdd)).map (·.toPointer) := by
    simp [plannedJobs, ShardForAddition.newJobs, map_flatMap]
  rw [this]
  exact h.jobs_perm.map _

theorem numbered_nodup (ps : List RetrieveQueueShardPointer) : ((numbered ps).map (·.1)).Nodup := by
  have : (numbered ps).map (·.1) = List.range ps.length :=
    ext_getElem (by simp [numbered]) (fun i _ _ => by simp [numbered])
  rw [this]
  exact nodup_range

/-- At the start of the plan. -/
theorem Planned.position {ps : List RetrieveQueueShardPointer}
    (h : Planned (numbered ps) batch plan) (hp : Paired plan) :
    Position plan [] plan [] ps false where
  plan_eq := rfl
  length_eq := rfl
  nodes := by
    rw [h.existing_eq]
    exact numbered_nodup ps
  paired := hp
  new_eq := h.new_eq
  todo_eq := by
    rw [h.existing_eq]
    exact ext_getElem (by simp [numbered]) (fun i _ _ => by simp [numbered])
  head := fun hf => by cases hf

/-- `q'` has the creation times of the batch too, and each shard what the plan gives it. -/
structure FollowsPlan (st : RStore) (q : RetrieveQueue) (batch : List JobToAdd) (st' : RStore)
    (q' : RetrieveQueue) : Prop where
  aged : ∃ new : List JobToAdd, new.Perm batch ∧ Aged q new q'
  holding : batch ≠ [] → ∃ plan, layout q.maxshardsize q.queueshards batch = .ok plan
    ∧ List.Forall₂ (Holding st') (filling st (fun _ => false) plan) q'.queueshards

/-- **AN ADDITION FROM AN EXACT QUEUE ENDS IN AN EXACT QUEUE WITH THE BATCH ADDED.** -/
theorem wp_addJobsAndCommit (h : Exact addr m.store q) (ho : SplitsOnce q batch)
    (hj : ((queuedJobs m.store q.queueshards ++ batch.map (·.toPointer)).map (·.address)).Nodup)
    (hX : ¬ Fed m.store q batch → ∀ m', X (.undefined .emptyShardSummary) m')
    (hB : ¬ Fresh m q → ∀ a m', X (.backend a) m')
    (hpo : ∀ q' m', Exact addr m'.store q' → (queuedJobs m'.store q'.queueshards).Perm
        (queuedJobs m.store q.queueshards ++ batch.map (·.toPointer)) →
      SameQueue q q' → FollowsPlan m.store q batch m'.store q' → Post q' m') :
    wp (addJobsAndCommit addr batch q) Post X m := by
  unfold addJobsAndCommit
  cases batch with
  | nil =>
    exact hpo q m h (by simp) ⟨rfl, rfl⟩ ⟨⟨[], .nil, rfl, rfl⟩, fun hne => absurd rfl hne⟩
  | cons j batch =>
    rw [if_neg (by simp), wp_bind]
    by_cases hps : q.queueshards = []
    · obtain ⟨s, hl, hnew, hfr, hs⟩ := layout_empty q.maxshardsize (cons_ne_nil j batch)
      have hnj : s.newJobs = (j :: batch).map (·.toPointer) := by
        rw [ShardForAddition.newJobs, hs]
      rw [hps, hl, wp_ofExcept_ok, applyShards, wp_bind]
      have hag : Adding addr m.store [] [] false q := by
        have := h.adding
        rwa [hps] at this
      refine wp_applyShard_first hag hnew hfr (by simp [hnj])
        (fun hso => hB (fun hf => hso hf.nextShard) _) ?_
      intro q' pnew m' _ ha' hpe hn _ _ hq' hho ha
      have hq'ps : q'.queueshards = [pnew] := by simpa using ha'.queueshards
      refine hpo q' m' (ha'.exact (by simpa using hn)) ?_ hq'
        ⟨⟨s.jobsToAdd, by rw [hs], ha⟩, fun _ => ⟨[s], hps ▸ hl, ?_⟩⟩
      · rw [hq'ps, hps, ← hnj]
        exact hpe
      · rw [hq'ps]
        simpa [filling, hnew] using hho
    · obtain ⟨plan, hl, hp⟩ := layout_planned q.maxshardsize hps (j :: batch)
      rw [hl, wp_ofExcept_ok]
      have hpos := hp.position (layout_paired hps ho hl)
      have hpe := hp.plannedJobs_perm.append_left (queuedJobs m.store q.queueshards)
      refine wp_applyShards plan [] [] q.queueshards [] hpos h.adding
        ((hpe.map _).nodup_iff.mpr hj) (by simp) .nil ?_ hB ?_
      · intro hfe
        refine hX ?_
        unfold Fed
        rw [hl]
        simp [(nil_mem_filling _).mp hfe]
      · intro q' m' he hqu hq' ha hh
        exact hpo q' m' he (hqu.trans hpe) hq' ⟨⟨_, hp.jobs_perm, ha⟩, fun _ => ⟨plan, hl, hh⟩⟩

/-! ## Splits that leave a job in both halves -/

/-- If `shard` is split from the one after it, both keep a stored job or are given one. -/
def splitFed (st : RStore) (shard : ShardForAddition) : List ShardForAddition → Bool
  | source :: _ =>
      !shard.fromSplit
        || (((jobsAt st source.address).any shard.covers || !shard.jobsToAdd.isEmpty)
          && ((jobsAt st source.address).any (fun j => !shard.covers j)
            || !source.jobsToAdd.isEmpty))
  | [] => true

/-- Every split of the plan leaves a job in both halves. -/
def halvesFed (st : RStore) : List ShardForAddition → Bool
  | [] => true
  | shard :: rest => splitFed st shard rest && halvesFed st rest

/-- The condition on a store, a queue and a batch. -/
def HalvesFed (st : RStore) (q : RetrieveQueue) (jobsToAdd : List JobToAdd) : Prop :=
  (match layout q.maxshardsize q.queueshards jobsToAdd with
    | .ok plan => halvesFed st plan
    | .error _ => true) = true

instance (st : RStore) (q : RetrieveQueue) (jobsToAdd : List JobToAdd) :
    Decidable (HalvesFed st q jobsToAdd) :=
  inferInstanceAs (Decidable (_ = true))

/-- When no shard is empty to begin with, only splits can leave one empty. -/
theorem fed_of_halvesFed (hp : Paired plan) (hnew : ∀ s ∈ plan, s.newShard = s.fromSplit)
    (hne : ∀ s ∈ plan, s.newShard = false → jobsAt st s.address ≠ [])
    (h : halvesFed st plan = true) :
    ∀ taken : RetrieveJobPointer → Bool,
      (∀ shard rest, plan = shard :: rest → shard.newShard = false →
        ((jobsAt st shard.address).any (fun j => !taken j) || !shard.jobsToAdd.isEmpty) = true) →
      fed st taken plan = true := by
  induction plan with
  | nil => exact fun _ _ => rfl
  | cons shard rest ih =>
    intro taken hta
    rw [halvesFed, Bool.and_eq_true] at h
    have ih' := ih hp.2 (fun s hs => hnew s (.tail _ hs))
      (fun s hs => hne s (.tail _ hs)) h.2
    cases hsh : shard.newShard with
    | true =>
      have hf := (hnew shard mem_cons_self).symm.trans hsh
      obtain ⟨source, rest', rfl, hsource, -, -⟩ := hp.1 hf
      have hh := h.1
      rw [splitFed, hf, Bool.not_true, Bool.false_or, Bool.and_eq_true] at hh
      rw [fed_split hsh, Bool.and_eq_true]
      refine ⟨hh.1, ih' _ ?_⟩
      rintro s r heq -
      obtain ⟨rfl, -⟩ := List.cons.inj heq
      exact hh.2
    | false =>
      rw [fed_old hsh, Bool.and_eq_true]
      refine ⟨hta shard rest rfl hsh, ih' _ ?_⟩
      rintro s r rfl hs
      simpa using .inl (exists_mem_of_ne_nil _ (hne s (by simp) hs))

theorem Exact.fed_of_halves (h : Exact addr st q)
    (ho : SplitsOnce q batch) (hf : HalvesFed st q batch) : Fed st q batch := by
  unfold HalvesFed at hf
  unfold Fed
  by_cases hps : q.queueshards = []
  · by_cases hb : batch = []
    · rw [hps, hb]
      rfl
    · obtain ⟨s, hl, hnew, -, hs⟩ := layout_empty q.maxshardsize hb
      rw [hps, hl]
      simp [fed.eq_def, hnew, hs, hb]
  · obtain ⟨plan, hl, hp⟩ := layout_planned q.maxshardsize hps batch
    rw [hl] at hf ⊢
    have hne : ∀ s ∈ plan, s.newShard = false → jobsAt st s.address ≠ [] := by
      intro s hs hold
      have hm := mem_existing hs hold
      rw [hp.existing_eq] at hm
      obtain ⟨i, hi, heq⟩ := mem_mapIdx.mp hm
      obtain ⟨t, ht, -, hn⟩ := h.pointers _ (getElem_mem hi)
      rw [Prod.mk.injEq] at heq
      rw [← heq.2, jobsAt_of_shard ht.stored]
      exact hn
    refine fed_of_halvesFed (layout_paired hps ho hl) hp.new_eq hne hf _ ?_
    rintro s r rfl hs
    simpa using .inl (exists_mem_of_ne_nil _ (hne s (by simp) hs))

end TapeArchive.Objectstore.RetrieveQueue
