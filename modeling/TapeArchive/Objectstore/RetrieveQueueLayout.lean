/-
  **WHAT THE LAYOUT OF AN ADDITION LOOKS LIKE**: it plans every job of the batch once,
  keeps the existing shards in order, and adds new ones only by splitting.

  Nothing prevents a shard from being split twice in one batch. When it is not
  (`splitsOnce`), each new shard stands right before the one it is split from.
-/
import TapeArchive.Objectstore.RetrieveQueue

namespace TapeArchive.Objectstore.RetrieveQueue

open Lib List

/-! ## One job on one shard -/

namespace ShardForAddition

variable (sfa : ShardForAddition) (j : JobToAdd)

@[simp] theorem addJob_node : (sfa.addJob j).node = sfa.node := rfl
@[simp] theorem addJob_newShard : (sfa.addJob j).newShard = sfa.newShard := rfl
@[simp] theorem addJob_fromSplit : (sfa.addJob j).fromSplit = sfa.fromSplit := rfl
@[simp] theorem addJob_toSplit : (sfa.addJob j).toSplit = sfa.toSplit := rfl
@[simp] theorem addJob_splitSource : (sfa.addJob j).splitSource = sfa.splitSource := rfl
@[simp] theorem addJob_address : (sfa.addJob j).address = sfa.address := rfl
@[simp] theorem addJob_jobsToAdd : (sfa.addJob j).jobsToAdd = sfa.jobsToAdd ++ [j] := rfl

/-- The shard `s` plays the same part in the plan as `sfa`. -/
structure SamePart (s : ShardForAddition) : Prop where
  node : s.node = sfa.node
  newShard : s.newShard = sfa.newShard
  fromSplit : s.fromSplit = sfa.fromSplit
  toSplit : s.toSplit = sfa.toSplit
  splitSource : s.splitSource = sfa.splitSource
  address : s.address = sfa.address

/-- The new shard and the rest of `sfa` after a split. -/
structure SplitInto (new old : ShardForAddition) : Prop where
  fresh : new.newShard = true
  fromSplit : new.fromSplit = true
  source : new.splitSource = sfa.node
  node : old.node = sfa.node
  newShard : old.newShard = false
  notFromSplit : old.fromSplit = false
  toSplit : old.toSplit = true
  address : old.address = sfa.address

end ShardForAddition

variable (maxShardSize : UInt64)

/-- What can happen to the shard a job lands on: it takes the job, or it is split. -/
theorem addJobToShardAndMaybeSplit_cases (j : JobToAdd) (sfa : ShardForAddition) :
    (∃ s, addJobToShardAndMaybeSplit maxShardSize j sfa = [s] ∧ sfa.SamePart s
        ∧ s.jobsToAdd = sfa.jobsToAdd ++ [j])
    ∨ (sfa.mustSplit maxShardSize = true ∧ ∃ new old,
        addJobToShardAndMaybeSplit maxShardSize j sfa = [new, old] ∧ sfa.SplitInto new old
        ∧ sfa.newShard = false ∧ sfa.fromSplit = false
        ∧ (new.jobsToAdd ++ old.jobsToAdd).Perm (sfa.jobsToAdd ++ [j])) := by
  by_cases hs : sfa.mustSplit maxShardSize = true
  · right
    have hf : sfa.newShard = false ∧ sfa.fromSplit = false := by
      simp only [ShardForAddition.mustSplit, not_or, decide_eq_true_eq] at hs
      exact ⟨by simpa using hs.2.2, by simpa using hs.2.1⟩
    have hp : (sfa.lowerHalf.jobsToAdd ++ sfa.upperHalf.jobsToAdd).Perm sfa.jobsToAdd := by
      have := filter_append_perm (fun k : JobToAdd => decide (k.fSeq ≤ sfa.middle)) sfa.jobsToAdd
      simpa only [ShardForAddition.lowerHalf, ShardForAddition.upperHalf, decide_not] using this
    refine ⟨hs, ?_⟩
    unfold addJobToShardAndMaybeSplit
    rw [if_pos hs]
    split
    · refine ⟨_, _, rfl, ⟨rfl, rfl, rfl, rfl, hf.1, hf.2, rfl, rfl⟩, hf.1, hf.2, ?_⟩
      rw [ShardForAddition.addJob_jobsToAdd, ← append_assoc]
      exact hp.append_right [j]
    · refine ⟨_, _, rfl, ⟨rfl, rfl, rfl, rfl, hf.1, hf.2, rfl, rfl⟩, hf.1, hf.2, ?_⟩
      rw [ShardForAddition.addJob_jobsToAdd, append_assoc]
      refine (List.Perm.append_left _ perm_append_comm).trans ?_
      rw [← append_assoc]
      exact hp.append_right [j]
  · left
    unfold addJobToShardAndMaybeSplit
    rw [if_neg hs]
    exact ⟨_, rfl, ⟨rfl, rfl, rfl, rfl, rfl, rfl⟩, rfl⟩

/-! ## Every job lands somewhere -/

variable {sfa : ShardForAddition}

theorem landing_eq_some {j : JobToAdd} {shards before after : List ShardForAddition}
    (h : landing j shards = some (before, sfa, after)) :
    shards = before ++ sfa :: after := by
  induction shards generalizing before with
  | nil => cases h
  | cons s rest ih =>
    cases rest with
    | nil =>
      rw [landing] at h
      split_ifs at h <;> (cases h; rfl)
    | cons next rest =>
      rw [landing] at h
      split_ifs at h
      · cases h; rfl
      · cases h; rfl
      · cases h; rfl
      · cases h; rfl
      · obtain ⟨⟨before', l⟩, hr, heq⟩ := Option.map_eq_some_iff.mp h
        cases heq
        rw [ih hr]
        rfl

variable {shards : List ShardForAddition}

/-- The last shard takes what no other takes. -/
theorem landing_isSome (j : JobToAdd) (h : shards ≠ []) : ∃ l, landing j shards = some l := by
  induction shards with
  | nil => exact absurd rfl h
  | cons s rest ih =>
    cases rest with
    | nil =>
      by_cases h1 : s.minFseq > j.fSeq
      · exact ⟨_, by rw [landing, if_pos h1]⟩
      by_cases h2 : j.fSeq ≥ s.minFseq ∧ j.fSeq ≤ s.maxFseq
      · exact ⟨_, by rw [landing, if_neg h1, if_pos h2]⟩
      · have h3 : s.maxFseq < j.fSeq := by
          by_contra hle
          exact h2 ⟨not_lt.mp h1, not_lt.mp hle⟩
        exact ⟨_, by rw [landing, if_neg h1, if_neg h2, if_pos h3]⟩
    | cons next rest =>
      obtain ⟨l, hl⟩ := ih (by simp)
      rw [landing]
      split
      · exact ⟨_, rfl⟩
      split
      · exact ⟨_, rfl⟩
      · split
        · split
          · exact ⟨_, rfl⟩
          · exact ⟨_, rfl⟩
        · rw [hl]
          exact ⟨_, rfl⟩

theorem layoutJob_eq (j : JobToAdd) (h : shards ≠ []) :
    ∃ before sfa after, landing j shards = some (before, sfa, after)
      ∧ shards = before ++ sfa :: after
      ∧ layoutJob maxShardSize shards j
          = .ok (before ++ addJobToShardAndMaybeSplit maxShardSize j sfa ++ after) := by
  obtain ⟨⟨before, sfa, after⟩, hl⟩ := landing_isSome j h
  refine ⟨before, sfa, after, hl, landing_eq_some hl, ?_⟩
  cases shards with
  | nil => exact absurd rfl h
  | cons s rest => simp only [layoutJob, hl]

/-! ## The plan of a batch -/

/-- The shards of a plan that exist already, in order: node and address. -/
def existing (plan : List ShardForAddition) : List (Nat × String) :=
  (plan.filter (fun s => !s.newShard)).map (fun s => (s.node, s.address))

@[simp] theorem existing_nil : existing [] = [] := rfl

@[simp] theorem existing_append (plan plan' : List ShardForAddition) :
    existing (plan ++ plan') = existing plan ++ existing plan' := by
  simp [existing]

theorem existing_cons (s : ShardForAddition) (plan : List ShardForAddition) : existing (s :: plan)
      = (if s.newShard then [] else [(s.node, s.address)]) ++ existing plan := by
  cases h : s.newShard <;> simp [existing, h]

variable {plan : List ShardForAddition} {s : ShardForAddition}

theorem mem_existing (hs : s ∈ plan) (h : s.newShard = false) :
    (s.node, s.address) ∈ existing plan :=
  List.mem_map.mpr ⟨s, List.mem_filter.mpr ⟨hs, by simp [h]⟩, rfl⟩

/-- What holds of every plan for a queue that has shards. -/
structure Planned (olds : List (Nat × String)) (jobs : List JobToAdd)
    (plan : List ShardForAddition) : Prop where
  existing_eq : existing plan = olds
  jobs_perm : (plan.flatMap (·.jobsToAdd)).Perm jobs
  new_eq : ∀ s ∈ plan, s.newShard = s.fromSplit
  source : ∀ s ∈ plan, s.fromSplit = true → s.splitSource ∈ olds.map (·.1)

theorem forall_mem_replace {P : ShardForAddition → Prop} {before mid after : List ShardForAddition}
    (h : ∀ s ∈ before ++ sfa :: after, P s) (hm : ∀ s ∈ mid, P s) :
    ∀ s ∈ before ++ mid ++ after, P s := by
  simp only [forall_mem_append, forall_mem_cons] at h ⊢
  exact ⟨⟨h.1, hm⟩, h.2.2⟩

variable {olds : List (Nat × String)} {before after : List ShardForAddition} {jobs : List JobToAdd}

theorem Planned.addJob
    (h : Planned olds jobs (before ++ sfa :: after)) (maxShardSize : UInt64) (j : JobToAdd) :
    Planned olds (jobs ++ [j])
      (before ++ addJobToShardAndMaybeSplit maxShardSize j sfa ++ after) := by
  have hs : sfa ∈ before ++ sfa :: after := by simp
  -- the jobs of the plan, whatever order the shard that changes gives its own
  have hj : ∀ l : List JobToAdd, l.Perm (sfa.jobsToAdd ++ [j]) →
      (before.flatMap (·.jobsToAdd) ++ l ++ after.flatMap (·.jobsToAdd)).Perm (jobs ++ [j]) := by
    intro l hl
    refine ((hl.append_left _).append_right _).trans
      (List.Perm.trans ?_ (h.jobs_perm.append_right [j]))
    simp only [flatMap_append, flatMap_cons, append_assoc]
    exact (List.perm_append_comm.append_left _).append_left _
  rcases addJobToShardAndMaybeSplit_cases maxShardSize j sfa with
    ⟨s, heq, hpart, hadd⟩ | ⟨-, new, old, heq, hsplit, hnotnew, -, hadd⟩
  · rw [heq]
    refine ⟨?_, ?_, forall_mem_replace h.new_eq ?_, forall_mem_replace h.source ?_⟩
    · rw [← h.existing_eq]
      simp [existing_cons, hpart.newShard, hpart.node, hpart.address]
    · simpa using hj s.jobsToAdd (by rw [hadd])
    · simpa [hpart.newShard, hpart.fromSplit] using h.new_eq sfa hs
    · simpa [hpart.fromSplit, hpart.splitSource] using h.source sfa hs
  · rw [heq]
    have hn : sfa.node ∈ olds.map (·.1) := by
      rw [← h.existing_eq]
      exact List.mem_map.mpr ⟨_, mem_existing hs hnotnew, rfl⟩
    refine ⟨?_, ?_, forall_mem_replace h.new_eq ?_, forall_mem_replace h.source ?_⟩
    · rw [← h.existing_eq]
      simp [existing_cons, hsplit.fresh, hsplit.newShard, hsplit.node, hsplit.address, hnotnew]
    · simpa using hj (new.jobsToAdd ++ old.jobsToAdd) hadd
    · simp [hsplit.fresh, hsplit.fromSplit, hsplit.newShard, hsplit.notFromSplit]
    · simpa [hsplit.source, hsplit.notFromSplit] using fun _ => hn

theorem Planned.ne_nil (h : Planned olds jobs plan) (holds : olds ≠ []) : plan ≠ [] := by
  rintro rfl
  exact holds h.existing_eq.symm

/-- The whole batch. -/
theorem Planned.foldlM (holds : olds ≠ []) (maxShardSize : UInt64) (batch : List JobToAdd)
    (h : Planned olds jobs shards) :
    ∃ plan, batch.foldlM (layoutJob maxShardSize) shards = .ok plan
      ∧ Planned olds (jobs ++ batch) plan := by
  induction batch generalizing jobs shards with
  | nil => exact ⟨shards, rfl, by simpa using h⟩
  | cons j batch ih =>
    obtain ⟨before, sfa, after, -, rfl, heq⟩ := layoutJob_eq maxShardSize j (h.ne_nil holds)
    obtain ⟨plan, hpl, hp⟩ := ih (h.addJob maxShardSize j)
    refine ⟨plan, ?_, by simpa using hp⟩
    rw [foldlM_cons, heq]
    exact hpl

def numbered (ps : List RetrieveQueueShardPointer) : List (Nat × String) :=
  ps.mapIdx (fun i p => (i, p.address))

/-- Putting the ranges in order changes nothing but the ranges. -/
theorem orderShards_forall₂ (hi : UInt64) (shards : List ShardForAddition) :
    List.Forall₂ (fun s t => s.SamePart t ∧ t.jobsToAdd = s.jobsToAdd) shards
      (orderShards hi shards) := by
  induction shards generalizing hi with
  | nil => exact .nil
  | cons s shards ih => exact .cons ⟨⟨rfl, rfl, rfl, rfl, rfl, rfl⟩, rfl⟩ (ih _)

theorem existing_congr {shards shards' : List ShardForAddition}
    (h : List.Forall₂ (fun s t => s.SamePart t ∧ t.jobsToAdd = s.jobsToAdd) shards shards') :
    existing shards' = existing shards := by
  induction h with
  | nil => rfl
  | cons hst _ ih =>
    rw [existing_cons, existing_cons, ih, hst.1.newShard, hst.1.node, hst.1.address]

variable {ps : List RetrieveQueueShardPointer}

/-- The shards as the layout finds them: nothing is new, split or planned yet. -/
theorem mem_orderShards (h : s ∈ orderShards 0 (shardsForAddition ps)) :
    s.newShard = false ∧ s.fromSplit = false ∧ s.toSplit = false ∧ s.jobsToAdd = [] := by
  obtain ⟨t, ht, hp, hj⟩ : ∃ t ∈ shardsForAddition ps, t.SamePart s
      ∧ s.jobsToAdd = t.jobsToAdd := by
    have ha := orderShards_forall₂ 0 (shardsForAddition ps)
    obtain ⟨i, hi, rfl⟩ := List.mem_iff_getElem.mp h
    have hi' : i < (shardsForAddition ps).length := by rw [ha.length_eq]; exact hi
    have := ha.get hi' hi
    exact ⟨_, getElem_mem hi', this⟩
  obtain ⟨i, hi, rfl⟩ := List.mem_mapIdx.mp ht
  rw [hp.newShard, hp.fromSplit, hp.toSplit, hj]
  exact ⟨rfl, rfl, rfl, rfl⟩

theorem existing_start (ps : List RetrieveQueueShardPointer) :
    existing (orderShards 0 (shardsForAddition ps)) = numbered ps := by
  rw [existing_congr (orderShards_forall₂ 0 (shardsForAddition ps))]
  have ha : (shardsForAddition ps).filter (fun s => !s.newShard) = shardsForAddition ps := by
    rw [filter_eq_self]
    intro s hs
    obtain ⟨i, hi, rfl⟩ := List.mem_mapIdx.mp hs
    rfl
  rw [existing, ha]
  exact ext_getElem (by simp [shardsForAddition, numbered])
    (fun i _ _ => by simp [shardsForAddition, numbered])

theorem planned_start (ps : List RetrieveQueueShardPointer) :
    Planned (numbered ps) [] (orderShards 0 (shardsForAddition ps)) where
  existing_eq := existing_start ps
  jobs_perm := by
    rw [perm_nil, flatMap_eq_nil_iff]
    exact fun s hs => (mem_orderShards hs).2.2.2
  new_eq := fun s hs => by rw [(mem_orderShards hs).1, (mem_orderShards hs).2.1]
  source := fun s hs hf => by
    rw [(mem_orderShards hs).2.1] at hf
    cases hf

/-- **The layout for a queue that has shards.** -/
theorem layout_planned (hps : ps ≠ []) (batch : List JobToAdd) :
    ∃ plan, layout maxShardSize ps batch = .ok plan ∧ Planned (numbered ps) batch plan := by
  have holds : numbered ps ≠ [] := by simpa [numbered] using hps
  simpa [layout] using (planned_start ps).foldlM holds maxShardSize batch

theorem foldlM_newShard (batch : List JobToAdd)
    (hnew : s.newShard = true) (hf : s.fromSplit = false) :
    ∃ s', batch.foldlM (layoutJob maxShardSize) [s] = .ok [s'] ∧ s'.newShard = true
      ∧ s'.fromSplit = false ∧ s'.jobsToAdd = s.jobsToAdd ++ batch := by
  induction batch generalizing s with
  | nil => exact ⟨s, rfl, hnew, hf, by simp⟩
  | cons j batch ih =>
    obtain ⟨before, sfa, after, -, hs, heq⟩ := layoutJob_eq maxShardSize j (cons_ne_nil s [])
    obtain ⟨rfl, rfl, rfl⟩ : before = [] ∧ sfa = s ∧ after = [] := by
      cases before with
      | nil => simpa [eq_comm] using hs
      | cons b before => simp at hs
    have hk : addJobToShardAndMaybeSplit maxShardSize j sfa = [sfa.addJob j] := by
      simp [addJobToShardAndMaybeSplit, ShardForAddition.mustSplit, hnew]
    obtain ⟨s', hs', hn', hf', hj⟩ := ih (s := sfa.addJob j) hnew hf
    refine ⟨s', ?_, hn', hf', by simpa using hj⟩
    rw [foldlM_cons, heq, hk]
    exact hs'

variable {batch : List JobToAdd}

/-- **The layout for a queue without shards**: one new shard. -/
theorem layout_empty (hne : batch ≠ []) :
    ∃ s, layout maxShardSize [] batch = .ok [s] ∧ s.newShard = true ∧ s.fromSplit = false
      ∧ s.jobsToAdd = batch := by
  cases batch with
  | nil => exact absurd rfl hne
  | cons j batch =>
    let s : ShardForAddition :=
      { newShard := true, minFseq := j.fSeq, maxFseq := j.fSeq, jobsCount := 1, jobsToAdd := [j] }
    obtain ⟨s', hs', hnew, hf, hj⟩ := foldlM_newShard maxShardSize batch (s := s) rfl rfl
    refine ⟨s', ?_, hnew, hf, hj⟩
    exact hs'

/-! ## Shards that are split at most once -/

/-- No shard that was split for the batch is full again and split again. -/
def splitsOnce (maxShardSize : UInt64) : List ShardForAddition → List JobToAdd → Bool
  | _, [] => true
  | shards, j :: jobs =>
      (match landing j shards with
        | some (_, sfa, _) => !(sfa.toSplit && sfa.mustSplit maxShardSize)
        | none => true)
      && (match layoutJob maxShardSize shards j with
        | .ok shards => splitsOnce maxShardSize shards jobs
        | .error _ => true)

def SplitsOnce (q : RetrieveQueue) (jobsToAdd : List JobToAdd) : Prop :=
  splitsOnce q.maxshardsize (orderShards 0 (shardsForAddition q.queueshards)) jobsToAdd = true

instance (q : RetrieveQueue) (jobsToAdd : List JobToAdd) : Decidable (SplitsOnce q jobsToAdd) :=
  inferInstanceAs (Decidable (_ = true))

/-- Every new shard stands right before the shard it is split from. -/
def Paired : List ShardForAddition → Prop
  | [] => True
  | s :: rest =>
      (s.fromSplit = true → ∃ source rest', rest = source :: rest' ∧ source.newShard = false
        ∧ source.node = s.splitSource ∧ source.toSplit = true) ∧ Paired rest

theorem paired_of_forall (h : ∀ s ∈ plan, s.fromSplit = false) :
    Paired plan := by
  induction plan with
  | nil => trivial
  | cons s plan ih =>
    refine ⟨fun hs => ?_, ih (fun t ht => h t (.tail _ ht))⟩
    rw [h s mem_cons_self] at hs
    cases hs

/-- A shard may be replaced by one that plays the same part. -/
theorem Paired.samePart {sfa s : ShardForAddition}
    (h : Paired (before ++ sfa :: after)) (hp : sfa.SamePart s) :
    Paired (before ++ s :: after) := by
  induction before with
  | nil =>
    refine ⟨fun hs => ?_, h.2⟩
    rw [hp.splitSource]
    exact h.1 (hp.fromSplit ▸ hs)
  | cons b before ih =>
    refine ⟨fun hb => ?_, ih h.2⟩
    obtain ⟨source, rest', heq, hnew, hn, hto⟩ := h.1 hb
    cases before with
    | nil =>
      -- `sfa` itself is the source
      obtain ⟨rfl, rfl⟩ := List.cons.inj heq
      exact ⟨s, after, rfl, by rw [hp.newShard, hnew], by rw [hp.node, hn],
        by rw [hp.toSplit, hto]⟩
    | cons c before =>
      obtain ⟨rfl, -⟩ := List.cons.inj heq
      exact ⟨c, _, rfl, hnew, hn, hto⟩

theorem Paired.split {sfa new old : ShardForAddition}
    (h : Paired (before ++ sfa :: after)) (hto : sfa.toSplit = false)
    (hs : sfa.SplitInto new old) : Paired (before ++ new :: old :: after) := by
  induction before with
  | nil =>
    refine ⟨fun _ => ⟨old, after, rfl, hs.newShard, ?_, hs.toSplit⟩, fun hold => ?_, h.2⟩
    · rw [hs.node, hs.source]
    · rw [hs.notFromSplit] at hold
      cases hold
  | cons b before ih =>
    refine ⟨fun hb => ?_, ih h.2⟩
    obtain ⟨source, rest', heq, hnew, hn, ht'⟩ := h.1 hb
    cases before with
    | nil =>
      -- the source of `b` would be `sfa`, which was not split yet
      rw [← (List.cons.inj heq).1, hto] at ht'
      cases ht'
    | cons c before =>
      obtain ⟨rfl, -⟩ := List.cons.inj heq
      exact ⟨c, _, rfl, hnew, hn, ht'⟩

theorem Paired.foldlM (holds : olds ≠ []) (maxShardSize : UInt64)
    (batch : List JobToAdd) {shards plan : List ShardForAddition}
    (hp : Planned olds jobs shards) (h : Paired shards)
    (ho : splitsOnce maxShardSize shards batch = true)
    (hpl : batch.foldlM (layoutJob maxShardSize) shards = .ok plan) : Paired plan := by
  induction batch generalizing jobs shards with
  | nil =>
    cases hpl
    exact h
  | cons j batch ih =>
    obtain ⟨before, sfa, after, hl, rfl, heq⟩ := layoutJob_eq maxShardSize j (hp.ne_nil holds)
    rw [foldlM_cons, heq] at hpl
    simp only [splitsOnce, hl, heq, Bool.and_eq_true, Bool.not_eq_true'] at ho
    refine ih (hp.addJob maxShardSize j) ?_ ho.2 hpl
    rcases addJobToShardAndMaybeSplit_cases maxShardSize j sfa with
      ⟨s, hs, hpart, -⟩ | ⟨hmust, new, old, hs, hsplit, -, -, -⟩
    · rw [hs]
      simpa using h.samePart hpart
    rw [hs]
    have hto : sfa.toSplit = false := by simpa [hmust] using ho.1
    simpa using h.split hto hsplit

/-- **Under the condition, each new shard precedes its source.** -/
theorem layout_paired {q : RetrieveQueue} (hps : q.queueshards ≠ []) (ho : SplitsOnce q batch)
    (hp : layout q.maxshardsize q.queueshards batch = .ok plan) : Paired plan :=
  Paired.foldlM (by simpa [numbered] using hps) q.maxshardsize batch (planned_start q.queueshards)
    (paired_of_forall (fun _ hs => (mem_orderShards hs).2.1)) ho hp

end TapeArchive.Objectstore.RetrieveQueue
