/-
  **A RETRIEVE QUEUE STAYS SORTED BY FSEQ**, because the ranges of its shards follow
  each other (`Ranged`), and the PLAN of an addition keeps them so:

    • its ranges are disjoint, in order, and contain the planned jobs (`Spaced`),
    • they contain the jobs that are stored, a new shard and the rest of its source
      together those of the source (`Arrangement`),
    • the execution leaves in each shard what the plan gives it (`FollowsPlan`).

  A shard that is split twice in one batch breaks the second point.
-/
import TapeArchive.Objectstore.RetrieveQueueHistory

namespace TapeArchive.Objectstore.RetrieveQueue

open Lib List
open RetrieveQueueShard (Ordered HasRange)

variable {addr : String} {st st' : RStore} {q q' : RetrieveQueue}
variable {X : Exn → RMachine → Prop} {m : RMachine}
variable {sfa : ShardForAddition} {j : JobToAdd} {maxShardSize : UInt64}
variable {before mid after plan : List ShardForAddition}

/-! ## The ranges of a shard of the plan -/

def ShardForAddition.Contains (s : ShardForAddition) (fseq : UInt64) : Prop :=
  s.minFseq ≤ fseq ∧ fseq ≤ s.maxFseq

namespace ShardForAddition

theorem addJob_minFseq (s : ShardForAddition) (j : JobToAdd) :
    (s.addJob j).minFseq = min j.fSeq s.minFseq := by
  rw [min_def_lt]
  rfl

theorem addJob_maxFseq (s : ShardForAddition) (j : JobToAdd) :
    (s.addJob j).maxFseq = max s.maxFseq j.fSeq := by
  rw [max_def_lt]
  rfl

theorem middle_mem {s : ShardForAddition} (h : s.minFseq ≤ s.maxFseq) : s.Contains s.middle := by
  have hs : (s.maxFseq - s.minFseq).toNat = s.maxFseq.toNat - s.minFseq.toNat :=
    UInt64.toNat_sub_of_le _ _ h
  have hlt := s.maxFseq.toNat_lt
  have hm : s.middle.toNat = s.minFseq.toNat + (s.maxFseq.toNat - s.minFseq.toNat) / 2 := by
    unfold middle
    rw [UInt64.toNat_add, UInt64.toNat_div, hs]
    rw [UInt64.le_iff_toNat_le] at h
    show (_ + _ / 2) % 2 ^ 64 = _
    omega
  rw [UInt64.le_iff_toNat_le] at h
  constructor
  · rw [UInt64.le_iff_toNat_le, hm]
    omega
  · rw [UInt64.le_iff_toNat_le, hm]
    omega

end ShardForAddition

theorem toNat_succ {n : UInt64} (h : n.toNat < 2 ^ 64 - 1) : (n + 1).toNat = n.toNat + 1 := by
  show (n.toNat + 1) % 2 ^ 64 = _
  omega

/-- Disjoint ranges in order, below the highest number, that contain the planned jobs. -/
structure Spaced (plan : List ShardForAddition) : Prop where
  ordered : plan.Pairwise (fun s t => s.maxFseq < t.minFseq)
  proper : ∀ s ∈ plan, s.minFseq.toNat ≤ s.maxFseq.toNat + 1
  bounded : ∀ s ∈ plan, s.maxFseq.toNat < 2 ^ 64 - 1
  planned : ∀ s ∈ plan, ∀ j ∈ s.jobsToAdd, s.Contains j.fSeq

variable {s : ShardForAddition}

theorem Spaced.tail (h : Spaced (s :: plan)) : Spaced plan where
  ordered := h.ordered.of_cons
  proper := fun t ht => h.proper t (.tail _ ht)
  bounded := fun t ht => h.bounded t (.tail _ ht)
  planned := fun t ht => h.planned t (.tail _ ht)

/-- Shards with room between their neighbours may take the place of a shard. -/
theorem Spaced.replace (h : Spaced (before ++ sfa :: after)) (hm : Spaced mid)
    (hbe : ∀ r ∈ before, ∀ s ∈ mid, r.maxFseq < s.minFseq)
    (ha : ∀ s ∈ mid, ∀ t ∈ after, s.maxFseq < t.minFseq) :
    Spaced (before ++ mid ++ after) where
  ordered := by
    obtain ⟨hb, hs, hbs⟩ := pairwise_append.mp h.ordered
    rw [append_assoc]
    refine pairwise_append.mpr ⟨hb, ?_, ?_⟩
    · exact pairwise_append.mpr ⟨hm.ordered, hs.of_cons, ha⟩
    intro r hr s hs
    rcases mem_append.mp hs with hs | hs
    · exact hbe r hr s hs
    · exact hbs r hr s (.tail _ hs)
  proper := forall_mem_replace h.proper hm.proper
  bounded := forall_mem_replace h.bounded hm.bounded
  planned := forall_mem_replace h.planned hm.planned

/-- What lies below the first range lies below all ranges. -/
theorem Spaced.below {fseq : UInt64} (h : Spaced (s :: plan)) (hf : fseq < s.minFseq) :
    ∀ t ∈ plan, fseq < t.minFseq := by
  intro t ht
  have hlt := (pairwise_cons.mp h.ordered).1 t ht
  have hproper := h.proper s mem_cons_self
  rw [UInt64.lt_iff_toNat_lt] at hlt hf ⊢
  omega

variable {shards : List ShardForAddition}

/-- **Where a job lands**: all shards before end below it, all shards after start above it. -/
theorem landing_between (h : Spaced shards) (hl : landing j shards = some (before, sfa, after)) :
    (∀ r ∈ before, r.maxFseq < j.fSeq) ∧ ∀ t ∈ after, j.fSeq < t.minFseq := by
  induction shards generalizing before with
  | nil => cases hl
  | cons s rest ih =>
    cases rest with
    | nil =>
      -- the only shard takes the job
      rw [landing] at hl
      split_ifs at hl <;> (cases hl; exact ⟨by simp, by simp⟩)
    | cons next rest =>
      rw [landing] at hl
      split_ifs at hl with hlow hin hgap hfewer
      · cases hl
        exact ⟨by simp, h.below hlow⟩
      · cases hl
        refine ⟨by simp, fun t ht => ?_⟩
        exact lt_of_le_of_lt hin.2 ((pairwise_cons.mp h.ordered).1 t ht)
      · -- between two shards, to the one before
        cases hl
        refine ⟨by simp, fun t ht => ?_⟩
        rcases mem_cons.mp ht with rfl | ht
        · exact hgap.2
        · exact h.tail.below hgap.2 t ht
      · -- between two shards, to the one after
        cases hl
        refine ⟨fun r hr => ?_, h.tail.below hgap.2⟩
        rw [mem_singleton.mp hr]
        exact hgap.1
      · obtain ⟨⟨before', l⟩, hre, heq⟩ := Option.map_eq_some_iff.mp hl
        cases heq
        obtain ⟨hb, ha⟩ := ih h.tail hre
        refine ⟨fun r hr => ?_, ha⟩
        rcases mem_cons.mp hr with rfl | hr
        · by_contra hle
          exact hin ⟨not_lt.mp hlow, not_lt.mp hle⟩
        · exact hb r hr

/-- A shard by itself. -/
theorem spaced_singleton (hproper : s.minFseq.toNat ≤ s.maxFseq.toNat + 1)
    (hb : s.maxFseq.toNat < 2 ^ 64 - 1) (hp : ∀ j ∈ s.jobsToAdd, s.Contains j.fSeq) :
    Spaced [s] where
  ordered := pairwise_singleton _ _
  proper := by simpa using hproper
  bounded := by simpa using hb
  planned := by simpa using hp

/-- A shard takes a job. -/
theorem Spaced.takeJob (h : Spaced [sfa]) (hj : j.fSeq.toNat < 2 ^ 64 - 1) :
    Spaced [sfa.addJob j] := by
  have hproper := h.proper sfa (mem_singleton_self _)
  have hb := h.bounded sfa (mem_singleton_self _)
  have hmi := sfa.addJob_minFseq j
  have hma := sfa.addJob_maxFseq j
  have hm : (sfa.addJob j).minFseq ≤ sfa.minFseq := hmi ▸ min_le_right _ _
  have hl : sfa.maxFseq ≤ (sfa.addJob j).maxFseq := hma ▸ le_max_left _ _
  refine spaced_singleton ?_ ?_ ?_
  · rw [UInt64.le_iff_toNat_le] at hm hl
    omega
  · rcases max_choice sfa.maxFseq j.fSeq with heq | heq
    · rw [hma, heq]
      exact hb
    · rw [hma, heq]
      exact hj
  · intro k hk
    rcases mem_append.mp hk with hk | hk
    · have hin := h.planned sfa (mem_singleton_self _) k hk
      exact ⟨hm.trans hin.1, hin.2.trans hl⟩
    · rw [mem_singleton.mp hk]
      exact ⟨hmi ▸ min_le_left _ _, hma ▸ le_max_right _ _⟩

/-- The two halves of a shard. -/
theorem Spaced.halves (h : Spaced [sfa]) (hle : sfa.minFseq ≤ sfa.maxFseq) :
    Spaced [sfa.lowerHalf] ∧ Spaced [sfa.upperHalf]
      ∧ sfa.upperHalf.minFseq.toNat = sfa.middle.toNat + 1 := by
  have hb := h.bounded sfa (mem_singleton_self _)
  have hp := h.planned sfa (mem_singleton_self _)
  obtain ⟨hl, hh⟩ := ShardForAddition.middle_mem hle
  have hl' := UInt64.le_iff_toNat_le.mp hl
  have hh' := UInt64.le_iff_toNat_le.mp hh
  have hs : sfa.upperHalf.minFseq.toNat = sfa.middle.toNat + 1 := toNat_succ (lt_of_le_of_lt hh' hb)
  refine ⟨spaced_singleton ?_ ?_ ?_, spaced_singleton ?_ ?_ ?_, hs⟩
  · show sfa.minFseq.toNat ≤ sfa.middle.toNat + 1
    omega
  · show sfa.middle.toNat < 2 ^ 64 - 1
    omega
  · intro k hk
    obtain ⟨hk, hm⟩ := mem_filter.mp hk
    exact ⟨(hp k hk).1, of_decide_eq_true hm⟩
  · show sfa.upperHalf.minFseq.toNat ≤ sfa.maxFseq.toNat + 1
    omega
  · exact hb
  · intro k hk
    obtain ⟨hk, hm⟩ := mem_filter.mp hk
    refine ⟨?_, (hp k hk).2⟩
    have hlt : sfa.middle < k.fSeq := not_le.mp (of_decide_eq_true hm)
    rw [UInt64.lt_iff_toNat_lt] at hlt
    rw [UInt64.le_iff_toNat_le, hs]
    omega

/-- Two shards, one after the other. -/
theorem spaced_pair {s t : ShardForAddition} (hs : Spaced [s]) (ht : Spaced [t])
    (hlt : s.maxFseq < t.minFseq) : Spaced [s, t] where
  ordered := by simpa using hlt
  proper := by simpa using ⟨hs.proper s (by simp), ht.proper t (by simp)⟩
  bounded := by simpa using ⟨hs.bounded s (by simp), ht.bounded t (by simp)⟩
  planned := by simpa using ⟨hs.planned s (by simp), ht.planned t (by simp)⟩

/-- One or two shards in order, within the range of the shard's limits and the job. -/
theorem spaced_addJobToShardAndMaybeSplit (h : Spaced [sfa]) (hj : j.fSeq.toNat < 2 ^ 64 - 1)
    (hsp : sfa.mustSplit maxShardSize = true → sfa.minFseq ≤ sfa.maxFseq) :
    Spaced (addJobToShardAndMaybeSplit maxShardSize j sfa)
      ∧ ∀ s ∈ addJobToShardAndMaybeSplit maxShardSize j sfa,
          min j.fSeq sfa.minFseq ≤ s.minFseq ∧ s.maxFseq ≤ max sfa.maxFseq j.fSeq := by
  unfold addJobToShardAndMaybeSplit
  by_cases hmu : sfa.mustSplit maxShardSize = true
  · obtain ⟨hl, hu, hsu⟩ := h.halves (hsp hmu)
    obtain ⟨hlo, hh⟩ := ShardForAddition.middle_mem (hsp hmu)
    have hm : sfa.middle < sfa.upperHalf.minFseq := by
      rw [UInt64.lt_iff_toNat_lt]
      omega
    have hum : min j.fSeq sfa.minFseq ≤ sfa.upperHalf.minFseq :=
      (min_le_right _ _).trans (hlo.trans hm.le)
    have hlm : sfa.middle ≤ max sfa.maxFseq j.fSeq := hh.trans (le_max_left _ _)
    rw [if_pos hmu]
    by_cases hs : j.fSeq ≥ sfa.upperHalf.minFseq
    · rw [if_pos hs]
      refine ⟨spaced_pair hl (hu.takeJob hj) ?_, ?_⟩
      · rw [ShardForAddition.addJob_minFseq]
        exact lt_min (hm.trans_le hs) hm
      rw [forall_mem_cons, forall_mem_singleton, ShardForAddition.addJob_minFseq,
        ShardForAddition.addJob_maxFseq]
      exact ⟨⟨min_le_right _ _, hlm⟩, le_min (min_le_left _ _) hum, le_refl _⟩
    · have hma : max sfa.middle j.fSeq < sfa.upperHalf.minFseq := max_lt hm (not_le.mp hs)
      rw [if_neg hs]
      refine ⟨spaced_pair (hl.takeJob hj) hu ?_, ?_⟩
      · rw [ShardForAddition.addJob_maxFseq]
        exact hma
      rw [forall_mem_cons, forall_mem_singleton, ShardForAddition.addJob_minFseq,
        ShardForAddition.addJob_maxFseq]
      exact ⟨⟨le_refl _, max_le hlm (le_max_right _ _)⟩, hum, le_max_left _ _⟩
  · rw [if_neg hmu]
    refine ⟨h.takeJob hj, ?_⟩
    rw [forall_mem_singleton, ShardForAddition.addJob_minFseq, ShardForAddition.addJob_maxFseq]
    exact ⟨le_refl _, le_refl _⟩

/-- **One more job keeps the plan in order.** -/
theorem Spaced.addJob (h : Spaced (before ++ sfa :: after))
    (hb : ∀ r ∈ before, r.maxFseq < j.fSeq) (ha : ∀ t ∈ after, j.fSeq < t.minFseq)
    (hj : j.fSeq.toNat < 2 ^ 64 - 1)
    (hsp : sfa.mustSplit maxShardSize = true → sfa.minFseq ≤ sfa.maxFseq) :
    Spaced (before ++ addJobToShardAndMaybeSplit maxShardSize j sfa ++ after) := by
  have hm : sfa ∈ before ++ sfa :: after := by simp
  have hse : Spaced [sfa] :=
    spaced_singleton (h.proper sfa hm) (h.bounded sfa hm) (h.planned sfa hm)
  obtain ⟨-, hs, hbs⟩ := pairwise_append.mp h.ordered
  obtain ⟨hmi, hw⟩ := spaced_addJobToShardAndMaybeSplit hse hj hsp
  refine h.replace hmi ?_ ?_
  · intro r hr s hs
    exact (lt_min (hb r hr) (hbs r hr sfa mem_cons_self)).trans_le (hw s hs).1
  · intro s hs' t ht
    exact (hw s hs').2.trans_lt (max_lt ((pairwise_cons.mp hs).1 t ht) (ha t ht))

/-! ## The stored jobs -/

/-- The stored jobs are in the ranges; those of a split shard in the new one or the rest. -/
inductive Arrangement (st : RStore) : List ShardForAddition → Prop
  | nil : Arrangement st []
  | old {s : ShardForAddition} {rest : List ShardForAddition} (hnew : s.newShard = false)
      (hto : s.toSplit = false) (hproper : s.minFseq ≤ s.maxFseq)
      (hstored : ∀ j ∈ jobsAt st s.address, s.Contains j.fseq)
      (hrest : Arrangement st rest) : Arrangement st (s :: rest)
  | split {s source : ShardForAddition} {rest : List ShardForAddition} (hnew : s.newShard = true)
      (hsource : source.newShard = false) (hto : source.toSplit = true)
      (hnext : source.minFseq = s.maxFseq + 1)
      (hstored : ∀ j ∈ jobsAt st source.address,
        s.minFseq ≤ j.fseq ∧ j.fseq ≤ source.maxFseq)
      (hrest : Arrangement st rest) : Arrangement st (s :: source :: rest)

theorem mustSplit_newShard (h : sfa.mustSplit maxShardSize = true) : sfa.newShard = false := by
  simp only [ShardForAddition.mustSplit, not_or, decide_eq_true_eq] at h
  simpa using h.2.2

theorem addJobToShardAndMaybeSplit_of_not (h : sfa.mustSplit maxShardSize = false) :
    addJobToShardAndMaybeSplit maxShardSize j sfa = [sfa.addJob j] := by
  unfold addJobToShardAndMaybeSplit
  rw [if_neg (by simp [h])]

/-- An existing shard that was not split yet. -/
theorem Arrangement.addJob_old {rest : List ShardForAddition} (hsp : Spaced [sfa])
    (hnew : sfa.newShard = false) (hto : sfa.toSplit = false) (hproper : sfa.minFseq ≤ sfa.maxFseq)
    (hstored : ∀ j ∈ jobsAt st sfa.address, sfa.Contains j.fseq) (hrest : Arrangement st rest) :
    Arrangement st (addJobToShardAndMaybeSplit maxShardSize j sfa ++ rest) := by
  by_cases hmu : sfa.mustSplit maxShardSize = true
  · obtain ⟨-, -, hsu⟩ := hsp.halves hproper
    unfold addJobToShardAndMaybeSplit
    rw [if_pos hmu]
    by_cases hs : j.fSeq ≥ sfa.upperHalf.minFseq
    · -- the upper half takes the job and starts where it started
      rw [if_pos hs]
      refine .split rfl hnew rfl ?_ ?_ hrest
      · rw [ShardForAddition.addJob_minFseq, min_eq_right hs]
        rfl
      intro k hk
      rw [ShardForAddition.addJob_maxFseq]
      exact ⟨(hstored k hk).1, (hstored k hk).2.trans (le_max_left _ _)⟩
    · -- the lower half takes the job and ends where it ended
      have hle : j.fSeq ≤ sfa.middle := by
        have hlt := not_le.mp hs
        rw [UInt64.lt_iff_toNat_lt] at hlt
        rw [UInt64.le_iff_toNat_le]
        omega
      rw [if_neg hs]
      refine .split rfl hnew rfl ?_ ?_ hrest
      · rw [ShardForAddition.addJob_maxFseq]
        show sfa.middle + 1 = max sfa.middle j.fSeq + 1
        rw [max_eq_left hle]
      · intro k hk
        rw [ShardForAddition.addJob_minFseq]
        exact ⟨(min_le_right _ _).trans (hstored k hk).1, (hstored k hk).2⟩
  · rw [addJobToShardAndMaybeSplit_of_not (by simpa using hmu)]
    have hmi := sfa.addJob_minFseq j
    have hma := sfa.addJob_maxFseq j
    have hm : (sfa.addJob j).minFseq ≤ sfa.minFseq := hmi ▸ min_le_right _ _
    have hl : sfa.maxFseq ≤ (sfa.addJob j).maxFseq := hma ▸ le_max_left _ _
    refine .old hnew hto (hm.trans (hproper.trans hl)) ?_ hrest
    intro k hk
    exact ⟨hm.trans (hstored k hk).1, (hstored k hk).2.trans hl⟩

/-- **One more job keeps the stored jobs in the ranges**, unless it splits a shard twice. -/
theorem Arrangement.addJob (h : Arrangement st shards) (hs : Spaced shards) :
    ∀ {before : List ShardForAddition}, shards = before ++ sfa :: after →
      (∀ r ∈ before, r.maxFseq < j.fSeq) → (∀ t ∈ after, j.fSeq < t.minFseq) →
      (sfa.toSplit && sfa.mustSplit maxShardSize) = false →
      Arrangement st (before ++ addJobToShardAndMaybeSplit maxShardSize j sfa ++ after) := by
  induction h with
  | nil =>
    intro before heq
    simp at heq
  | @old s rest hnew hto hproper hstored hrest ih =>
    intro before heq hb ha ho
    have hse : Spaced [s] := spaced_singleton (hs.proper s (by simp))
      (hs.bounded s (by simp)) (hs.planned s (by simp))
    cases before with
    | nil =>
      obtain ⟨rfl, rfl⟩ := List.cons.inj heq
      exact addJob_old hse hnew hto hproper hstored hrest
    | cons b before =>
      obtain ⟨rfl, rfl⟩ := List.cons.inj heq
      refine .old hnew hto hproper hstored (ih hs.tail rfl ?_ ha ho)
      exact fun r hr => hb r (.tail _ hr)
  | @split s source rest hnew hsource hto hnext hstored hrest ih =>
    intro before heq hb ha ho
    have hbo := hs.bounded s (by simp)
    have hsu : source.minFseq.toNat = s.maxFseq.toNat + 1 := by
      rw [hnext]
      exact toNat_succ hbo
    cases before with
    | nil =>
      -- the new shard takes the job: it ends where its source starts
      obtain ⟨rfl, rfl⟩ := List.cons.inj heq
      have hnot : s.mustSplit maxShardSize = false := by
        by_contra hmust
        rw [mustSplit_newShard (by simpa using hmust)] at hnew
        cases hnew
      have hle : j.fSeq ≤ s.maxFseq := by
        have hlt := ha source mem_cons_self
        rw [UInt64.lt_iff_toNat_lt] at hlt
        rw [UInt64.le_iff_toNat_le]
        omega
      rw [addJobToShardAndMaybeSplit_of_not hnot]
      refine .split hnew hsource hto ?_ ?_ hrest
      · rw [ShardForAddition.addJob_maxFseq, max_eq_left hle]
        exact hnext
      intro k hk
      rw [ShardForAddition.addJob_minFseq]
      exact ⟨(min_le_right _ _).trans (hstored k hk).1, (hstored k hk).2⟩
    | cons b before =>
      cases before with
      | nil =>
        -- the source takes the job: it starts where the new shard ends
        obtain ⟨rfl, hc⟩ := List.cons.inj heq
        obtain ⟨rfl, rfl⟩ := List.cons.inj hc
        have hnot : source.mustSplit maxShardSize = false := by
          rw [hto, Bool.true_and] at ho
          exact ho
        have hge : source.minFseq ≤ j.fSeq := by
          have hlt := hb s mem_cons_self
          rw [UInt64.lt_iff_toNat_lt] at hlt
          rw [UInt64.le_iff_toNat_le]
          omega
        rw [addJobToShardAndMaybeSplit_of_not hnot]
        refine .split hnew hsource hto ?_ ?_ hrest
        · rw [ShardForAddition.addJob_minFseq, min_eq_right hge]
          exact hnext
        intro k hk
        rw [ShardForAddition.addJob_maxFseq]
        exact ⟨(hstored k hk).1, (hstored k hk).2.trans (le_max_left _ _)⟩
      | cons c before =>
        obtain ⟨rfl, hc⟩ := List.cons.inj heq
        obtain ⟨rfl, rfl⟩ := List.cons.inj hc
        refine .split hnew hsource hto hnext hstored (ih hs.tail.tail rfl ?_ ha ho)
        exact fun r hr => hb r (.tail _ (.tail _ hr))

/-- A shard that is split, and was not split before, has a range that is not empty. -/
theorem Arrangement.proper (h : Arrangement st shards) :
    ∀ s ∈ shards, s.newShard = false → s.toSplit = false → s.minFseq ≤ s.maxFseq := by
  induction h with
  | nil => simp
  | @old s rest _ _ hproper _ _ ih =>
    intro t ht hnew hto
    rcases mem_cons.mp ht with rfl | ht
    · exact hproper
    · exact ih t ht hnew hto
  | @split s source rest hnew hsource hto _ _ _ ih =>
    intro t ht hn' ht'
    rcases mem_cons.mp ht with rfl | ht
    · rw [hnew] at hn'
      cases hn'
    rcases mem_cons.mp ht with rfl | ht
    · rw [hto] at ht'
      cases ht'
    · exact ih t ht hn' ht'

/-- **THE PLAN OF A BATCH STAYS IN ORDER**, when no shard is split twice. -/
theorem arranged_foldlM {olds : List (Nat × String)} (holds : olds ≠ []) (batch : List JobToAdd)
    (hba : ∀ j ∈ batch, j.fSeq.toNat < 2 ^ 64 - 1) :
    ∀ {jobs : List JobToAdd} {shards : List ShardForAddition}, Planned olds jobs shards →
      Arrangement st shards → Spaced shards → splitsOnce maxShardSize shards batch = true →
      batch.foldlM (layoutJob maxShardSize) shards = .ok plan →
      Arrangement st plan ∧ Spaced plan := by
  induction batch with
  | nil =>
    intro jobs shards _ ha hs _ hp
    cases hp
    exact ⟨ha, hs⟩
  | cons j batch ih =>
    intro jobs shards hpl ha hs ho hp
    obtain ⟨before, sfa, after, hl, hsh, heq⟩ := layoutJob_eq maxShardSize j (hpl.ne_nil holds)
    rw [foldlM_cons, heq] at hp
    simp only [splitsOnce, hl, heq, Bool.and_eq_true, Bool.not_eq_true'] at ho
    obtain ⟨hb, haf⟩ := landing_between hs hl
    have hj := hba j mem_cons_self
    have hproper : sfa.mustSplit maxShardSize = true → sfa.minFseq ≤ sfa.maxFseq := by
      intro hm
      have hto := ho.1
      rw [hm, Bool.and_true] at hto
      exact ha.proper sfa (by simp [hsh]) (mustSplit_newShard hm) hto
    have ha' := ha.addJob hs hsh hb haf ho.1
    subst hsh
    exact ih (fun k hk => hba k (.tail _ hk)) (hpl.addJob maxShardSize j)
      ha' (hs.addJob hb haf hj hproper) ho.2 hp

/-! ## A queue at rest -/

/-- Every pointer has the range of its shard, and the ranges follow each other. -/
structure Ranged (st : RStore) (ps : List RetrieveQueueShardPointer) : Prop where
  ranges : ∀ p ∈ ps, HasRange (jobsAt st p.address) p.range
  ordered : ps.Pairwise (fun p p' => p.range.maxfseq < p'.range.minfseq)

variable {ps : List RetrieveQueueShardPointer}

theorem Ranged.sorted (h : Ranged st ps) (hor : ∀ p ∈ ps, Ordered (jobsAt st p.address)) :
    Ordered (queuedJobs st ps) := by
  obtain ⟨hr, ho⟩ := h
  induction ps with
  | nil => exact List.Pairwise.nil
  | cons p ps ih =>
    obtain ⟨hf, hrest⟩ := pairwise_cons.mp ho
    refine pairwise_append.mpr ⟨hor p mem_cons_self, ?_, ?_⟩
    · exact ih (fun p' hp' => hor p' (.tail _ hp'))
        (fun p' hp' => hr p' (.tail _ hp')) hrest
    intro a ha b hb
    obtain ⟨p', hp', hb⟩ := mem_flatMap.mp hb
    calc a.fseq ≤ p.range.maxfseq := (hr p mem_cons_self).le_maxfseq ha
      _ ≤ p'.range.minfseq := (hf p' hp').le
      _ ≤ b.fseq := (hr p' (.tail _ hp')).minfseq_le hb

/-- The range of a shard that holds a job is not empty and is one of stored fSeqs. -/
theorem hasRange_bounded {jobs : List RetrieveJobPointer} {range : FseqRange}
    (h : HasRange jobs range) (hjo : ∀ j ∈ jobs, j.fseq.toNat < 2 ^ 64 - 1) :
    range.minfseq ≤ range.maxfseq ∧ range.maxfseq.toNat < 2 ^ 64 - 1 := by
  obtain ⟨j, hj, hje⟩ := h.greatest.1
  exact ⟨h.greatest.2 h.least.1, hje ▸ hjo j hj⟩

theorem orderShards_eq_self : ∀ {hi : UInt64}, (∀ s ∈ shards, s.minFseq ≤ s.maxFseq) →
      (∀ s ∈ shards, s.maxFseq.toNat < 2 ^ 64 - 1) →
      shards.Pairwise (fun s t => s.maxFseq < t.minFseq) → (∀ s ∈ shards, hi ≤ s.minFseq) →
      orderShards hi shards = shards := by
  induction shards with
  | nil => exact fun _ _ _ _ => rfl
  | cons s shards ih =>
    intro hi hproper hb ho hh
    obtain ⟨hf, hrest⟩ := pairwise_cons.mp ho
    have hm : (if hi < s.minFseq then s.minFseq else hi) = s.minFseq := by
      split_ifs with hlt
      · rfl
      · exact le_antisymm (hh s mem_cons_self) (not_lt.mp hlt)
    have hma : (if s.minFseq < s.maxFseq then s.maxFseq else s.minFseq) = s.maxFseq := by
      split_ifs with hlt
      · rfl
      · exact le_antisymm (hproper s mem_cons_self) (not_lt.mp hlt)
    have hta : ∀ t ∈ shards, s.maxFseq + 1 ≤ t.minFseq := by
      intro t ht
      have hlt := hf t ht
      rw [UInt64.lt_iff_toNat_lt] at hlt
      rw [UInt64.le_iff_toNat_le, toNat_succ (hb s mem_cons_self)]
      omega
    simp only [orderShards, hm, hma]
    rw [ih (fun t ht => hproper t (.tail _ ht))
      (fun t ht => hb t (.tail _ ht)) hrest hta]

/-- The shards of a plan before the first job are the pointers, one by one. -/
theorem exists_pointer (h : s ∈ shardsForAddition ps) :
    ∃ p ∈ ps, s.address = p.address ∧ s.minFseq = p.range.minfseq
      ∧ s.maxFseq = p.range.maxfseq ∧ s.newShard = false ∧ s.toSplit = false
      ∧ s.jobsToAdd = [] := by
  obtain ⟨i, hi, rfl⟩ := mem_mapIdx.mp h
  exact ⟨ps[i], getElem_mem hi, rfl, rfl, rfl, rfl, rfl, rfl⟩

theorem arrangement_of_forall
    (h : ∀ s ∈ shards, s.newShard = false ∧ s.toSplit = false ∧ s.minFseq ≤ s.maxFseq
      ∧ ∀ j ∈ jobsAt st s.address, s.Contains j.fseq) : Arrangement st shards := by
  induction shards with
  | nil => exact .nil
  | cons s shards ih =>
    obtain ⟨hnew, hto, hproper, hstored⟩ := h s mem_cons_self
    exact .old hnew hto hproper hstored (ih fun t ht => h t (.tail _ ht))

/-- **The plan of a queue at rest starts in order.** -/
theorem Ranged.start (h : Ranged st ps) (hbo : ∀ j ∈ queuedJobs st ps, j.fseq.toNat < 2 ^ 64 - 1) :
    Arrangement st (orderShards 0 (shardsForAddition ps))
      ∧ Spaced (orderShards 0 (shardsForAddition ps)) := by
  have hr : ∀ p ∈ ps, p.range.minfseq ≤ p.range.maxfseq
      ∧ p.range.maxfseq.toNat < 2 ^ 64 - 1 := fun p hp =>
    hasRange_bounded (h.ranges p hp) fun j hj => hbo j (mem_flatMap.mpr ⟨p, hp, hj⟩)
  have hproper : ∀ s ∈ shardsForAddition ps, s.minFseq ≤ s.maxFseq := by
    intro s hs
    obtain ⟨p, hp, -, hmi, hm, -⟩ := exists_pointer hs
    rw [hmi, hm]
    exact (hr p hp).1
  have hb : ∀ s ∈ shardsForAddition ps, s.maxFseq.toNat < 2 ^ 64 - 1 := by
    intro s hs
    obtain ⟨p, hp, -, -, hm, -⟩ := exists_pointer hs
    rw [hm]
    exact (hr p hp).2
  have ho : (shardsForAddition ps).Pairwise (fun s t => s.maxFseq < t.minFseq) := by
    rw [pairwise_iff_getElem]
    intro i k hi hk hik
    simp only [shardsForAddition, length_mapIdx] at hi hk
    simp only [shardsForAddition, getElem_mapIdx]
    exact pairwise_iff_getElem.mp h.ordered i k hi hk hik
  rw [orderShards_eq_self hproper hb ho fun _ _ => UInt64.zero_le]
  refine ⟨arrangement_of_forall fun s hs => ?_, ho, fun s hs => ?_, hb, fun s hs => ?_⟩
  · obtain ⟨p, hp, ha, hmi, hm, hnew, hto, -⟩ := exists_pointer hs
    refine ⟨hnew, hto, hproper s hs, fun j hj => ?_⟩
    rw [ha] at hj
    unfold ShardForAddition.Contains
    rw [hmi, hm]
    exact ⟨(h.ranges p hp).minfseq_le hj, (h.ranges p hp).le_maxfseq hj⟩
  · have hle := UInt64.le_iff_toNat_le.mp (hproper s hs)
    omega
  · obtain ⟨p, hp, -, -, -, -, -, hn⟩ := exists_pointer hs
    rw [hn]
    simp

/-! ## What an addition leaves -/

/-- What a shard of the plan comes out with is in its range. -/
theorem Arrangement.filling (h : Arrangement st plan) (hsp : Spaced plan) :
    List.Forall₂ (fun s jobs => ∀ j ∈ jobs, s.Contains j.fseq) plan
      (filling st (fun _ => false) plan) := by
  have hnj : ∀ s ∈ plan, ∀ j ∈ s.newJobs, s.Contains j.fseq := by
    intro s hs j hj
    obtain ⟨b, hb, rfl⟩ := mem_map.mp hj
    exact hsp.planned s hs b hb
  induction h with
  | nil => exact .nil
  | @old s rest hnew hto hproper hstored hrest ih =>
    rw [filling_old hnew]
    refine .cons ?_ (ih hsp.tail fun t ht => hnj t (.tail _ ht))
    intro j hj
    rcases mem_append.mp hj with hj | hj
    · exact hstored j (mem_filter.mp hj).1
    · exact hnj s mem_cons_self j hj
  | @split s source rest hnew hsource hto hnext hstored hrest ih =>
    rw [filling_split hnew, filling_old hsource]
    refine .cons ?_ (.cons ?_ (ih hsp.tail.tail fun t ht =>
      hnj t (.tail _ (.tail _ ht))))
    · intro j hj
      rcases mem_append.mp hj with hj | hj
      · have hc : s.minFseq ≤ j.fseq ∧ j.fseq ≤ s.maxFseq := of_decide_eq_true (mem_filter.mp hj).2
        exact hc
      · exact hnj s mem_cons_self j hj
    · intro j hj
      rcases mem_append.mp hj with hj | hj
      · -- not covered by the new shard, so above its end
        obtain ⟨hj, hnot⟩ := mem_filter.mp hj
        obtain ⟨hl, hh⟩ := hstored j hj
        refine ⟨?_, hh⟩
        have hlt : s.maxFseq < j.fseq := by
          by_contra hle
          have hc : s.covers j = true := decide_eq_true ⟨hl, not_lt.mp hle⟩
          rw [hc] at hnot
          cases hnot
        have hsu := toNat_succ (hsp.bounded s mem_cons_self)
        rw [UInt64.lt_iff_toNat_lt] at hlt
        rw [hnext, UInt64.le_iff_toNat_le, hsu]
        omega
      · exact hnj source (by simp) j hj

/-- Pointers to shards that hold what the plan gives them are in order. -/
theorem ranged_of_plan {contents : List (List RetrieveJobPointer)} (hs : Spaced plan)
    (hin : List.Forall₂ (fun s jobs => ∀ j ∈ jobs, s.Contains j.fseq) plan contents)
    (hh : List.Forall₂ (Holding st) contents ps) : Ranged st ps := by
  -- every pointer has a shard of the plan around its range
  have hpl : List.Forall₂ (fun s p => HasRange (jobsAt st p.address) p.range
      ∧ s.minFseq ≤ p.range.minfseq ∧ p.range.maxfseq ≤ s.maxFseq) plan ps := by
    clear hs
    induction hin generalizing ps with
    | nil =>
      cases hh
      exact .nil
    | cons hjo _ ih =>
      cases hh with
      | cons hp hrest =>
        refine .cons ⟨hp.range, ?_, ?_⟩ (ih hrest)
        · obtain ⟨j, hj, hje⟩ := hp.range.least.1
          exact hje ▸ (hjo j (hp.perm.mem_iff.mp hj)).1
        · obtain ⟨j, hj, hje⟩ := hp.range.greatest.1
          exact hje ▸ (hjo j (hp.perm.mem_iff.mp hj)).2
  have ho := hs.ordered
  clear hs hin hh
  induction hpl with
  | nil => exact ⟨by simp, List.Pairwise.nil⟩
  | @cons s p plan ps hp hrest ih =>
    obtain ⟨hf, ho⟩ := pairwise_cons.mp ho
    obtain ⟨hr, hps⟩ := ih ho
    refine ⟨?_, pairwise_cons.mpr ⟨?_, hps⟩⟩
    · intro p' hp'
      rcases mem_cons.mp hp' with rfl | hp'
      · exact hp.1
      · exact hr p' hp'
    · intro p' hp'
      obtain ⟨i, hi, rfl⟩ := mem_iff_getElem.mp hp'
      have hi' : i < plan.length := by
        rw [hrest.length_eq]
        exact hi
      have ht := hrest.get hi' hi
      calc p.range.maxfseq ≤ s.maxFseq := hp.2.2
        _ < plan[i].minFseq := hf _ (getElem_mem hi')
        _ ≤ ps[i].range.minfseq := ht.2.1

/-- **AN ADDITION KEEPS THE RANGES IN ORDER.** -/
theorem FollowsPlan.ranged {batch : List JobToAdd} (h : FollowsPlan st q batch st' q')
    (hr : Ranged st q.queueshards) (hne : batch ≠ [])
    (hstored : ∀ j ∈ queuedJobs st q.queueshards, j.fseq.toNat < 2 ^ 64 - 1)
    (hb : ∀ j ∈ batch, j.fSeq.toNat < 2 ^ 64 - 1) (ho : SplitsOnce q batch) :
    Ranged st' q'.queueshards := by
  obtain ⟨plan, hl, hh⟩ := h.holding hne
  by_cases hps : q.queueshards = []
  · -- the only shard
    obtain ⟨s, hs, hnew, -, -⟩ := layout_empty q.maxshardsize hne
    rw [hps, hs] at hl
    cases hl
    have hf : filling st (fun _ => false) [s] = [s.newJobs] := by simp [filling, hnew]
    rw [hf] at hh
    generalize q'.queueshards = ps at hh ⊢
    cases hh with
    | cons hp hrest =>
      cases hrest
      exact ⟨by simpa using hp.range, pairwise_singleton _ _⟩
  · obtain ⟨ha, hsp⟩ := hr.start hstored
    obtain ⟨ha', hs'⟩ := arranged_foldlM (by simpa [numbered] using hps) batch hb
      (planned_start q.queueshards) ha hsp ho hl
    exact ranged_of_plan hs' (ha'.filling hs') hh

/-! ## Histories of additions -/

/-- The call is an addition of jobs with fSeqs below the highest number. -/
def AddsOnly : Call JobToAdd → Prop
  | .add jobsToAdd => ∀ j ∈ jobsToAdd, j.fSeq.toNat < 2 ^ 64 - 1
  | .remove _ => False

instance (c : Call JobToAdd) : Decidable (AddsOnly c) :=
  match c with
  | .add _ => inferInstanceAs (Decidable (∀ _ ∈ _, _))
  | .remove _ => isFalse id

/-- Such an addition that splits no shard twice and leaves a job in both halves. -/
def OrderlyAt (addr : String) (st : RStore) (c : Call JobToAdd) : Prop :=
  AddsOnly c ∧ SplitsWellAt addr st c

instance (addr : String) (st : RStore) (c : Call JobToAdd) :
    Decidable (OrderlyAt addr st c) :=
  inferInstanceAs (Decidable (_ ∧ _))

/-- The names the call may give to new shards are free. -/
def FreshAt (addr : String) (m : RMachine) : Prop :=
  ∀ q, m.store addr = some (.queue q) → Fresh m q

/-- The store holds an exact queue of the jobs whose ranges are in order. -/
structure HoldsInOrder (addr : String) (st : RStore) (queued : List RetrieveJobPointer)
    (q : RetrieveQueue) : Prop where
  exact : Exact addr st q
  perm : (queuedJobs st q.queueshards).Perm queued
  ranged : Ranged st q.queueshards
  bounded : ∀ j ∈ queued, j.fseq.toNat < 2 ^ 64 - 1

def InOrder (addr : String) (st : RStore) (queued : List RetrieveJobPointer) : Prop :=
  ∃ q, HoldsInOrder addr st queued q

variable {queued : List RetrieveJobPointer}

/-- **AN ORDERLY ADDITION RETURNS WITH THE RANGES IN ORDER**, unless the name of a new shard is
taken. -/
theorem InOrder.call {c : Call JobToAdd}
    (h : InOrder addr m.store queued) (hn : (queued.map (·.address)).Nodup)
    (hadm : c.Admissible ops.toPointer queued) (hok : OrderlyAt addr m.store c) :
    wp (ops.call addr c)
      (fun _ m' => InOrder addr m'.store (c.effect ops.toPointer queued))
      (fun e _ => ¬ FreshAt addr m ∧ ∃ a, e = .backend a) m := by
  obtain ⟨q, he, hp, hr, hbo⟩ := h
  obtain ⟨ha, hw⟩ := hok
  rw [QueueOps.call, wp_bind, wp_fetchQueue he.queue]
  cases c with
  | remove jobsToRemove => exact ha.elim
  | add jobsToAdd =>
    by_cases hne : jobsToAdd = []
    · -- nothing is added and nothing is written
      subst hne
      show wp (addJobsAndCommit addr [] q) _ _ m
      unfold addJobsAndCommit
      exact ⟨q, he, by simpa [Call.effect] using hp, hr,
        by simpa [Call.effect] using hbo⟩
    have har := nodup_of_add hp hadm hn
    obtain ⟨ho, hh⟩ := hw q he.queue
    refine wp_addJobsAndCommit he ho har ?_ ?_ ?_
    · exact fun hnot => absurd (he.fed_of_halves ho hh) hnot
    · exact fun hnot a _ => ⟨fun hf => hnot (hf q he.queue), a, rfl⟩
    · intro q' m' he' hp' _ hpl
      refine ⟨q', he', hp'.trans (hp.append_right _), ?_, ?_⟩
      · exact hpl.ranged hr hne (fun j hj => hbo j (hp.mem_iff.mp hj)) ha ho
      intro j hj
      rcases mem_append.mp hj with hj | hj
      · exact hbo j hj
      · obtain ⟨b, hb, rfl⟩ := mem_map.mp hj
        exact ha b hb

/-- The shards of the queue, in the order of their pointers, are sorted by fSeq. -/
def Sorted (addr : String) (st : RStore) : Prop :=
  ∃ q, st addr = some (.queue q) ∧ Ordered (queuedJobs st q.queueshards)

theorem HoldsInOrder.sorted (h : HoldsInOrder addr st queued q) :
    Sorted addr st := by
  refine ⟨q, h.exact.queue, h.ranged.sorted fun p hp => ?_⟩
  obtain ⟨s, hs, ho, -⟩ := h.exact.pointers p hp
  rw [jobsAt_of_shard hs.stored]
  exact ho

/-- **THE QUEUE IS SORTED AFTER EVERY HISTORY OF ORDERLY ADDITIONS, AND A FURTHER ONE RETURNS**,
unless the name of a new shard is taken. -/
theorem sorted_of_history {queued : List RetrieveJobPointer}
    (h : History ops addr (OrderlyAt addr) st queued) :
    Sorted addr st
      ∧ ∀ c agent, c.Admissible ops.toPointer queued → OrderlyAt addr st c →
          ∀ e, (ops.run addr agent c st).1 = .error e →
            ¬ FreshAt addr (Machine.start st agent) ∧ ∃ a, e = .backend a := by
  have hh : InOrder addr st queued := by
    refine h.invariant ?_ ?_
    · rintro st q hq ⟨vid, maxShardSize, -, rfl⟩
      exact ⟨_, initialized_exact hq, List.Perm.refl _, ⟨by simp [initialized], List.Pairwise.nil⟩,
        by simp⟩
    · intro st queued c agent hi hn hadm hok
      exact wp_mono (InOrder.call (m := Machine.start st agent) hi hn hadm hok)
        (fun _ _ hp => hp) (fun _ _ _ => trivial)
  obtain ⟨q, hi⟩ := hh
  refine ⟨hi.sorted, ?_⟩
  intro c agent hadm hok e hr
  exact wp_error (InOrder.call (m := Machine.start st agent) ⟨q, hi⟩ h.nodup hadm hok)
    (Prod.ext hr rfl)

/-- Jobs with the given fSeqs, each under its own address. -/
def batchOf (fSeqs : List Nat) : Call JobToAdd :=
  .add (fSeqs.map fun n => sampleJob (toString n) (UInt64.ofNat n))

/-- A batch per list of fSeqs, each by its own agent. -/
def batchesOf (fSeqs : List (List Nat)) : List (AgentReference × Call JobToAdd) :=
  fSeqs.mapIdx fun i batch => (⟨"agent", 100 * i⟩, batchOf batch)

/-- Two batches, the second of which splits a shard. -/
theorem sorted_after_split :
    Sorted "queue" (ops.replay "queue" (batchesOf [[9, 2], [5]]) (initialStore 2))
      ∧ ∀ e, (ops.run "queue" ⟨"agent", 200⟩ (batchOf [3])
          (ops.replay "queue" (batchesOf [[9, 2], [5]]) (initialStore 2))).1 = .error e →
          ¬ FreshAt "queue" (Machine.start
              (ops.replay "queue" (batchesOf [[9, 2], [5]]) (initialStore 2)) ⟨"agent", 200⟩)
            ∧ ∃ a, e = .backend a := by
  have h := sorted_of_history
    ((initialStore_history (OrderlyAt "queue") 2 (by decide)).replay (batchesOf [[9, 2], [5]])
      (by decide +kernel))
  exact ⟨h.1, h.2 (batchOf [3]) ⟨"agent", 200⟩ (by decide +kernel) (by decide +kernel)⟩

/-- The third batch splits a shard twice; the last one puts fSeq 26 before fSeq 25. -/
def outOfOrder : List (AgentReference × Call JobToAdd) :=
  batchesOf [[32, 30, 29], [38, 10, 22, 9], [39, 28, 21], [0, 25], [26, 3]]

def queuedFseqs (st : RStore) : List UInt64 :=
  match st "queue" with
  | some (.queue q) => (queuedJobs st q.queueshards).map (·.fseq)
  | _ => []

/-- Out of order with shards of three jobs; with shards of one job no return. -/
theorem additions_lose_order : (∃ st queued, History ops "queue" (fun _ c => AddsOnly c) st queued
      ∧ (queued.map (·.fseq)).Nodup ∧ ¬ Sorted "queue" st)
    ∧ ∃ st queued c agent, History ops "queue" (fun _ c => AddsOnly c) st queued
      ∧ c.Admissible ops.toPointer queued ∧ AddsOnly c
      ∧ ((c.effect ops.toPointer queued).map (·.fseq)).Nodup
      ∧ (ops.run "queue" agent c st).1 = .error (.undefined .emptyShardSummary) := by
  constructor
  · refine ⟨ops.replay "queue" outOfOrder (initialStore 3), ops.expected outOfOrder [],
      (initialStore_history _ 3 (by decide)).replay outOfOrder (by decide +kernel),
      by decide +kernel, ?_⟩
    rintro ⟨q, hq, ho⟩
    have hf : queuedFseqs (ops.replay "queue" outOfOrder (initialStore 3))
        = [0, 3, 9, 10, 21, 22, 26, 25, 28, 29, 30, 32, 38, 39] := by
      decide +kernel
    rw [queuedFseqs, hq] at hf
    dsimp only at hf
    have hs : ((queuedJobs (ops.replay "queue" outOfOrder (initialStore 3))
        q.queueshards).map (·.fseq)).Pairwise (· ≤ ·) := pairwise_map.mpr ho
    rw [hf] at hs
    exact absurd hs (by decide)
  · refine ⟨ops.replay "queue" (batchesOf [[5]]) (initialStore 1), _, batchOf [3],
      ⟨"agent", 100⟩, (initialStore_history _ 1 (by decide)).replay _ (by decide +kernel), ?_, ?_,
      ?_, ?_⟩
    · decide +kernel
    · decide +kernel
    · decide +kernel
    · decide +kernel

end TapeArchive.Objectstore.RetrieveQueue
