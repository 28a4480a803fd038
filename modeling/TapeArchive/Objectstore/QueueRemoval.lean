/-
  **A REMOVAL TAKES OUT EXACTLY THE JOBS OF THE ADDRESSES.**

  From one shard (`removeJobs_*`), and with it from the summaries of the queue:
  starting from a coherent queue the pointer of the shard never disagrees with
  the shard after the removal (`Coherent.afterRemoval`), so that the branch of
  the source that rebuilds the queue for a mismatch is not taken.
-/
import TapeArchive.Objectstore.QueueSummaries

namespace TapeArchive.Objectstore

open Lib List

variable {Q J R : Type}

/-! ## Removing jobs from a shard -/

section Removal

variable [QueueJob J]

/-- The loop over the addresses: the entries of an address leave together. -/
theorem foldl_removeAddress (addresses : List String) (s : Shard J) (gone : List J) :
    let r := addresses.foldl Shard.removeAddress (s, gone)
    r.1.jobs = s.jobs.filter (fun j => !addresses.contains (address j))
      ∧ r.2.Perm (gone ++ s.jobs.filter (fun j => addresses.contains (address j)))
      ∧ r.1.jobstotalsize + bytesOf r.2 = s.jobstotalsize + bytesOf gone := by
  induction addresses generalizing s gone with
  | nil => simp
  | cons a addresses ih =>
    obtain ⟨hj, hg, hb⟩ := ih (Shard.removeAddress (s, gone) a).1
      (Shard.removeAddress (s, gone) a).2
    refine ⟨?_, ?_, ?_⟩
    · rw [foldl_cons, hj]
      simp only [Shard.removeAddress, filter_filter]
      congr 1
      funext j
      by_cases h : address j = a <;> simp [h]
    · rw [foldl_cons]
      refine hg.trans ?_
      simp only [Shard.removeAddress, append_assoc, filter_filter]
      refine List.Perm.append_left gone ?_
      -- the jobs of `a :: addresses` are those of `a` and the others
      have hs := filter_append_perm (fun j => address j == a)
        (s.jobs.filter (fun j => (a :: addresses).contains (address j)))
      rw [filter_filter, filter_filter] at hs
      refine (List.Perm.of_eq ?_).trans hs
      congr 1
      · congr 1
        funext j
        by_cases h : address j = a <;> simp [h]
      · congr 1
        funext j
        by_cases h : address j = a <;> simp [h, bne, Bool.and_comm]
    · rw [foldl_cons, hb]
      simp only [Shard.removeAddress, bytesOf_append]
      abel

variable (s : Shard J) (addresses : List String)

theorem removeJobs_jobs :
    (s.removeJobs addresses).1.jobs = s.jobs.filter (fun j => !addresses.contains (address j)) :=
  (foldl_removeAddress addresses s []).1

theorem removeJobs_removedJobs : (s.removeJobs addresses).2.removedJobs.Perm
      (s.jobs.filter (fun j => addresses.contains (address j))) := by
  exact (foldl_removeAddress addresses s []).2.1

/-- Nothing is lost: a shard is what stays and what was removed. -/
theorem removeJobs_perm :
    ((s.removeJobs addresses).2.removedJobs ++ (s.removeJobs addresses).1.jobs).Perm s.jobs := by
  rw [removeJobs_jobs]
  exact ((removeJobs_removedJobs s addresses).append_right _).trans (filter_append_perm _ _)

theorem removeJobs_bytes :
    (s.removeJobs addresses).1.jobstotalsize + (s.removeJobs addresses).2.bytesRemoved
      = s.jobstotalsize := by
  exact (foldl_removeAddress addresses s []).2.2.trans (by simp)

@[simp] theorem removeJobs_jobsAfter :
    (s.removeJobs addresses).2.jobsAfter = (s.removeJobs addresses).1.jobs.length := rfl

@[simp] theorem removeJobs_jobsRemoved :
    (s.removeJobs addresses).2.jobsRemoved = (s.removeJobs addresses).2.removedJobs.length := rfl

@[simp] theorem removeJobs_bytesRemoved : (s.removeJobs addresses).2.bytesRemoved
      = bytesOf (s.removeJobs addresses).2.removedJobs := rfl

@[simp] theorem removeJobs_bytesAfter :
    (s.removeJobs addresses).2.bytesAfter = (s.removeJobs addresses).1.jobstotalsize := rfl

theorem removeJobs_sized (h : s.jobstotalsize = bytesOf s.jobs) :
    (s.removeJobs addresses).1.jobstotalsize = bytesOf (s.removeJobs addresses).1.jobs := by
  have hb := removeJobs_bytes s addresses
  have hp := bytesOf_perm (removeJobs_perm s addresses)
  rw [bytesOf_append] at hp
  rw [removeJobs_bytesRemoved, h, ← hp, add_comm] at hb
  exact add_left_cancel hb

/-- Removing the addresses of the jobs with a property removes those jobs, as long as no
address occurs twice in the shard. -/
theorem removeJobs_filter {s : Shard J} (h : (s.jobs.map address).Nodup) (P : J → Bool) :
    (s.removeJobs ((s.jobs.filter P).map address)).1.jobs = s.jobs.filter (fun j => !P j)
      ∧ (s.removeJobs ((s.jobs.filter P).map address)).2.removedJobs.Perm (s.jobs.filter P) := by
  have hm : ∀ j ∈ s.jobs, ((s.jobs.filter P).map address).contains (address j) = P j := by
    intro j hj
    rw [Bool.eq_iff_iff, contains_iff_mem, mem_map]
    constructor
    · rintro ⟨k, hk, heq⟩
      rw [mem_filter] at hk
      rw [← inj_on_of_nodup_map h hk.1 hj heq]
      exact hk.2
    · exact fun hP => ⟨j, mem_filter.mpr ⟨hj, hP⟩, rfl⟩
  constructor
  · rw [removeJobs_jobs]
    exact filter_congr (fun j hj => by rw [hm j hj])
  · refine (removeJobs_removedJobs s _).trans (List.Perm.of_eq ?_)
    exact filter_congr hm

end Removal

/-! ## The summaries after a removal -/

section AfterRemoval

variable (st : QueueStore Q J)

/-- The store after the shard at `a` was written back or removed. -/
def afterStoreRemoval (a : String) (s : Shard J) : QueueStore Q J :=
  if s.jobs = [] then (Write.del a).apply st else (Write.put a (.shard s)).apply st

theorem afterStoreRemoval_of_ne {a b : String} (s : Shard J) (h : b ≠ a) :
    afterStoreRemoval st a s b = st b := by
  unfold afterStoreRemoval
  split
  · exact Write.apply_of_ne _ _ h
  · exact Write.apply_of_ne _ _ h

variable {a : String}

theorem afterStoreRemoval_shard {st : QueueStore Q J} {s s' : Shard J}
    (h : afterStoreRemoval st a s a = some (.shard s')) : s' = s ∧ s.jobs ≠ [] := by
  unfold afterStoreRemoval at h
  split at h
  · simp at h
  rename_i hne
  rw [Write.apply_put_same, Option.some.injEq, Obj.shard.injEq] at h
  exact ⟨h.symm, hne⟩

theorem jobsAt_afterStoreRemoval (a : String) (s : Shard J) :
    jobsAt (afterStoreRemoval st a s) a = s.jobs := by
  unfold afterStoreRemoval
  split
  · rename_i h
    simp [h]
  · simp

theorem jobsAt_afterStoreRemoval_eq (a : String) (s : Shard J) (b : String) :
    jobsAt (afterStoreRemoval st a s) b = if b = a then s.jobs else jobsAt st b := by
  by_cases hb : b = a
  · rw [hb, if_pos rfl, jobsAt_afterStoreRemoval]
  · rw [if_neg hb, jobsAt, afterStoreRemoval_of_ne st _ hb, ← jobsAt]

section Write

variable [QueueJob J]

theorem wp_storeRemoval {X : Exn → QMachine Q J → Prop} {Post : Unit → QMachine Q J → Prop}
    {m : QMachine Q J} {s : Shard J}
    (h : m.store a = some (.shard s)) (addresses : List String) (hp : ∀ w, w.addr = a →
      w.apply m.store = afterStoreRemoval m.store a (s.removeJobs addresses).1 →
      Post () (m.push w)) :
    wp (storeRemoval a (s.removeJobs addresses)) Post X m := by
  unfold storeRemoval
  by_cases hn : (s.removeJobs addresses).1.jobs = []
  · rw [if_neg (by simp [hn]), wp_remove h]
    exact hp _ rfl (by simp [afterStoreRemoval, hn])
  · rw [if_pos (by simpa using hn), wp_atomicOverwrite h]
    exact hp _ rfl (by simp [afterStoreRemoval, hn])

end Write

variable {st : QueueStore Q J} {q q' : QueuePayload R} {s : Shard J}
variable {done todo : List (ShardPointer R)} {p : ShardPointer R}

/-- The pointers after a removal. -/
theorem afterRemoval_queueshards (q : QueuePayload R) (hps : q.queueshards = done ++ p :: todo)
    (r : RemovalResult J) :
    (q.afterRemoval done.length p r).queueshards = if r.jobsAfter ≠ 0 then
          done ++ { p with
            shardbytescount := p.shardbytescount - r.bytesRemoved
            shardjobscount := p.shardjobscount - UInt64.ofNat r.jobsRemoved } :: todo
        else done ++ todo := by
  unfold QueuePayload.afterRemoval
  rw [hps, eraseIdx_length_append]
  split
  · rw [set_append_right _ _ (Nat.le_refl _)]
    simp
  · rfl

variable [QueueJob J]

/-- The queued jobs are those that a removal from one shard takes and those it leaves. -/
theorem coe_queuedJobs_removal (hps : q.queueshards = done ++ p :: todo)
    (hs : st p.address = some (.shard s)) (addresses : List String) :
    ((queuedJobs st q.queueshards : List J) : Multiset J)
      = ((s.removeJobs addresses).2.removedJobs : Multiset J)
        + ((queuedJobs st done ++ (s.removeJobs addresses).1.jobs ++ queuedJobs st todo : List J)
          : Multiset J) := by
  rw [Multiset.coe_add, Multiset.coe_eq_coe, hps, queuedJobs_append, queuedJobs_cons,
    jobsAt_of_shard hs]
  have hm : (queuedJobs st done ++ (s.jobs ++ queuedJobs st todo)).Perm
      (queuedJobs st done ++ ((s.removeJobs addresses).2.removedJobs
        ++ ((s.removeJobs addresses).1.jobs ++ queuedJobs st todo))) := by
    rw [← append_assoc (s.removeJobs addresses).2.removedJobs]
    exact ((removeJobs_perm s addresses).symm.append_right _).append_left _
  refine hm.trans ?_
  rw [append_assoc (queuedJobs st done)]
  exact perm_append_comm_assoc _ _ _

theorem map_address_afterRemoval (hps : q.queueshards = done ++ p :: todo)
    (addresses : List String) :
    (q.afterRemoval done.length p (s.removeJobs addresses).2).queueshards.map (·.address)
      = (if (s.removeJobs addresses).1.jobs = [] then done ++ todo
          else done ++ p :: todo).map (·.address) := by
  rw [afterRemoval_queueshards q hps]
  by_cases hn : (s.removeJobs addresses).1.jobs = []
  · simp [hn]
  · simp [hn]

omit [QueueJob J] in
theorem exists_pointer_of_removal {P : Prop} [Decidable P] (hps : q.queueshards = done ++ p :: todo)
    (h : a ∈ (if P then done ++ todo else done ++ p :: todo).map (·.address)) :
    ∃ p' ∈ q.queueshards, p'.address = a := by
  rw [hps]
  obtain ⟨p', hp', heq⟩ := mem_map.mp h
  refine ⟨p', ?_, heq⟩
  split at hp'
  · simp only [mem_append, mem_cons] at hp' ⊢
    tauto
  · exact hp'

theorem nextIndex_eq (addresses : List String) (n : Nat) :
    (if (s.removeJobs addresses).2.jobsAfter ≠ 0 then n + 1 else n)
      = if (s.removeJobs addresses).1.jobs = [] then n else n + 1 := by
  by_cases hn : (s.removeJobs addresses).1.jobs = []
  · simp [hn]
  · simp [hn]

theorem queuedJobs_afterRemoval (st : QueueStore Q J)
    (hn : ((done ++ p :: todo).map (·.address)).Nodup)
    (hps : q.queueshards = done ++ p :: todo) (addresses : List String) :
    queuedJobs (afterStoreRemoval st p.address (s.removeJobs addresses).1)
        (q.afterRemoval done.length p (s.removeJobs addresses).2).queueshards
      = queuedJobs st done ++ (s.removeJobs addresses).1.jobs ++ queuedJobs st todo := by
  have hs : ∀ l : List (ShardPointer R), (∀ p1 ∈ l, p1 ∈ done ++ todo) →
      queuedJobs (afterStoreRemoval st p.address (s.removeJobs addresses).1) l
        = queuedJobs st l := fun l hl =>
    queuedJobs_congr (fun p1 hp1 => by
      simp only [jobsAt, afterStoreRemoval_of_ne st _ (address_ne_of_nodup hn (hl p1 hp1))])
  rw [afterRemoval_queueshards q hps]
  split
  · rw [queuedJobs_append, queuedJobs_cons, jobsAt_afterStoreRemoval,
      hs done (fun _ h => mem_append_left _ h),
      hs todo (fun _ h => mem_append_right _ h), append_assoc]
  · rename_i hz
    have hni : (s.removeJobs addresses).1.jobs = [] := by simpa using hz
    rw [hs (done ++ todo) (fun _ h => h), hni, queuedJobs_append, append_nil]

theorem Counted.foldlM_decCounts {jobs : Multiset J} (removed : List J) {q : QueuePayload R}
    (h : Counted q ((removed : Multiset J) + jobs)) :
    ∃ p a n, removed.foldlM QueuePayload.decCounts q
        = .ok { q with prioritymap := p, minrequestagemap := a, mountpolicynamemap := n }
      ∧ Counted { q with prioritymap := p, minrequestagemap := a, mountpolicynamemap := n }
          jobs := by
  induction removed generalizing q with
  | nil =>
    exact ⟨q.prioritymap, q.minrequestagemap, q.mountpolicynamemap, rfl, by simpa using h⟩
  | cons j removed ih =>
    rw [← Multiset.cons_coe, Multiset.cons_add] at h
    obtain ⟨p, a, n, hd, hc⟩ := h.decCounts
    obtain ⟨p', a', n', hf, hc'⟩ := ih hc
    exact ⟨p', a', n', by rw [foldlM_cons, hd]; exact hf, hc'⟩

/-- **The summaries follow a removal exactly**, and the pointer never disagrees. -/
theorem Coherent.afterRemoval (h : Coherent st q) (hps : q.queueshards = done ++ p :: todo)
    (hs : st p.address = some (.shard s)) (addresses : List String)
    (hq' : q'.queueshards = q.queueshards ∧ q'.jobscount = q.jobscount
      ∧ q'.jobstotalsize = q.jobstotalsize)
    (hco : Counted q' ((queuedJobs st done ++ (s.removeJobs addresses).1.jobs
      ++ queuedJobs st todo : List J) : Multiset J)) :
    Coherent (afterStoreRemoval st p.address (s.removeJobs addresses).1)
        (q'.afterRemoval done.length p (s.removeJobs addresses).2)
      ∧ (s.removeJobs addresses).2.mismatch p = false := by
  have hn := h.nodup
  rw [hps] at hn
  have hp' : q'.queueshards = done ++ p :: todo := hq'.1.trans hps
  obtain ⟨t, ht⟩ := h.pointers p (by rw [hps]; simp)
  obtain rfl : t = s := by
    have := ht.stored
    rw [hs, Option.some.injEq, Obj.shard.injEq] at this
    exact this.symm
  set r := t.removeJobs addresses with hr
  have hp : (r.2.removedJobs ++ r.1.jobs).Perm t.jobs := removeJobs_perm t addresses
  have hsi : r.1.jobstotalsize = bytesOf r.1.jobs := removeJobs_sized t addresses ht.sized
  have hc : p.shardjobscount - UInt64.ofNat r.2.jobsRemoved = UInt64.ofNat r.1.jobs.length := by
    rw [ht.jobs, ← hp.length_eq, length_append, UInt64.ofNat_add]
    exact add_sub_cancel_left _ _
  have hb : p.shardbytescount - r.2.bytesRemoved = bytesOf r.1.jobs := by
    rw [ht.bytes, ← bytesOf_perm hp, bytesOf_append]
    exact add_sub_cancel_left _ _
  have ho : ∀ p1 ∈ done ++ todo, ∃ s1,
      PointerExact (afterStoreRemoval st p.address r.1) p1 s1 := fun p1 hp1 => by
    obtain ⟨s1, hs1⟩ := h.pointers p1 (by
      rw [hps]
      simp only [mem_append, mem_cons] at hp1 ⊢
      tauto)
    exact ⟨s1, (afterStoreRemoval_of_ne st _ (address_ne_of_nodup hn hp1)).trans hs1.stored,
      hs1.sized, hs1.jobs, hs1.bytes⟩
  refine ⟨⟨?_, ?_, ?_⟩, ?_⟩
  · rw [afterRemoval_queueshards q' hp']
    split
    · simpa using hn
    · rw [map_append, map_cons, nodup_middle] at hn
      simpa using hn.of_cons
  · rw [afterRemoval_queueshards q' hp']
    intro p1 hp1
    split at hp1
    · rename_i hne
      have hn' : r.1.jobs ≠ [] := by simpa [hr] using hne
      rcases mem_append.mp hp1 with hp1 | hp1
      · exact ho p1 (mem_append_left _ hp1)
      rcases mem_cons.mp hp1 with rfl | hp1
      · refine ⟨r.1, ?_, hsi, hc, hb⟩
        simp [afterStoreRemoval, hn']
      · exact ho p1 (mem_append_right _ hp1)
    · exact ho p1 hp1
  · rw [queuedJobs_afterRemoval st hn hp']
    have ha : queuedJobs st q.queueshards = queuedJobs st done ++ t.jobs ++ queuedJobs st todo := by
      rw [hps, queuedJobs_append, queuedJobs_cons, jobsAt_of_shard hs, append_assoc]
    refine ⟨hco.of_maps, ?_, ?_⟩
    · show q'.jobscount - UInt64.ofNat r.2.jobsRemoved = _
      rw [hq'.2.1, h.summary.jobscount, ha, Multiset.coe_card, Multiset.coe_card, length_append,
        length_append, length_append, length_append, ← hp.length_eq,
        length_append]
      simp only [UInt64.ofNat_add]
      show _ - UInt64.ofNat r.2.removedJobs.length = _
      abel
    · show q'.jobstotalsize - bytesOf r.2.removedJobs = bytesOf _
      rw [hq'.2.2, h.summary.jobstotalsize, ha]
      show bytesOf _ - _ = _
      simp only [bytesOf_append, ← bytesOf_perm hp]
      abel
  · unfold RemovalResult.mismatch
    rw [hc, hb]
    simpa [hr] using fun _ => hsi.symm

end AfterRemoval

/-! ## The loop over the shards -/

section Loop

variable [QueueJob J] {pointers : Q → List (ShardPointer R)}
variable {round : List String → Nat → ShardPointer R → Q → QueueM Q J (List String × Nat × Q)}
variable {Inv : QueueStore Q J → Q → Prop}
variable {X : Exn → QMachine Q J → Prop}

/-- What a round for the pointer `p` does, starting and ending with the invariant. -/
def RoundSpec (pointers : Q → List (ShardPointer R))
    (round : List String → Nat → ShardPointer R → Q → QueueM Q J (List String × Nat × Q))
    (Inv : QueueStore Q J → Q → Prop)
    (X : Exn → Machine String (Obj Q (Shard J)) AgentReference → Prop) : Prop :=
  ∀ (addresses : List String) (done : List (ShardPointer R)) (p : ShardPointer R)
    (todo : List (ShardPointer R)) (q : Q) (m : Machine String (Obj Q (Shard J)) AgentReference)
    (Post : List String × Nat × Q → Machine String (Obj Q (Shard J)) AgentReference → Prop),
    Inv m.store q → pointers q = done ++ p :: todo →
    (∀ s q' m', m.store p.address = some (.shard s) → Inv m'.store q' →
      (pointers q').map (·.address)
        = (if (s.removeJobs addresses).1.jobs = [] then done ++ todo
            else done ++ p :: todo).map (·.address) →
      (∀ b, jobsAt m'.store b
        = if b = p.address then (s.removeJobs addresses).1.jobs else jobsAt m.store b) →
      Post (trimRemoved addresses (s.removeJobs addresses).2,
        if (s.removeJobs addresses).1.jobs = [] then done.length else done.length + 1, q') m') →
    wp (round addresses done.length p q) Post X m

omit [QueueJob J] in
theorem queuedJobs_of_jobsAt {st st' : QueueStore Q J} {a : String} {jobs : List J}
    (h : ∀ b, jobsAt st' b = if b = a then jobs else jobsAt st b) {ps : List (ShardPointer R)}
    (hps : ∀ p ∈ ps, p.address ≠ a) : queuedJobs st' ps = queuedJobs st ps :=
  queuedJobs_congr (fun p hp => by rw [h, if_neg (hps p hp)])

theorem contains_trimRemoved {addresses : List String} {r : RemovalResult J} {a : String}
    (h : ∀ j ∈ r.removedJobs, address j ≠ a) :
    (trimRemoved addresses r).contains a = addresses.contains a := by
  have ha : r.removedJobs.any (fun j => address j == a) = false := by
    simpa using h
  rw [Bool.eq_iff_iff, contains_iff_mem, contains_iff_mem]
  unfold trimRemoved
  rw [mem_filter, ha]
  simp

/-- **The loop removes exactly the jobs of the addresses** from the shards it has not
visited yet, as long as no address is queued twice. -/
theorem wp_removeLoop (hro : RoundSpec pointers round Inv X)
    (hn : ∀ st q, Inv st q → ((pointers q).map (·.address)).Nodup) (rounds : Nat) :
    ∀ (addresses : List String) (shardIndex : Nat) {q : Q} {m : QMachine Q J}
      {Post : Q → QMachine Q J → Prop},
      Inv m.store q → shardIndex + rounds = (pointers q).length →
      ((queuedJobs m.store (pointers q)).map address).Nodup →
      (∀ q' m', Inv m'.store q' → queuedJobs m'.store (pointers q')
          = queuedJobs m.store ((pointers q).take shardIndex)
            ++ (queuedJobs m.store ((pointers q).drop shardIndex)).filter
              (fun j => !addresses.contains (address j)) → Post q' m') →
      wp (removeLoop pointers round rounds addresses shardIndex q) Post X m := by
  induction rounds with
  | zero =>
    intro addresses shardIndex q m Post hi hl _ hp
    rw [removeLoop, wp_pure]
    refine hp q m hi ?_
    rw [take_of_length_le (by omega), drop_eq_nil_of_le (by omega)]
    simp
  | succ rounds ih =>
    intro addresses shardIndex q m Post hi hl hjo hp
    cases addresses with
    | nil =>
      simp only [removeLoop, wp_pure]
      refine hp q m hi ?_
      simp [← queuedJobs_append]
    | cons a addresses =>
      generalize hd : (pointers q).take shardIndex = done at hp
      obtain ⟨p, todo, htd⟩ : ∃ p todo, (pointers q).drop shardIndex = p :: todo :=
        exists_cons_of_ne_nil (by simp; omega)
      have hps : pointers q = done ++ p :: todo := by
        rw [← hd, ← htd, take_append_drop]
      obtain rfl : shardIndex = done.length := by
        rw [← hd, length_take]
        omega
      have hpn := hn _ _ hi
      rw [hps] at hpn hjo
      have hnd : ∀ p1 ∈ done, p1.address ≠ p.address := fun p1 hp1 =>
        address_ne_of_nodup hpn (mem_append_left _ hp1)
      have hnt : ∀ p1 ∈ todo, p1.address ≠ p.address := fun p1 hp1 =>
        address_ne_of_nodup hpn (mem_append_right _ hp1)
      have hg : (pointers q)[done.length]? = some p := by rw [hps]; simp
      simp only [removeLoop, hg, wp_bind]
      refine hro _ done p todo q m _ hi hps ?_
      intro s q' m' hs hi' ha hat
      set rem := (s.removeJobs (a :: addresses)).1.jobs with hre
      have hr : rem = s.jobs.filter (fun j => !(a :: addresses).contains (address j)) :=
        removeJobs_jobs s (a :: addresses)
      generalize hid : (if rem = [] then done.length else done.length + 1) = shardIndex
      -- the pointers that have been visited, and those that have not
      have hta : queuedJobs m'.store ((pointers q').take shardIndex)
          = queuedJobs m.store done ++ rem := by
        have hv : ((pointers q').take shardIndex).map (·.address)
            = (if rem = [] then done else done ++ [p]).map (·.address) := by
          rw [map_take, ha, ← map_take, ← hid]
          split
          · simp
          · rw [append_cons, take_left' (by simp)]
        rw [queuedJobs_map_address hv]
        split
        · rename_i hni
          rw [queuedJobs_of_jobsAt hat hnd, hni, append_nil]
        · rw [queuedJobs_append, queuedJobs_of_jobsAt hat hnd]
          simp [hat]
      have hdr : queuedJobs m'.store ((pointers q').drop shardIndex) = queuedJobs m.store todo := by
        have hrest : ((pointers q').drop shardIndex).map (·.address) = todo.map (·.address) := by
          rw [map_drop, ha, ← map_drop, ← hid]
          split
          · simp
          · rw [append_cons, drop_left' (by simp)]
        rw [queuedJobs_map_address hrest, queuedJobs_of_jobsAt hat hnt]
      have hal : queuedJobs m'.store (pointers q')
          = queuedJobs m.store done ++ rem ++ queuedJobs m.store todo := by
        rw [← hta, ← hdr, ← queuedJobs_append, take_append_drop]
      have hl' : (pointers q').length = shardIndex + rounds := by
        have h1 := congrArg List.length ha
        rw [length_map, length_map] at h1
        rw [hps, length_append, length_cons] at hl
        rw [h1, ← hid]
        split
        · rw [length_append]; omega
        · rw [length_append, length_cons]; omega
      rw [queuedJobs_append, queuedJobs_cons, jobsAt_of_shard hs] at hjo
      refine ih _ _ hi' hl'.symm ?_ ?_
      · rw [hal, append_assoc]
        refine hjo.sublist (List.Sublist.map _ ?_)
        refine List.Sublist.append_left (List.Sublist.append_right ?_ _) _
        rw [hr]
        exact filter_sublist
      · intro q'' m'' hi'' hqu
        refine hp q'' m'' hi'' ?_
        rw [hqu, hta, hdr, htd, queuedJobs_cons, jobsAt_of_shard hs, filter_append,
          ← hr, append_assoc]
        congr 2
        -- the addresses taken off the list are queued in this shard only
        refine filter_congr (fun j hj => ?_)
        rw [contains_trimRemoved]
        intro k hk heq
        have hkm : k ∈ s.jobs := (mem_filter.mp ((removeJobs_removedJobs s _).mem_iff.mp hk)).1
        rw [map_append, map_append] at hjo
        have hdi := (nodup_append.mp (nodup_append.mp hjo).2.1).2.2
        exact hdi _ (mem_map_of_mem hkm) _ (mem_map_of_mem hj) heq

end Loop

end TapeArchive.Objectstore
