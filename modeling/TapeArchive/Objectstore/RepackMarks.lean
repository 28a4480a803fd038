/-
  **WHAT THE REPORTS LEAVE IN A REPACK REQUEST**: the mark of a subrequest that is gone,

      reportArchiveFailures          mark := true
      reportSubRequestsForDeletion   mark := true
      reportArchiveSuccesses         mark := the mark of the report

  and the counters, which grow element by element while the flags stay in a local map
  until the loop is through.
-/
import TapeArchive.Lib.Lists
import TapeArchive.Objectstore.RepackAccounting

namespace TapeArchive.Objectstore.RepackRequest

open Std Lib List

/-! ## The mark of an fSeq -/

def mapDeleted (m : PointerMap) (fSeq : UInt64) : Bool := m[fSeq]?.any (·.subrequestDeleted)

/-- The subrequest of an fSeq is marked deleted, as every call reads it. -/
def deleted (r : RepackRequest) (fSeq : UInt64) : Bool := mapDeleted r.readMap fSeq

theorem deleted_writeMap {m : PointerMap} (hm : Aligned m) (r : RepackRequest) (fSeq : UInt64) :
    (r.writeMap m).deleted fSeq = mapDeleted m fSeq := by
  unfold deleted mapDeleted
  rw [readMap_getElem? (distinctFSeqs_writeMap hm r), findKey_writeMap hm]
  cases m[fSeq]? with
  | none | some => rfl

theorem mapDeleted_insert (m : PointerMap) (fs : UInt64) (p : SubRequestPointer) (fSeq : UInt64) :
    mapDeleted (m.insert fs p) fSeq
      = if fs = fSeq then p.subrequestDeleted else mapDeleted m fSeq := by
  unfold mapDeleted
  rw [TreeMap.getElem?_insert]
  by_cases h : fs = fSeq
  · simp [h]
  · simp [h]

/-! ## The calls -/

inductive PointerCall where
  | report (call : Call)
  | getOrPrepareSubrequestInfo (fSeqs : TreeSet UInt64) (agentRef : AgentReference)
  | reportSubRequestsForDeletion (fSeqs : List UInt64)

/-- The request after a call; one that throws is not committed. -/
def applyCall (r : RepackRequest) : PointerCall → RepackRequest
  | .report call => r.commitReport call
  | .getOrPrepareSubrequestInfo fSeqs agentRef => (r.getOrPrepareSubrequestInfo fSeqs agentRef).1
  | .reportSubRequestsForDeletion fSeqs =>
      match r.reportSubRequestsForDeletion fSeqs with
      | .ok r' => r'
      | .error _ => r

/-- A success of a marked subrequest comes with the mark, or is accounted already. -/
def MarksKept (r : RepackRequest) : PointerCall → Prop
  | .report call => call.kind = .archiveSuccess → ∀ s ∈ call.stats, r.deleted s.fSeq = true →
      s.subrequestDeleted = true ∨ mapFlag r.readMap (.archive s.fSeq s.copyNb) = true
  | _ => True

instance (r : RepackRequest) (call : PointerCall) : Decidable (r.MarksKept call) :=
  match call with
  | .report call => inferInstanceAs (Decidable (call.kind = .archiveSuccess → ∀ s ∈ call.stats, _))
  | .getOrPrepareSubrequestInfo .. | .reportSubRequestsForDeletion _ => isTrue trivial

/-! ## A mark stays -/

theorem account_deleted (k : Kind) (s : SubrequestStatistics) (p : SubRequestPointer) :
    (k.report.account s p).subrequestDeleted = match k with
        | .retrieveSuccess | .retrieveFailure => p.subrequestDeleted
        | .archiveSuccess => s.subrequestDeleted
        | .archiveFailure => true := by
  cases k <;> rfl

variable {fSeq : UInt64} {env : Surroundings} {c c' : Counting}

/-- One element of a report. -/
theorem countOne_keeps_mark {k : Kind} {s : SubrequestStatistics}
    (h : k.report.countOne env c s = .ok c') (hm : mapDeleted c.pointerMap fSeq = true)
    (hs : k = .archiveSuccess → s.fSeq = fSeq → s.subrequestDeleted = true
      ∨ mapFlag c.pointerMap (.archive s.fSeq s.copyNb) = true) :
    mapDeleted c'.pointerMap fSeq = true := by
  obtain ⟨p, hp, ⟨-, rfl⟩ | ⟨hflag, payload, -, rfl⟩⟩ := countOne_cases h
  · exact hm
  show mapDeleted (c.pointerMap.insert s.fSeq (k.report.account s p)) fSeq = true
  rw [mapDeleted_insert]
  by_cases heq : s.fSeq = fSeq
  · rw [if_pos heq, account_deleted]
    have hpd : p.subrequestDeleted = true := by
      rw [← heq] at hm
      simpa [mapDeleted, hp] using hm
    cases k with
    | retrieveSuccess | retrieveFailure => exact hpd
    | archiveFailure => rfl
    | archiveSuccess => exact (hs rfl heq).resolve_right (Bool.eq_false_iff.mp hflag)
  · rw [if_neg heq]
    exact hm

variable {stats : List SubrequestStatistics}

/-- The loop of a report: what is accounted at its start stays accounted. -/
theorem counting_keeps_mark {k : Kind} (h : stats.foldlM (k.report.countOne env) c = .ok c')
    (hm : mapDeleted c.pointerMap fSeq = true)
    (hs : k = .archiveSuccess → ∀ s ∈ stats, s.fSeq = fSeq → s.subrequestDeleted = true
      ∨ mapFlag c.pointerMap (.archive s.fSeq s.copyNb) = true) :
    mapDeleted c'.pointerMap fSeq = true := by
  induction stats generalizing c with
  | nil =>
    cases h
    exact hm
  | cons s stats ih =>
    obtain ⟨c1, ho, hrest⟩ := bind_eq_ok.mp h
    apply ih hrest
    · exact countOne_keeps_mark ho hm (fun hk => hs hk s mem_cons_self)
    intro hk s' hs' heq
    refine (hs hk s' (mem_cons_of_mem s hs') heq).imp_right ?_
    intro hflag
    rw [(countOne_ok ho).flags]
    simp [mark, hflag]

variable {r : RepackRequest}

/-- The marks after a report are those of its map. -/
theorem deleted_run {k : Kind} {r' : RepackRequest} (h : k.report.run env stats r = .ok r') :
    ∃ c, stats.foldlM (k.report.countOne env) ⟨r.readMap, r, false⟩ = .ok c
      ∧ ∀ fSeq, r'.deleted fSeq = mapDeleted c.pointerMap fSeq := by
  obtain ⟨c, hc, hco, ⟨r1, -, rfl⟩ | ⟨rfl, rfl⟩⟩ := run_cases h
  · exact ⟨c, hc, deleted_writeMap hco.aligned r1⟩
  · exact ⟨_, hc, fun _ => rfl⟩

theorem commitReport_keeps_mark {call : Call}
    (hm : r.deleted fSeq = true) (hke : r.MarksKept (.report call)) :
    (r.commitReport call).deleted fSeq = true := by
  unfold commitReport
  cases hr : call.kind.report.run call.env call.stats r with
  | error e => exact hm
  | ok r' =>
    obtain ⟨c, hc, hd⟩ := deleted_run hr
    refine (hd fSeq).trans (counting_keeps_mark hc hm ?_)
    intro hk s hs heq
    exact hke hk s hs (heq ▸ hm)

def mapAddress (m : PointerMap) (fSeq : UInt64) : Option String := m[fSeq]?.map (·.address)

def NamesDistinct (addressOf : UInt64 → Option String) : Prop :=
  ∀ fSeq fSeq' address, addressOf fSeq = some address → addressOf fSeq' = some address → fSeq = fSeq'

/-- The ids that the agent has still to give are the address of no subrequest. -/
def IdsUnused (addressOf : UInt64 → Option String) (agentRef : AgentReference) : Prop :=
  ∀ n, agentRef.m_nextId ≤ n → ∀ fSeq, addressOf fSeq ≠ some (agentRef.idAt "RepackSubRequest" n)

theorem mapAddress_insert {m : PointerMap} {fs : UInt64} {p : SubRequestPointer} {fSeq : UInt64}
    {address : String} (h : mapAddress (m.insert fs p) fSeq = some address) :
    fs = fSeq ∧ p.address = address ∨ mapAddress m fSeq = some address := by
  obtain ⟨q, hq, rfl⟩ := Option.map_eq_some_iff.mp h
  rcases getElem?_insert_some hq with ⟨rfl, rfl⟩ | hq
  · exact .inl ⟨rfl, rfl⟩
  · exact .inr (Option.map_eq_some_iff.mpr ⟨q, hq, rfl⟩)

/-- What the loop of `getOrPrepareSubrequestInfo` has done for the fSeqs `done`. -/
structure Prepares (m₀ : PointerMap) (agentRef : AgentReference) (c : Preparation)
    (done : List UInt64) : Prop where
  kept : ∀ (fSeq : UInt64) p, m₀[fSeq]? = some p → c.pointerMap[fSeq]? = some p
  added : ∀ (fSeq : UInt64) p, c.pointerMap[fSeq]? = some p →
    m₀[fSeq]? = some p ∨ ∃ address, p = ⟨address, fSeq, false, ∅, false⟩
  fSeqs : c.infos.map (·.fSeq) = done
  infos : ∀ info ∈ c.infos, ∃ p, c.pointerMap[info.fSeq]? = some p
    ∧ p.address = info.address ∧ p.subrequestDeleted = info.subrequestDeleted
  names : NamesDistinct (mapAddress m₀) → IdsUnused (mapAddress m₀) agentRef →
    NamesDistinct (mapAddress c.pointerMap) ∧ IdsUnused (mapAddress c.pointerMap) c.agentRef
  unchanged : c.newElementCreated = false → c.pointerMap = m₀

namespace Prepares

variable {m₀ : PointerMap} {agentRef : AgentReference} {c : Preparation} {done : List UInt64}

theorem aligned (h : Prepares m₀ agentRef c done) (hm : Aligned m₀) : Aligned c.pointerMap := by
  intro fSeq p hp
  rcases h.added fSeq p hp with hp | ⟨address, rfl⟩
  · exact hm fSeq p hp
  · rfl

theorem any_eq (h : Prepares m₀ agentRef c done) (flag : SubRequestPointer → Bool)
    (hnew : ∀ address fSeq, flag ⟨address, fSeq, false, ∅, false⟩ = false) (fSeq : UInt64) :
    c.pointerMap[fSeq]?.any flag = m₀[fSeq]?.any flag := by
  cases hm : m₀[fSeq]? with
  | some p => rw [h.kept fSeq p hm]
  | none =>
    cases hp : c.pointerMap[fSeq]? with
    | none => rfl
    | some p =>
      rcases h.added fSeq p hp with hp | ⟨address, rfl⟩
      · rw [hm] at hp
        cases hp
      · exact hnew address fSeq

/-- An fSeq that is handed out as deleted was marked before. -/
theorem deleted_of_info (h : Prepares m₀ agentRef c done) {info : SubrequestInfo}
    (hi : info ∈ c.infos) (hd : info.subrequestDeleted = true) : mapDeleted m₀ info.fSeq = true := by
  obtain ⟨p, hp, -, hpd⟩ := h.infos info hi
  rw [mapDeleted, ← h.any_eq (·.subrequestDeleted) (fun _ _ => rfl), hp]
  exact hpd.trans hd

theorem prepareOne (h : Prepares m₀ agentRef c done) (hm : Aligned m₀) (fs : UInt64) :
    Prepares m₀ agentRef (RepackRequest.prepareOne c fs) (done ++ [fs]) := by
  unfold RepackRequest.prepareOne
  split
  next srp hp =>
    obtain rfl : srp.fSeq = fs := h.aligned hm fs srp hp
    refine { h with fSeqs := by simp [h.fSeqs], infos := fun info hi => ?_ }
    rcases mem_concat_iff.mp hi with hi | rfl
    · exact h.infos info hi
    · exact ⟨srp, hp, rfl, rfl⟩
  next hp =>
    have hk : ∀ {fSeq : UInt64} {p q}, c.pointerMap[fSeq]? = some p →
        (c.pointerMap.insert fs q)[fSeq]? = some p := by
      intro fSeq p q hq
      have hne : fs ≠ fSeq := by
        rintro rfl
        rw [hp] at hq
        cases hq
      rw [TreeMap.getElem?_insert, if_neg (by simpa using hne), hq]
    constructor
    · exact fun fSeq p hq => hk (h.kept fSeq p hq)
    · intro fSeq p hq
      rcases getElem?_insert_some hq with ⟨rfl, rfl⟩ | hq
      · exact .inr ⟨_, rfl⟩
      · exact h.added fSeq p hq
    · simp [h.fSeqs]
    · intro info hi
      rcases mem_concat_iff.mp hi with hi | rfl
      · obtain ⟨p, hq, hi⟩ := h.infos info hi
        exact ⟨p, hk hq, hi⟩
      · exact ⟨_, TreeMap.getElem?_insert_self, rfl, rfl⟩
    · -- the new address is the next id, which no pointer has
      intro hd hu
      obtain ⟨hd, hu⟩ := h.names hd hu
      refine ⟨fun f f' address hf hf' => ?_, fun n hn f hf => ?_⟩
      · rcases mapAddress_insert hf with ⟨rfl, rfl⟩ | hf <;>
          rcases mapAddress_insert hf' with ⟨rfl, ha⟩ | hf'
        · rfl
        · exact absurd hf' (hu _ le_rfl f')
        · exact absurd (hf.trans (congrArg some ha.symm)) (hu _ le_rfl f)
        · exact hd f f' address hf hf'
      · rcases mapAddress_insert hf with ⟨-, ha⟩ | hf
        · have := @AgentReference.idAt_inj _ c.agentRef _ _ ha
          dsimp only at hn
          omega
        · exact hu n (by dsimp only at hn; omega) f hf
    · intro hfa
      cases hfa

/-- **The whole loop.** -/
theorem of_foldl (r : RepackRequest) (agentRef : AgentReference) (fSeqs : List UInt64) :
    Prepares r.readMap agentRef
      (fSeqs.foldl RepackRequest.prepareOne ⟨r.readMap, [], false, agentRef⟩) fSeqs := by
  induction fSeqs using reverseRecOn with
  | nil => exact ⟨fun _ _ h => h, fun _ _ h => .inl h, rfl, by simp, fun h h' => ⟨h, h'⟩, fun _ => rfl⟩
  | append_singleton fSeqs fs ih =>
    rw [foldl_append]
    exact ih.prepareOne (aligned_readMap r) fs

end Prepares

variable {fs fSeq : UInt64}

/-- Preparing subrequests marks none as deleted, and takes no mark back. -/
theorem deleted_prepare (r : RepackRequest) (fSeqs : TreeSet UInt64) (agentRef : AgentReference) :
    (r.getOrPrepareSubrequestInfo fSeqs agentRef).1.deleted = r.deleted := by
  have h := Prepares.of_foldl r agentRef fSeqs.toList
  funext fSeq
  unfold getOrPrepareSubrequestInfo
  dsimp only
  split
  · rw [deleted_writeMap (h.aligned (aligned_readMap r))]
    exact h.any_eq _ (fun _ _ => rfl) fSeq
  · rfl

theorem markDeleted_ok {c c' : PointerMap × Bool} (h : markDeleted c fs = .ok c') :
    SameAddresses c.1 c'.1 ∧ (∀ f, mapDeleted c'.1 f = true ↔ mapDeleted c.1 f = true ∨ f = fs)
      ∧ (c'.2 = false → c' = c) := by
  unfold markDeleted at h
  cases hp : c.1[fs]? with
  | none => simp [hp] at h
  | some p =>
    simp only [hp] at h
    by_cases hd : p.subrequestDeleted = true
    · simp only [hd, Bool.not_true] at h
      cases h
      refine ⟨fun _ => rfl, fun f => ⟨.inl, fun hf => hf.elim id (fun hf => ?_)⟩, fun _ => rfl⟩
      rw [hf, mapDeleted, hp]
      exact hd
    · simp only [hd, Bool.not_false, if_true] at h
      cases h
      refine ⟨fun f => ?_, fun f => ?_, fun hfa => by cases hfa⟩
      · rw [TreeMap.getElem?_insert]
        by_cases hf : fs = f
        · subst hf
          simp [hp]
        · simp [hf]
      · rw [mapDeleted_insert]
        by_cases hf : fs = f
        · simp [hf]
        · simp [hf, Ne.symm hf]

theorem foldlM_markDeleted_ok {fSeqs : List UInt64} {c c' : PointerMap × Bool}
    (h : fSeqs.foldlM markDeleted c = .ok c') :
    SameAddresses c.1 c'.1 ∧ (∀ f, mapDeleted c'.1 f = true ↔ mapDeleted c.1 f = true ∨ f ∈ fSeqs)
      ∧ (c'.2 = false → c' = c) := by
  induction fSeqs generalizing c with
  | nil =>
    cases h
    exact ⟨fun _ => rfl, by simp, fun _ => rfl⟩
  | cons fs fSeqs ih =>
    obtain ⟨c1, ho, hrest⟩ := bind_eq_ok.mp h
    obtain ⟨ha1, hd1, hs1⟩ := markDeleted_ok ho
    obtain ⟨ha', hd', hs'⟩ := ih hrest
    refine ⟨fun f => (ha' f).trans (ha1 f), fun f => ?_, fun hf => ?_⟩
    · rw [hd', hd1, mem_cons, or_assoc]
    have hc' := hs' hf
    rw [hc'] at hf
    exact hc'.trans (hs1 hf)

/-- **A report of deletions** marks its subrequests, and changes no address. -/
theorem reportSubRequestsForDeletion_ok {r r' : RepackRequest} {fSeqs : List UInt64}
    (h : r.reportSubRequestsForDeletion fSeqs = .ok r') :
    (∀ f, r'.deleted f = true ↔ r.deleted f = true ∨ f ∈ fSeqs)
      ∧ (r.DistinctFSeqs → r'.DistinctFSeqs ∧ r'.addressOf = r.addressOf) := by
  obtain ⟨c, hc, hr'⟩ := bind_eq_ok.mp h
  obtain ⟨har, hd, hs⟩ := foldlM_markDeleted_ok hc
  have ha := (aligned_readMap r).of_sameAddresses har
  cases hr'
  cases hu : c.2 with
  | true =>
    refine ⟨fun f => ?_, fun hr => ⟨distinctFSeqs_writeMap ha r, addressOf_writeMap hr har r⟩⟩
    rw [if_pos rfl, deleted_writeMap ha]
    exact hd f
  | false =>
    rw [hs hu] at hd
    exact ⟨hd, fun hr => ⟨hr, rfl⟩⟩

theorem applyCall_keeps_mark {call : PointerCall}
    (hm : r.deleted fSeq = true) (hk : r.MarksKept call) :
    (r.applyCall call).deleted fSeq = true := by
  cases call with
  | report call => exact commitReport_keeps_mark hm hk
  | getOrPrepareSubrequestInfo fSeqs agentRef => exact deleted_prepare r fSeqs agentRef ▸ hm
  | reportSubRequestsForDeletion fSeqs =>
    unfold applyCall
    dsimp only
    split
    next r' hr' => exact ((reportSubRequestsForDeletion_ok hr').1 fSeq).mpr (.inl hm)
    next => exact hm

/-- **Deletion marks** stay in every sequence of calls in which no success without the mark is
accounted for a marked subrequest. -/
theorem deletion_marks_stay (r : RepackRequest) (calls : List PointerCall)
    (hkept : Along applyCall MarksKept r calls) (before after : List PointerCall)
    (hcalls : calls = before ++ after) (fSeq : UInt64)
    (hmark : (run applyCall r before).deleted fSeq = true) :
    (run applyCall r calls).deleted fSeq = true := by
  subst hcalls
  induction before generalizing r with
  | nil =>
    exact run_invariant (I := fun r => r.deleted fSeq = true)
      (fun _ _ hd hk => applyCall_keeps_mark hd hk) hmark hkept
  | cons call before ih => exact ih (r.applyCall call) hmark hkept.2

def copyReport (copyNb : UInt32) (subrequestDeleted : Bool) : SubrequestStatistics :=
  { fileReport false with copyNb := copyNb, subrequestDeleted := subrequestDeleted }

/-- The first copy of a file fails, and the second one succeeds with the mark. -/
def markedCalls : List PointerCall :=
  [.report ⟨.archiveFailure, calm, [copyReport 1 true]⟩,
    .report ⟨.archiveSuccess, calm, [copyReport 2 true]⟩, .reportSubRequestsForDeletion [1]]

theorem mark_stays_after_failure : (run applyCall onePointer markedCalls).deleted 1 = true :=
  deletion_marks_stay onePointer markedCalls (by decide +kernel)
    [.report ⟨.archiveFailure, calm, [copyReport 1 true]⟩]
    [.report ⟨.archiveSuccess, calm, [copyReport 2 true]⟩, .reportSubRequestsForDeletion [1]]
    rfl 1 (by decide +kernel)

/-- **A mark is lost**: a copy fails, then the other succeeds with a report made before. -/
theorem success_takes_mark_back :
    (run applyCall onePointer [.report ⟨.archiveFailure, calm, [copyReport 1 false]⟩]).deleted 1
        = true
      ∧ (run applyCall onePointer [.report ⟨.archiveFailure, calm, [copyReport 1 false]⟩,
          .report ⟨.archiveSuccess, calm, [copyReport 2 false]⟩]).deleted 1 = false := by
  decide +kernel

/-! ## The names of the subrequests -/

/-- The request after `getOrPrepareSubrequestInfo`, as the next call finds it. -/
theorem prepare_ok (hr : r.DistinctFSeqs) {fSeqs : TreeSet UInt64} {agentRef : AgentReference}
    {c : Preparation} (h : Prepares r.readMap agentRef c fSeqs.toList)
    {r' : RepackRequest} (hr' : r' = if c.newElementCreated then r.writeMap c.pointerMap else r) :
    r'.DistinctFSeqs ∧ r'.addressOf = mapAddress c.pointerMap ∧ r'.flag = r.flag := by
  have ha := h.aligned (aligned_readMap r)
  have hflag : mapFlag c.pointerMap = r.flag := by
    rw [← mapFlag_readMap hr]
    funext key
    cases key with
    | retrieve fSeq => exact h.any_eq _ (fun _ _ => rfl) fSeq
    | archive fSeq copyNb =>
      exact h.any_eq (·.archiveCopyNbsAccounted.contains copyNb)
        (fun _ _ => TreeSet.contains_emptyc) fSeq
  subst hr'
  split
  · refine ⟨distinctFSeqs_writeMap ha r, ?_, (flag_writeMap ha r).trans hflag⟩
    funext fSeq
    rw [addressOf, findKey_writeMap ha, Option.map_map]
    rfl
  · next hnew =>
    refine ⟨hr, ?_, rfl⟩
    rw [h.unchanged (by simpa using hnew)]
    exact (funext (map_address_readMap hr)).symm

def IdsFresh (r : RepackRequest) : PointerCall → Prop
  | .getOrPrepareSubrequestInfo _ agentRef => IdsUnused r.addressOf agentRef
  | _ => True

/-- A call takes no address away, and with unique ids gives none twice. -/
structure KeepsNames (r r' : RepackRequest) (idsUnique : Prop) : Prop where
  distinct : r'.DistinctFSeqs
  kept : ∀ fSeq address, r.addressOf fSeq = some address → r'.addressOf fSeq = some address
  names : NamesDistinct r.addressOf → idsUnique → NamesDistinct r'.addressOf

theorem KeepsNames.of_eq {r r' : RepackRequest} {idsUnique : Prop}
    (h : r'.DistinctFSeqs ∧ r'.addressOf = r.addressOf) : KeepsNames r r' idsUnique :=
  ⟨h.1, h.2 ▸ fun _ _ ha => ha, h.2 ▸ fun hn _ => hn⟩

theorem applyCall_names (hr : r.DistinctFSeqs) (call : PointerCall) :
    KeepsNames r (r.applyCall call) (r.IdsFresh call) := by
  cases call with
  | report call =>
    refine .of_eq ?_
    show (r.commitReport call).DistinctFSeqs ∧ (r.commitReport call).addressOf = _
    unfold commitReport
    split
    · next r' hru => exact ⟨(run_ok hr hru).distinct, (run_ok hr hru).addresses⟩
    · exact ⟨hr, rfl⟩
  | reportSubRequestsForDeletion fSeqs =>
    refine .of_eq ?_
    unfold applyCall
    dsimp only
    split
    · next r' hr' => exact (reportSubRequestsForDeletion_ok hr').2 hr
    · exact ⟨hr, rfl⟩
  | getOrPrepareSubrequestInfo fSeqs agentRef =>
    have h := Prepares.of_foldl r agentRef fSeqs.toList
    obtain ⟨hr', har, -⟩ := prepare_ok hr h rfl
    have hm : mapAddress r.readMap = r.addressOf := funext (map_address_readMap hr)
    refine ⟨hr', fun fSeq address ha => ?_, fun hn hi => ?_⟩
    · rw [← hm] at ha
      obtain ⟨p, hp, rfl⟩ := Option.map_eq_some_iff.mp ha
      refine (congrFun har fSeq).trans ?_
      exact Option.map_eq_some_iff.mpr ⟨p, h.kept fSeq p hp, rfl⟩
    · rw [← hm] at hn
      refine har.symm ▸ (h.names hn ?_).1
      rw [hm]
      exact hi

/-- **One name for each subrequest.** The pointer of each fSeq has the returned address, no flag
changes, and with unique ids different fSeqs have different addresses. -/
theorem subrequest_names (r : RepackRequest) (hr : r.DistinctFSeqs) (calls : List PointerCall) :
    (NamesDistinct r.addressOf → Along applyCall IdsFresh r calls →
      NamesDistinct (run applyCall r calls).addressOf)
    ∧ ∀ before fSeqs agentRef after,
      calls = before ++ .getOrPrepareSubrequestInfo fSeqs agentRef :: after →
      let r₁ := run applyCall r before
      let prepared := r₁.getOrPrepareSubrequestInfo fSeqs agentRef
      prepared.2.1.map (·.fSeq) = fSeqs.toList ∧ (∀ info ∈ prepared.2.1,
          ((run applyCall r calls).subrequests.map (·.fseq)).count info.fSeq = 1
          ∧ (run applyCall r calls).addressOf info.fSeq = some info.address)
        ∧ prepared.1.flag = r₁.flag ∧ prepared.1.deleted = r₁.deleted := by
  refine ⟨fun hn his => ?_, ?_⟩
  · exact (run_invariant (I := fun r => r.DistinctFSeqs ∧ NamesDistinct r.addressOf)
      (fun r call h hid =>
        ⟨(applyCall_names h.1 call).distinct, (applyCall_names h.1 call).names h.2 hid⟩)
      ⟨hr, hn⟩ his).2
  · rintro before fSeqs agentRef after rfl
    have hr1 : (run applyCall r before).DistinctFSeqs :=
      run_preserves (I := DistinctFSeqs) (fun _ call h => (applyCall_names h call).distinct) hr
    generalize hru : run applyCall r before = r₁ at hr1
    have h := Prepares.of_foldl r₁ agentRef fSeqs.toList
    obtain ⟨hr2, har, hflag⟩ := prepare_ok hr1 h rfl
    refine ⟨h.fSeqs, fun info hi => ?_, hflag, deleted_prepare r₁ fSeqs agentRef⟩
    obtain ⟨p, hp, ha, -⟩ := h.infos info hi
    -- the calls after this one keep the address
    obtain ⟨he, hae⟩ := @run_preserves _ _ applyCall
      (fun r => r.DistinctFSeqs ∧ r.addressOf info.fSeq = some info.address)
      (fun r call h => ⟨(applyCall_names h.1 call).distinct, (applyCall_names h.1 call).kept _ _ h.2⟩)
      after _ ⟨hr2, (congrFun har _).trans (Option.map_eq_some_iff.mpr ⟨p, hp, ha⟩)⟩
    have hf : run applyCall r (before ++ .getOrPrepareSubrequestInfo fSeqs agentRef :: after)
        = run applyCall (r₁.applyCall (.getOrPrepareSubrequestInfo fSeqs agentRef)) after := by
      rw [← hru, run, foldl_append]
      rfl
    rw [hf]
    refine ⟨count_eq_one_of_mem he ?_, hae⟩
    obtain ⟨q, hq, -⟩ := Option.map_eq_some_iff.mp hae
    exact mem_map.mpr ⟨q, mem_of_findKey hq, key_of_findKey hq⟩

/-- Three subrequests of a new request are prepared, and one of them is deleted. -/
def namingCalls : List PointerCall :=
  [.getOrPrepareSubrequestInfo (TreeSet.ofList [(1 : UInt64), 2, 3]) ⟨"agent", 0⟩,
    .reportSubRequestsForDeletion [2]]

theorem three_subrequests_named :
    NamesDistinct (run applyCall (initial "V00001") namingCalls).addressOf
      ∧ (run applyCall (initial "V00001") namingCalls).addressOf 3
        = some "RepackSubRequest-agent-2" :=
  ⟨(subrequest_names (initial "V00001") nodup_nil namingCalls).1 (by rintro _ _ _ ⟨⟩)
    (by exact ⟨by rintro _ _ _ ⟨⟩, trivial, trivial⟩), by decide +kernel⟩

/-! ## A report that throws -/

/-- The loop of a report, with the local variables when it returns or throws. -/
def Report.countingInMemory (report : Report) (env : Surroundings) :
    List SubrequestStatistics → Counting → Counting × Option RequestExn
  | [], c => (c, none)
  | s :: stats, c =>
      match report.countOne env c s with
      | .ok c' => report.countingInMemory env stats c'
      | .error e => (c, some e)

/-- A loop that throws got through the elements before the one it throws at. -/
theorem countingInMemory_throws {report : Report} {e : RequestExn} :
    report.countingInMemory env stats c = (c', some e) ↔
      ∃ before s after, stats = before ++ s :: after
        ∧ before.foldlM (report.countOne env) c = .ok c' ∧ report.countOne env c' s = .error e := by
  constructor
  · intro h
    induction stats generalizing c with
    | nil => cases h
    | cons s stats ih =>
      unfold Report.countingInMemory at h
      cases ho : report.countOne env c s with
      | error e' =>
        rw [ho] at h
        cases h
        exact ⟨[], s, stats, rfl, rfl, ho⟩
      | ok c1 =>
        rw [ho] at h
        obtain ⟨before, s', after, rfl, hb, hth⟩ := ih h
        exact ⟨s :: before, s', after, rfl, by rw [foldlM_cons, ho]; exact hb, hth⟩
  · rintro ⟨before, s, after, rfl, hb, hth⟩
    induction before generalizing c with
    | nil =>
      cases hb
      simp [Report.countingInMemory, hth]
    | cons s' before ih =>
      rw [foldlM_cons] at hb
      obtain ⟨c1, ho, hb⟩ := bind_eq_ok.mp hb
      simp [Report.countingInMemory, ho, ih hb]

/-- If the loop throws, the payload has the counters and the flags it had before the call. -/
def LeavesNoTrace (k : Kind) (env : Surroundings) (stats : List SubrequestStatistics)
    (r : RepackRequest) : Prop :=
  ∀ c e, k.report.countingInMemory env stats ⟨r.readMap, r, false⟩ = (c, some e) →
    c.payload.counter = r.counter ∧ c.payload.flag = r.flag

/-- The fSeq is unknown, or the archive request of a copy that is new cannot be read. -/
def Refused (k : Kind) (env : Surroundings) (m : PointerMap) (before : List SubrequestStatistics)
    (s : SubrequestStatistics) : Prop :=
  ∀ p ∈ m[s.fSeq]?, k = .archiveSuccess
    ∧ mark Entry.key (mapFlag m) (before.map (Entry.mk k)) (Entry.key ⟨k, s⟩) = false
    ∧ ∃ e, env.archiveFileSize p.address = .error e

theorem countOne_throws_iff {k : Kind} {before : List SubrequestStatistics}
    {s : SubrequestStatistics} (hc : Counted c c' (before.map (Entry.mk k))) :
    (∃ e, k.report.countOne env c' s = .error e) ↔ Refused k env c.pointerMap before s := by
  have ha := congrArg (Option.map Prod.snd) (hc.addresses s.fSeq)
  simp only [Option.map_map] at ha
  unfold Refused Report.countOne
  rw [← hc.flags]
  cases hp : c'.pointerMap[s.fSeq]? with
  | none =>
    cases hq : c.pointerMap[s.fSeq]? with
    | none => simp
    | some q => simp [hp, hq] at ha
  | some p =>
    cases hq : c.pointerMap[s.fSeq]? with
    | none => simp [hp, hq] at ha
    | some q =>
      have hpq : q.address = p.address := by simpa [hp, hq, eq_comm] using ha
      simp only [Option.mem_some, forall_eq', hpq, accounted_eq_mapFlag hp]
      cases mapFlag c'.pointerMap (Entry.key ⟨k, s⟩) with
      | true => simp [pure, Except.pure]
      | false =>
        cases k with
        | archiveSuccess =>
          simp only [Kind.report, reportArchiveSuccesses]
          cases env.archiveFileSize p.address <;> simp [bind, Except.bind, pure, Except.pure]
        | _ => simp [Kind.report, reportRetriveSuccesses, reportRetriveFailures,
            reportArchiveFailures, bind, Except.bind, pure, Except.pure]

/-- **Reports that throw.** The counters and flags are as before the call exactly when, wherever
the loop comes to an element that is refused, the first reports of the keys before it add nothing
to any counter. -/
theorem failed_report_no_trace_iff (k : Kind) (env : Surroundings)
    (stats : List SubrequestStatistics) (r : RepackRequest) :
    LeavesNoTrace k env stats r ↔
      ∀ before s after c, stats = before ++ s :: after → k.report.counting env before r = .ok c →
        Refused k env r.readMap before s →
        ∀ n, ((firsts Entry.key (mapFlag r.readMap) (before.map (Entry.mk k))).map (·.adds n)).sum
          = 0 := by
  constructor
  · intro hn before s after c hs hb hre n
    have hc := foldlM_countOne_ok hb
    obtain ⟨e, hth⟩ := (countOne_throws_iff hc).mpr hre
    have hsa := (hn c e (countingInMemory_throws.mpr ⟨before, s, after, hs, hb, hth⟩)).1
    have hco := hc.counters n
    rw [hsa] at hco
    grind
  · intro hz c e hts
    obtain ⟨before, s, after, hs, hb, hth⟩ := countingInMemory_throws.mp hts
    have hc := foldlM_countOne_ok hb
    refine ⟨?_, ?_⟩
    · funext n
      rw [hc.counters n, hz before s after c hs hb ((countOne_throws_iff hc).mp ⟨e, hth⟩) n]
      exact UInt64.add_zero _
    · funext key
      unfold flag
      rw [hc.frame.subrequests]

/-- **A trace**: the second element names an fSeq that is not there, and the first one stays
counted. -/
theorem counted_before_unknown_fSeq :
    ¬ LeavesNoTrace .retrieveSuccess calm [fileReport false, { fileReport false with fSeq := 2 }]
      onePointer := by
  intro h
  have hs := (h _ _ rfl).1
  have hc := congrFun hs .retrievedFiles
  revert hc
  decide +kernel

end TapeArchive.Objectstore.RepackRequest
