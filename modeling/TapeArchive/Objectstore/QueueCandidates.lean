/-
  **WHICH JOBS A QUEUE OFFERS** (`getCandidateList` of both queues and
  `getCandidateJobList` of their shards).

  The abstract selection (`examine`) walks over the jobs of the queue and stops at a limit.
  The code walks shard by shard: each shard gets what is left of the limits, what remains
  in it REPLACES what remained before, and the later shards are counted by their pointers.
-/
import TapeArchive.Objectstore.ArchiveQueue
import TapeArchive.Objectstore.QueueSummaries
import TapeArchive.Objectstore.RetrieveQueue

namespace TapeArchive.Objectstore

open Lib List
open UInt64 (le_iff_toNat_le toNat_add toNat_zero)

/-! ## The selection -/

section Selection

variable {Q J R D : Type} [QueueJob J]

variable {jobs : List J}

/-- The jobs that are examined, given what was picked so far, and the jobs after them. -/
def examine (skip : J → Bool) (maxBytes maxFiles : Nat) :
    Nat → Nat → List J → List J × List J
  | _, _, [] => ([], [])
  | bytes, files, j :: rest =>
      if bytes < maxBytes ∧ files < maxFiles then
        let next := examine skip maxBytes maxFiles
          (bytes + if skip j then 0 else (size j).toNat) (files + if skip j then 0 else 1) rest
        (j :: next.1, next.2)
      else ([], j :: rest)

def picked (skip : J → Bool) (jobs : List J) : List J := jobs.filter (fun j => !skip j)

omit [QueueJob J] in
theorem picked_cons (skip : J → Bool) (j : J) (jobs : List J) :
    picked skip (j :: jobs) = if skip j then picked skip jobs else j :: picked skip jobs := by
  unfold picked
  cases h : skip j <;> simp [h]

omit [QueueJob J] in
@[simp] theorem picked_append (skip : J → Bool) (jobs jobs' : List J) :
    picked skip (jobs ++ jobs') = picked skip jobs ++ picked skip jobs' :=
  filter_append ..

theorem examine_split (skip : J → Bool) (maxBytes maxFiles bytes files : Nat) (jobs : List J) :
    (examine skip maxBytes maxFiles bytes files jobs).1
      ++ (examine skip maxBytes maxFiles bytes files jobs).2 = jobs := by
  induction jobs generalizing bytes files with
  | nil => rfl
  | cons j rest ih =>
    unfold examine
    split
    · exact congrArg (j :: ·) (ih _ _)
    · rfl

variable {skip : J → Bool} {maxBytes maxFiles bytes files : Nat}

/-- At a limit nothing more is examined. -/
theorem examine_of_reached (h : ¬ (bytes < maxBytes ∧ files < maxFiles)) (jobs : List J) :
    examine skip maxBytes maxFiles bytes files jobs = ([], jobs) := by
  cases jobs with
  | nil => rfl
  | cons j rest =>
    unfold examine
    rw [if_neg h]

/-- Unless a limit is reached, all is examined. -/
theorem examine_rest
    (h : bytes + natBytes (picked skip (examine skip maxBytes maxFiles bytes files jobs).1)
        < maxBytes
      ∧ files + (picked skip (examine skip maxBytes maxFiles bytes files jobs).1).length
        < maxFiles) :
    (examine skip maxBytes maxFiles bytes files jobs).2 = [] := by
  induction jobs generalizing bytes files with
  | nil => rfl
  | cons j rest ih =>
    unfold examine at h ⊢
    split at h
    next hl =>
      rw [if_pos hl]
      refine ih ?_
      rw [picked_cons] at h
      split at h
      · simp_all
      · simp_all
        omega
    next hl =>
      exact absurd (by simpa [picked] using h) hl

/-- **One list after the other**: the second goes on from what the first one picked. -/
theorem examine_append (skip : J → Bool) (maxBytes maxFiles bytes files : Nat)
    (jobs jobs' : List J) :
    examine skip maxBytes maxFiles bytes files (jobs ++ jobs') =
      (let first := examine skip maxBytes maxFiles bytes files jobs
       let second := examine skip maxBytes maxFiles (bytes + natBytes (picked skip first.1))
        (files + (picked skip first.1).length) jobs'
       (first.1 ++ second.1, first.2 ++ second.2)) := by
  induction jobs generalizing bytes files with
  | nil => rfl
  | cons j rest ih =>
    by_cases hl : bytes < maxBytes ∧ files < maxFiles
    · have hc : ∀ l, examine skip maxBytes maxFiles bytes files (j :: l) =
          (j :: (examine skip maxBytes maxFiles (bytes + if skip j then 0 else (size j).toNat)
            (files + if skip j then 0 else 1) l).1,
          (examine skip maxBytes maxFiles (bytes + if skip j then 0 else (size j).toNat)
            (files + if skip j then 0 else 1) l).2) := by
        intro l
        conv_lhs => unfold examine
        rw [if_pos hl]
      rw [cons_append, hc, hc, ih]
      dsimp only
      rw [picked_cons]
      cases hs : skip j <;> simp [Nat.add_assoc, Nat.add_comm 1]
    · rw [examine_of_reached hl, examine_of_reached hl]
      simp only [picked, filter_nil, natBytes_nil, length_nil, Nat.add_zero]
      rw [examine_of_reached hl]
      rfl

/-! ## One shard -/

variable (dump : J → D)

def afterJob (skip : J → Bool) (ret : CandidateJobList D) (j : J) :
    CandidateJobList D :=
  let ret :=
    if skip j then ret
    else { ret with
      candidates := ret.candidates ++ [dump j]
      candidateBytes := ret.candidateBytes + size j
      candidateFiles := ret.candidateFiles + 1 }
  { ret with
    remainingBytesAfterCandidates := ret.remainingBytesAfterCandidates - size j
    remainingFilesAfterCandidates := ret.remainingFilesAfterCandidates - 1 }

theorem candidateLoop_cons (skip : J → Bool) (maxBytes maxFiles : UInt64) (j : J)
    (rest : List J) (ret : CandidateJobList D) :
    candidateLoop dump skip maxBytes maxFiles (j :: rest) ret =
      if (afterJob dump skip ret j).candidateBytes ≥ maxBytes
          ∨ (afterJob dump skip ret j).candidateFiles ≥ maxFiles then afterJob dump skip ret j
      else candidateLoop dump skip maxBytes maxFiles rest (afterJob dump skip ret j) := rfl

/-- No subtraction in the loop over a shard wraps. -/
def LoopSafe (dump : J → D) (skip : J → Bool) (maxBytes maxFiles : UInt64) :
    List J → CandidateJobList D → Prop
  | [], _ => True
  | j :: rest, ret =>
      size j ≤ ret.remainingBytesAfterCandidates ∧ 1 ≤ ret.remainingFilesAfterCandidates
        ∧ (¬ ((afterJob dump skip ret j).candidateBytes ≥ maxBytes
              ∨ (afterJob dump skip ret j).candidateFiles ≥ maxFiles) →
            LoopSafe dump skip maxBytes maxFiles rest (afterJob dump skip ret j))

/-- What a selection makes of `ret`; `bytes` and `files` were picked before, `left` remains. -/
structure Selects (dump : J → D) (skip : J → Bool) (maxBytes maxFiles bytes files : Nat)
    (left : Nat × Nat) (jobs : List J) (ret ret' : CandidateJobList D) : Prop where
  candidates : ret'.candidates = ret.candidates ++
    (picked skip (examine skip maxBytes maxFiles (bytes + ret.candidateBytes.toNat)
      (files + ret.candidateFiles.toNat) jobs).1).map dump
  candidateBytes : ret'.candidateBytes.toNat = ret.candidateBytes.toNat +
    natBytes (picked skip (examine skip maxBytes maxFiles (bytes + ret.candidateBytes.toNat)
      (files + ret.candidateFiles.toNat) jobs).1)
  candidateFiles : ret'.candidateFiles.toNat = ret.candidateFiles.toNat +
    (picked skip (examine skip maxBytes maxFiles (bytes + ret.candidateBytes.toNat)
      (files + ret.candidateFiles.toNat) jobs).1).length
  remainingBytes : ret'.remainingBytesAfterCandidates.toNat =
    left.1 + natBytes (examine skip maxBytes maxFiles (bytes + ret.candidateBytes.toNat)
      (files + ret.candidateFiles.toNat) jobs).2
  remainingFiles : ret'.remainingFilesAfterCandidates.toNat =
    left.2 + (examine skip maxBytes maxFiles (bytes + ret.candidateBytes.toNat)
      (files + ret.candidateFiles.toNat) jobs).2.length

variable {ret : CandidateJobList D}

theorem afterJob_counters (skip : J → Bool) {j : J} {rest : List J}
    (hby : ret.remainingBytesAfterCandidates.toNat = natBytes (j :: rest))
    (hfi : ret.remainingFilesAfterCandidates.toNat = (j :: rest).length)
    (hb : ret.candidateBytes.toNat + natBytes (j :: rest) < 2 ^ 64)
    (hf : ret.candidateFiles.toNat + (j :: rest).length < 2 ^ 64) :
    (afterJob dump skip ret j).candidateBytes.toNat
        = ret.candidateBytes.toNat + (if skip j then 0 else (size j).toNat)
      ∧ (afterJob dump skip ret j).candidateFiles.toNat
        = ret.candidateFiles.toNat + (if skip j then 0 else 1)
      ∧ (afterJob dump skip ret j).remainingBytesAfterCandidates.toNat = natBytes rest
      ∧ (afterJob dump skip ret j).remainingFilesAfterCandidates.toNat = rest.length
      ∧ (afterJob dump skip ret j).candidates = ret.candidates ++ (if skip j then [] else [dump j])
      ∧ size j ≤ ret.remainingBytesAfterCandidates ∧ 1 ≤ ret.remainingFilesAfterCandidates := by
  rw [natBytes_cons] at hby hb
  rw [length_cons] at hfi hf
  have hle : size j ≤ ret.remainingBytesAfterCandidates := by
    rw [le_iff_toNat_le]
    omega
  have ho : 1 ≤ ret.remainingFilesAfterCandidates := by
    rw [le_iff_toNat_le, hfi]
    exact Nat.le_add_left 1 _
  have hs : (ret.remainingBytesAfterCandidates - size j).toNat = natBytes rest := by
    rw [UInt64.toNat_sub_of_le _ _ hle]
    omega
  have hs' : (ret.remainingFilesAfterCandidates - 1).toNat = rest.length := by
    rw [UInt64.toNat_sub_of_le _ _ ho, hfi]
    rfl
  have ha : (ret.candidateBytes + size j).toNat = ret.candidateBytes.toNat + (size j).toNat := by
    rw [toNat_add]
    exact Nat.mod_eq_of_lt (by omega)
  have ha' : (ret.candidateFiles + 1).toNat = ret.candidateFiles.toNat + 1 := by
    exact Nat.mod_eq_of_lt (by show ret.candidateFiles.toNat + 1 < 2 ^ 64; omega)
  unfold afterJob
  cases skip j with
  | true => exact ⟨rfl, rfl, hs, hs', (append_nil _).symm, hle, ho⟩
  | false => exact ⟨ha, ha', hs, hs', rfl, hle, ho⟩

/-- **The loop over a shard** selects with what is left of the limits. -/
theorem candidateLoop_selects (skip : J → Bool) (maxBytes maxFiles : UInt64)
    (bytes files : Nat) (jobs : List J) (ret : CandidateJobList D)
    (hby : ret.remainingBytesAfterCandidates.toNat = natBytes jobs)
    (hfi : ret.remainingFilesAfterCandidates.toNat = jobs.length)
    (hb : ret.candidateBytes.toNat + natBytes jobs < 2 ^ 64)
    (hf : ret.candidateFiles.toNat + jobs.length < 2 ^ 64)
    (ho : ret.candidateBytes < maxBytes ∧ ret.candidateFiles < maxFiles) :
    Selects dump skip (bytes + maxBytes.toNat) (files + maxFiles.toNat) bytes files (0, 0) jobs ret
        (candidateLoop dump skip maxBytes maxFiles jobs ret)
      ∧ LoopSafe dump skip maxBytes maxFiles jobs ret := by
  induction jobs generalizing ret with
  | nil =>
    refine ⟨⟨?_, ?_, ?_, ?_, ?_⟩, trivial⟩
    · exact (append_nil _).symm
    · rfl
    · rfl
    · exact hby
    · exact hfi
  | cons j rest ih =>
    obtain ⟨hcb, hcf, hrb, hrf, hca, hle, hon⟩ := afterJob_counters dump skip hby hfi hb hf
    rw [UInt64.lt_iff_toNat_lt, UInt64.lt_iff_toNat_lt] at ho
    have hl : bytes + ret.candidateBytes.toNat < bytes + maxBytes.toNat
        ∧ files + ret.candidateFiles.toNat < files + maxFiles.toNat := by omega
    have he : examine skip (bytes + maxBytes.toNat) (files + maxFiles.toNat)
        (bytes + ret.candidateBytes.toNat) (files + ret.candidateFiles.toNat) (j :: rest) =
        (j :: (examine skip (bytes + maxBytes.toNat) (files + maxFiles.toNat)
          (bytes + (afterJob dump skip ret j).candidateBytes.toNat)
          (files + (afterJob dump skip ret j).candidateFiles.toNat) rest).1,
        (examine skip (bytes + maxBytes.toNat) (files + maxFiles.toNat)
          (bytes + (afterJob dump skip ret j).candidateBytes.toNat)
          (files + (afterJob dump skip ret j).candidateFiles.toNat) rest).2) := by
      conv_lhs => unfold examine
      rw [if_pos hl, hcb, hcf, Nat.add_assoc, Nat.add_assoc]
    -- what follows from a selection in the rest
    have hc : ∀ ret', Selects dump skip (bytes + maxBytes.toNat) (files + maxFiles.toNat) bytes
        files (0, 0) rest (afterJob dump skip ret j) ret' →
        Selects dump skip (bytes + maxBytes.toNat) (files + maxFiles.toNat) bytes files (0, 0)
          (j :: rest) ret ret' := by
      intro ret' hse
      constructor
      · rw [hse.candidates, he, hca, picked_cons]
        cases skip j <;> simp
      · rw [hse.candidateBytes, he, picked_cons]
        cases hs : skip j <;> simp [hs, hcb, Nat.add_assoc]
      · rw [hse.candidateFiles, he, picked_cons]
        cases hs : skip j <;> simp [hs, hcf, Nat.add_assoc, Nat.add_comm 1]
      · rw [hse.remainingBytes, he]
      · rw [hse.remainingFiles, he]
    rw [candidateLoop_cons]
    rw [natBytes_cons] at hb
    rw [length_cons] at hf
    split
    next hr =>
      refine ⟨hc _ ?_, hle, hon, fun hnot => absurd hr hnot⟩
      have hsp : ¬ (bytes + (afterJob dump skip ret j).candidateBytes.toNat < bytes + maxBytes.toNat
          ∧ files + (afterJob dump skip ret j).candidateFiles.toNat < files + maxFiles.toNat) := by
        rw [ge_iff_le, ge_iff_le, le_iff_toNat_le, le_iff_toNat_le] at hr
        omega
      constructor <;> rw [examine_of_reached hsp] <;> simp [picked, hrb, hrf]
    next hgo =>
      have hrest := ih _ hrb hrf (by split at hcb <;> omega) (by split at hcf <;> omega) (by
        rw [not_or] at hgo
        exact ⟨UInt64.not_le.mp hgo.1, UInt64.not_le.mp hgo.2⟩)
      exact ⟨hc _ hrest.1, hle, hon, fun _ => hrest.2⟩

/-! ## The queue -/

/-- The result after a shard that is looked at. -/
def afterShard (ret shardCandidates : CandidateJobList D) : CandidateJobList D :=
  { candidateBytes := ret.candidateBytes + shardCandidates.candidateBytes
    candidateFiles := ret.candidateFiles + shardCandidates.candidateFiles
    remainingBytesAfterCandidates := shardCandidates.remainingBytesAfterCandidates
    remainingFilesAfterCandidates := shardCandidates.remainingFilesAfterCandidates
    candidates := ret.candidates ++ shardCandidates.candidates }

/-- The result after a shard that is only counted. -/
def afterPointer (ret : CandidateJobList D) (p : ShardPointer R) : CandidateJobList D :=
  { ret with
    remainingBytesAfterCandidates := ret.remainingBytesAfterCandidates + p.shardbytescount
    remainingFilesAfterCandidates := ret.remainingFilesAfterCandidates + p.shardjobscount }

/-- What a shard starts with: all of it remains. -/
def Shard.untouched (s : Shard J) : CandidateJobList D :=
  { remainingBytesAfterCandidates := s.jobstotalsize
    remainingFilesAfterCandidates := UInt64.ofNat s.jobs.length }

/-- No subtraction in the loop over the pointers wraps. -/
def ListSafe (dump : J → D) (skip : J → Bool) (maxBytes maxFiles : UInt64) (st : QueueStore Q J) :
    List (ShardPointer R) → CandidateJobList D → Prop
  | [], _ => True
  | p :: rest, ret =>
      if ret.candidateBytes < maxBytes ∧ ret.candidateFiles < maxFiles then
        ret.candidateBytes ≤ maxBytes ∧ ret.candidateFiles ≤ maxFiles
          ∧ ∀ s, st p.address = some (.shard s) →
            LoopSafe dump skip (maxBytes - ret.candidateBytes) (maxFiles - ret.candidateFiles)
                s.jobs s.untouched
              ∧ ListSafe dump skip maxBytes maxFiles st rest
                (afterShard ret (s.getCandidateJobList dump skip
                  (maxBytes - ret.candidateBytes) (maxFiles - ret.candidateFiles)))
      else ListSafe dump skip maxBytes maxFiles st rest (afterPointer ret p)

theorem candidateList_cons (skip : J → Bool) (maxBytes maxFiles : UInt64)
    (p : ShardPointer R) (rest : List (ShardPointer R)) (ret : CandidateJobList D) :
    (candidateList dump skip maxBytes maxFiles (p :: rest) ret : QueueM Q J _) =
      if ret.candidateBytes < maxBytes ∧ ret.candidateFiles < maxFiles then do
        let s ← fetchShard p.address
        candidateList dump skip maxBytes maxFiles rest
          (afterShard ret (s.getCandidateJobList dump skip
            (maxBytes - ret.candidateBytes) (maxFiles - ret.candidateFiles)))
      else candidateList dump skip maxBytes maxFiles rest (afterPointer ret p) := rfl

/-- A shard that is looked at, with what is left of the limits. -/
theorem getCandidateJobList_selects (skip : J → Bool) {maxBytes maxFiles : UInt64}
    {s : Shard J} (hs : s.jobstotalsize = bytesOf s.jobs)
    (hb : natBytes s.jobs < 2 ^ 64) (hf : s.jobs.length < 2 ^ 64)
    (ho : ret.candidateBytes < maxBytes ∧ ret.candidateFiles < maxFiles) :
    Selects dump skip maxBytes.toNat maxFiles.toNat ret.candidateBytes.toNat
        ret.candidateFiles.toNat (0, 0) s.jobs {}
        (s.getCandidateJobList dump skip (maxBytes - ret.candidateBytes)
          (maxFiles - ret.candidateFiles))
      ∧ LoopSafe dump skip (maxBytes - ret.candidateBytes) (maxFiles - ret.candidateFiles)
        s.jobs s.untouched := by
  have hby := UInt64.toNat_sub_of_le _ _ (UInt64.le_of_lt ho.1)
  have hfi := UInt64.toNat_sub_of_le _ _ (UInt64.le_of_lt ho.2)
  rw [UInt64.lt_iff_toNat_lt, UInt64.lt_iff_toNat_lt] at ho
  have hl := candidateLoop_selects dump skip (maxBytes - ret.candidateBytes)
    (maxFiles - ret.candidateFiles) ret.candidateBytes.toNat ret.candidateFiles.toNat s.jobs
    s.untouched
    (by rw [Shard.untouched, hs, toNat_bytesOf hb]) (UInt64.toNat_ofNat_of_lt' hf)
    (by simpa [Shard.untouched] using hb) (by simpa [Shard.untouched] using hf)
    (by
      rw [UInt64.lt_iff_toNat_lt, UInt64.lt_iff_toNat_lt, hby, hfi]
      simpa [Shard.untouched] using ho)
  rw [hby, hfi, Nat.add_sub_cancel' (by omega), Nat.add_sub_cancel' (by omega)] at hl
  exact ⟨⟨hl.1.candidates, hl.1.candidateBytes, hl.1.candidateFiles,
    hl.1.remainingBytes, hl.1.remainingFiles⟩, hl.2⟩

theorem examine_bounds (skip : J → Bool) (maxBytes maxFiles bytes files : Nat) (jobs : List J) :
    natBytes (picked skip (examine skip maxBytes maxFiles bytes files jobs).1)
        + natBytes (examine skip maxBytes maxFiles bytes files jobs).2 ≤ natBytes jobs
      ∧ (picked skip (examine skip maxBytes maxFiles bytes files jobs).1).length
        + (examine skip maxBytes maxFiles bytes files jobs).2.length ≤ jobs.length := by
  have hs := examine_split skip maxBytes maxFiles bytes files jobs
  have hb : ∀ l : List J, natBytes (picked skip l) ≤ natBytes l := fun l =>
    (List.filter_sublist.map _).sum_le_sum (fun _ _ => Nat.zero_le _)
  have hl : ∀ l : List J, (picked skip l).length ≤ l.length := fun _ =>
    length_filter_le ..
  constructor
  · rw [← congrArg natBytes hs, natBytes_append]
    exact Nat.add_le_add_right (hb _) _
  · rw [← congrArg List.length hs, length_append]
    exact Nat.add_le_add_right (hl _) _

/-- **One shard and the rest**: the selection in the rest starts where the shard's ended. -/
theorem Selects.afterShard {dump : J → D} {maxBytes maxFiles : Nat}
    {jobs jobs' : List J} {ret sc ret' : CandidateJobList D}
    (hs : Selects dump skip maxBytes maxFiles ret.candidateBytes.toNat
      ret.candidateFiles.toNat (0, 0) jobs {} sc)
    (hb : (ret.candidateBytes + sc.candidateBytes).toNat
      = ret.candidateBytes.toNat + sc.candidateBytes.toNat)
    (hf : (ret.candidateFiles + sc.candidateFiles).toNat
      = ret.candidateFiles.toNat + sc.candidateFiles.toNat)
    (hrest : Selects dump skip maxBytes maxFiles 0 0
      (sc.remainingBytesAfterCandidates.toNat, sc.remainingFilesAfterCandidates.toNat) jobs'
      (afterShard ret sc) ret') :
    Selects dump skip maxBytes maxFiles 0 0 (0, 0) (jobs ++ jobs') ret ret' := by
  obtain ⟨hc, hcb, hcf, hrb, hrf⟩ := hs
  obtain ⟨hc', hcb', hcf', hr', hrf'⟩ := hrest
  simp only [Objectstore.afterShard, hb, hf, Nat.zero_add, toNat_zero,
    Nat.add_zero, nil_append] at hc hcb hcf hrb hrf hc' hcb' hcf' hr' hrf'
  rw [hcb, hcf] at hc' hcb' hcf' hr' hrf'
  constructor <;> simp only [Nat.zero_add] <;> rw [examine_append]
  · simp [hc', hc]
  · simp [hcb', Nat.add_assoc]
  · simp [hcf', Nat.add_assoc]
  · simp [hr', hrb]
  · simp [hrf', hrf]

variable {m : QMachine Q J}

/-- **The loop over the pointers** selects among all the jobs of their shards. -/
theorem candidateList_selects (skip : J → Bool) (maxBytes maxFiles : UInt64)
    {X : Exn → QMachine Q J → Prop} (ps : List (ShardPointer R)) (ret : CandidateJobList D)
    (hp : ∀ p ∈ ps, ∃ s, PointerExact m.store p s)
    (hb : ret.candidateBytes.toNat + ret.remainingBytesAfterCandidates.toNat
      + natBytes (queuedJobs m.store ps) < 2 ^ 64)
    (hf : ret.candidateFiles.toNat + ret.remainingFilesAfterCandidates.toNat
      + (queuedJobs m.store ps).length < 2 ^ 64)
    (hl : ret.candidateBytes < maxBytes ∧ ret.candidateFiles < maxFiles →
      ret.remainingBytesAfterCandidates = 0 ∧ ret.remainingFilesAfterCandidates = 0) :
    wp (candidateList dump skip maxBytes maxFiles ps ret)
        (fun ret' m' => m' = m ∧ Selects dump skip maxBytes.toNat maxFiles.toNat 0 0
          (ret.remainingBytesAfterCandidates.toNat, ret.remainingFilesAfterCandidates.toNat)
          (queuedJobs m.store ps) ret ret') X m
      ∧ ListSafe dump skip maxBytes maxFiles m.store ps ret := by
  induction ps generalizing ret with
  | nil =>
    refine ⟨⟨rfl, ?_⟩, trivial⟩
    constructor <;> simp [queuedJobs, examine, picked]
  | cons p rest ih =>
    obtain ⟨s, hs⟩ := hp p mem_cons_self
    have hp' : ∀ p ∈ rest, ∃ s, PointerExact m.store p s := fun p h =>
      hp p (.tail _ h)
    rw [queuedJobs_cons, jobsAt_of_shard hs.stored] at hb hf ⊢
    rw [natBytes_append] at hb
    rw [length_append] at hf
    rw [candidateList_cons, ListSafe]
    by_cases ho : ret.candidateBytes < maxBytes ∧ ret.candidateFiles < maxFiles
    · rw [if_pos ho, if_pos ho]
      obtain ⟨hse, hsa⟩ := getCandidateJobList_selects dump skip hs.sized (by omega) (by omega) ho
      have hbo := examine_bounds skip maxBytes.toNat maxFiles.toNat
        ret.candidateBytes.toNat ret.candidateFiles.toNat s.jobs
      have hcb := hse.candidateBytes
      have hcf := hse.candidateFiles
      have hrb := hse.remainingBytes
      have hrf := hse.remainingFiles
      simp only [toNat_zero, Nat.zero_add, Nat.add_zero] at hcb hcf hrb hrf
      have hsh : ∀ sc, s.getCandidateJobList dump skip (maxBytes - ret.candidateBytes)
          (maxFiles - ret.candidateFiles) = sc →
          (ret.candidateBytes + sc.candidateBytes).toNat
              = ret.candidateBytes.toNat + sc.candidateBytes.toNat
            ∧ (ret.candidateFiles + sc.candidateFiles).toNat
              = ret.candidateFiles.toNat + sc.candidateFiles.toNat := by
        rintro sc rfl
        rw [toNat_add, toNat_add]
        exact ⟨Nat.mod_eq_of_lt (by omega), Nat.mod_eq_of_lt (by omega)⟩
      obtain ⟨ha, haf⟩ := hsh _ rfl
      have hrest := ih (afterShard ret (s.getCandidateJobList dump skip
          (maxBytes - ret.candidateBytes) (maxFiles - ret.candidateFiles))) hp'
        (by simp only [afterShard, ha]; omega) (by simp only [afterShard, haf]; omega)
        (by
          -- what remains of a shard that did not reach a limit
          simp only [afterShard, UInt64.lt_iff_toNat_lt, ha, haf, hcb, hcf]
          intro hgo
          have hn := examine_rest hgo
          simp only [hn, natBytes_nil, length_nil] at hrb hrf
          exact ⟨UInt64.toNat_inj.mp hrb, UInt64.toNat_inj.mp hrf⟩)
      obtain ⟨hzb, hzf⟩ := hl ho
      refine ⟨?_, UInt64.le_of_lt ho.1, UInt64.le_of_lt ho.2, ?_⟩
      · rw [wp_bind, wp_fetchShard hs.stored]
        refine wp_post hrest.1 ?_
        rintro ret' m' ⟨rfl, hse'⟩
        rw [hzb, hzf]
        exact ⟨rfl, hse.afterShard ha haf hse'⟩
      · intro s' hs'
        obtain rfl : s = s' := by
          have := hs.stored.symm.trans hs'
          simpa using this
        exact ⟨hsa, hrest.2⟩
    · rw [if_neg ho, if_neg ho]
      have hby : (ret.remainingBytesAfterCandidates + p.shardbytescount).toNat
          = ret.remainingBytesAfterCandidates.toNat + natBytes s.jobs := by
        rw [hs.bytes, toNat_add, toNat_bytesOf (by omega)]
        exact Nat.mod_eq_of_lt (by omega)
      have hfi : (ret.remainingFilesAfterCandidates + p.shardjobscount).toNat
          = ret.remainingFilesAfterCandidates.toNat + s.jobs.length := by
        rw [hs.jobs, toNat_add, UInt64.toNat_ofNat_of_lt' (by simp only [UInt64.size]; omega)]
        exact Nat.mod_eq_of_lt (by omega)
      have hrest := ih (afterPointer ret p) hp' (by simp only [afterPointer, hby]; omega)
        (by simp only [afterPointer, hfi]; omega) (fun h => absurd h ho)
      refine ⟨wp_post hrest.1 ?_, hrest.2⟩
      rintro ret' m' ⟨rfl, hse⟩
      refine ⟨rfl, ?_⟩
      rw [UInt64.lt_iff_toNat_lt, UInt64.lt_iff_toNat_lt] at ho
      have hsp : ¬ (0 + ret.candidateBytes.toNat < maxBytes.toNat
          ∧ 0 + ret.candidateFiles.toNat < maxFiles.toNat) := by simpa using ho
      obtain ⟨hc, hcb, hcf, hrb, hrf⟩ := hse
      simp only [afterPointer] at hc hcb hcf hrb hrf
      rw [examine_of_reached hsp] at hc hcb hcf hrb hrf
      constructor <;> rw [examine_of_reached hsp]
      · exact hc
      · exact hcb
      · exact hcf
      · rw [hrb, hby, natBytes_append, Nat.add_assoc]
      · rw [hrf, hfi, length_append, Nat.add_assoc]

/-- The selection of `getCandidateList` among the jobs of a queue, and no subtraction wraps. -/
def SelectsExactly (skip : J → Bool) (maxBytes maxFiles : UInt64) (jobs : List J)
    (ret : CandidateJobList D) : Prop :=
  ret.candidates = (picked skip (examine skip maxBytes.toNat maxFiles.toNat 0 0 jobs).1).map dump
    ∧ ret.candidateBytes.toNat
      = natBytes (picked skip (examine skip maxBytes.toNat maxFiles.toNat 0 0 jobs).1)
    ∧ ret.candidateFiles.toNat
      = (picked skip (examine skip maxBytes.toNat maxFiles.toNat 0 0 jobs).1).length
    ∧ ret.remainingBytesAfterCandidates.toNat
      = natBytes (examine skip maxBytes.toNat maxFiles.toNat 0 0 jobs).2
    ∧ ret.remainingFilesAfterCandidates.toNat
      = (examine skip maxBytes.toNat maxFiles.toNat 0 0 jobs).2.length

theorem candidateList_exact (skip : J → Bool) (maxBytes maxFiles : UInt64) {q : QueuePayload R}
    (hq : Coherent m.store q) (hb : natBytes (queuedJobs m.store q.queueshards) < 2 ^ 64)
    (hf : (queuedJobs m.store q.queueshards).length < 2 ^ 64) :
    wp (candidateList dump skip maxBytes maxFiles q.queueshards {})
        (fun ret m' => m' = m ∧ SelectsExactly dump skip maxBytes maxFiles
          (queuedJobs m.store q.queueshards) ret) (fun _ _ => False) m
      ∧ ListSafe dump skip maxBytes maxFiles m.store q.queueshards {} := by
  have h := candidateList_selects (X := fun _ _ => False) dump skip maxBytes maxFiles
    q.queueshards {} hq.pointers (by simpa using hb) (by simpa using hf) (fun _ => ⟨rfl, rfl⟩)
  refine ⟨wp_post h.1 ?_, h.2⟩
  rintro ret m' ⟨hm, hs⟩
  refine ⟨hm, ?_⟩
  obtain ⟨hc, hcb, hcf, hrb, hrf⟩ := hs
  simp only [toNat_zero, Nat.zero_add, nil_append] at hc hcb hcf hrb hrf
  exact ⟨hc, hcb, hcf, hrb, hrf⟩

end Selection

/-! ## The two queues -/

section Example

variable (size : UInt64)

def jobOfSize (address : String) : ArchiveJobPointer where
  fileid := 1
  size := size
  address := address
  copynb := 1
  priority := 0
  minarchiverequestage := 0
  starttime := 0
  mountpolicyname := "mp"

def pairShard : Shard ArchiveJobPointer where
  jobs := [jobOfSize size "R1", jobOfSize size "R2"]
  jobstotalsize := size + size

def pairQueue : ArchiveQueue where
  tapepool := "tp"
  queueshards := [⟨"S", 2, size + size, ()⟩]
  prioritymap := [⟨0, 2⟩]
  minrequestagemap := [⟨0, 2⟩]
  mountpolicynamemap := [⟨"mp", 2⟩]
  jobstotalsize := size + size
  jobscount := 2
  oldestjobcreationtime := 0
  youngestjobcreationtime := 0
  mapsrebuildcount := 0

def pairMachine :
    Machine String (Obj ArchiveQueue (Shard ArchiveJobPointer)) AgentReference where
  base a := if a = "S" then some (.shard (pairShard size)) else none
  writes := []
  mem := ⟨"A", 0⟩

theorem pair_coherent :
    Coherent (pairMachine size).store (pairQueue size).toQueuePayload where
  nodup := nodup_singleton _
  pointers := by
    intro p hp
    rw [List.mem_singleton.mp hp]
    refine ⟨pairShard size, rfl, ?_, rfl, ?_⟩ <;>
      simp [pairShard, bytesOf, jobOfSize, Objectstore.size]
  summary := {
    prioritymap := ⟨⟨nodup_singleton _, by simp [pairQueue]⟩, rfl⟩
    minrequestagemap := ⟨⟨nodup_singleton _, by simp [pairQueue]⟩, rfl⟩
    mountpolicynamemap := ⟨⟨nodup_singleton _, by simp [pairQueue]⟩, rfl⟩
    jobscount := rfl
    jobstotalsize := by
      show size + size = size + (size + 0)
      rw [add_zero] }

end Example

/-- **THE CANDIDATES OF A COHERENT QUEUE** are the abstract selection, and nothing wraps. -/
theorem candidates_selected :
    (∀ (m : Machine String (Obj ArchiveQueue (Shard ArchiveJobPointer)) AgentReference)
      (q : ArchiveQueue) (maxBytes maxFiles : UInt64) (toSkip : List String),
      Coherent m.store q.toQueuePayload → natBytes (queuedJobs m.store q.queueshards) < 2 ^ 64 →
      (queuedJobs m.store q.queueshards).length < 2 ^ 64 →
      wp (q.getCandidateList maxBytes maxFiles toSkip)
          (fun ret m' => m' = m ∧ SelectsExactly ArchiveQueue.JobDump.ofPointer
            (fun j => toSkip.contains j.address) maxBytes maxFiles
            (queuedJobs m.store q.queueshards) ret) (fun _ _ => False) m
        ∧ ListSafe ArchiveQueue.JobDump.ofPointer (fun j => toSkip.contains j.address) maxBytes
          maxFiles m.store q.queueshards {})
    ∧ (∀ (m : Machine String (Obj RetrieveQueue (Shard RetrieveJobPointer)) AgentReference)
      (q : RetrieveQueue) (maxBytes maxFiles : UInt64) (toSkip diskSystemsToSkip : List String),
      Coherent m.store q.toQueuePayload → natBytes (queuedJobs m.store q.queueshards) < 2 ^ 64 →
      (queuedJobs m.store q.queueshards).length < 2 ^ 64 →
      wp (q.getCandidateList maxBytes maxFiles toSkip diskSystemsToSkip)
          (fun ret m' => m' = m ∧ SelectsExactly RetrieveQueue.JobDump.ofPointer
            (fun j => toSkip.contains j.address
              || diskSystemsToSkip.contains (j.destination_disk_system_name.getD ""))
            maxBytes maxFiles (queuedJobs m.store q.queueshards) ret) (fun _ _ => False) m
        ∧ ListSafe RetrieveQueue.JobDump.ofPointer (fun j => toSkip.contains j.address
              || diskSystemsToSkip.contains (j.destination_disk_system_name.getD "")) maxBytes
          maxFiles m.store q.queueshards {}) :=
  ⟨fun _ _ _ _ _ hq hb hf => candidateList_exact _ _ _ _ hq hb hf,
    fun _ _ _ _ _ _ hq hb hf => candidateList_exact _ _ _ _ hq hb hf⟩

/-- One of two jobs is asked for. -/
theorem pair_selected : wp ((pairQueue 5).getCandidateList 100 1 [])
      (fun ret m' => m' = pairMachine 5 ∧ SelectsExactly ArchiveQueue.JobDump.ofPointer
        (fun j => ([] : List String).contains j.address) 100 1 (pairShard 5).jobs ret)
      (fun _ _ => False) (pairMachine 5) :=
  (candidates_selected.1 (pairMachine 5) (pairQueue 5) 100 1 [] (pair_coherent 5) (by decide)
    (by decide)).1

/-- **Two jobs of 2^63 bytes** are candidates of 0 bytes, and what remains wraps. -/
theorem oversized_jobs_wrap :
    Coherent (pairMachine 9223372036854775808).store (pairQueue 9223372036854775808).toQueuePayload
      ∧ natBytes (pairShard 9223372036854775808).jobs = 2 ^ 64
      ∧ wp ((pairQueue 9223372036854775808).getCandidateList 9223372036854775809 10 [])
        (fun ret _ => ret.candidates.length = 2 ∧ ret.candidateBytes = 0) (fun _ _ => False)
        (pairMachine 9223372036854775808)
      ∧ ¬ ListSafe ArchiveQueue.JobDump.ofPointer (fun _ => false) 9223372036854775809 10
        (pairMachine 9223372036854775808).store (pairQueue 9223372036854775808).queueshards {} := by
  refine ⟨pair_coherent _, by decide, ?_, ?_⟩
  · rw [ArchiveQueue.getCandidateList, pairQueue, candidateList_cons, if_pos (by decide), wp_bind,
      wp_fetchShard (s := pairShard 9223372036854775808) rfl]
    exact ⟨by decide, by decide⟩
  · intro h
    have hl := (h.2.2 (pairShard 9223372036854775808) rfl).1
    exact absurd hl.1 (by decide)

end TapeArchive.Objectstore
