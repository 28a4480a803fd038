/-
  **EVERY SUBREQUEST IS ACCOUNTED ONCE**: whatever reports reach a repack request, the
  counters are those of a ledger with one entry per KEY (the retrieve of an fSeq, or the
  archive of an fSeq and a copy number),

      counters after = counters before + Σ over `firsts` of the reports

  and the accounted flags in the pointers are its keys.
-/
import TapeArchive.Lib.Ledger
import TapeArchive.Lib.Run
import TapeArchive.Objectstore.RepackRequest

namespace TapeArchive.Objectstore

open Std Lib List

namespace RepackRequest

/-! ## Entries, keys and counters -/

inductive Kind where
  | retrieveSuccess | retrieveFailure | archiveSuccess | archiveFailure
  deriving DecidableEq

def Kind.report : Kind → Report
  | .retrieveSuccess => reportRetriveSuccesses
  | .retrieveFailure => reportRetriveFailures
  | .archiveSuccess => reportArchiveSuccesses
  | .archiveFailure => reportArchiveFailures

inductive Key where
  | retrieve (fSeq : UInt64)
  | archive (fSeq : UInt64) (copyNb : UInt32)
  deriving DecidableEq

/-- One element of the list a report is called with. -/
structure Entry where
  kind : Kind
  stat : SubrequestStatistics
  deriving DecidableEq

def Entry.key (e : Entry) : Key :=
  match e.kind with
  | .retrieveSuccess | .retrieveFailure => .retrieve e.stat.fSeq
  | .archiveSuccess | .archiveFailure => .archive e.stat.fSeq e.stat.copyNb

/-- The counters that the reports add to; the last is summed over the destination tapes. -/
inductive Counter where
  | retrievedFiles | retrievedBytes | failedToRetrieveFiles | failedToRetrieveBytes
  | archivedFiles | archivedBytes | failedToArchiveFiles | failedToArchiveBytes
  | destinationFiles

def counter (r : RepackRequest) : Counter → UInt64
  | .retrievedFiles => r.retrievedfiles
  | .retrievedBytes => r.retrievedbytes
  | .failedToRetrieveFiles => r.failedtoretrievefiles
  | .failedToRetrieveBytes => r.failedtoretrievebytes
  | .archivedFiles => r.archivedfiles
  | .archivedBytes => r.archivedbytes
  | .failedToArchiveFiles => r.failedtoarchivefiles
  | .failedToArchiveBytes => r.failedtoarchivebytes
  | .destinationFiles => (r.destinationInfos.map (·.files)).sum

def Entry.adds (e : Entry) (n : Counter) : UInt64 :=
  match e.kind, n with
  | .retrieveSuccess, .retrievedFiles => if e.stat.hasUserProvidedFile then 0 else e.stat.files
  | .retrieveSuccess, .retrievedBytes => if e.stat.hasUserProvidedFile then 0 else e.stat.bytes
  | .retrieveFailure, .failedToRetrieveFiles => e.stat.files
  | .retrieveFailure, .failedToRetrieveBytes => e.stat.bytes
  | .archiveSuccess, .archivedFiles => e.stat.files
  | .archiveSuccess, .archivedBytes => e.stat.bytes
  | .archiveSuccess, .destinationFiles => 1
  | .archiveFailure, .failedToArchiveFiles => e.stat.files
  | .archiveFailure, .failedToArchiveBytes => e.stat.bytes
  | _, _ => 0

/-! ## The accounted flags -/

def flag (r : RepackRequest) : Key → Bool
  | .retrieve fSeq => (findKey (·.fseq) fSeq r.subrequests).any (·.retrieveAccounted)
  | .archive fSeq copyNb =>
      (findKey (·.fseq) fSeq r.subrequests).any (·.archiveCopynbAccounted.contains copyNb)

def mapFlag (m : PointerMap) : Key → Bool
  | .retrieve fSeq => m[fSeq]?.any (·.retrieveAccounted)
  | .archive fSeq copyNb => m[fSeq]?.any (·.archiveCopyNbsAccounted.contains copyNb)

def DistinctFSeqs (r : RepackRequest) : Prop := (r.subrequests.map (·.fseq)).Nodup

instance (r : RepackRequest) : Decidable r.DistinctFSeqs :=
  inferInstanceAs (Decidable (List.Nodup _))

/-- Every pointer of a map stands under its own fSeq. -/
def Aligned (m : PointerMap) : Prop :=
  ∀ (fSeq : UInt64) (p : SubRequestPointer), m[fSeq]? = some p → p.fSeq = fSeq

variable {r : RepackRequest}

theorem readMap_getElem? (hr : r.DistinctFSeqs) (fSeq : UInt64) : r.readMap[fSeq]?
      = (findKey (·.fseq) fSeq r.subrequests).map SubRequestPointer.deserialize := by
  unfold readMap
  rw [getElem?_foldl_insert _ hr]
  simp

/-- A pointer of a map is the one put in last, or was there before. -/
theorem getElem?_insert_some {m : PointerMap} {fs fSeq : UInt64} {p q : SubRequestPointer}
    (h : (m.insert fs q)[fSeq]? = some p) : fs = fSeq ∧ q = p ∨ m[fSeq]? = some p := by
  rw [TreeMap.getElem?_insert] at h
  split at h
  next heq => exact .inl ⟨LawfulEqOrd.eq_of_compare heq, Option.some.inj h⟩
  next => exact .inr h

theorem aligned_readMap (r : RepackRequest) : Aligned r.readMap := by
  have hf : ∀ (l : List SubRequestPointerMsg) (m : PointerMap), Aligned m →
      Aligned (l.foldl (fun m rsrp => m.insert rsrp.fseq (.deserialize rsrp)) m) := by
    intro l
    induction l with
    | nil => exact fun m hm => hm
    | cons rsrp l ih =>
      refine fun m hm => ih _ (fun fSeq p hp => ?_)
      rcases getElem?_insert_some hp with ⟨rfl, rfl⟩ | hp
      · rfl
      · exact hm fSeq p hp
  exact hf r.subrequests ∅ (fun fSeq p hp => by simp at hp)

theorem mapFlag_readMap (hr : r.DistinctFSeqs) : mapFlag r.readMap = r.flag := by
  funext k
  cases k with
  | retrieve fSeq =>
    simp only [mapFlag, flag, readMap_getElem? hr, Option.any_map]
    rfl
  | archive fSeq copyNb =>
    simp only [mapFlag, flag, readMap_getElem? hr, Option.any_map]
    congr 1
    funext msg
    simp [SubRequestPointer.deserialize]

variable {m : PointerMap}

theorem findKey_writeMap (hm : Aligned m) (r : RepackRequest) (fSeq : UInt64) :
    findKey (·.fseq) fSeq (r.writeMap m).subrequests
      = m[fSeq]?.map SubRequestPointer.serialize := by
  have hg : ∀ (k : UInt64) (b : SubRequestPointer), m[k]? = some b → b.serialize.fseq = k := hm
  exact findKey_map_toList hg fSeq

theorem distinctFSeqs_writeMap (hm : Aligned m) (r : RepackRequest) :
    (r.writeMap m).DistinctFSeqs :=
  map_toList_keys_nodup (g := SubRequestPointer.serialize) hm

/-- Writing the map keeps the flags. -/
theorem flag_writeMap (hm : Aligned m) (r : RepackRequest) : (r.writeMap m).flag = mapFlag m := by
  funext k
  cases k with
  | retrieve fSeq =>
    simp only [mapFlag, flag, findKey_writeMap hm, Option.any_map]
    rfl
  | archive fSeq copyNb =>
    simp only [mapFlag, flag, findKey_writeMap hm, Option.any_map]
    congr 1
    funext p
    exact TreeSet.contains_toList

/-! ## One turn of the loop -/

/-- The fields that no report on subrequests touches before it sets the status. -/
structure Frame (r r' : RepackRequest) : Prop where
  status : r'.status = r.status
  totalfilestoretrieve : r'.totalfilestoretrieve = r.totalfilestoretrieve
  totalfilestoarchive : r'.totalfilestoarchive = r.totalfilestoarchive
  failedtocreatearchivereq : r'.failedtocreatearchivereq = r.failedtocreatearchivereq
  isExpandFinished : r'.isExpandFinished = r.isExpandFinished
  isExpandStarted : r'.isExpandStarted = r.isExpandStarted
  subrequests : r'.subrequests = r.subrequests

theorem Frame.refl (r : RepackRequest) : Frame r r := ⟨rfl, rfl, rfl, rfl, rfl, rfl, rfl⟩

variable {r₁ r₂ r₃ : RepackRequest}

theorem Frame.trans (h₁ : Frame r₁ r₂) (h₂ : Frame r₂ r₃) : Frame r₁ r₃ :=
  ⟨h₂.status.trans h₁.status, h₂.totalfilestoretrieve.trans h₁.totalfilestoretrieve,
    h₂.totalfilestoarchive.trans h₁.totalfilestoarchive,
    h₂.failedtocreatearchivereq.trans h₁.failedtocreatearchivereq,
    h₂.isExpandFinished.trans h₁.isExpandFinished,
    h₂.isExpandStarted.trans h₁.isExpandStarted, h₂.subrequests.trans h₁.subrequests⟩

theorem destinationFiles_update (r : RepackRequest) (fileSize : UInt64) (vid : String) :
    (r.updateRepackDestinationInfos fileSize vid).counter .destinationFiles
      = r.counter .destinationFiles + 1 := by
  show ((updateRepackDestinationInfos.go fileSize vid r.destinationInfos).map (·.files)).sum = _
  unfold counter
  induction r.destinationInfos with
  | nil => rfl
  | cons info infos ih =>
    unfold updateRepackDestinationInfos.go
    split
    · simp only [map_cons, sum_cons]
      ac_rfl
    · simp only [map_cons, sum_cons, ih]
      ac_rfl

variable {k : Kind} {env : Surroundings} {s : SubrequestStatistics} {p : SubRequestPointer}
  {r r' : RepackRequest}

theorem count_ok (h : k.report.count env s p r = .ok r') :
    Frame r r' ∧ ∀ n, r'.counter n = r.counter n + Entry.adds ⟨k, s⟩ n := by
  cases k with
  | retrieveSuccess =>
    cases h
    by_cases hp : s.hasUserProvidedFile = true
    · refine ⟨by simp only [hp]; exact .refl r, fun n => ?_⟩
      cases n <;> simp [counter, Entry.adds, hp]
    · refine ⟨by simp only [hp]; exact ⟨rfl, rfl, rfl, rfl, rfl, rfl, rfl⟩, fun n => ?_⟩
      cases n <;> simp [counter, Entry.adds, hp]
  | retrieveFailure | archiveFailure =>
    cases h
    refine ⟨⟨rfl, rfl, rfl, rfl, rfl, rfl, rfl⟩, fun n => ?_⟩
    cases n <;> simp [counter, Entry.adds]
  | archiveSuccess =>
    obtain ⟨fileSize, hs, hr'⟩ := bind_eq_ok.mp h
    cases hr'
    refine ⟨⟨rfl, rfl, rfl, rfl, rfl, rfl, rfl⟩, fun n => ?_⟩
    cases n with
    | destinationFiles => exact destinationFiles_update r fileSize s.destinationVid
    | _ => simp [counter, Entry.adds, updateRepackDestinationInfos]

theorem accounted_eq_mapFlag (hp : m[s.fSeq]? = some p) :
    k.report.accounted s p = mapFlag m (Entry.key ⟨k, s⟩) := by
  cases k <;> simp [Kind.report, reportRetriveSuccesses, reportRetriveFailures,
    reportArchiveSuccesses, reportArchiveFailures, Entry.key, mapFlag, hp]

theorem mapFlag_account (hp : m[s.fSeq]? = some p) :
    mapFlag (m.insert s.fSeq (k.report.account s p)) = mark Entry.key (mapFlag m) [⟨k, s⟩] := by
  funext key
  cases key with
  | retrieve fSeq =>
    by_cases h : s.fSeq = fSeq
    · subst h
      cases k <;> simp [Kind.report, reportRetriveSuccesses, reportRetriveFailures,
        reportArchiveSuccesses, reportArchiveFailures, Entry.key, mapFlag, mark, hp]
    · cases k <;> simp [Kind.report, Entry.key, mapFlag, mark, TreeMap.getElem?_insert, h]
  | archive fSeq copyNb =>
    by_cases h : s.fSeq = fSeq
    · subst h
      rw [Bool.eq_iff_iff]
      cases k <;> simp [Kind.report, reportRetriveSuccesses, reportRetriveFailures,
        reportArchiveSuccesses, reportArchiveFailures, Entry.key, mapFlag, mark, hp, or_comm]
    · cases k <;> simp [Kind.report, Entry.key, mapFlag, mark, TreeMap.getElem?_insert, h]

/-- The pointers of two maps lead to the same objects. -/
def SameAddresses (m m' : PointerMap) : Prop :=
  ∀ fSeq : UInt64, m'[fSeq]?.map (fun p => (p.fSeq, p.address))
    = m[fSeq]?.map (fun p => (p.fSeq, p.address))

theorem sameAddresses_account (hp : m[s.fSeq]? = some p) :
    SameAddresses m (m.insert s.fSeq (k.report.account s p)) := by
  intro fSeq
  rw [TreeMap.getElem?_insert]
  by_cases h : s.fSeq = fSeq
  · subst h
    cases k <;> simp [Kind.report, reportRetriveSuccesses, reportRetriveFailures,
      reportArchiveSuccesses, reportArchiveFailures, hp]
  · simp [h]

theorem Aligned.of_sameAddresses {m m' : PointerMap} (hm : Aligned m)
    (h : SameAddresses m m') : Aligned m' := by
  intro fSeq p hp
  have heq := h fSeq
  rw [hp] at heq
  obtain ⟨p', hp', heq⟩ := Option.map_eq_some_iff.mp heq.symm
  rw [← (Prod.mk.inj heq).1]
  exact hm fSeq p' hp'

/-- The local variables of a report after the entries `es`. -/
structure Counted (c c' : Counting) (es : List Entry) : Prop where
  addresses : SameAddresses c.pointerMap c'.pointerMap
  flags : mapFlag c'.pointerMap = mark Entry.key (mapFlag c.pointerMap) es
  counters : ∀ n, c'.payload.counter n = c.payload.counter n
    + ((firsts Entry.key (mapFlag c.pointerMap) es).map (·.adds n)).sum
  frame : Frame c.payload c'.payload
  didUpdate : c'.didUpdate = true
    ↔ c.didUpdate = true ∨ firsts Entry.key (mapFlag c.pointerMap) es ≠ []
  untouched : firsts Entry.key (mapFlag c.pointerMap) es = [] → c' = c

variable {c c' : Counting}

/-- A turn of a report leaves what is accounted alone and accounts what is not. -/
theorem countOne_cases (h : k.report.countOne env c s = .ok c') :
    ∃ p, c.pointerMap[s.fSeq]? = some p ∧ (mapFlag c.pointerMap (Entry.key ⟨k, s⟩) = true ∧ c' = c
        ∨ mapFlag c.pointerMap (Entry.key ⟨k, s⟩) = false ∧ ∃ payload,
          k.report.count env s p c.payload = .ok payload
          ∧ c' = ⟨c.pointerMap.insert s.fSeq (k.report.account s p), payload, true⟩) := by
  unfold Report.countOne at h
  cases hp : c.pointerMap[s.fSeq]? with
  | none => simp [hp] at h
  | some p =>
    simp only [hp, accounted_eq_mapFlag hp] at h
    refine ⟨p, rfl, ?_⟩
    cases hflag : mapFlag c.pointerMap (Entry.key ⟨k, s⟩) with
    | true =>
      rw [hflag] at h
      cases h
      exact .inl ⟨rfl, rfl⟩
    | false =>
      rw [hflag] at h
      obtain ⟨payload, hc, hc'⟩ := bind_eq_ok.mp h
      cases hc'
      exact .inr ⟨rfl, payload, hc, rfl⟩

theorem countOne_ok (h : k.report.countOne env c s = .ok c') : Counted c c' [⟨k, s⟩] := by
  obtain ⟨p, hp, ⟨hflag, rfl⟩ | ⟨hflag, payload, hco, rfl⟩⟩ := countOne_cases h
  · -- accounted before: nothing changes
    have hf : firsts Entry.key (mapFlag c'.pointerMap) [⟨k, s⟩] = [] := by
      simp [firsts, hflag]
    exact ⟨fun _ => rfl, (mark_of_seen hflag).symm, fun n => by simp [hf], .refl _,
      by simp [hf], fun _ => rfl⟩
  · obtain ⟨hfr, hc⟩ := count_ok hco
    have hf : firsts Entry.key (mapFlag c.pointerMap) [⟨k, s⟩] = [⟨k, s⟩] := by
      simp [firsts, hflag]
    exact ⟨sameAddresses_account hp, mapFlag_account hp,
      fun n => by simp [hf, hc], hfr, by simp [hf],
      fun hn => absurd (hf.symm.trans hn) (cons_ne_nil _ _)⟩

variable {es es' : List Entry}

/-- Entries counted one after the other. -/
theorem Counted.trans {c₁ c₂ c₃ : Counting} (h₁ : Counted c₁ c₂ es) (h₂ : Counted c₂ c₃ es') :
    Counted c₁ c₃ (es ++ es') := by
  have hf : firsts Entry.key (mapFlag c₁.pointerMap) (es ++ es')
      = firsts Entry.key (mapFlag c₁.pointerMap) es
        ++ firsts Entry.key (mapFlag c₂.pointerMap) es' := by
    rw [firsts_append, h₁.flags]
  constructor
  · exact fun fSeq => (h₂.addresses fSeq).trans (h₁.addresses fSeq)
  · rw [h₂.flags, h₁.flags, mark_append]
  · intro n
    rw [h₂.counters, h₁.counters, hf, map_append, sum_append, UInt64.add_assoc]
  · exact h₁.frame.trans h₂.frame
  · rw [h₂.didUpdate, h₁.didUpdate, hf, Ne, Ne, Ne, append_eq_nil_iff, not_and_or, or_assoc]
  · intro hn
    rw [hf, append_eq_nil_iff] at hn
    rw [h₂.untouched hn.2, h₁.untouched hn.1]

theorem Counted.nil (c : Counting) : Counted c c [] :=
  ⟨fun _ => rfl, (mark_nil _).symm, fun n => by simp [firsts], .refl _, by simp [firsts],
    fun _ => rfl⟩

variable {stats : List SubrequestStatistics}

/-- **The loop of a report.** -/
theorem foldlM_countOne_ok (h : stats.foldlM (k.report.countOne env) c = .ok c') :
    Counted c c' (stats.map (Entry.mk k)) := by
  induction stats generalizing c with
  | nil =>
    have hc : c = c' := Except.ok.inj h
    exact hc ▸ .nil c
  | cons s stats ih =>
    obtain ⟨c1, ho, hrest⟩ := bind_eq_ok.mp h
    exact (countOne_ok ho).trans (ih hrest)

/-! ## A whole report -/

/-- `setStatus` touches the status and the time it was reached, nothing else. -/
theorem setStatus_ok (h : r.setStatus env = .ok r') : r' = match r.nextStatus with
      | none => r
      | some status => r.setStatusTo env status := by
  unfold setStatus at h
  cases hs : r.nextStatus with
  | none =>
    rw [hs] at h
    exact (Except.ok.inj h).symm
  | some status =>
    rw [hs] at h
    dsimp only at h
    split at h
    · obtain ⟨_, -, h⟩ := bind_eq_ok.mp h
      exact (Except.ok.inj h).symm
    · exact (Except.ok.inj h).symm

@[simp] theorem counter_setStatusTo (r : RepackRequest) (env : Surroundings)
    (status : RepackRequestStatus) : (r.setStatusTo env status).counter = r.counter := by
  unfold setStatusTo
  split <;> rfl

theorem counter_setStatus (h : r.setStatus env = .ok r') : r'.counter = r.counter := by
  rw [setStatus_ok h]
  split
  · rfl
  · exact counter_setStatusTo r env _

def addressOf (r : RepackRequest) (fSeq : UInt64) : Option String :=
  (findKey (·.fseq) fSeq r.subrequests).map (·.address)

theorem map_address_readMap (hr : r.DistinctFSeqs) (fSeq : UInt64) :
    r.readMap[fSeq]?.map (·.address) = r.addressOf fSeq := by
  rw [readMap_getElem? hr, Option.map_map]
  rfl

theorem addressOf_writeMap (hr : r.DistinctFSeqs) (h : SameAddresses r.readMap m)
    (r₁ : RepackRequest) : (r₁.writeMap m).addressOf = r.addressOf := by
  funext fSeq
  have ha := congrArg (Option.map Prod.snd) (h fSeq)
  simp only [Option.map_map] at ha
  rw [← map_address_readMap hr, addressOf,
    findKey_writeMap ((aligned_readMap r).of_sameAddresses h), Option.map_map]
  exact ha

structure Reported (r r' : RepackRequest) (es : List Entry) : Prop where
  distinct : r'.DistinctFSeqs
  addresses : r'.addressOf = r.addressOf
  flags : r'.flag = mark Entry.key r.flag es
  counters : ∀ n, r'.counter n
    = r.counter n + ((firsts Entry.key r.flag es).map (·.adds n)).sum

/-- A report that returns has written its map back, or has nothing new to record. -/
theorem run_cases (h : k.report.run env stats r = .ok r') :
    ∃ c, stats.foldlM (k.report.countOne env) ⟨r.readMap, r, false⟩ = .ok c
      ∧ Counted ⟨r.readMap, r, false⟩ c (stats.map (Entry.mk k))
      ∧ ((∃ r₁, c.payload.setStatus env = .ok r₁ ∧ r' = r₁.writeMap c.pointerMap)
        ∨ c = ⟨r.readMap, r, false⟩ ∧ r' = r) := by
  obtain ⟨c, hc, h⟩ := bind_eq_ok.mp h
  have hco := foldlM_countOne_ok hc
  refine ⟨c, hc, hco, ?_⟩
  split at h
  · obtain ⟨r₁, hss, h⟩ := bind_eq_ok.mp h
    cases h
    exact .inl ⟨r₁, hss, rfl⟩
  next hu =>
    cases h
    have hs : c = ⟨r.readMap, r, false⟩ := by
      refine hco.untouched ?_
      by_contra hne
      exact hu (hco.didUpdate.mpr (.inr hne))
    exact .inr ⟨hs, by rw [hs]⟩

theorem Counted.aligned {c : Counting} {es : List Entry} (h : Counted ⟨r.readMap, r, false⟩ c es) :
    Aligned c.pointerMap :=
  (aligned_readMap r).of_sameAddresses h.addresses

/-- **A report counts every key once.** -/
theorem run_ok (hr : r.DistinctFSeqs) (h : k.report.run env stats r = .ok r') :
    Reported r r' (stats.map (Entry.mk k)) := by
  obtain ⟨c, -, hc, ⟨r1, hs, rfl⟩ | ⟨rfl, rfl⟩⟩ := run_cases h
  · have hf := hc.flags
    have hco := hc.counters
    rw [mapFlag_readMap hr] at hf hco
    refine ⟨distinctFSeqs_writeMap hc.aligned r1, addressOf_writeMap hr hc.addresses r1,
      (flag_writeMap hc.aligned r1).trans hf, fun n => ?_⟩
    rw [← hco n, ← counter_setStatus hs]
    cases n <;> rfl
  · refine ⟨hr, rfl, ?_, ?_⟩
    · rw [← mapFlag_readMap hr]
      exact hc.flags
    · rw [← mapFlag_readMap hr]
      exact hc.counters

/-- Known fSeqs, subrequests that can be read and an owner that lets the request go. -/
structure Answerable (r : RepackRequest) (env : Surroundings)
    (stats : List SubrequestStatistics) : Prop where
  known : ∀ s ∈ stats, ∃ address size, r.addressOf s.fSeq = some address
    ∧ env.archiveFileSize address = .ok size
  owner : env.removeFromOwnership = .ok ()

theorem countOne_returns {c : Counting} {address : String} {size : UInt64}
    (ha : c.pointerMap[s.fSeq]?.map (·.address) = some address)
    (hs : env.archiveFileSize address = .ok size) :
    ∃ c', k.report.countOne env c s = .ok c' := by
  obtain ⟨p, hp, rfl⟩ := Option.map_eq_some_iff.mp ha
  have hc : ∃ r', k.report.count env s p c.payload = .ok r' := by
    cases k with
    | archiveSuccess =>
      show ∃ r', (env.archiveFileSize p.address >>= _) = .ok r'
      rw [hs]
      exact ⟨_, rfl⟩
    | _ => exact ⟨_, rfl⟩
  obtain ⟨r', hr'⟩ := hc
  unfold Report.countOne
  rw [hp]
  dsimp only
  split
  · rw [hr']
    exact ⟨_, rfl⟩
  · exact ⟨_, rfl⟩

theorem foldlM_countOne_returns {c : Counting}
    (h : ∀ s ∈ stats, ∃ address size, c.pointerMap[s.fSeq]?.map (·.address) = some address
      ∧ env.archiveFileSize address = .ok size) :
    ∃ c', stats.foldlM (k.report.countOne env) c = .ok c' := by
  induction stats generalizing c with
  | nil => exact ⟨c, rfl⟩
  | cons s stats ih =>
    obtain ⟨address, size, ha, hsi⟩ := h s mem_cons_self
    obtain ⟨c1, ho⟩ := countOne_returns (k := k) ha hsi
    rw [foldlM_cons, ho]
    refine ih (fun s' hs' => ?_)
    obtain ⟨address', size', ha', hsi'⟩ := h s' (.tail _ hs')
    have hs := congrArg (Option.map Prod.snd) ((countOne_ok ho).addresses s'.fSeq)
    simp only [Option.map_map] at hs
    exact ⟨address', size', hs.trans ha', hsi'⟩

theorem setStatus_returns (h : env.removeFromOwnership = .ok ()) (r : RepackRequest) :
    ∃ r', r.setStatus env = .ok r' := by
  unfold setStatus
  split
  · exact ⟨_, rfl⟩
  rw [h]
  split
  · exact ⟨_, rfl⟩
  · exact ⟨_, rfl⟩

theorem run_returns (hr : r.DistinctFSeqs) (h : r.Answerable env stats) :
    ∃ r', k.report.run env stats r = .ok r' := by
  obtain ⟨c, hc⟩ := foldlM_countOne_returns (k := k) (c := ⟨r.readMap, r, false⟩) (fun s hs => by
    rw [map_address_readMap hr]
    exact h.known s hs)
  obtain ⟨r1, hr1⟩ := setStatus_returns h.owner c.payload
  unfold Report.run Report.counting
  rw [hc]
  show ∃ r', (if c.didUpdate then _ else _) = _
  split
  · rw [hr1]
    exact ⟨_, rfl⟩
  · exact ⟨_, rfl⟩

/-! ## Histories of reports -/

structure Call where
  kind : Kind
  env : Surroundings
  stats : List SubrequestStatistics

def Call.entries (call : Call) : List Entry := call.stats.map (Entry.mk call.kind)

/-- The callers commit only after a report that returned. -/
def commitReport (r : RepackRequest) (call : Call) : RepackRequest :=
  match call.kind.report.run call.env call.stats r with
  | .ok r' => r'
  | .error _ => r

def recorded (r : RepackRequest) : List Call → List Entry
  | [] => []
  | call :: calls =>
      (match call.kind.report.run call.env call.stats r with
        | .ok _ => call.entries
        | .error _ => []) ++ recorded (r.commitReport call) calls

theorem Reported.refl (hr : r.DistinctFSeqs) : Reported r r [] :=
  ⟨hr, rfl, (mark_nil _).symm, fun n => by simp [firsts]⟩

theorem Reported.trans (h₁ : Reported r₁ r₂ es) (h₂ : Reported r₂ r₃ es') :
    Reported r₁ r₃ (es ++ es') := by
  refine ⟨h₂.distinct, h₂.addresses.trans h₁.addresses, ?_, ?_⟩
  · rw [h₂.flags, h₁.flags, mark_append]
  · intro n
    rw [h₂.counters, h₁.counters, h₁.flags, firsts_append, map_append, sum_append, UInt64.add_assoc]

/-- **A history of reports is one ledger.** -/
theorem reported_of_history (hr : r.DistinctFSeqs) (calls : List Call) :
    Reported r (run commitReport r calls) (recorded r calls) := by
  induction calls generalizing r with
  | nil => exact .refl hr
  | cons call calls ih =>
    have hc : Reported r (r.commitReport call)
        (match call.kind.report.run call.env call.stats r with
          | .ok _ => call.entries
          | .error _ => []) := by
      unfold commitReport
      cases hru : call.kind.report.run call.env call.stats r with
      | ok r' => exact run_ok hr hru
      | error e => exact .refl hr
    exact hc.trans (ih hc.distinct)

theorem recorded_of_answerable (hr : r.DistinctFSeqs) {calls : List Call}
    (h : ∀ call ∈ calls, r.Answerable call.env call.stats) :
    recorded r calls = calls.flatMap Call.entries := by
  induction calls generalizing r with
  | nil => rfl
  | cons call calls ih =>
    obtain ⟨r', hru⟩ := run_returns (k := call.kind) hr (h call mem_cons_self)
    have hc : r.commitReport call = r' := by rw [commitReport, hru]
    have hre := run_ok hr hru
    rw [recorded, hru, hc, flatMap_cons, ih hre.distinct]
    intro call' hc'
    obtain ⟨hk, ho⟩ := h call' (.tail _ hc')
    exact ⟨fun s hs => by rw [hre.addresses]; exact hk s hs, ho⟩

theorem sum_adds_destinationFiles (es : List Entry) : (es.map (·.adds .destinationFiles)).sum
      = UInt64.ofNat (es.countP (fun e => e.kind == .archiveSuccess)) := by
  induction es with
  | nil => rfl
  | cons e es ih =>
    rw [map_cons, sum_cons, ih, countP_cons]
    cases hk : e.kind <;>
      simp [Entry.adds, hk, UInt64.ofNat_add, UInt64.add_comm]

/-- **Repack accounting is duplicate-proof**: the first entry of a key that was not accounted
counts, and the destinations hold one file per archive success among them. -/
theorem accounting_counts_once (r : RepackRequest) (hr : r.DistinctFSeqs) (calls : List Call) :
    let r' := run commitReport r calls
    let counted := firsts Entry.key r.flag (recorded r calls)
    (counted.map Entry.key).Nodup ∧ (∀ e ∈ counted, r.flag e.key = false)
      ∧ (∀ k, r'.flag k = true ↔ r.flag k = true ∨ k ∈ counted.map Entry.key)
      ∧ (∀ n, r'.counter n = r.counter n + (counted.map (·.adds n)).sum)
      ∧ r'.counter .destinationFiles = r.counter .destinationFiles
          + UInt64.ofNat (counted.countP (fun e => e.kind == .archiveSuccess))
      ∧ ((∀ call ∈ calls, r.Answerable call.env call.stats) →
          recorded r calls = calls.flatMap Call.entries) := by
  intro r' counted
  have hre := reported_of_history hr calls
  refine ⟨firsts_keys_nodup _ _, fun e he => not_seen_of_mem_firsts he, fun k => ?_,
    hre.counters, ?_, recorded_of_answerable hr⟩
  · show (run commitReport r calls).flag k = true ↔ _
    rw [hre.flags]
    exact mark_iff_firsts
  · show (run commitReport r calls).counter .destinationFiles = _
    rw [hre.counters]
    exact congrArg _ (sum_adds_destinationFiles counted)

/-- A request with one file that is still to be retrieved and archived. -/
def onePointer : RepackRequest :=
  { initial "V00001" with subrequests := [⟨"RetrieveRequest-1", 1, false, [], false⟩] }

def calm : Surroundings := ⟨fun _ => .ok 100, .ok (), 0⟩

def fileReport (hasUserProvidedFile : Bool) : SubrequestStatistics :=
  { fSeq := 1, files := 1, bytes := 100, copyNb := 1, subrequestDeleted := false,
    hasUserProvidedFile := hasUserProvidedFile, destinationVid := "V00002" }

/-- Successes that come twice, and a failure after them. -/
def repeatedReports : List Call :=
  [⟨.retrieveSuccess, calm, [fileReport false, fileReport false]⟩,
    ⟨.retrieveFailure, calm, [fileReport false]⟩,
    ⟨.archiveSuccess, calm, [fileReport false]⟩, ⟨.archiveSuccess, calm, [fileReport false]⟩]

theorem repeatedReports_count_once :
    (run commitReport onePointer repeatedReports).counter .retrievedFiles = 1
      ∧ (run commitReport onePointer repeatedReports).counter .destinationFiles = 1 := by
  have h := accounting_counts_once onePointer (by decide) repeatedReports
  exact ⟨(h.2.2.2.1 .retrievedFiles).trans (by decide), h.2.2.2.2.1.trans (by decide)⟩

/-- **REPORTS CAN COME IN ANY ORDER**: two histories with the same entries, at most one of a key,
lead to the same counters and flags. -/
theorem reports_in_any_order {r : RepackRequest} (hr : r.DistinctFSeqs) {calls calls' : List Call}
    (h : ∀ call ∈ calls ++ calls', r.Answerable call.env call.stats)
    (hs : ∀ e, e ∈ calls.flatMap Call.entries ↔ e ∈ calls'.flatMap Call.entries)
    (hk : ∀ e ∈ calls.flatMap Call.entries, ∀ e' ∈ calls.flatMap Call.entries,
      e.key = e'.key → e = e') :
    (run commitReport r calls).counter = (run commitReport r calls').counter
      ∧ (run commitReport r calls).flag = (run commitReport r calls').flag := by
  have h1 := reported_of_history hr calls
  have h2 := reported_of_history hr calls'
  rw [recorded_of_answerable hr fun call hc => h call (mem_append_left _ hc)] at h1
  rw [recorded_of_answerable hr fun call hc => h call (mem_append_right _ hc)] at h2
  constructor
  · funext n
    rw [h1.counters, h2.counters, ((firsts_perm hk hs).map (·.adds n)).sum_eq]
  · rw [h1.flags, h2.flags]
    funext k
    simp only [mark, any_eq, hs]

/-- The archival is reported before the failed retrieve as well. -/
theorem archived_before_retrieved :
    (run commitReport onePointer (repeatedReports.drop 3 ++ repeatedReports.drop 1)).counter
      = (run commitReport onePointer (repeatedReports.drop 1)).counter := by
  have ha : onePointer.Answerable calm [fileReport false] := by
    refine ⟨fun s hs => ⟨"RetrieveRequest-1", 100, ?_⟩, rfl⟩
    rw [mem_singleton.mp hs]
    decide
  exact (reports_in_any_order (by decide) (by simpa [repeatedReports] using ha)
    (by simp [repeatedReports, Call.entries]) (by decide)).1

/-- The retrieve of a file the user provided is accounted, and counted nowhere. -/
theorem user_provided_file_not_counted : onePointer.DistinctFSeqs
      ∧ onePointer.flag (.retrieve 1) = false
      ∧ (onePointer.commitReport ⟨.retrieveSuccess, calm, [fileReport true]⟩).flag (.retrieve 1)
          = true
      ∧ (onePointer.commitReport ⟨.retrieveSuccess, calm, [fileReport true]⟩).counter
          = onePointer.counter := by
  refine ⟨by decide, by decide, by decide, ?_⟩
  funext n
  cases n <;> decide

end RepackRequest

end TapeArchive.Objectstore
