/-
  `BackendRados::lockShared`, `lockExclusive`, `create` and `ScopedLock::release`,
  run by any number of clients over one store whose single operations are atomic.

      lockBackoff     lock ──▶ stat ──▶ the caller has the lock
                       ▲│busy    └empty─▶ remove, NoSuchObject
                       └┘
      create          operate ──▶ done
                       │▲exists
                       ▼└gone─ stat

  Two shared lockers of one absent name hold the lock on one empty object (`SharesEmpty`),
  and a released lock is unlocked once more by its destructor (`UnlocksAnother`).
-/
import TapeArchive.Lib.LockStore
import TapeArchive.Lib.Run

namespace TapeArchive.Objectstore.RadosLocks

open Lib List
open LockStore (hasContent_lock hasContent_remove hasContent_unlock holds_createNew holds_lock
  holds_remove holds_unlock isEmpty_createNew isEmpty_lock lock_ok)

/-! ## Clients -/

/-- `BackendRados::ScopedLock`, with a note of whether it was released. -/
structure ScopedLock where
  m_oid : String
  m_lockType : LockMode
  m_lockSet : Bool := true
  released : Bool := false
  deriving DecidableEq

/-- The next operation of the call that a client is in. -/
inductive Phase where
  | idle
  /-- `lockBackoff`, at `lock_shared` or `lock_exclusive`. -/
  | locking (name : String) (lockType : LockMode)
  | stating (name : String) (lockType : LockMode)
  /-- `lockBackoff`, with the lock on an empty object, at `remove`. -/
  | removing (name : String) (lockType : LockMode)
  /-- `create`, at `operate`. -/
  | creating (name content : String)
  /-- `create`, at `stat`. -/
  | polling (name content : String)
  deriving DecidableEq

/-- A thread with a name of its own, and the locks that were returned to it. -/
structure Client where
  phase : Phase := .idle
  locks : List ScopedLock := []

structure World where
  store : LockStore String String String
  clients : String → Client

inductive Event where
  /-- Call `lockShared` or `lockExclusive`. -/
  | lock (client name : String) (lockType : LockMode)
  | create (client name content : String)
  /-- Call `release` of one of its locks. -/
  | release (client : String) (i : Nat)
  /-- Destroy one of its locks. -/
  | destroy (client : String) (i : Nat)
  /-- The next operation of the call it is in. -/
  | proceed (client : String)
  /-- The timer of the call has run out. -/
  | timeout (client : String)

/-! ## Steps -/

namespace World

def setClient (w : World) (p : String) (c : Client) : World :=
  { w with clients := Function.update w.clients p c }

/-- The next operation of `lockBackoff` or `create`. -/
def proceed (w : World) (p : String) : World :=
  let c := w.clients p
  match c.phase with
  | .idle => w
  | .locking n m =>
      match w.store.lock n p m with
      | (.ok, store) => { w with store := store }.setClient p { c with phase := .stating n m }
      -- back off and try again
      | (.busy, _) => w
      | (.present, _) => w.setClient p { c with phase := .idle }
  | .stating n m =>
      match w.store n with
      | none => w.setClient p { c with phase := .idle }
      | some o =>
          if o.content.isNone then w.setClient p { c with phase := .removing n m }
          else w.setClient p { c with phase := .idle,
                                      locks := c.locks ++ [{ m_oid := n, m_lockType := m }] }
  | .removing n _ => { w with store := w.store.remove n }.setClient p { c with phase := .idle }
  | .creating n content =>
      match w.store.createNew n content with
      | some store => { w with store := store }.setClient p { c with phase := .idle }
      | none => w.setClient p { c with phase := .polling n content }
  | .polling n content =>
      match w.store n with
      | none => w.setClient p { c with phase := .creating n content }
      | some o =>
          -- an object with content is there to stay: `EEXIST` is thrown
          if o.content.isNone then w else w.setClient p { c with phase := .idle }

def releaseBackoff (w : World) (p : String) (l : ScopedLock) : World :=
  if l.m_lockSet then { w with store := w.store.unlock l.m_oid p } else w

end World

open World in
/-- One step. A call is made by a client that is in no call. -/
def step (w : World) : Event → World
  | .lock p n m =>
      let c := w.clients p
      if c.phase = .idle then w.setClient p { c with phase := .locking n m } else w
  | .create p n content =>
      let c := w.clients p
      if c.phase = .idle ∧ content ≠ "" then w.setClient p { c with phase := .creating n content }
      else w
  | .release p i =>
      let c := w.clients p
      match c.locks[i]? with
      | some l =>
          if c.phase = .idle then
            (w.releaseBackoff p l).setClient p
              { c with locks := c.locks.set i { l with released := true } }
          else w
      | none => w
  | .destroy p i =>
      let c := w.clients p
      match c.locks[i]? with
      | some l =>
          if c.phase = .idle then
            (w.releaseBackoff p l).setClient p { c with locks := c.locks.eraseIdx i }
          else w
      | none => w
  | .proceed p => w.proceed p
  | .timeout p =>
      let c := w.clients p
      match c.phase with
      | .locking _ _ | .polling _ _ => w.setClient p { c with phase := .idle }
      | _ => w

/-- Objects with their contents, nobody has locked anything. -/
def World.start (objects : String → Option String) : World where
  store n := (objects n).map (fun content => ⟨some content, [], .shared⟩)
  clients _ := {}

/-! ## What locks are for -/

/-- The step is not one that removes an object with content. -/
def Harmless (w : World) : Event → Prop
  | .proceed p =>
      match (w.clients p).phase with
      | .removing n _ => ¬ w.store.HasContent n
      | _ => True
  | _ => True

instance (w : World) : (e : Event) → Decidable (Harmless w e)
  | .proceed p =>
      match h : (w.clients p).phase with
      | .removing n _ => decidable_of_iff (¬ w.store.HasContent n) (by simp only [Harmless, h])
      | .idle | .locking _ _ | .stating _ _ | .creating _ _ | .polling _ _ =>
          isTrue (by simp only [Harmless, h])
  | .lock _ _ _ | .create _ _ _ | .release _ _ | .destroy _ _ | .timeout _ => isTrue trivial

/-- Every client holds the locks returned to it, and an exclusive one is the only one. -/
structure Safe (w : World) : Prop where
  really : ∀ p, ∀ l ∈ (w.clients p).locks, l.released = false →
    w.store.Holds l.m_oid p l.m_lockType
  alone : ∀ (p q : String) (i j : Nat) (l l' : ScopedLock),
    (w.clients p).locks[i]? = some l → (w.clients q).locks[j]? = some l' → l.released = false →
    l'.released = false → l.m_oid = l'.m_oid → l.m_lockType = .exclusive → p = q ∧ i = j

/-- A shared lock is asked for on an empty object that other clients share. -/
def SharesEmpty (w : World) : Event → Bool
  | .proceed p =>
      match (w.clients p).phase with
      | .locking n .shared =>
          match w.store n with
          | some o => o.content.isNone && !o.lockers.isEmpty && o.mode == .shared
          | none => false
      | _ => false
  | _ => false

/-- A lock that was released is released again while the client has locked the object anew. -/
def UnlocksAnother (w : World) : Event → Bool
  | .release p i | .destroy p i =>
      match (w.clients p).locks[i]? with
      | some l => l.released
          && (w.clients p).locks.any (fun l' => l'.m_oid == l.m_oid && !l'.released)
      | none => false
  | _ => false

def Regular (w : World) (e : Event) : Prop :=
  SharesEmpty w e = false ∧ UnlocksAnother w e = false

instance (w : World) (e : Event) : Decidable (Regular w e) := inferInstanceAs (Decidable (_ ∧ _))

/-! ## The invariant -/

/-- The lock that a call has taken and not yet returned or given up. -/
def Phase.lockTaken : Phase → List (String × LockMode)
  | .stating n m | .removing n m => [(n, m)]
  | _ => []

/-- The locks that were returned and not released. -/
def live (locks : List ScopedLock) : List (String × LockMode) :=
  (locks.filter (fun l => !l.released)).map (fun l => (l.m_oid, l.m_lockType))

def Client.claims (c : Client) : List (String × LockMode) := c.phase.lockTaken ++ live c.locks

structure Client.Informed (c : Client) (s : LockStore String String String) : Prop where
  held : ∀ l ∈ c.locks, l.released = false → s.HasContent l.m_oid
  removing : ∀ n m, c.phase = .removing n m → s.IsEmpty n
  lockSet : ∀ l ∈ c.locks, l.m_lockSet = true

structure Disciplined (s : LockStore String String String) : Prop where
  exclusive : ∀ {n p q m}, s.Holds n p .exclusive → s.Holds n q m → p = q
  empty : ∀ {n p q m m'}, s.IsEmpty n → s.Holds n p m → s.Holds n q m' → p = q

/-- The locks in the store are exactly those that the clients think they have. -/
structure Inv (w : World) : Prop where
  names : ∀ p, ((w.clients p).claims.map Prod.fst).Nodup
  exact : ∀ p n m, (n, m) ∈ (w.clients p).claims ↔ w.store.Holds n p m
  informed : ∀ p, (w.clients p).Informed w.store
  disciplined : Disciplined w.store

section Claims

variable {locks : List ScopedLock} {l : ScopedLock}

theorem mem_live_of_mem (h : l ∈ locks) (hl : l.released = false) :
    (l.m_oid, l.m_lockType) ∈ live locks := by
  exact mem_map.mpr ⟨l, mem_filter.mpr ⟨h, by rw [hl]; rfl⟩, rfl⟩

theorem live_append (locks' : List ScopedLock) : live (locks ++ locks') = live locks ++ live locks' := by
  unfold live
  rw [filter_append, map_append]

/-- A lock that is released is as good as gone. -/
theorem live_set {i : Nat} (h : locks[i]? = some l) :
    live (locks.set i { l with released := true }) = live (locks.eraseIdx i) := by
  obtain ⟨hi, rfl⟩ := List.getElem?_eq_some_iff.mp h
  rw [set_eq_take_append_cons_drop, if_pos hi, eraseIdx_eq_take_drop_succ, live_append, live_append]
  rfl

theorem live_split {i : Nat} (h : locks[i]? = some l) :
    live locks = live (locks.take i) ++ live [l] ++ live (locks.drop (i + 1)) := by
  obtain ⟨hi, rfl⟩ := List.getElem?_eq_some_iff.mp h
  conv_lhs => rw [← take_append_drop i locks, drop_eq_getElem_cons hi, ← singleton_append,
    live_append, live_append, ← append_assoc]

/-- What remains when a lock is released that is the only one on its object, or was released
before. -/
theorem mem_live_eraseIdx {i : Nat} (h : locks[i]? = some l) (hn : ((live locks).map Prod.fst).Nodup)
    (ha : l.released = true → ∀ x ∈ live locks, x.1 ≠ l.m_oid) (x : String × LockMode) :
    x ∈ live (locks.eraseIdx i) ↔ x ∈ live locks ∧ x.1 ≠ l.m_oid := by
  rw [eraseIdx_eq_take_drop_succ, live_append, live_split h]
  rw [live_split h] at hn ha
  cases hr : l.released with
  | true =>
    have hno : live [l] = [] := by
      unfold live
      rw [filter_cons, if_neg (by rw [hr]; decide)]
      rfl
    rw [hno, append_nil] at ha ⊢
    exact ⟨fun hx => ⟨hx, ha hr x hx⟩, fun hx => hx.1⟩
  | false =>
    have hon : live [l] = [(l.m_oid, l.m_lockType)] := by
      unfold live
      rw [filter_cons, if_pos (by rw [hr]; decide)]
      rfl
    rw [hon] at hn ⊢
    simp only [map_append, map_cons, map_nil] at hn
    -- the names of the others differ from its own
    have ho : ∀ y ∈ live (locks.take i) ++ live (locks.drop (i + 1)), y.1 ≠ l.m_oid := by
      intro y hy heq
      have hm := mem_map_of_mem (f := Prod.fst) hy
      rw [heq, map_append] at hm
      have hp : (l.m_oid :: ((live (locks.take i)).map Prod.fst
          ++ (live (locks.drop (i + 1))).map Prod.fst)).Nodup := by
        refine (List.Perm.nodup_iff ?_).mp hn
        rw [append_assoc]
        exact perm_middle
      exact (nodup_cons.mp hp).1 hm
    constructor
    · intro hx
      refine ⟨?_, ho x hx⟩
      simp only [mem_append] at hx ⊢
      tauto
    · intro hx
      obtain ⟨hm, hne⟩ := hx
      simp only [mem_append, mem_singleton] at hm ⊢
      rcases hm with (hx | rfl) | hx
      · exact Or.inl hx
      · exact absurd rfl hne
      · exact Or.inr hx

end Claims

/-- **One client changes**, and with it the store. -/
theorem Inv.update {w : World} (h : Inv w) {p : String} {c : Client}
    {s : LockStore String String String} (hn : (c.claims.map Prod.fst).Nodup)
    (he : ∀ n m, (n, m) ∈ c.claims ↔ s.Holds n p m)
    (ho : ∀ q, q ≠ p → ∀ n m, s.Holds n q m ↔ w.store.Holds n q m)
    (hc : ∀ q, q ≠ p → ∀ n m, w.store.Holds n q m →
      (w.store.HasContent n → s.HasContent n) ∧ (w.store.IsEmpty n → s.IsEmpty n))
    (hi : c.Informed s) (hd : Disciplined s) :
    Inv ⟨s, Function.update w.clients p c⟩ := by
  have how : (World.mk s (Function.update w.clients p c)).clients p = c := Function.update_self ..
  have hrest : ∀ q, q ≠ p → (World.mk s (Function.update w.clients p c)).clients q = w.clients q :=
    fun q hq => Function.update_of_ne hq ..
  constructor
  · intro q
    by_cases hq : q = p
    · rw [hq, how]
      exact hn
    · rw [hrest q hq]
      exact h.names q
  · intro q n m
    by_cases hq : q = p
    · rw [hq, how]
      exact he n m
    · rw [hrest q hq]
      exact (h.exact q n m).trans (ho q hq n m).symm
  · intro q
    by_cases hq : q = p
    · rw [hq, how]
      exact hi
    rw [hrest q hq]
    have hold := h.informed q
    -- what another client knows is about objects that it holds
    constructor
    · intro l hl hli
      have hcl : (l.m_oid, l.m_lockType) ∈ (w.clients q).claims :=
        mem_append_right _ (mem_live_of_mem hl hli)
      exact (hc q hq _ _ ((h.exact q _ _).mp hcl)).1 (hold.held l hl hli)
    · intro n m hp
      have hcl : (n, m) ∈ (w.clients q).claims := by
        unfold Client.claims
        rw [hp]
        exact mem_append_left _ (mem_singleton.mpr rfl)
      exact (hc q hq _ _ ((h.exact q _ _).mp hcl)).2 (hold.removing n m hp)
    · exact hold.lockSet
  · exact hd

/-! ## What the operations keep -/

section Steps

variable {w : World} {p : String}

/-- Operations that take no lock and give up none. -/
theorem Inv.setPhase (h : Inv w) {phase : Phase}
    (hc : phase.lockTaken = (w.clients p).phase.lockTaken)
    (hr : ∀ n m, phase = .removing n m → w.store.IsEmpty n) :
    Inv (w.setClient p { w.clients p with phase := phase }) := by
  have hs : ({ w.clients p with phase := phase } : Client).claims = (w.clients p).claims := by
    unfold Client.claims
    rw [hc]
  apply h.update
  · rw [hs]
    exact h.names p
  · intro n m
    rw [hs]
    exact h.exact p n m
  · intro q _ n m
    exact Iff.rfl
  · intro q _ n m _
    exact ⟨id, id⟩
  · exact ⟨(h.informed p).held, hr, (h.informed p).lockSet⟩
  · exact h.disciplined

/-- A client that is between its calls, or in one that has no lock. -/
theorem Inv.setIdle (h : Inv w) (hn : (w.clients p).phase.lockTaken = []) :
    Inv (w.setClient p { w.clients p with phase := .idle }) :=
  h.setPhase hn.symm (fun _ _ hp => nomatch hp)

/-- A lock keeps the discipline, unless it joins the lockers of an empty object. -/
theorem Disciplined.lock {s s' : LockStore String String String} (h : Disciplined s) {n : String}
    {m : LockMode} (hl : s.lock n p m = (.ok, s'))
    (hem : ∀ q m', s.IsEmpty n → ¬ s.Holds n q m') : Disciplined s' := by
  -- whoever holds the object beside `p` shares it with `p`
  have hb : ∀ q m', s.Holds n q m' → m' = .shared ∧ m = .shared := by
    intro q m' hq
    obtain ⟨o, ho, hme, hmo⟩ := hq
    rcases lock_ok hl with ⟨hno, _⟩ | ⟨o', ho', _, hg, _⟩
    · rw [hno] at ho
      cases ho
    rw [ho] at ho'
    cases ho'
    rcases hg with hni | ⟨hm, hs⟩
    · rw [hni] at hme
      cases hme
    · exact ⟨hmo.symm.trans hs, hm⟩
  constructor
  · intro n' q q' m' hq hq'
    rw [holds_lock hl] at hq hq'
    rcases hq with hq | ⟨rfl, rfl, hm⟩
    · rcases hq' with hq' | ⟨rfl, rfl, rfl⟩
      · exact h.exclusive hq hq'
      · cases (hb q _ hq).1
    · rcases hq' with hq' | ⟨_, rfl, _⟩
      · have hs := (hb q' m' hq').2
        rw [← hm] at hs
        cases hs
      · rfl
  · intro n' q q' m' m'' he hq hq'
    rw [isEmpty_lock hl] at he
    rw [holds_lock hl] at hq hq'
    -- nobody holds the object that was absent, and nobody holds an empty one
    have hf : n' = n → ∀ r k, ¬ s.Holds n r k := by
      intro hn r k hr
      rcases he with he | ⟨_, hno⟩
      · exact hem r k (hn ▸ he) hr
      obtain ⟨o, ho, _⟩ := hr
      rw [hno] at ho
      cases ho
    by_cases hn : n' = n
    · subst hn
      rcases hq with hq | ⟨_, rfl, _⟩
      · exact absurd hq (hf rfl q m')
      rcases hq' with hq' | ⟨_, rfl, _⟩
      · exact absurd hq' (hf rfl q' m'')
      · rfl
    · have he' : s.IsEmpty n' := he.resolve_right (fun hx => hn hx.1)
      exact h.empty he' (hq.resolve_right (fun hx => hn hx.1)) (hq'.resolve_right (fun hx => hn hx.1))

/-- Fewer locks and no new empty objects keep the discipline. -/
theorem Disciplined.mono {s s' : LockStore String String String} (h : Disciplined s)
    (hh : ∀ n q m, s'.Holds n q m → s.Holds n q m) (hem : ∀ n, s'.IsEmpty n → s.IsEmpty n) :
    Disciplined s' := by
  constructor
  · intro n q q' m hq hq'
    exact h.exclusive (hh _ _ _ hq) (hh _ _ _ hq')
  · intro n q q' m m' he hq hq'
    exact h.empty (hem n he) (hh _ _ _ hq) (hh _ _ _ hq')

variable {store : LockStore String String String}

/-- `lock_shared` or `lock_exclusive` succeeds. -/
theorem Inv.locked (h : Inv w) {n : String} {m : LockMode}
    (hp : (w.clients p).phase = .locking n m) (hlo : w.store.lock n p m = (.ok, store))
    (he : ∀ q m', w.store.IsEmpty n → ¬ w.store.Holds n q m') :
    Inv ({ w with store := store }.setClient p { w.clients p with phase := .stating n m }) := by
  have hb : (w.clients p).claims = live (w.clients p).locks := by
    unfold Client.claims
    rw [hp]
    rfl
  have ha : ({ w.clients p with phase := .stating n m } : Client).claims
      = (n, m) :: live (w.clients p).locks := rfl
  -- the client did not hold the object
  have hnew : ∀ m', ¬ w.store.Holds n p m' := by
    intro m' hh
    obtain ⟨o, ho, hm, _⟩ := hh
    rcases lock_ok hlo with ⟨hn, _⟩ | ⟨o', ho', hnot, _, _⟩
    · rw [hn] at ho
      cases ho
    rw [ho] at ho'
    cases ho'
    exact hnot hm
  apply h.update
  · rw [ha, map_cons, nodup_cons]
    constructor
    · intro hm
      obtain ⟨x, hx, hxn⟩ := mem_map.mp hm
      have hpa : x = (n, x.2) := Prod.ext hxn rfl
      rw [hpa, ← hb] at hx
      exact hnew x.2 ((h.exact p n x.2).mp hx)
    · rw [← hb]
      exact h.names p
  · intro n' m'
    rw [ha, mem_cons, ← hb, h.exact, holds_lock hlo, Prod.mk.injEq]
    tauto
  · intro q hq n' m'
    rw [holds_lock hlo]
    exact or_iff_left (fun hx => hq hx.2.1)
  · intro q _ n' m' _
    rw [hasContent_lock hlo, isEmpty_lock hlo]
    exact ⟨id, Or.inl⟩
  · constructor
    · intro l hl hli
      rw [hasContent_lock hlo]
      exact (h.informed p).held l hl hli
    · intro n' m' hx
      cases hx
    · exact (h.informed p).lockSet
  · exact h.disciplined.lock hlo he

theorem Inv.returned (h : Inv w) {n : String} {m : LockMode}
    (hph : (w.clients p).phase = .stating n m) (hc : w.store.HasContent n) :
    Inv (w.setClient p { w.clients p with
      phase := .idle
      locks := (w.clients p).locks ++ [{ m_oid := n, m_lockType := m }] }) := by
  have hb : (w.clients p).claims = (n, m) :: live (w.clients p).locks := by
    unfold Client.claims
    rw [hph]
    rfl
  have ha : (Client.mk .idle ((w.clients p).locks ++ [{ m_oid := n, m_lockType := m }])).claims
      = live (w.clients p).locks ++ [(n, m)] := live_append _
  have hp : List.Perm (live (w.clients p).locks ++ [(n, m)]) (w.clients p).claims := by
    rw [hb]
    exact perm_append_singleton _ _
  apply h.update
  · rw [ha, (hp.map Prod.fst).nodup_iff]
    exact h.names p
  · intro n' m'
    rw [ha, hp.mem_iff]
    exact h.exact p n' m'
  · intro q _ n' m'
    exact Iff.rfl
  · intro q _ n' m' _
    exact ⟨id, id⟩
  · constructor
    · intro l hl hli
      rcases mem_append.mp hl with hl | hl
      · exact (h.informed p).held l hl hli
      · rw [mem_singleton.mp hl]
        exact hc
    · intro n' m' hx
      cases hx
    · intro l hl
      rcases mem_append.mp hl with hl | hl
      · exact (h.informed p).lockSet l hl
      · rw [mem_singleton.mp hl]
  · exact h.disciplined

/-- The empty object is removed, and the lock on it. -/
theorem Inv.removed (h : Inv w) {n : String} {m : LockMode}
    (hp : (w.clients p).phase = .removing n m) :
    Inv ({ w with store := w.store.remove n }.setClient p { w.clients p with phase := .idle }) := by
  have hb : (w.clients p).claims = (n, m) :: live (w.clients p).locks := by
    unfold Client.claims
    rw [hp]
    rfl
  have hna := h.names p
  rw [hb, map_cons, nodup_cons] at hna
  have he : w.store.IsEmpty n := (h.informed p).removing n m hp
  have hhe : w.store.Holds n p m := by
    rw [← h.exact, hb]
    exact mem_cons_self
  -- nobody else holds it
  have ha : ∀ q, q ≠ p → ∀ n' m', w.store.Holds n' q m' → n' ≠ n := by
    intro q hq n' m' hh hn
    subst hn
    exact hq (h.disciplined.empty he hh hhe)
  apply h.update
  · exact hna.2
  · intro n' m'
    rw [holds_remove, ← h.exact, hb, mem_cons, Prod.mk.injEq]
    constructor
    · intro hm
      exact ⟨Or.inr hm, fun hn => hna.1 (mem_map.mpr ⟨_, hm, hn⟩)⟩
    · intro hx
      exact hx.1.resolve_left (fun heq => hx.2 heq.1)
  · intro q hq n' m'
    rw [holds_remove]
    exact and_iff_left_of_imp (ha q hq n' m')
  · intro q hq n' m' hh
    have hn := ha q hq n' m' hh
    rw [hasContent_remove, LockStore.isEmpty_remove]
    exact ⟨fun hx => ⟨hx, hn⟩, fun hx => ⟨hx, hn⟩⟩
  · constructor
    · intro l hl hli
      have hc := (h.informed p).held l hl hli
      rw [hasContent_remove]
      exact ⟨hc, fun hn => hc.not_isEmpty (hn ▸ he)⟩
    · intro n' m' hx
      cases hx
    · exact (h.informed p).lockSet
  · apply h.disciplined.mono
    · intro n' q m' hx
      exact (LockStore.holds_remove.mp hx).1
    · intro n' hx
      exact (LockStore.isEmpty_remove.mp hx).1

/-- An object is created. -/
theorem Inv.created (h : Inv w) {n content : String}
    (hp : (w.clients p).phase = .creating n content)
    (hc : w.store.createNew n content = some store) :
    Inv ({ w with store := store }.setClient p { w.clients p with phase := .idle }) := by
  have hs : ({ w.clients p with phase := .idle } : Client).claims = (w.clients p).claims := by
    unfold Client.claims
    rw [hp]
    rfl
  apply h.update
  · rw [hs]
    exact h.names p
  · intro n' m'
    rw [hs, holds_createNew hc]
    exact h.exact p n' m'
  · intro q _ n' m'
    exact holds_createNew hc
  · intro q _ n' m' _
    rw [LockStore.hasContent_createNew hc, isEmpty_createNew hc]
    exact ⟨Or.inl, id⟩
  · constructor
    · intro l hl hli
      rw [LockStore.hasContent_createNew hc]
      exact Or.inl ((h.informed p).held l hl hli)
    · intro n' m' hx
      cases hx
    · exact (h.informed p).lockSet
  · apply h.disciplined.mono
    · intro n' q m' hx
      exact (holds_createNew hc).mp hx
    · intro n' hx
      exact (isEmpty_createNew hc).mp hx

/-- A lock is released, by `release` or by its destructor. -/
theorem Inv.released (h : Inv w) {i : Nat} {l : ScopedLock} {locks : List ScopedLock}
    (hl : (w.clients p).locks[i]? = some l) (hi : (w.clients p).phase = .idle)
    (hag : l.released = true → ∀ x ∈ live (w.clients p).locks, x.1 ≠ l.m_oid)
    (hlo : live locks = live ((w.clients p).locks.eraseIdx i))
    (hs : ∀ l' ∈ locks, l'.m_lockSet = true)
    (hf : ∀ l' ∈ locks, l'.released = false → l' ∈ (w.clients p).locks) :
    Inv ((w.releaseBackoff p l).setClient p { w.clients p with locks := locks }) := by
  have hb : (w.clients p).claims = live (w.clients p).locks := by
    unfold Client.claims
    rw [hi]
    rfl
  have ha : ({ w.clients p with locks := locks } : Client).claims
      = live ((w.clients p).locks.eraseIdx i) := by
    unfold Client.claims
    rw [hi, hlo]
    rfl
  have hn := h.names p
  rw [hb] at hn
  have hm := mem_live_eraseIdx hl hn hag
  unfold World.releaseBackoff
  rw [if_pos ((h.informed p).lockSet l (mem_of_getElem? hl))]
  apply h.update
  · rw [ha]
    refine List.Nodup.sublist ?_ hn
    exact ((eraseIdx_sublist _ _).filter _ |>.map _).map _
  · intro n m
    rw [ha, hm, ← hb, h.exact, holds_unlock]
    simp
  · intro q hq n m
    rw [holds_unlock]
    exact and_iff_left (fun hx => hq hx.2)
  · intro q _ n m _
    rw [hasContent_unlock, LockStore.isEmpty_unlock]
    exact ⟨id, id⟩
  · constructor
    · intro l' hl' hli
      rw [hasContent_unlock]
      exact (h.informed p).held l' (hf l' hl' hli) hli
    · intro n m hx
      rw [hi] at hx
      cases hx
    · exact hs
  · apply h.disciplined.mono
    · intro n q m hx
      exact (LockStore.holds_unlock.mp hx).1
    · intro n hx
      exact LockStore.isEmpty_unlock.mp hx

/-- A shared lock that does not join others on an empty object finds no one on one. -/
theorem not_holds_of_regular {n : String} {m : LockMode} (hp : (w.clients p).phase = .locking n m)
    (hl : w.store.lock n p m = (.ok, store)) (hr : SharesEmpty w (.proceed p) = false)
    (q : String) (m' : LockMode) (he : w.store.IsEmpty n) : ¬ w.store.Holds n q m' := by
  intro hh
  obtain ⟨o, ho, hme, hm⟩ := hh
  obtain ⟨o', ho', hn⟩ := he
  rw [ho] at ho'
  cases ho'
  have hne : o.lockers ≠ [] := ne_nil_of_mem hme
  -- the lock went with that of `q`, so both are shared
  rcases lock_ok hl with ⟨ha, _⟩ | ⟨o', ho', _, hg, _⟩
  · rw [ha] at ho
    cases ho
  rw [ho] at ho'
  cases ho'
  obtain ⟨rfl, hs⟩ := hg.resolve_left hne
  simp [SharesEmpty, hp, ho, hn, hs, hne] at hr

theorem Inv.proceed (h : Inv w) (hr : Regular w (.proceed p)) : Inv (w.proceed p) := by
  unfold World.proceed
  dsimp only
  cases hp : (w.clients p).phase with
  | idle => exact h
  | locking n m =>
    dsimp only
    cases hl : w.store.lock n p m with
    | mk result store =>
      cases result with
      | ok => exact h.locked hp hl (not_holds_of_regular hp hl hr.1)
      | busy => exact h
      | present =>
        apply h.setIdle
        rw [hp]
        rfl
  | stating n m =>
    dsimp only
    have hcl : (n, m) ∈ (w.clients p).claims := by
      unfold Client.claims
      rw [hp]
      exact mem_append_left _ (mem_singleton.mpr rfl)
    obtain ⟨o, ho, _⟩ := (h.exact p n m).mp hcl
    rw [ho]
    dsimp only
    cases hc : o.content with
    | none =>
      refine h.setPhase ?_ ?_
      · rw [hp]
        rfl
      intro n' m' hx
      cases hx
      exact ⟨o, ho, hc⟩
    | some content => exact h.returned hp ⟨o, content, ho, hc⟩
  | removing n m => exact h.removed hp
  | creating n content =>
    dsimp only
    cases hcr : w.store.createNew n content with
    | some store => exact h.created hp hcr
    | none =>
      refine h.setPhase ?_ (fun n' m' hx => nomatch hx)
      rw [hp]
      rfl
  | polling n content =>
    dsimp only
    cases ho : w.store n with
    | none =>
      refine h.setPhase ?_ (fun n' m' hx => nomatch hx)
      rw [hp]
      rfl
    | some o =>
      dsimp only
      cases o.content with
      | none => exact h
      | some content' =>
        apply h.setIdle
        rw [hp]
        rfl

/-- A lock that is released again finds no other lock of the client on the object. -/
theorem not_again {l : ScopedLock} {locks : List ScopedLock}
    (hr : (l.released && locks.any (fun l' => l'.m_oid == l.m_oid && !l'.released)) = false)
    (hre : l.released = true) : ∀ x ∈ live locks, x.1 ≠ l.m_oid := by
  rw [hre, Bool.true_and] at hr
  intro x hx heq
  obtain ⟨l', hl', rfl⟩ := mem_map.mp hx
  obtain ⟨hm, hl⟩ := mem_filter.mp hl'
  have hnot := any_eq_false.mp hr l' hm
  rw [hl, Bool.and_true] at hnot
  exact hnot (beq_iff_eq.mpr heq)

/-- **One step keeps the invariant**, if it is regular. -/
theorem Inv.step (h : Inv w) (e : Event) (hr : Regular w e) : Inv (RadosLocks.step w e) := by
  cases e with
  | lock q n m =>
    simp only [RadosLocks.step]
    split
    · next hi =>
      refine h.setPhase ?_ (fun n' m' hx => nomatch hx)
      rw [hi]
      rfl
    · exact h
  | create q n content =>
    simp only [RadosLocks.step]
    split
    · next hi =>
      refine h.setPhase ?_ (fun n' m' hx => nomatch hx)
      rw [hi.1]
      rfl
    · exact h
  | release q i =>
    simp only [RadosLocks.step]
    cases hl : (w.clients q).locks[i]? with
    | none => exact h
    | some l =>
      dsimp only
      split
      · next hi =>
        have hre := hr.2
        simp only [UnlocksAnother, hl] at hre
        refine h.released hl hi (not_again hre) (live_set hl) ?_ ?_
        · intro l' hl'
          rcases mem_or_eq_of_mem_set hl' with hm | rfl
          · exact (h.informed q).lockSet l' hm
          · exact (h.informed q).lockSet l (mem_of_getElem? hl)
        · intro l' hl' hli
          rcases mem_or_eq_of_mem_set hl' with hm | rfl
          · exact hm
          · cases hli
      · exact h
  | destroy q i =>
    simp only [RadosLocks.step]
    cases hl : (w.clients q).locks[i]? with
    | none => exact h
    | some l =>
      dsimp only
      split
      · next hi =>
        have hre := hr.2
        simp only [UnlocksAnother, hl] at hre
        have hs : ∀ l' ∈ (w.clients q).locks.eraseIdx i, l' ∈ (w.clients q).locks :=
          fun l' hl' => (eraseIdx_sublist _ _).subset hl'
        exact h.released hl hi (not_again hre) rfl
          (fun l' hl' => (h.informed q).lockSet l' (hs l' hl')) (fun l' hl' _ => hs l' hl')
      · exact h
  | proceed q => exact h.proceed hr
  | timeout q =>
    simp only [RadosLocks.step]
    cases hp : (w.clients q).phase with
    | locking | polling =>
      apply h.setIdle
      rw [hp]
      rfl
    | idle | stating _ _ | removing _ _ | creating _ _ => exact h

theorem Inv.start (objects : String → Option String) : Inv (World.start objects) := by
  have hf : ∀ n p m, ¬ (World.start objects).store.Holds n p m := by
    intro n p m hh
    obtain ⟨o, ho, hm, _⟩ := hh
    obtain ⟨content, _, rfl⟩ := Option.map_eq_some_iff.mp ho
    cases hm
  constructor
  · intro p
    exact nodup_nil
  · intro p n m
    exact ⟨fun hx => (nomatch hx), fun hx => absurd hx (hf n p m)⟩
  · intro p
    exact ⟨fun l hl => (nomatch hl), fun n m hx => (nomatch hx), fun l hl => (nomatch hl)⟩
  · exact ⟨fun hp _ => absurd hp (hf _ _ _), fun _ hp _ => absurd hp (hf _ _ _)⟩

/-! ## Locks are safe -/

theorem Inv.harmless (h : Inv w) (e : Event) : Harmless w e := by
  cases e with
  | proceed q =>
    cases hp : (w.clients q).phase with
    | removing n m =>
      simp only [Harmless, hp]
      intro hc
      exact hc.not_isEmpty ((h.informed q).removing n m hp)
    | idle | locking _ _ | stating _ _ | creating _ _ | polling _ _ =>
      simp only [Harmless, hp]
  | lock _ _ _ | create _ _ _ | release _ _ | destroy _ _ | timeout _ => trivial

theorem Inv.eq_of_oid (h : Inv w) {i j : Nat} {l l' : ScopedLock}
    (hl : (w.clients p).locks[i]? = some l) (hl' : (w.clients p).locks[j]? = some l')
    (hli : l.released = false) (hli' : l'.released = false) (ho : l.m_oid = l'.m_oid) :
    i = j := by
  have hn : ((live (w.clients p).locks).map Prod.fst).Nodup :=
    (h.names p).sublist ((sublist_append_right _ _).map _)
  unfold live at hn
  rw [map_map, nodup_iff_pairwise_ne, pairwise_map, pairwise_filter] at hn
  obtain ⟨hi, rfl⟩ := List.getElem?_eq_some_iff.mp hl
  obtain ⟨hj, rfl⟩ := List.getElem?_eq_some_iff.mp hl'
  have hp := pairwise_iff_getElem.mp hn
  rcases Nat.lt_trichotomy i j with hij | hij | hij
  · exact absurd ho (hp i j hi hj hij (by rw [hli]; rfl) (by rw [hli']; rfl))
  · exact hij
  · exact absurd ho.symm (hp j i hj hi hij (by rw [hli']; rfl) (by rw [hli]; rfl))

theorem Inv.safe (h : Inv w) : Safe w := by
  have hr : ∀ p, ∀ l ∈ (w.clients p).locks, l.released = false →
      w.store.Holds l.m_oid p l.m_lockType := by
    intro p l hl hli
    exact (h.exact p _ _).mp (mem_append_right _ (mem_live_of_mem hl hli))
  refine ⟨hr, ?_⟩
  intro p q i j l l' hl hl' hli hli' ho he
  have hp := hr p l (mem_of_getElem? hl) hli
  have hq := hr q l' (mem_of_getElem? hl') hli'
  rw [he] at hp
  rw [← ho] at hq
  obtain rfl := h.disciplined.exclusive hp hq
  exact ⟨rfl, h.eq_of_oid hl hl' hli hli' ho⟩

end Steps

/-- **Locks are safe along every regular run**: no object with content is removed, and every lock
is held, an exclusive one by nobody else. -/
theorem locks_are_safe (objects : String → Option String) (events : List Event)
    (hregular : Along step Regular (World.start objects) events) :
    Along step Harmless (World.start objects) events
      ∧ Safe (run step (World.start objects) events) := by
  have hs : ∀ w e, Inv w → Regular w e → Inv (step w e) := fun _ e h hr => h.step e hr
  constructor
  · exact @Along.of_invariant _ _ step Regular Harmless Inv hs (fun _ e h _ => h.harmless e) events _
      (Inv.start objects) hregular
  · exact (@run_invariant _ _ step Regular Inv hs events _ (Inv.start objects) hregular).safe

/-- A client locks, is given the lock, and releases it while another waits for it. -/
def takeTurns : List Event :=
  [.lock "a" "queue" .exclusive, .proceed "a", .proceed "a",
   .lock "b" "queue" .shared, .proceed "b",
   .release "a" 0, .destroy "a" 0, .proceed "b", .proceed "b"]

def oneQueue : String → Option String := fun n => if n = "queue" then some "content" else none

theorem takeTurns_is_safe : Along step Harmless (World.start oneQueue) takeTurns
      ∧ Safe (run step (World.start oneQueue) takeTurns) :=
  locks_are_safe oneQueue takeTurns (by decide)

/-! ## Two ways to lose a lock -/

/-- Two clients share the empty object that the first of them has created by locking. -/
def twoShareAbsent : List Event :=
  [.lock "a" "new" .shared, .proceed "a", .lock "b" "new" .shared, .proceed "b"]

/-- Both find it empty; one removes it, a third creates the object, the other removes that. -/
def removesContent : List Event :=
  twoShareAbsent ++ [.proceed "a", .proceed "b", .proceed "a", .create "c" "new" "content",
    .proceed "c", .proceed "b"]

/-- One removes the empty object, a third creates it, the other finds the content. -/
def returnsWithoutLock : List Event :=
  twoShareAbsent ++ [.proceed "a", .proceed "a", .create "c" "new" "content", .proceed "c",
    .proceed "b", .lock "d" "new" .exclusive, .proceed "d", .proceed "d"]

/-- A lock is released, taken again, and the first of the two objects destroyed. -/
def destroysLate : List Event :=
  [.lock "a" "queue" .exclusive, .proceed "a", .proceed "a", .release "a" 0,
   .lock "a" "queue" .exclusive, .proceed "a", .proceed "a", .destroy "a" 0,
   .lock "b" "queue" .exclusive, .proceed "b", .proceed "b"]

/-- The object of another client is removed; a shared lock stands beside an exclusive one; two
clients are given an exclusive lock each. -/
theorem locks_are_lost : ¬ Along step Harmless (World.start fun _ => none) removesContent
    ∧ (∃ l ∈ ((run step (World.start fun _ => none) returnsWithoutLock).clients "b").locks,
        l.released = false
        ∧ ¬ (run step (World.start fun _ => none) returnsWithoutLock).store.Holds l.m_oid "b"
            l.m_lockType)
    ∧ ((run step (World.start fun _ => none) returnsWithoutLock).clients "d").locks
        = [{ m_oid := "new", m_lockType := .exclusive }]
    ∧ ¬ Safe (run step (World.start oneQueue) destroysLate) := by
  refine ⟨by decide, by decide, by decide, ?_⟩
  intro hs
  have ha := hs.alone "a" "b" 0 0 { m_oid := "queue", m_lockType := .exclusive }
    { m_oid := "queue", m_lockType := .exclusive } (by decide) (by decide) rfl rfl rfl rfl
  exact absurd ha.1 (by decide)

end TapeArchive.Objectstore.RadosLocks
