/-
  The pool of database connections (`rdbms::ConnPool`), with any number of callers; a
  step is a section under `m_connsAndStmtsMutex`.

      idle ──getConn──▶ holding ──returnConn──▶ idle
        └──▶ waiting ──────┘

  Two ways out of these functions leave `m_nbConnsOnLoan` one too high
  (`Event.LosesCount`).
-/
import Mathlib
import TapeArchive.Lib.Run

namespace TapeArchive.Rdbms

open Lib List

/-! ## The pool -/

/-- `ConnPool`; the connections are told apart by the order of their creation. -/
structure ConnPool where
  m_maxNbConns : UInt64
  m_connsAndStmts : List Nat := []
  m_nbConnsOnLoan : UInt64 := 0

inductive Caller where
  | idle
  /-- In `m_connsAndStmtsCv.wait`. -/
  | waiting
  | holding (conn : Nat)
  deriving DecidableEq

def Caller.isHolding : Caller → Bool
  | .holding _ => true
  | _ => false

/-- What `getConn` comes across. -/
structure GetOutcome where
  (createThrows frontIsOpen replaceThrows : Bool)

/-- What `returnConn` comes across. -/
structure ReturnOutcome where
  (isOpen commitThrows setAutocommitModeThrows : Bool)

namespace ConnPool

/-- The front of the pool goes on loan, or a new connection if it is closed. -/
def lendFront (o : GetOutcome) (p : ConnPool) (created : Nat) : ConnPool × Nat × Caller :=
  match p.m_connsAndStmts with
  | [] => (p, created, .idle)
  | conn :: conns =>
      let lent := { p with m_connsAndStmts := conns, m_nbConnsOnLoan := p.m_nbConnsOnLoan + 1 }
      if o.frontIsOpen then (lent, created, .holding conn)
      else if o.replaceThrows then (lent, created, .idle)
      else (lent, created + 1, .holding created)

/-- `getConn`, from the lock of the mutex to its release: in `wait`, or at the end. -/
def getConn (o : GetOutcome) (p : ConnPool) (created : Nat) : ConnPool × Nat × Caller :=
  if p.m_maxNbConns = 0 then (p, created, .idle)
  else if p.m_connsAndStmts = [] ∧ p.m_nbConnsOnLoan = p.m_maxNbConns then (p, created, .waiting)
  else if p.m_connsAndStmts = [] then
    if o.createThrows then (p, created, .idle)
    else lendFront o { p with m_connsAndStmts := [created] } (created + 1)
  else lendFront o p created

/-- The section that empties the pool and takes the connection off the loan. -/
def dropAll (p : ConnPool) : ConnPool :=
  if p.m_nbConnsOnLoan = 0 then { p with m_connsAndStmts := [] }
  else { p with m_connsAndStmts := [], m_nbConnsOnLoan := p.m_nbConnsOnLoan - 1 }

def putBack (p : ConnPool) (conn : Nat) : ConnPool :=
  if p.m_nbConnsOnLoan = 0 then p
  else { p with m_connsAndStmts := p.m_connsAndStmts ++ [conn],
                m_nbConnsOnLoan := p.m_nbConnsOnLoan - 1 }

/-- `returnConn`, within `Conn::reset`, which swallows what it throws. -/
def returnConn (o : ReturnOutcome) (p : ConnPool) (conn : Nat) : ConnPool :=
  if o.isOpen then
    if o.commitThrows then p.dropAll
    -- the exception leaves `returnConn` before the mutex is locked
    else if o.setAutocommitModeThrows then p
    else p.putBack conn
  else p.dropAll

end ConnPool

/-! ## The system -/

structure World where
  pool : ConnPool
  created : Nat := 0
  callers : List Caller

inductive Event where
  | getConn (caller : Nat) (o : GetOutcome)
  | returnConn (caller : Nat) (o : ReturnOutcome)

/-- A caller that waits can be woken at any time. -/
def step (w : World) : Event → World
  | .getConn i o =>
      match w.callers[i]? with
      | none | some (.holding _) => w
      | some _ =>
          let result := w.pool.getConn o w.created
          ⟨result.1, result.2.1, w.callers.set i result.2.2⟩
  | .returnConn i o =>
      match w.callers[i]? with
      | some (.holding conn) =>
          ⟨w.pool.returnConn o conn, w.created, w.callers.set i .idle⟩
      | _ => w

def World.held (w : World) : Nat := w.callers.countP Caller.isHolding

/-- The pool of a program that starts, with this many callers. -/
def World.start (m_maxNbConns : UInt64) (callers : Nat) : World where
  pool := { m_maxNbConns := m_maxNbConns }
  callers := List.replicate callers .idle

/-- `getConn` takes a connection from the pool that is closed, and cannot create another. -/
def GetOutcome.losesCount (o : GetOutcome) (p : ConnPool) : Bool :=
  p.m_maxNbConns != 0 && !(p.m_connsAndStmts.isEmpty && p.m_nbConnsOnLoan == p.m_maxNbConns)
    && !(p.m_connsAndStmts.isEmpty && o.createThrows) && !o.frontIsOpen && o.replaceThrows

/-- `returnConn` has committed, and cannot set the autocommit mode. -/
def ReturnOutcome.losesCount (o : ReturnOutcome) : Bool :=
  o.isOpen && !o.commitThrows && o.setAutocommitModeThrows

/-- The event ends one of the two ways that leave the counter too high. -/
def Event.LosesCount (w : World) : Event → Bool
  | .getConn i o =>
      match w.callers[i]? with
      | none | some (.holding _) => false
      | some _ => o.losesCount w.pool
  | .returnConn i o =>
      match w.callers[i]? with
      | some (.holding _) => o.losesCount
      | _ => false

/-! ## What a section does to the counter -/

namespace ConnPool

variable {p : ConnPool}

/-- The connections that are pooled or counted as lent are no more than the maximum. -/
def Bounded (p : ConnPool) : Prop :=
  p.m_connsAndStmts.length + p.m_nbConnsOnLoan.toNat ≤ p.m_maxNbConns.toNat

/-- One for a fact that holds, none for one that does not. -/
def one (b : Bool) : Nat := if b then 1 else 0

theorem toNat_succ {n m : UInt64} (h : n.toNat < m.toNat) : (n + 1).toNat = n.toNat + 1 := by
  have hm := m.toNat_lt
  have ho : (1 : UInt64).toNat = 1 := rfl
  rw [UInt64.toNat_add, ho]
  omega

theorem toNat_pred {n : UInt64} (h : n ≠ 0) : (n - 1).toNat + 1 = n.toNat := by
  have hne : n.toNat ≠ 0 := fun hz => h (UInt64.toNat_inj.mp hz)
  have ho : (1 : UInt64).toNat = 1 := rfl
  have hle : (1 : UInt64) ≤ n := by
    rw [UInt64.le_iff_toNat_le, ho]
    omega
  rw [UInt64.toNat_sub_of_le n 1 hle, ho]
  omega

/-- The front of the pool goes on loan: it is held, or the counter is one too high. -/
theorem lendFront_counts {o : GetOutcome} {created : Nat} (hp : p.Bounded)
    (hne : p.m_connsAndStmts ≠ []) :
    (p.lendFront o created).1.Bounded ∧ (p.lendFront o created).1.m_nbConnsOnLoan.toNat
        = p.m_nbConnsOnLoan.toNat + one (p.lendFront o created).2.2.isHolding
          + one (!o.frontIsOpen && o.replaceThrows) := by
  unfold lendFront
  cases hc : p.m_connsAndStmts with
  | nil => exact absurd hc hne
  | cons conn conns =>
    unfold Bounded at hp
    rw [hc, length_cons] at hp
    have hs : (p.m_nbConnsOnLoan + 1).toNat = p.m_nbConnsOnLoan.toNat + 1 :=
      toNat_succ (show p.m_nbConnsOnLoan.toNat < p.m_maxNbConns.toNat by omega)
    have hb : Bounded ⟨p.m_maxNbConns, conns, p.m_nbConnsOnLoan + 1⟩ := by
      show conns.length + (p.m_nbConnsOnLoan + 1).toNat ≤ p.m_maxNbConns.toNat
      omega
    cases o.frontIsOpen with
    | true => exact ⟨hb, hs⟩
    | false =>
      cases o.replaceThrows with
      | true | false => exact ⟨hb, hs⟩

/-- **`getConn`** raises the counter by one when it lends a connection, and when it loses one. -/
theorem getConn_counts (hp : p.Bounded) (o : GetOutcome) (created : Nat) :
    (p.getConn o created).1.Bounded ∧ (p.getConn o created).1.m_nbConnsOnLoan.toNat
        = p.m_nbConnsOnLoan.toNat + one (p.getConn o created).2.2.isHolding
          + one (o.losesCount p) := by
  unfold getConn GetOutcome.losesCount
  by_cases hm : p.m_maxNbConns = 0
  · rw [if_pos hm, hm]
    exact ⟨hp, rfl⟩
  rw [if_neg hm, bne_iff_ne.mpr hm, Bool.true_and]
  cases hc : p.m_connsAndStmts with
  | nil =>
    by_cases hf : p.m_nbConnsOnLoan = p.m_maxNbConns
    · rw [if_pos ⟨rfl, hf⟩, beq_iff_eq.mpr hf]
      exact ⟨hp, rfl⟩
    rw [if_neg (fun h => hf h.2), if_pos rfl, beq_eq_false_iff_ne.mpr hf]
    cases o.createThrows with
    | true => exact ⟨hp, rfl⟩
    | false =>
      -- the pool has room for the connection that is created
      have hr : Bounded { p with m_connsAndStmts := [created] } := by
        unfold Bounded at hp
        have hne : p.m_nbConnsOnLoan.toNat ≠ p.m_maxNbConns.toNat :=
          fun h => hf (UInt64.toNat_inj.mp h)
        show 1 + p.m_nbConnsOnLoan.toNat ≤ p.m_maxNbConns.toNat
        omega
      exact lendFront_counts hr (cons_ne_nil _ _)
  | cons conn conns =>
    have hne : p.m_connsAndStmts ≠ [] := by
      rw [hc]
      exact cons_ne_nil _ _
    exact lendFront_counts hp hne

theorem dropAll_counts (hp : p.Bounded) (hl : p.m_nbConnsOnLoan ≠ 0) :
    p.dropAll.Bounded ∧ p.dropAll.m_nbConnsOnLoan.toNat + 1 = p.m_nbConnsOnLoan.toNat := by
  unfold dropAll
  rw [if_neg hl]
  have hpr := toNat_pred hl
  refine ⟨?_, hpr⟩
  unfold Bounded at hp ⊢
  show 0 + (p.m_nbConnsOnLoan - 1).toNat ≤ p.m_maxNbConns.toNat
  omega

theorem putBack_counts (hp : p.Bounded) (hl : p.m_nbConnsOnLoan ≠ 0) (conn : Nat) :
    (p.putBack conn).Bounded
      ∧ (p.putBack conn).m_nbConnsOnLoan.toNat + 1 = p.m_nbConnsOnLoan.toNat := by
  unfold putBack
  rw [if_neg hl]
  have hpr := toNat_pred hl
  refine ⟨?_, hpr⟩
  unfold Bounded at hp ⊢
  show (p.m_connsAndStmts ++ [conn]).length + (p.m_nbConnsOnLoan - 1).toNat ≤ p.m_maxNbConns.toNat
  rw [length_append, length_singleton]
  omega

/-- **`returnConn`** lowers the counter by one, unless it loses the connection. -/
theorem returnConn_counts (hp : p.Bounded) (hl : p.m_nbConnsOnLoan ≠ 0) (o : ReturnOutcome)
    (conn : Nat) :
    (p.returnConn o conn).Bounded ∧ (p.returnConn o conn).m_nbConnsOnLoan.toNat + 1
        = p.m_nbConnsOnLoan.toNat + one o.losesCount := by
  unfold returnConn ReturnOutcome.losesCount
  cases o.isOpen with
  | false => exact dropAll_counts hp hl
  | true =>
    cases o.commitThrows with
    | true => exact dropAll_counts hp hl
    | false =>
      cases o.setAutocommitModeThrows with
      | true => exact ⟨hp, rfl⟩
      | false => exact putBack_counts hp hl conn

end ConnPool

/-! ## Runs -/

/-- What holds in every run: the pool is bounded, and no connection is held uncounted. -/
structure World.Counted (w : World) : Prop where
  bounded : w.pool.Bounded
  held_le : w.held ≤ w.pool.m_nbConnsOnLoan.toNat

theorem Counted.start (m : UInt64) (n : Nat) : (World.start m n).Counted := by
  refine ⟨Nat.zero_le _, ?_⟩
  show (List.replicate n Caller.idle).countP Caller.isHolding ≤ 0
  rw [countP_replicate, if_neg (fun h => nomatch h)]

/-- The number of the holders after a caller has changed. -/
theorem countP_set_caller {callers : List Caller} {i : Nat} {caller : Caller}
    (h : callers[i]? = some caller) (caller' : Caller) :
    (callers.set i caller').countP Caller.isHolding + ConnPool.one caller.isHolding
      = callers.countP Caller.isHolding + ConnPool.one caller'.isHolding := by
  obtain ⟨hi, hg⟩ := List.getElem?_eq_some_iff.mp h
  have hpos : ConnPool.one caller.isHolding ≤ callers.countP Caller.isHolding := by
    cases hh : caller.isHolding with
    | false => exact Nat.zero_le _
    | true =>
      have hm : caller ∈ callers := mem_of_getElem? h
      exact List.countP_pos_iff.mpr ⟨caller, hm, hh⟩
  rw [countP_set hi, hg]
  unfold ConnPool.one at hpos ⊢
  omega

variable {w : World}

/-- **One section**: the pool stays bounded, and the counter goes with the number of the holders,
except for the sections that lose count. -/
theorem step_counts (h : w.Counted) (e : Event) : (step w e).pool.Bounded
      ∧ (step w e).pool.m_nbConnsOnLoan.toNat + w.held
        = w.pool.m_nbConnsOnLoan.toNat + (step w e).held + ConnPool.one (e.LosesCount w) := by
  have hs : w.pool.Bounded ∧ w.pool.m_nbConnsOnLoan.toNat + w.held
      = w.pool.m_nbConnsOnLoan.toNat + w.held + ConnPool.one false := ⟨h.bounded, rfl⟩
  -- a caller without a connection runs `getConn`
  have hg : ∀ (i : Nat) (o : GetOutcome) (caller : Caller), w.callers[i]? = some caller →
      caller.isHolding = false →
      (w.pool.getConn o w.created).1.Bounded
        ∧ (w.pool.getConn o w.created).1.m_nbConnsOnLoan.toNat + w.held
          = w.pool.m_nbConnsOnLoan.toNat
            + (w.callers.set i (w.pool.getConn o w.created).2.2).countP Caller.isHolding
            + ConnPool.one (o.losesCount w.pool) := by
    intro i o caller hc hf
    obtain ⟨hb, hl⟩ := ConnPool.getConn_counts h.bounded o w.created
    have hh := countP_set_caller hc (w.pool.getConn o w.created).2.2
    rw [hf] at hh
    refine ⟨hb, ?_⟩
    unfold World.held
    omega
  cases e with
  | getConn i o =>
    simp only [step, Event.LosesCount]
    cases hc : w.callers[i]? with
    | none => exact hs
    | some caller =>
      cases caller with
      | idle => exact hg i o .idle hc rfl
      | waiting => exact hg i o .waiting hc rfl
      | holding conn => exact hs
  | returnConn i o =>
    simp only [step, Event.LosesCount]
    cases hc : w.callers[i]? with
    | none => exact hs
    | some caller =>
      cases caller with
      | idle | waiting => exact hs
      | holding conn =>
        -- the connection is counted, so the counter is not zero
        have hh := countP_set_caller hc .idle
        have ho : ConnPool.one (Caller.holding conn).isHolding = 1 := rfl
        have hze : ConnPool.one Caller.idle.isHolding = 0 := rfl
        have hle := h.held_le
        unfold World.held at hle
        have hl : w.pool.m_nbConnsOnLoan ≠ 0 := by
          intro hz
          have hn : w.pool.m_nbConnsOnLoan.toNat = 0 := by
            rw [hz]
            rfl
          omega
        obtain ⟨hb, hco⟩ := ConnPool.returnConn_counts h.bounded hl o conn
        refine ⟨hb, ?_⟩
        show (w.pool.returnConn o conn).m_nbConnsOnLoan.toNat + w.callers.countP Caller.isHolding
          = w.pool.m_nbConnsOnLoan.toNat + (w.callers.set i .idle).countP Caller.isHolding
            + ConnPool.one o.losesCount
        omega

theorem Counted.step (h : w.Counted) (e : Event) : (Rdbms.step w e).Counted := by
  obtain ⟨hb, hc⟩ := step_counts h e
  have hle := h.held_le
  exact ⟨hb, by omega⟩

/-- A section keeps an exact counter exact if, and only if, it does not lose count, and no section
brings an exact counter back. -/
theorem exact_step_iff (h : w.Counted) (e : Event) :
    (step w e).pool.m_nbConnsOnLoan.toNat = (step w e).held
      ↔ w.pool.m_nbConnsOnLoan.toNat = w.held ∧ e.LosesCount w = false := by
  obtain ⟨-, hc⟩ := step_counts h e
  have hle := h.held_le
  cases hl : e.LosesCount w with
  | false =>
    rw [hl] at hc
    have hz : ConnPool.one false = 0 := rfl
    constructor
    · intro he
      exact ⟨by omega, rfl⟩
    · intro he
      omega
  | true =>
    rw [hl] at hc
    have ho : ConnPool.one true = 1 := rfl
    constructor
    · intro he
      omega
    · intro he
      cases he.2

theorem ConnPool.maxNbConns_getConn (o : GetOutcome) (p : ConnPool) (created : Nat) :
    (p.getConn o created).1.m_maxNbConns = p.m_maxNbConns := by
  have hl : ∀ (q : ConnPool) (n : Nat), (q.lendFront o n).1.m_maxNbConns = q.m_maxNbConns := by
    intro q n
    unfold lendFront
    cases q.m_connsAndStmts with
    | nil => rfl
    | cons conn conns =>
      split_ifs <;> rfl
  unfold getConn
  split_ifs
  · rfl
  · rfl
  · rfl
  · exact hl _ _
  · exact hl _ _

theorem ConnPool.maxNbConns_returnConn (o : ReturnOutcome) (p : ConnPool) (conn : Nat) :
    (p.returnConn o conn).m_maxNbConns = p.m_maxNbConns := by
  unfold returnConn dropAll putBack
  split_ifs <;> rfl

theorem maxNbConns_step (w : World) (e : Event) :
    (step w e).pool.m_maxNbConns = w.pool.m_maxNbConns := by
  cases e with
  | getConn i o =>
    unfold step
    dsimp only
    split
    next => rfl
    next => rfl
    next => exact ConnPool.maxNbConns_getConn o w.pool w.created
  | returnConn i o =>
    unfold step
    dsimp only
    split
    next conn _ => exact ConnPool.maxNbConns_returnConn o w.pool conn
    next => rfl

/-- **Accounting of the pool.** Never more connections than the maximum, and the counter is the
number of those held exactly when no section of the run lost count. -/
theorem pool_accounting_iff (m : UInt64) (callers : Nat) (events : List Event) :
    (run step (World.start m callers) events).held
        + (run step (World.start m callers) events).pool.m_connsAndStmts.length ≤ m.toNat
      ∧ ((run step (World.start m callers) events).pool.m_nbConnsOnLoan.toNat
            = (run step (World.start m callers) events).held
          ↔ Along step (fun w e => e.LosesCount w = false) (World.start m callers) events) := by
  have hs := Counted.start m callers
  constructor
  · have hc : (run step (World.start m callers) events).Counted :=
      @run_preserves _ _ step World.Counted (fun w e h => Counted.step h e) events _ hs
    have hm : (run step (World.start m callers) events).pool.m_maxNbConns = m :=
      @run_preserves _ _ step (fun w => w.pool.m_maxNbConns = m)
        (fun w e h => (maxNbConns_step w e).trans h) events _ rfl
    have hb := hc.bounded
    have hle := hc.held_le
    unfold ConnPool.Bounded at hb
    rw [hm] at hb
    omega
  · have he := @run_iff _ _ step (fun w e => e.LosesCount w = false) World.Counted
      (fun w => w.pool.m_nbConnsOnLoan.toNat = w.held) (fun w e h => Counted.step h e)
      (fun w e h => exact_step_iff h e) events (World.start m callers) hs
    have hz : (World.start m callers).pool.m_nbConnsOnLoan.toNat
        = (World.start m callers).held := by
      have hle := hs.held_le
      exact (Nat.le_zero.mp hle).symm
    rw [he]
    exact ⟨fun h => h.2, fun h => ⟨hz, h⟩⟩

/-- A returned connection is closed when it is asked for again, and the factory throws. -/
def lostReplacement : List Event :=
  [.getConn 0 ⟨false, true, false⟩, .returnConn 0 ⟨true, false, false⟩,
    .getConn 0 ⟨false, false, true⟩]

/-- A caller whose connection cannot be set back to autocommit. -/
def lostReturn : List Event :=
  [.getConn 0 ⟨false, true, false⟩, .returnConn 0 ⟨true, false, true⟩]

/-- Nobody holds a connection of a pool of one, and the next caller waits. -/
theorem lost_connection_stays_on_loan : [lostReplacement, lostReturn].Forall (fun events =>
      (run step (World.start 1 1) events).pool.m_nbConnsOnLoan = 1
        ∧ (run step (World.start 1 1) events).held = 0
        ∧ (run step (World.start 1 1) (events ++ [.getConn 0 ⟨false, true, false⟩])).callers
          = [.waiting]) := by
  decide +kernel

end TapeArchive.Rdbms
