/-
  A connection on loan from the pool: statements, `BEGIN`, `commit` and `rollback`
  as separate calls (`rdbms::Conn`), the rollback at the end of a scope
  (`rdbms::AutoRollback`), and the commit when the connection goes back to its pool
  (`ConnPool::returnConn`).
-/
import TapeArchive.Catalogue.Tables

namespace TapeArchive.Catalogue

open Lib

/-! ## The connection -/

/-- The database, and the tables as the transaction that is open on the connection sees them. -/
structure Connection where
  database : RdbmsCatalogue
  transaction : Option Tables

abbrev OnConnection (α : Type) := EStateM Exn Connection α

/-- Statements on the connection. Within a transaction an exception aborts it, and the commit of
an aborted transaction takes nothing over; without one, a statement is a transaction of its own. -/
def onConn {α : Type} (x : Conn α) : OnConnection α := fun c =>
  match c.transaction with
  | none =>
      match transaction violation x c.database with
      | .ok a d => .ok a ⟨d, none⟩
      | .error e d => .error e ⟨d, none⟩
  | some tables =>
      match x ⟨tables, c.database.counters, false⟩ with
      | .ok a s => .ok a ⟨{ c.database with counters := s.counters }, some s.tables⟩
      | .error e s =>
          .error e ⟨{ c.database with counters := s.counters }, some c.database.tables⟩

/-- `conn.executeNonQuery("BEGIN")`. -/
def beginTransaction : OnConnection Unit := do
  onConn call
  modify fun c => { c with transaction := some c.database.tables }

/-- What the database does at `COMMIT`; without a transaction it only warns. -/
def takeOver : OnConnection Unit := fun c =>
  match c.transaction with
  | none => .ok () c
  | some tables =>
      if h : catalogueSchema.Consistent tables then
        .ok () ⟨⟨tables, h, c.database.counters⟩, none⟩
      else .error violation ⟨c.database, none⟩

def commit : OnConnection Unit := do
  onConn call
  takeOver

def rollback : OnConnection Unit := do
  onConn call
  modify fun c => { c with transaction := none }

/-! ## Destructors -/

/-- `try { … } catch(...) {}`; the death of the process is not an exception. -/
def swallowing (x : OnConnection Unit) : OnConnection Unit :=
  tryCatch x fun e => if e.kind = .crash then throw e else pure ()

/-- A body and the destructor that runs when its scope is left, either way. -/
def leaving {α : Type} (destructor : OnConnection Unit) (x : OnConnection α) : OnConnection α :=
  fun c =>
    match x c with
    | .ok a c' => (destructor >>= fun _ => pure a) c'
    | .error e c' =>
        if e.kind = .crash then .error e c' else (destructor >>= fun _ => throw e) c'

/-- A body under an `AutoRollback` that is not cancelled. -/
def autoRollback {α : Type} (x : OnConnection α) : OnConnection α := leaving (swallowing rollback) x

/-- A body with a connection of the pool, and `ConnPool::returnConn` behind it. -/
def withConn {α : Type} (x : OnConnection α) : EStateM Exn RdbmsCatalogue α := fun d =>
  match leaving (swallowing commit) x ⟨d, none⟩ with
  | .ok a c => .ok a c.database
  | .error e c => .error e c.database

def finalTables {α : Type} (x : EStateM Exn RdbmsCatalogue α) (d : RdbmsCatalogue) : Tables :=
  match x d with
  | .ok _ d' => d'.tables
  | .error _ d' => d'.tables

/-! ## Nothing pending -/

/-- The database has the tables `t`, and the transaction, if one is open, has changed nothing. -/
structure Clean (t : Tables) (c : Connection) : Prop where
  database : c.database.tables = t
  transaction : ∀ w, c.transaction = some w → w = t

section Steps

variable {α : Type} {c c' : Connection} {t : Tables} {e : Exn}

/-- An exception leaves nothing of the transaction. -/
theorem onConn_error {x : Conn α} (h : onConn x c = .error e c') : Clean c.database.tables c' := by
  obtain ⟨d, w⟩ := c
  unfold onConn at h
  cases w with
  | none =>
    cases hx : transaction violation x d with
    | ok a d' =>
      rw [hx] at h
      cases h
    | error e' d' =>
      rw [hx] at h
      cases h
      refine ⟨transaction_error hx, ?_⟩
      intro w hw
      cases hw
  | some w =>
    dsimp only at h
    cases hx : x ⟨w, d.counters, false⟩ with
    | ok a s =>
      rw [hx] at h
      cases h
    | error e' s =>
      rw [hx] at h
      cases h
      refine ⟨rfl, ?_⟩
      intro w' hw
      cases hw
      rfl

/-- Statements within a transaction change the tables of the transaction only. -/
theorem onConn_ok {x : Conn α} {a : α} {w : Tables} (hw : c.transaction = some w)
    (h : onConn x c = .ok a c') :
    ∃ s', x ⟨w, c.database.counters, false⟩ = .ok a s' ∧ c'.transaction = some s'.tables
      ∧ c'.database.tables = c.database.tables := by
  unfold onConn at h
  rw [hw] at h
  dsimp only at h
  cases hx : x ⟨w, c.database.counters, false⟩ with
  | ok b s =>
    rw [hx] at h
    cases h
    exact ⟨s, rfl, rfl, rfl⟩
  | error e' s =>
    rw [hx] at h
    cases h

theorem onConn_call_ok {u : Unit} (h : onConn call c = .ok u c') :
    c'.database.tables = c.database.tables ∧ c'.transaction = c.transaction := by
  obtain ⟨d, w⟩ := c
  cases w with
  | none =>
    unfold onConn at h
    cases hx : transaction violation call d with
    | ok a d' =>
      rw [hx] at h
      cases h
      obtain ⟨s, hc, hta⟩ := transaction_ok hx
      exact ⟨hta.trans (call_ok hc).1, rfl⟩
    | error e' d' =>
      rw [hx] at h
      cases h
  | some w =>
    obtain ⟨s, hc, htr, hd⟩ := onConn_ok rfl h
    refine ⟨hd, ?_⟩
    rw [htr, (call_ok hc).1]

theorem Clean.call (h : Clean t c) :
    Ends (onConn Catalogue.call) (fun _ c' => Clean t c' ∧ c'.transaction = c.transaction)
      (fun _ c' => Clean t c') c := by
  unfold Ends
  cases hx : onConn Catalogue.call c with
  | ok u c' =>
    obtain ⟨hd, htr⟩ := onConn_call_ok hx
    refine ⟨⟨hd.trans h.database, ?_⟩, htr⟩
    intro w hw
    exact h.transaction w (htr ▸ hw)
  | error e' c' =>
    have hc := onConn_error hx
    rw [h.database] at hc
    exact hc

theorem Clean.commit (h : Clean t c) :
    Ends Catalogue.commit (fun _ c' => Clean t c') (fun _ c' => Clean t c') c := by
  refine Ends.seq h.call ?_
  intro _ c1 hca
  have hcl := hca.1
  obtain ⟨d, w⟩ := c1
  unfold Ends takeOver
  cases w with
  | none => exact hcl
  | some w =>
    have hw := hcl.transaction w rfl
    by_cases hc : catalogueSchema.Consistent w
    · simp only [dif_pos hc]
      exact ⟨hw, fun w' hw' => by cases hw'⟩
    · simp only [dif_neg hc]
      exact ⟨hcl.database, fun w' hw' => by cases hw'⟩

theorem Clean.rollback (h : Clean t c) :
    Ends Catalogue.rollback (fun _ c' => Clean t c') (fun _ c' => Clean t c') c := by
  refine Ends.seq h.call ?_
  intro _ c1 hc
  exact ⟨hc.1.database, fun w hw => nomatch hw⟩

theorem Clean.swallowing {x : OnConnection Unit}
    (h : Ends x (fun _ c' => Clean t c') (fun _ c' => Clean t c') c) :
    Ends (Catalogue.swallowing x) (fun _ c' => Clean t c') (fun _ c' => Clean t c') c := by
  refine h.catching ?_
  intro e c' hc
  split
  · exact hc
  · exact hc

variable {x : OnConnection α}

/-- A destructor that leaves clean connections clean leaves a clean body clean. -/
theorem leaving_clean {destructor : OnConnection Unit} (hd : ∀ c, Clean t c →
      Ends destructor (fun _ c' => Clean t c') (fun _ c' => Clean t c') c)
    (h : Ends x (fun _ c' => Clean t c') (fun _ c' => Clean t c') c) :
    Ends (leaving destructor x) (fun _ c' => Clean t c') (fun _ c' => Clean t c') c := by
  unfold Ends at h
  unfold Ends leaving
  cases hx : x c with
  | ok a c1 =>
    rw [hx] at h
    have he : Ends (destructor >>= fun _ => (pure a : OnConnection α)) (fun _ c' => Clean t c')
        (fun _ c' => Clean t c') c1 := (hd c1 h).seq (fun _ c' hc' => hc')
    exact he
  | error e' c1 =>
    rw [hx] at h
    dsimp only
    by_cases hc : e'.kind = .crash
    · rw [if_pos hc]
      exact h
    rw [if_neg hc]
    have he : Ends (destructor >>= fun _ => (throw e' : OnConnection α))
        (fun _ c' => Clean t c') (fun _ c' => Clean t c') c1 :=
      (hd c1 h).seq (fun _ c' hc' => hc')
    exact he

theorem finalTables_withConn {d : RdbmsCatalogue}
    (h : Ends x (fun _ c' => Clean t c') (fun _ c' => Clean t c') ⟨d, none⟩) :
    finalTables (withConn x) d = t := by
  have hr : ∀ c, Clean t c → Ends (Catalogue.swallowing Catalogue.commit)
      (fun _ c' => Clean t c') (fun _ c' => Clean t c') c :=
    fun c hc => Clean.swallowing hc.commit
  have he := leaving_clean hr h
  unfold finalTables withConn
  unfold Ends at he
  cases hx : leaving (Catalogue.swallowing Catalogue.commit) x ⟨d, none⟩ with
  | ok a c =>
    rw [hx] at he
    exact he.database
  | error e' c =>
    rw [hx] at he
    exact he.database

theorem commit_error (h : Catalogue.commit c = .error e c') : Clean c.database.tables c' := by
  obtain hca | ⟨_, c1, hca, hta⟩ := of_bind_error h
  · exact onConn_error hca
  obtain ⟨hd, -⟩ := onConn_call_ok hca
  obtain ⟨d, w⟩ := c1
  unfold takeOver at hta
  cases w with
  | none => cases hta
  | some w =>
    by_cases hc : catalogueSchema.Consistent w
    · simp only [dif_pos hc] at hta
      cases hta
    simp only [dif_neg hc] at hta
    cases hta
    exact ⟨hd, fun w' hw' => by cases hw'⟩

theorem commit_ok {u : Unit} {w : Tables} (hw : c.transaction = some w)
    (h : Catalogue.commit c = .ok u c') :
    c'.transaction = none ∧ c'.database.tables = w := by
  obtain ⟨_, c1, hca, hta⟩ := exists_of_bind_ok h
  obtain ⟨-, htr⟩ := onConn_call_ok hca
  rw [hw] at htr
  obtain ⟨d, w1⟩ := c1
  obtain rfl : w1 = some w := htr
  unfold takeOver at hta
  by_cases hc : catalogueSchema.Consistent w
  · simp only [dif_pos hc] at hta
    cases hta
    exact ⟨rfl, rfl⟩
  · simp only [dif_neg hc] at hta
    cases hta

/-- A call on a connection without a transaction, by the fault that is in store. -/
theorem onConn_call_idle (d : RdbmsCatalogue) : onConn Catalogue.call ⟨d, none⟩ =
      match d.counters.stop with
      | none => .ok () ⟨d, none⟩
      | some (0, kind) =>
          .error kind.exn ⟨{ d with counters := { d.counters with stop := none } }, none⟩
      | some (n + 1, kind) =>
          .ok () ⟨{ d with counters := { d.counters with stop := some (n, kind) } }, none⟩ := by
  unfold onConn transaction Catalogue.call
  dsimp only [Database.open]
  cases hs : d.counters.stop with
  | none =>
    dsimp only
    rw [dif_pos d.consistent]
  | some stop =>
    obtain ⟨n, kind⟩ := stop
    cases n with
    | zero => rfl
    | succ n =>
      dsimp only
      rw [dif_pos d.consistent]

end Steps

theorem ends_inFunction {σ α : Type} {name : String} {x : EStateM Exn σ α} {s : σ}
    {Q : α → σ → Prop} {E : σ → Prop} (h : Ends x Q (fun _ s' => E s') s) :
    Ends (inFunction name x) Q (fun _ s' => E s') s := by
  exact h.catching (fun _ _ he => he)

/-! ## Runs that return -/

section Connections

variable {α : Type} {x : OnConnection α} {a : α} {c c' : Connection}

theorem leaving_ok {destructor : OnConnection Unit} (h : leaving destructor x c = .ok a c') :
    ∃ c₁, x c = .ok a c₁ ∧ destructor c₁ = .ok () c' := by
  unfold leaving at h
  cases hx : x c with
  | ok b c₁ =>
    rw [hx] at h
    obtain ⟨u, c2, hd, hp⟩ := exists_of_bind_ok h
    cases hp
    exact ⟨c₁, rfl, hd⟩
  | error e c₁ =>
    rw [hx] at h
    dsimp only at h
    by_cases hc : e.kind = .crash
    · rw [if_pos hc] at h
      cases h
    rw [if_neg hc] at h
    obtain ⟨u, c2, -, hth⟩ := exists_of_bind_ok h
    cases hth

/-- The rollback at the end of a scope takes nothing back from a clean connection. -/
theorem autoRollback_ok (h : autoRollback x c = .ok a c') :
    ∃ c₁, x c = .ok a c₁ ∧ ∀ t, Clean t c₁ → Clean t c' := by
  obtain ⟨c₁, hx, hr⟩ := leaving_ok h
  refine ⟨c₁, hx, ?_⟩
  intro t hc
  exact (Clean.swallowing hc.rollback).of_ok hr

theorem withConn_ok {d d' : RdbmsCatalogue} (h : withConn x d = .ok a d') :
    ∃ c, x ⟨d, none⟩ = .ok a c ∧ ∀ t, Clean t c → d'.tables = t := by
  unfold withConn at h
  cases hl : leaving (swallowing commit) x ⟨d, none⟩ with
  | ok b c' =>
    rw [hl] at h
    cases h
    obtain ⟨c, hx, hc⟩ := leaving_ok hl
    refine ⟨c, hx, ?_⟩
    intro t hcl
    exact ((Clean.swallowing hcl.commit).of_ok hc).database
  | error e c' =>
    rw [hl] at h
    cases h

/-- `BEGIN`, statements and `commit` on a connection. -/
def beginAndCommit (x : Conn α) : OnConnection α := do
  beginTransaction
  let a ← onConn x
  commit
  return a

theorem beginAndCommit_ok {x : Conn α} {d : RdbmsCatalogue}
    (h : beginAndCommit x ⟨d, none⟩ = .ok a c') :
    ∃ s s', x s = .ok a s' ∧ s.tables = d.tables ∧ Clean s'.tables c' := by
  obtain ⟨_, c1, hb, h⟩ := exists_of_bind_ok h
  obtain ⟨b, c2, hx, h⟩ := exists_of_bind_ok h
  obtain ⟨_, c3, hc, hr⟩ := exists_of_bind_ok h
  cases hr
  obtain ⟨_, c0, hca, hm⟩ := exists_of_bind_ok hb
  cases hm
  obtain ⟨s', hru, hw, -⟩ := onConn_ok rfl hx
  obtain ⟨hi, hta⟩ := commit_ok hw hc
  refine ⟨_, s', hru, (onConn_call_ok hca).1, hta, ?_⟩
  intro w ho
  rw [hi] at ho
  cases ho

end Connections

end TapeArchive.Catalogue
