/-
  Relational tables as lists of rows, and transactions over them. A statement is
  refused when the tables it leads to violate the schema, of which a part can wait
  for the commit; a transaction that throws leaves the tables as they were.
-/
import Mathlib
import TapeArchive.Lib.Throwing

namespace TapeArchive.Lib

open List

/-! ## Constraints between rows -/

section Rows

variable {ρ κ τ : Type}

/-- No two rows have the same key. -/
def UniqueKey (key : ρ → κ) (rows : List ρ) : Prop := (rows.map key).Nodup

instance [DecidableEq κ] (key : ρ → κ) (rows : List ρ) : Decidable (UniqueKey key rows) :=
  inferInstanceAs (Decidable (rows.map key).Nodup)

def References (foreign : ρ → κ) (rows : List ρ) (key : τ → κ) (table : List τ) : Prop :=
  ∀ r ∈ rows, ∃ p ∈ table, key p = foreign r

instance [DecidableEq κ] (foreign : ρ → κ) (rows : List ρ) (key : τ → κ) (table : List τ) :
    Decidable (References foreign rows key table) :=
  inferInstanceAs (Decidable (∀ r ∈ rows, ∃ p ∈ table, key p = foreign r))

variable {key : ρ → κ} {rows : List ρ}

theorem UniqueKey.eq_of_key (h : UniqueKey key rows) {r r' : ρ} (hr : r ∈ rows) (hr' : r' ∈ rows)
    (hk : key r = key r') : r = r' :=
  inj_on_of_nodup_map h hr hr' hk

theorem UniqueKey.of_append {added : List ρ} (h : UniqueKey key (rows ++ added)) :
    UniqueKey key rows := by
  unfold UniqueKey at h
  rw [map_append] at h
  exact h.of_append_left

/-- One row has the key of a row. -/
theorem UniqueKey.length_filter [BEq κ] [LawfulBEq κ] (h : UniqueKey key rows) {r : ρ} (hr : r ∈ rows) :
    (rows.filter (fun q => key q == key r)).length = 1 := by
  have hc := count_eq_one_of_mem h (mem_map_of_mem hr)
  rw [count_eq_countP, countP_map, countP_eq_length_filter] at hc
  exact hc

/-- The rows that were there and the rows that were added have no key in common. -/
theorem UniqueKey.append_disjoint {added : List ρ} (h : UniqueKey key (rows ++ added)) {r a : ρ}
    (hr : r ∈ rows) (ha : a ∈ added) : key r ≠ key a := by
  unfold UniqueKey at h
  rw [map_append] at h
  intro hk
  have hd := (List.nodup_append.mp h).2.2
  exact hd (key r) (mem_map_of_mem hr) (key a) (mem_map_of_mem ha) hk

/-- `INSERT … ON CONFLICT (key) DO NOTHING`: a row whose key is there is skipped. -/
def insertNew [DecidableEq κ] (key : ρ → κ) : List ρ → List ρ → List ρ
  | rows, [] => rows
  | rows, r :: new =>
      insertNew key (if ∃ q ∈ rows, key q = key r then rows else rows ++ [r]) new

end Rows

/-! ## Sessions -/

/-- What the tables must meet: after every statement, or only at the commit. -/
structure Schema (τ : Type) where
  (Immediate Deferrable : τ → Prop)
  [immediate_decidable : DecidablePred Immediate]
  [deferrable_decidable : DecidablePred Deferrable]

attribute [instance] Schema.immediate_decidable Schema.deferrable_decidable

/-- What the tables meet between transactions. -/
def Schema.Consistent {τ : Type} (S : Schema τ) (tables : τ) : Prop :=
  S.Immediate tables ∧ S.Deferrable tables

instance {τ : Type} (S : Schema τ) (tables : τ) : Decidable (S.Consistent tables) :=
  inferInstanceAs (Decidable (_ ∧ _))

/-- The inside of a transaction, and whether the deferrable constraints wait for the commit. -/
structure Session (τ ρ : Type) where
  tables : τ
  counters : ρ
  deferred : Bool

/-- A database between transactions. -/
structure Database {τ : Type} (S : Schema τ) (ρ : Type) where
  tables : τ
  consistent : S.Consistent tables
  counters : ρ

section Programs

variable {τ ρ ε α β : Type} {S : Schema τ} {s s' : Session τ ρ}

/-- What a statement may lead to. -/
def Schema.Allows (S : Schema τ) (deferred : Bool) (tables : τ) : Prop :=
  S.Immediate tables ∧ (deferred = true ∨ S.Deferrable tables)

instance (S : Schema τ) (deferred : Bool) (tables : τ) : Decidable (S.Allows deferred tables) :=
  inferInstanceAs (Decidable (_ ∧ (_ ∨ _)))

/-- A statement that changes the tables. -/
def execute (S : Schema τ) (violation : ε) (f : τ → τ) : EStateM ε (Session τ ρ) Unit := fun s =>
  if S.Allows s.deferred (f s.tables) then .ok () { s with tables := f s.tables }
  else .error violation s

/-- A statement that reads the tables. -/
def query (f : τ → α) : EStateM ε (Session τ ρ) α := fun s => .ok (f s.tables) s

/-- The next value of a counter; a rollback does not take it back. -/
def nextValue (next : ρ → α × ρ) : EStateM ε (Session τ ρ) α := fun s =>
  .ok (next s.counters).1 { s with counters := (next s.counters).2 }

/-- `SET CONSTRAINTS … DEFERRED`. -/
def deferConstraints : EStateM ε (Session τ ρ) Unit := fun s => .ok () { s with deferred := true }

theorem execute_ok {violation : ε} {f : τ → τ} {u : Unit}
    (h : (execute S violation f : EStateM ε (Session τ ρ) Unit) s = .ok u s') :
    s' = { s with tables := f s.tables } ∧ S.Allows s.deferred (f s.tables) := by
  unfold execute at h
  split at h
  next ha =>
    cases h
    exact ⟨rfl, ha⟩
  next => cases h

variable {a : α}

theorem query_ok {f : τ → α} (h : (query f : EStateM ε (Session τ ρ) α) s = .ok a s') :
    a = f s.tables ∧ s' = s := by
  unfold query at h
  cases h
  exact ⟨rfl, rfl⟩

theorem nextValue_ok {next : ρ → α × ρ}
    (h : (nextValue next : EStateM ε (Session τ ρ) α) s = .ok a s') :
    a = (next s.counters).1 ∧ s' = { s with counters := (next s.counters).2 } := by
  unfold nextValue at h
  cases h
  exact ⟨rfl, rfl⟩

/-! ## Transactions -/

/-- The session that a transaction starts with. -/
def Database.open (d : Database S ρ) : Session τ ρ := ⟨d.tables, d.counters, false⟩

/-- The statements of the body, then the commit; an exception rolls the tables back. -/
def transaction (violation : ε) (body : EStateM ε (Session τ ρ) α) : EStateM ε (Database S ρ) α :=
  fun d =>
    match body d.open with
    | .ok a s =>
        if h : S.Consistent s.tables then .ok a ⟨s.tables, h, s.counters⟩
        else .error violation { d with counters := s.counters }
    | .error e s => .error e { d with counters := s.counters }

variable {violation : ε} {body : EStateM ε (Session τ ρ) α} {d d' : Database S ρ}

/-- A transaction that commits leaves the tables of its last statement. -/
theorem transaction_ok (h : transaction violation body d = .ok a d') :
    ∃ s, body d.open = .ok a s ∧ d'.tables = s.tables := by
  unfold transaction at h
  cases hb : body d.open with
  | ok b s =>
    rw [hb] at h
    dsimp only at h
    split at h
    next =>
      cases h
      exact ⟨s, rfl, rfl⟩
    next => cases h
  | error e s =>
    rw [hb] at h
    cases h

/-- **Atomicity**: a transaction that throws leaves the tables as they were. -/
theorem transaction_error {e : ε} (h : transaction violation body d = .error e d') :
    d'.tables = d.tables := by
  unfold transaction at h
  cases hb : body d.open with
  | ok b s =>
    rw [hb] at h
    dsimp only at h
    split at h
    next => cases h
    next =>
      cases h
      rfl
  | error e' s =>
    rw [hb] at h
    cases h
    rfl

/-- A transaction commits when its body returns with consistent tables. -/
theorem transaction_returns {s : Session τ ρ} (hb : body d.open = .ok a s)
    (hc : S.Consistent s.tables) :
    transaction violation body d = .ok a ⟨s.tables, hc, s.counters⟩ := by
  unfold transaction
  rw [hb]
  dsimp only
  rw [dif_pos hc]

/-- What a transaction returns or throws is what its body returns or throws, or the violation. -/
theorem transaction_ends {P : α → Prop} {E : ε → Prop} (hv : E violation)
    (h : Ends body (fun a _ => P a) (fun e _ => E e) d.open) :
    Ends (transaction violation body) (fun a _ => P a) (fun e _ => E e) d := by
  unfold Ends transaction
  cases hb : body d.open with
  | ok a s =>
    dsimp only
    by_cases hc : S.Consistent s.tables
    · rw [dif_pos hc]
      exact h.of_ok hb
    · rw [dif_neg hc]
      exact hv
  | error e s => exact h.of_error hb

end Programs

end TapeArchive.Lib
