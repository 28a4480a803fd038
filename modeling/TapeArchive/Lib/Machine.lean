/-
  **PROGRAMS OVER AN OBJECT STORE, WITH THE TRACE OF THEIR WRITES.**

  A `Machine` is a store as some process found it (`base`), the writes made since
  (`writes`, oldest first) and the volatile memory of the process. The current store
  is the REPLAY of the writes, so that "the process died after `k` writes" is literally
  `replay m.base (m.writes.take k)`.

    • `wp p Q X m`   — `p` started in `m` ends with a value satisfying `Q` or
                       with an error satisfying `X`,
    • `Machine.Always I m` — `I` holds of the store after EVERY prefix of the writes.
-/
import Mathlib

namespace TapeArchive.Lib

open List

/-! ## Stores, writes and their replay -/

/-- What is stored under each address. -/
abbrev Store (A O : Type) := A → Option O

/-- One atomic write to a store. -/
inductive Write (A O : Type) where
  /-- Store `o` under `a`, replacing what was there. -/
  | put (a : A) (o : O)
  /-- Remove what is stored under `a`. -/
  | del (a : A)

section Replay

variable {A O : Type} [DecidableEq A]

/-- The effect of one write. -/
def Write.apply (w : Write A O) (s : Store A O) : Store A O :=
  match w with
  | .put a o => Function.update s a (some o)
  | .del a   => Function.update s a none

/-- The address a write touches. -/
def Write.addr : Write A O → A
  | .put a _ => a
  | .del a   => a

variable (s : Store A O)

/-- The store after a list of writes, oldest first. -/
def replay (ws : List (Write A O)) : Store A O :=
  ws.foldl (fun s w => w.apply s) s

@[simp] theorem replay_nil : replay s [] = s := rfl

theorem replay_append (ws vs : List (Write A O)) :
    replay s (ws ++ vs) = replay (replay s ws) vs := by
  simp [replay, foldl_append]

@[simp] theorem replay_snoc (ws : List (Write A O)) (w : Write A O) :
    replay s (ws ++ [w]) = w.apply (replay s ws) := by
  rw [replay_append]; rfl

@[simp] theorem Write.apply_put_same (a : A) (o : O) :
    (Write.put a o).apply s a = some o := by
  simp [Write.apply]

@[simp] theorem Write.apply_del_same (s : Store A O) (a : A) :
    (Write.del (O := O) a).apply s a = none := by
  simp [Write.apply]

/-- A write leaves every other address alone. -/
theorem Write.apply_of_ne (w : Write A O) (s : Store A O) {b : A} (h : b ≠ w.addr) :
    w.apply s b = s b := by
  cases w with
  | put | del => exact Function.update_of_ne h _ _

end Replay

/-! ## The machine -/

/-- A process and the store it works on. -/
structure Machine (A O S : Type) where
  /-- The store as the process found it. -/
  base : Store A O
  /-- The writes made since, oldest first. -/
  writes : List (Write A O)
  /-- The volatile memory of the process. -/
  mem : S

namespace Machine

variable {A O S : Type}

/-- A process that has not written anything yet. -/
def start (s : Store A O) (mem : S) : Machine A O S := ⟨s, [], mem⟩

variable (m : Machine A O S)

/-- Record one more write. -/
def push (w : Write A O) : Machine A O S :=
  { m with writes := m.writes ++ [w] }

@[simp] theorem mem_push (w : Write A O) : (m.push w).mem = m.mem := rfl

variable [DecidableEq A]

/-- The current content of the store. -/
def store : Store A O := replay m.base m.writes

/-- What the store holds if the process dies after `k` of its writes. -/
def crash (k : Nat) : Store A O := replay m.base (m.writes.take k)

@[simp] theorem store_start (s : Store A O) (mem : S) : (start s mem).store = s := rfl

@[simp] theorem store_push (w : Write A O) :
    (m.push w).store = w.apply m.store := by
  simp [store, push]

@[simp] theorem store_push_put (a : A) (o : O) :
    (m.push (.put a o)).store a = some o := by
  rw [store_push, Write.apply_put_same]

theorem store_push_of_ne {w : Write A O} {b : A} (h : b ≠ w.addr) :
    (m.push w).store b = m.store b := by
  rw [store_push, Write.apply_of_ne _ _ h]

theorem store_push_put_of_ne {a b : A} (h : b ≠ a) (o : O) :
    (m.push (.put a o)).store b = m.store b :=
  m.store_push_of_ne h

/-- Changing the volatile memory leaves the store alone. -/
@[simp] theorem store_setMem (s : S) :
    ({ m with mem := s } : Machine A O S).store = m.store := rfl

/-- `I` holds of the store after every prefix of the writes: the CRASH CONDITION. -/
def Always (I : Store A O → Prop) (m : Machine A O S) : Prop := ∀ k, I (m.crash k)

variable {I : Store A O → Prop}

theorem always_start {s : Store A O} {mem : S} (h : I s) : (start s mem).Always I := by
  intro k
  simpa [crash, start] using h

@[simp] theorem always_setMem {m : Machine A O S} {s : S} :
    ({ m with mem := s } : Machine A O S).Always I ↔ m.Always I := Iff.rfl

/-- One more write keeps the crash condition when the new store satisfies it. -/
theorem always_push {m : Machine A O S} {w : Write A O}
    (h : m.Always I) (hw : I (w.apply m.store)) : (m.push w).Always I := by
  intro k
  by_cases hk : k ≤ m.writes.length
  · have : (m.push w).crash k = m.crash k := by
      simp [crash, push, take_append_of_le_length hk]
    rw [this]
    exact h k
  · have hl : (m.writes ++ [w]).length ≤ k := by simp; omega
    have : (m.push w).crash k = (m.push w).store := by
      simp only [crash, push, store, take_of_length_le hl]
    rw [this, store_push]
    exact hw

/-- The store itself is the longest prefix. -/
theorem Always.store {m : Machine A O S} (h : m.Always I) : I m.store := by
  have := h m.writes.length
  simpa [crash, Machine.store] using this

end Machine

/-! ## Programs -/

/-- A program may stop with an error, and the writes it made before are kept. -/
abbrev Prog (A O S E α : Type) := ExceptT E (StateM (Machine A O S)) α

namespace Prog

variable {A O S E α β : Type} [DecidableEq A]

/-- Run a program. -/
def exec (p : Prog A O S E α) (m : Machine A O S) : Except E α × Machine A O S :=
  StateT.run (ExceptT.run p) m

/-- The current content of the store. -/
def getStore : Prog A O S E (Store A O) := fun m => (.ok m.store, m)

/-- Perform one write. -/
def write (w : Write A O) : Prog A O S E Unit := fun m => (.ok (), m.push w)

/-- The volatile memory. -/
def getMem : Prog A O S E S := fun m => (.ok m.mem, m)

/-- Replace the volatile memory. -/
def setMem (s : S) : Prog A O S E Unit := fun m => (.ok (), { m with mem := s })

/-- A computation that neither reads nor writes. -/
def ofExcept (r : Except E α) : Prog A O S E α := fun m => (r, m)

/-- Stop with an error. -/
def fail (e : E) : Prog A O S E α := fun m => (.error e, m)

end Prog

/-- A sequence of fallible computations returns when all of them do. -/
theorem bind_eq_ok {E α β : Type} {x : Except E α} {f : α → Except E β} {b : β} :
    (x >>= f) = .ok b ↔ ∃ a, x = .ok a ∧ f a = .ok b := by
  cases x with
  | error | ok => simp [bind, Except.bind]

/-- A loop none of whose turns changes the state. -/
theorem foldlM_eq_self {E α β : Type} {f : β → α → Except E β} {b : β} {l : List α}
    (h : ∀ a ∈ l, f b a = .ok b) : l.foldlM f b = .ok b := by
  induction l with
  | nil => rfl
  | cons a l ih =>
    rw [foldlM_cons, h a mem_cons_self]
    exact ih (fun a' ha' => h a' (.tail _ ha'))

/-- What every turn keeps holds after a loop that returned. -/
theorem foldlM_ok_invariant {E α β : Type} {P : β → Prop} {f : β → α → Except E β} {l : List α}
    {b b' : β} (hb : P b) (h : l.foldlM f b = .ok b')
    (hs : ∀ b b', ∀ a ∈ l, P b → f b a = .ok b' → P b') : P b' := by
  induction l generalizing b with
  | nil =>
    cases h
    exact hb
  | cons a l ih =>
    obtain ⟨b1, ho, hrest⟩ := bind_eq_ok.mp h
    exact ih (hs b b1 a mem_cons_self hb ho) hrest
      (fun b b' x hx => hs b b' x (.tail _ hx))

/-- A loop returns when every turn does. -/
theorem foldlM_returns {E α β : Type} {f : β → α → Except E β} {l : List α}
    (h : ∀ b, ∀ a ∈ l, ∃ b', f b a = .ok b') (b : β) : ∃ b', l.foldlM f b = .ok b' := by
  induction l generalizing b with
  | nil => exact ⟨b, rfl⟩
  | cons a l ih =>
    obtain ⟨b1, h1⟩ := h b a mem_cons_self
    obtain ⟨b', h'⟩ := ih (fun b x hx => h b x (.tail _ hx)) b1
    rw [foldlM_cons, h1]
    exact ⟨b', h'⟩

theorem mapM_returns {E α β : Type} {f : α → Except E β} {l : List α}
    (h : ∀ a ∈ l, ∃ b, f a = .ok b) : ∃ bs, l.mapM f = .ok bs := by
  induction l with
  | nil => exact ⟨[], rfl⟩
  | cons a l ih =>
    obtain ⟨b, hb⟩ := h a mem_cons_self
    obtain ⟨bs, hbs⟩ := ih (fun x hx => h x (.tail _ hx))
    rw [mapM_cons, hb]
    rw [hbs]
    exact ⟨b :: bs, rfl⟩

/-- What every step of a fallible fold keeps, the fold keeps. -/
theorem foldlM_ok_preserves {E α β γ : Type} {f : β → α → Except E β} (g : β → γ)
    (hs : ∀ b a b', f b a = .ok b' → g b' = g b) (l : List α) :
    ∀ {b b' : β}, l.foldlM f b = .ok b' → g b' = g b := by
  induction l with
  | nil =>
    intro b b' h
    cases h
    rfl
  | cons a l ih =>
    intro b b' h
    rw [foldlM_cons, bind_eq_ok] at h
    obtain ⟨b1, hb1, h⟩ := h
    rw [ih h, hs _ _ _ hb1]

/-! ## Backward reasoning -/

/-- `p` started in `m` ends with a value satisfying `Q`, or with an error
satisfying `X`. -/
def wp {A O S E α : Type} (p : Prog A O S E α) (Q : α → Machine A O S → Prop)
    (X : E → Machine A O S → Prop) (m : Machine A O S) : Prop :=
  match p.exec m with
  | (.ok a, m')    => Q a m'
  | (.error e, m') => X e m'

section Rules

variable {A O S E α β : Type}
variable {Q : α → Machine A O S → Prop} {X : E → Machine A O S → Prop} {m : Machine A O S}

@[simp] theorem wp_pure (a : α) : wp (pure a : Prog A O S E α) Q X m = Q a m := rfl

@[simp] theorem wp_fail (e : E) : wp (Prog.fail e : Prog A O S E α) Q X m = X e m := rfl

/-- Sequencing: what holds after the first program is what the second needs. -/
@[simp] theorem wp_bind (p : Prog A O S E α) (f : α → Prog A O S E β)
    {Q : β → Machine A O S → Prop} :
    wp (p >>= f) Q X m = wp p (fun a m' => wp (f a) Q X m') X m := by
  unfold wp Prog.exec
  simp only [bind, ExceptT.bind, ExceptT.run, ExceptT.mk, StateT.bind, StateT.run, ExceptT.bindCont]
  rcases h : p m with ⟨r, m'⟩
  cases r <;> rfl

@[simp] theorem wp_map (p : Prog A O S E α) (f : α → β) {Q : β → Machine A O S → Prop} :
    wp (f <$> p) Q X m = wp p (fun a m' => Q (f a) m') X m := by
  rw [← bind_pure_comp, wp_bind]
  rfl

@[simp] theorem wp_getStore [DecidableEq A] {Q : Store A O → Machine A O S → Prop} :
    wp (Prog.getStore : Prog A O S E _) Q X m = Q m.store m := rfl

@[simp] theorem wp_write [DecidableEq A] (w : Write A O) {Q : Unit → Machine A O S → Prop} :
    wp (Prog.write w : Prog A O S E _) Q X m = Q () (m.push w) := rfl

@[simp] theorem wp_getMem {Q : S → Machine A O S → Prop} :
    wp (Prog.getMem : Prog A O S E _) Q X m = Q m.mem m := rfl

@[simp] theorem wp_setMem (s : S) {Q : Unit → Machine A O S → Prop} :
    wp (Prog.setMem s : Prog A O S E _) Q X m = Q () { m with mem := s } := rfl

theorem wp_ofExcept (r : Except E α) : wp (Prog.ofExcept r : Prog A O S E α) Q X m = match r with
        | .ok a => Q a m
        | .error e => X e m := by
  cases r <;> rfl

@[simp] theorem wp_ofExcept_ok (a : α) :
    wp (Prog.ofExcept (.ok a) : Prog A O S E α) Q X m = Q a m := rfl

@[simp] theorem wp_ofExcept_error (e : E) :
    wp (Prog.ofExcept (.error e) : Prog A O S E α) Q X m = X e m := rfl

variable {p : Prog A O S E α}

/-- Weakening of both outcomes. -/
theorem wp_mono {Q' : α → Machine A O S → Prop} {X' : E → Machine A O S → Prop} (h : wp p Q X m)
    (hQ : ∀ a m', Q a m' → Q' a m') (hX : ∀ e m', X e m' → X' e m') : wp p Q' X' m := by
  unfold wp at h ⊢
  rcases hp : p.exec m with ⟨r, m'⟩
  rw [hp] at h
  cases r with
  | ok a => exact hQ a m' h
  | error e => exact hX e m' h

theorem wp_post {Q' : α → Machine A O S → Prop} (h : wp p Q X m)
    (hQ : ∀ a m', Q a m' → Q' a m') : wp p Q' X m :=
  wp_mono h hQ (fun _ _ hx => hx)

/-- Reading a judgement off a run that ended normally. -/
theorem wp_ok {a : α} {m' : Machine A O S} (h : wp p Q X m) (hp : p.exec m = (.ok a, m')) :
    Q a m' := by
  unfold wp at h
  rw [hp] at h
  exact h

/-- Reading a judgement off a run that ended with an error. -/
theorem wp_error {e : E} {m' : Machine A O S} (h : wp p Q X m) (hp : p.exec m = (.error e, m')) :
    X e m' := by
  unfold wp at h
  rw [hp] at h
  exact h

/-- A judgement that rules out errors is one about a run that returns. -/
theorem wp_returns (h : wp p Q (fun _ _ => False) m) : (p.exec m).1.isOk = true := by
  unfold wp at h
  rcases hp : p.exec m with ⟨r, m'⟩
  rw [hp] at h
  cases r with
  | ok a => rfl
  | error e => exact h.elim

/-- A judgement with the same condition on both outcomes is one about the final
machine. -/
theorem wp_final {R : Machine A O S → Prop} (h : wp p (fun _ => R) (fun _ => R) m) :
    R (p.exec m).2 := by
  unfold wp at h
  rcases hp : p.exec m with ⟨r, m'⟩
  rw [hp] at h
  cases r <;> exact h

end Rules

end TapeArchive.Lib
