import Mathlib.Data.Nat.Notation
import Mathlib.Data.Option.Basic

/-!
# Code under a lock that is not re-entrant

A task that requests a lock while it holds a guard of it waits for itself. Code is a state
transformer here that carries the guard which the task holds; it has no result if it waits for
itself. What the lock protects is only changed while a guard is held, so code is written in
sections: from one request of the lock to the next. Between two sections other tasks may change
the state in any way, so a path of a task is given by the state that it finds in each of its
sections.

## Main definitions

* `Locking`, `acquire`, `release`, `access` — code under a lock
* `follow` — the sections of a task one after the other, with the guard it holds in between
* `WaitsForItself` — a section of the path requests the lock while a guard is held

## Main results

* `follow_free` — the rule for paths on which every section releases what it requests
-/

namespace Fyles

/-- A guard of a readers-writer lock. -/
inductive Guard
  | read
  | write
  deriving DecidableEq, Repr

/-- The guard that a task holds, and what the lock protects. -/
structure Held (σ : Type) where
  guard : Option Guard
  state : σ

/-- Code of a task. It has no result if it waits for itself. -/
abbrev Locking (σ : Type) := StateT (Held σ) Option

variable {σ ι τ α : Type}

/-- Request the lock. -/
def acquire (guard : Guard) : Locking σ Unit := fun held =>
  match held.guard with
  | some _ => none
  | none => some ((), { held with guard := some guard })

/-- Drop the guard. -/
def release : Locking σ Unit := fun held => some ((), { held with guard := none })

/-- Work on the protected state. -/
def access (f : σ → σ × α) : Locking σ α := fun held =>
  some ((f held.state).2, { held with state := (f held.state).1 })

@[simp] theorem run_acquire_free (guard : Guard) (s : σ) :
    (acquire guard).run ⟨none, s⟩ = some ((), ⟨some guard, s⟩) := rfl

@[simp] theorem run_acquire_held (guard guard' : Guard) (s : σ) :
    (acquire guard).run ⟨some guard', s⟩ = none := rfl

@[simp] theorem run_release (guard : Option Guard) (s : σ) :
    release.run ⟨guard, s⟩ = some ((), ⟨none, s⟩) := rfl

@[simp] theorem run_access (f : σ → σ × α) (guard : Option Guard) (s : σ) :
    (access f).run ⟨guard, s⟩ = some ((f s).2, ⟨guard, (f s).1⟩) := rfl

/-! ### Paths -/

/-- What a task holds and does next after `n` sections. `code` gives the section of a task for the
answers that it gets from outside, and what the task does next. `turns` gives these answers, and
the state that is found. `none` if the task waits for itself. -/
def follow (code : τ → ι → Locking σ (Option τ)) (turns : ℕ → ι × σ) (start : τ) :
    ℕ → Option (Option Guard × Option τ)
  | 0 => some (none, some start)
  | n + 1 =>
    match follow code turns start n with
    | none => none
    | some (guard, none) => some (guard, none)
    | some (guard, some t) =>
      ((code t (turns n).1).run ⟨guard, (turns n).2⟩).map fun r => (r.2.guard, r.1)

/-- A path of a task on which it requests the lock while it holds a guard. -/
def WaitsForItself (code : τ → ι → Locking σ (Option τ)) (turns : ℕ → ι × σ) (start : τ) : Prop :=
  ∃ n, follow code turns start n = none

variable {code : τ → ι → Locking σ (Option τ)} {turns : ℕ → ι × σ} {start : τ}

/-- **The rule for paths.** If every section releases what it requests, no guard is held between
two sections. `P n t` says that `t` may be what the task does after `n` sections. -/
theorem follow_free {P : ℕ → τ → Prop} (h0 : P 0 start)
    (hsection : ∀ n t, P n t → ∃ next s', (code t (turns n).1).run ⟨none, (turns n).2⟩ =
      some (next, ⟨none, s'⟩) ∧ ∀ t' ∈ next, P (n + 1) t') (n : ℕ) :
    ∃ next, follow code turns start n = some (none, next) ∧ ∀ t ∈ next, P n t := by
  induction n with
  | zero =>
    refine ⟨some start, rfl, ?_⟩
    rintro _ ⟨⟩
    exact h0
  | succ n ih =>
    obtain ⟨next, hnext, hP⟩ := ih
    rw [follow, hnext]
    cases next with
    | none =>
      refine ⟨none, rfl, ?_⟩
      rintro _ ⟨⟩
    | some t =>
      obtain ⟨next', s', hrun, hP'⟩ := hsection n t (hP t rfl)
      exact ⟨next', by simp only [hrun, Option.map_some], hP'⟩

theorem not_waitsForItself {P : ℕ → τ → Prop} (h0 : P 0 start)
    (hsection : ∀ n t, P n t → ∃ next s', (code t (turns n).1).run ⟨none, (turns n).2⟩ =
      some (next, ⟨none, s'⟩) ∧ ∀ t' ∈ next, P (n + 1) t') :
    ¬ WaitsForItself code turns start := by
  rintro ⟨n, hn⟩
  obtain ⟨next, hnext, -⟩ := follow_free h0 hsection n
  rw [hnext] at hn
  cases hn

end Fyles
