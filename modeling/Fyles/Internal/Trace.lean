import Mathlib.Data.List.Basic
import Mathlib.Tactic.Common

/-!
# Traces

A trace is a list that grows at its right end. Two notions that specifications of a system over
time are made of: what has happened *since* the last element of some kind, and what holds *at
every* position of the trace, given what came before it. Both can be computed, and for both the
trace with one more element is related to the trace without it, which is all that an induction
over a run needs.

## Main definitions

* `since p tr` — the part of `tr` that starts with its last element in `p`
* `AtEvery P tr` — `P` holds of every element of `tr`, given the elements before it

## Main results

* `since_concat_of_pos`, `since_concat_of_neg` — one more element
* `atEvery_concat` — one more element
-/

namespace Fyles

variable {α : Type*}

/-! ### Since the last element of some kind -/

/-- The part of a trace that starts with the last element in `p`; the whole trace if there is
none. -/
def since (p : α → Bool) (tr : List α) : List α :=
  tr.foldl (fun part a => if p a then [a] else part ++ [a]) []

variable {p : α → Bool} {tr : List α} {a : α}

/-- An element of that kind starts anew. -/
theorem since_concat_of_pos (h : p a = true) : since p (tr ++ [a]) = [a] := by
  simp [since, h]

theorem since_concat_of_neg (h : p a = false) : since p (tr ++ [a]) = since p tr ++ [a] := by
  simp [since, h]

/-- Elements of other kinds are collected. -/
theorem since_append_of_neg {as} (h : ∀ a ∈ as, p a = false) :
    since p (tr ++ as) = since p tr ++ as := by
  induction as generalizing tr with
  | nil => simp
  | cons a as ih =>
    have hrest : since p ((tr ++ [a]) ++ as) = since p (tr ++ [a]) ++ as :=
      ih fun b hb => h b (List.mem_cons_of_mem a hb)
    rw [List.append_assoc, List.singleton_append] at hrest
    rw [hrest, since_concat_of_neg (h a List.mem_cons_self), List.append_assoc,
      List.singleton_append]

/-! ### At every position -/

/-- `P` holds of every element, given the elements before it. -/
def AtEvery (P : List α → α → Prop) (tr : List α) : Prop :=
  ∀ k < tr.length, ∀ a ∈ tr[k]?, P (tr.take k) a

instance AtEvery.decidable {P : List α → α → Prop} [∀ tr a, Decidable (P tr a)] (tr : List α) :
    Decidable (AtEvery P tr) :=
  inferInstanceAs (Decidable (∀ k < tr.length, ∀ a ∈ tr[k]?, P (tr.take k) a))

variable {P : List α → α → Prop}

theorem AtEvery.nil : AtEvery P [] := fun _ hk => absurd hk (Nat.not_lt_zero _)

theorem atEvery_concat : AtEvery P (tr ++ [a]) ↔ AtEvery P tr ∧ P tr a := by
  constructor
  · intro h
    constructor
    · intro k hk b hb
      have hlt : k < (tr ++ [a]).length := by
        rw [List.length_append]
        exact Nat.lt_add_right _ hk
      have hat := h k hlt b (by rw [List.getElem?_append_left hk]; exact hb)
      rwa [List.take_append_of_le_length (Nat.le_of_lt hk)] at hat
    · have hat := h tr.length (by simp) a (by simp)
      rwa [List.take_left' rfl] at hat
  · rintro ⟨h, ha⟩ k hk b hb
    rw [List.length_append, List.length_singleton] at hk
    rcases Nat.lt_or_eq_of_le (Nat.le_of_lt_succ hk) with hlt | rfl
    · rw [List.getElem?_append_left hlt] at hb
      rw [List.take_append_of_le_length (Nat.le_of_lt hlt)]
      exact h k hlt b hb
    · rw [List.getElem?_concat_length] at hb
      obtain ⟨⟩ := hb
      rwa [List.take_left' rfl]

/-- Elements for which `P` asks nothing. -/
theorem AtEvery.append (h : AtEvery P tr) {as} (has : ∀ a ∈ as, ∀ pre, P pre a) :
    AtEvery P (tr ++ as) := by
  induction as generalizing tr with
  | nil => simpa using h
  | cons a as ih =>
    have hrest := ih (atEvery_concat.mpr ⟨h, has a List.mem_cons_self tr⟩) fun b hb =>
      has b (List.mem_cons_of_mem a hb)
    rwa [List.append_assoc, List.singleton_append] at hrest

end Fyles
