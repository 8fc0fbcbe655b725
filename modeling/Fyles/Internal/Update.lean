import Mathlib.Logic.Function.Basic

/-!
# Functions that were changed at one place

A state that is kept as a function changes with `update`. An invariant about such a state
asks, of an entry that is found after the change, whether it is the new one or was there before. The
lemmas answer that; they take the equation apart without looking at the rest of the goal.

## Main results

* `update_eq_cases` — the entry is the new one, or is found at another place
* `of_update_eq` — it is not the new one, so it was there before
* `update_eq_of_eq` — what is there already is still there when it is put elsewhere
* `comp_update_eq_self` — what a change keeps of an entry, it keeps of all
-/

namespace Fyles

open Function (comp_update update update_eq_self update_of_ne update_self)

variable {α β : Type*} [DecidableEq α] {f : α → β} {a a' : α} {b c : β}

/-- An entry is the new one, or is found at another place. -/
theorem update_eq_cases (h : update f a b a' = c) : a' = a ∧ b = c ∨ a' ≠ a ∧ f a' = c := by
  by_cases ha : a' = a
  · rw [ha, update_self] at h
    exact .inl ⟨ha, h⟩
  · rw [update_of_ne ha] at h
    exact .inr ⟨ha, h⟩

/-- An entry that is not the new one was there before. -/
theorem of_update_eq (h : update f a b a' = c) (hb : b ≠ c) : a' ≠ a ∧ f a' = c :=
  (update_eq_cases h).resolve_left fun hnew => hb hnew.2

/-- What is there already is still there when it is put elsewhere. -/
theorem update_eq_of_eq (h : f a' = b) : update f a b a' = b := by
  by_cases ha : a' = a
  · rw [ha, update_self]
  · rw [update_of_ne ha, h]

variable {γ : Type*}

/-- What a change keeps of an entry, it keeps of all. -/
theorem comp_update_eq_self {g : β → γ} (h : g b = g (f a)) : g ∘ update f a b = g ∘ f := by
  rw [comp_update, h]
  exact update_eq_self a (g ∘ f)

end Fyles
