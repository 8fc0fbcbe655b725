import Mathlib.Data.Finset.Basic
import Mathlib.Data.Fintype.EquivFin
import Mathlib.Data.Nat.Find
import Mathlib.Data.Nat.ModEq
import Mathlib.Tactic.Common

/-!
# The abstract replay window

A replay window over the natural numbers remembers which numbers it has accepted. Its lower end
is the least number not accepted so far, it is `width` numbers wide, and it accepts exactly the
numbers inside it that it has not accepted before. Nothing here says how the set is stored.

An implementation keeps one bit for each residue modulo the width. `eq_of_mod_eq` is why that is
enough: two numbers of one window with the same residue are equal.

## Main definitions

* `leastMissing` — the least number outside a finite set
* `InWindow` — membership in the window above it
* `Admits` — what a replay window accepts

## Main results

* `leastMissing_eq_iff` — the characterisation every later lemma uses
* `leastMissing_insert_of_ne` — accepting above the lower end does not move it
* `eq_of_mod_eq` — residues separate the numbers of one window
-/

namespace Fyles

namespace ReplayWindow

/-! ### The least missing number -/

variable {A : Finset ℕ} {n : ℕ}

/-- The least natural number that is not in `A`. -/
def leastMissing (A : Finset ℕ) : ℕ := Nat.find (Infinite.exists_notMem_finset A)

theorem leastMissing_notMem (A : Finset ℕ) : leastMissing A ∉ A :=
  Nat.find_spec (Infinite.exists_notMem_finset A)

theorem mem_of_lt_leastMissing (h : n < leastMissing A) : n ∈ A :=
  not_not.mp (Nat.find_min (Infinite.exists_notMem_finset A) h)

theorem leastMissing_le (h : n ∉ A) : leastMissing A ≤ n :=
  Nat.find_min' (Infinite.exists_notMem_finset A) h

/-- A number is the least missing one exactly when it is missing and nothing below it is. -/
theorem leastMissing_eq_iff : leastMissing A = n ↔ n ∉ A ∧ ∀ m < n, m ∈ A := by
  constructor
  · rintro rfl
    exact ⟨leastMissing_notMem A, fun m hm => mem_of_lt_leastMissing hm⟩
  · rintro ⟨hn, hlt⟩
    refine le_antisymm (leastMissing_le hn) (Nat.le_of_not_lt fun hm => ?_)
    exact leastMissing_notMem A (hlt _ hm)

@[simp] theorem leastMissing_empty : leastMissing ∅ = 0 :=
  leastMissing_eq_iff.mpr ⟨by simp, fun m hm => absurd hm (Nat.not_lt_zero m)⟩

theorem leastMissing_insert_of_ne (h : n ≠ leastMissing A) :
    leastMissing (insert n A) = leastMissing A := by
  refine leastMissing_eq_iff.mpr ⟨?_, fun m hm => ?_⟩
  · simpa [Finset.mem_insert, Ne.symm h] using leastMissing_notMem A
  · exact Finset.mem_insert_of_mem (mem_of_lt_leastMissing hm)

theorem leastMissing_mono {B} (h : A ⊆ B) : leastMissing A ≤ leastMissing B :=
  leastMissing_le fun hB => leastMissing_notMem B (h hB)

/-! ### The window -/

/-- `n` lies in the window of the given width above the least missing number of `A`. -/
def InWindow (width : ℕ) (A : Finset ℕ) (n : ℕ) : Prop :=
  leastMissing A ≤ n ∧ n < leastMissing A + width

/-- A replay window that has accepted `A` accepts `n`. -/
def Admits (width : ℕ) (A : Finset ℕ) (n : ℕ) : Prop := n ∉ A ∧ InWindow width A n

instance (width : ℕ) (A : Finset ℕ) (n : ℕ) : Decidable (InWindow width A n) :=
  inferInstanceAs (Decidable (_ ∧ _))

instance (width : ℕ) (A : Finset ℕ) (n : ℕ) : Decidable (Admits width A n) :=
  inferInstanceAs (Decidable (_ ∧ _))

/-! ### Residues -/

/-- Two numbers of one window of width `w` that agree modulo `w` are equal. -/
theorem eq_of_mod_eq {w lo i j : ℕ} (hi : lo ≤ i) (hi' : i < lo + w) (hj : lo ≤ j)
    (hj' : j < lo + w) (h : i % w = j % w) : i = j := by
  have hle : ∀ {a b : ℕ}, lo ≤ a → b < lo + w → a % w = b % w → b ≤ a := by
    intro a b ha hb hab
    by_contra hlt
    have hlt' : a < b := Nat.not_le.mp hlt
    have hdvd : w ∣ b - a := (Nat.modEq_iff_dvd' hlt'.le).mp hab
    exact absurd (Nat.le_of_dvd (by omega) hdvd) (by omega)
  exact le_antisymm (hle hj hi' h.symm) (hle hi hj' h)

end ReplayWindow

end Fyles
