import Fyles.Internal.ReplayWindow
import Mathlib.Logic.Function.Basic

/-!
# Rings that show a window of a sequence

A ring of `w` slots keeps the values of a sequence `f` on a window of `w` indices that moves
upwards. The value of an index is in the slot of its residue modulo `w`; that this works is
`ReplayWindow.eq_of_mod_eq`. Nothing is said here about what the values are, or when the window
moves.

## Main definitions

* `Shows` — the ring holds the values of a sequence on the window above an index

## Main results

* `Shows.set` — writing a slot of the window changes the value of one index
* `Shows.advance` — the slot of the first index becomes that of the one above the window
* `Shows.exists_index` — every slot belongs to an index of the window
-/

namespace Fyles

variable {α : Type*} {w lo : ℕ} {ring : List α} {f g : ℕ → α}

/-- The indices of a window run through all residues. -/
theorem exists_mod_eq (lo : ℕ) {r : ℕ} (hr : r < w) : ∃ i, lo ≤ i ∧ i < lo + w ∧ i % w = r := by
  have hlo : lo % w < w := Nat.mod_lt lo (Nat.zero_lt_of_lt hr)
  by_cases hle : lo % w ≤ r
  · refine ⟨lo + (r - lo % w), by omega, by omega, ?_⟩
    rw [Nat.add_mod, Nat.mod_eq_of_lt (by omega : r - lo % w < w), Nat.add_sub_cancel' hle,
      Nat.mod_eq_of_lt hr]
  · refine ⟨lo + (r + w - lo % w), by omega, by omega, ?_⟩
    rw [Nat.add_mod, Nat.mod_eq_of_lt (by omega : r + w - lo % w < w),
      show lo % w + (r + w - lo % w) = r + w by omega, Nat.add_mod_right, Nat.mod_eq_of_lt hr]

/-- The ring shows the values of `f` on the window of `w` indices from `lo` on. -/
structure Shows (w : ℕ) (ring : List α) (f : ℕ → α) (lo : ℕ) : Prop where
  /-- There is one slot for each index of the window. -/
  length : ring.length = w
  /-- The slot of an index of the window has its value. -/
  slot : ∀ i, lo ≤ i → i < lo + w → ring[i % w]? = some (f i)

namespace Shows

theorem replicate (w : ℕ) (a : α) (lo : ℕ) : Shows w (List.replicate w a) (fun _ => a) lo where
  length := List.length_replicate
  slot i hi hi' := by
    have hpos : 0 < w := by omega
    rw [List.getElem?_replicate_of_lt (Nat.mod_lt i hpos)]

/-- Writing the slot of an index of the window. -/
theorem set (h : Shows w ring f lo) {i : ℕ} (hi : lo ≤ i) (hi' : i < lo + w) (a : α) :
    Shows w (ring.set (i % w) a) (Function.update f i a) lo where
  length := List.length_set.trans h.length
  slot j hj hj' := by
    have hpos : 0 < w := by omega
    by_cases hji : j = i
    · subst hji
      rw [List.getElem?_set_self (by rw [h.length]; exact Nat.mod_lt j hpos),
        Function.update_self]
    · have hne : i % w ≠ j % w := fun heq =>
        hji (ReplayWindow.eq_of_mod_eq hj hj' hi hi' heq.symm)
      rw [List.getElem?_set_ne hne, Function.update_of_ne hji, h.slot j hj hj']

/-- The window moves up by one index. -/
theorem advance (h : Shows w ring f lo) (hpos : 0 < w) :
    Shows w (ring.set (lo % w) (f (lo + w))) f (lo + 1) where
  length := List.length_set.trans h.length
  slot j hj hj' := by
    by_cases hlast : j = lo + w
    · subst hlast
      rw [Nat.add_mod_right, List.getElem?_set_self (by rw [h.length]; exact Nat.mod_lt lo hpos)]
    · have hne : lo % w ≠ j % w := fun heq => by
        have := ReplayWindow.eq_of_mod_eq (Nat.le_refl lo) (by omega) (by omega : lo ≤ j)
          (by omega : j < lo + w) heq
        omega
      rw [List.getElem?_set_ne hne, h.slot j (by omega) (by omega)]

/-- Every slot belongs to an index of the window. -/
theorem exists_index (h : Shows w ring f lo) {r : ℕ} {a} (hr : ring[r]? = some a) :
    ∃ i, lo ≤ i ∧ i < lo + w ∧ i % w = r ∧ f i = a := by
  have hlt : r < w := h.length ▸ (List.getElem?_eq_some_iff.mp hr).1
  obtain ⟨i, hi, hi', hmod⟩ := exists_mod_eq lo hlt
  refine ⟨i, hi, hi', hmod, ?_⟩
  have hslot := h.slot i hi hi'
  rw [hmod, hr] at hslot
  exact (Option.some.inj hslot).symm

end Shows

end Fyles
