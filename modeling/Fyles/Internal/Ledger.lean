import Mathlib.Algebra.Notation.Defs
import Mathlib.Tactic.Common

/-!
# Ledgers of tokens

Tokens enter a system at one of several places, stay there for a while, and leave. `Ledger`
counts them: how often a token is at a place, how often it has left, and where it has entered.
A ledger is `Settled` if every token that has entered is accounted for exactly once, at the
place where it entered or outside, and no other token is anywhere.

The only rule is `Settled.move`: a change at one place that neither creates nor destroys tokens,
apart from new ones that enter there, keeps a ledger settled.

## Main definitions

* `Ledger`, `Ledger.Settled`

## Main results

* `Ledger.Settled.move` — changes that conserve the number of tokens keep a ledger settled
-/

namespace Fyles

/-- Where tokens are and have been. -/
structure Ledger (K T : Type*) where
  /-- How often a token is at a place. -/
  held : K → T → ℕ
  /-- How often a token has left. -/
  left : T → ℕ
  /-- Whether a token has entered at a place. -/
  entered : K → T → Prop

namespace Ledger

variable {K T : Type*}

/-- Every token that has entered is accounted for once. -/
structure Settled (L : Ledger K T) : Prop where
  /-- A token that has entered is at its place or has left, not both, and only once. -/
  once : ∀ {k t}, L.entered k t → L.held k t + L.left t = 1
  /-- It is at no other place. -/
  elsewhere : ∀ {k t}, L.entered k t → ∀ k' ≠ k, L.held k' t = 0
  /-- A token that has not entered is nowhere. -/
  absent : ∀ {t}, (∀ k, ¬ L.entered k t) → (∀ k, L.held k t = 0) ∧ L.left t = 0

/-- `L'` is `L` after a change at the place `k`, at which the token `t` entered `inn t` times. -/
structure Move (L L' : Ledger K T) (k : K) (inn : T → ℕ) : Prop where
  /-- The other places are as they were. -/
  frame : ∀ k' ≠ k, L'.held k' = L.held k'
  /-- What has left does not come back. -/
  left_le : ∀ t, L.left t ≤ L'.left t
  /-- Nothing is lost and nothing appears that did not enter. -/
  flow : ∀ t, L'.held k t + L'.left t = L.held k t + L.left t + inn t
  entered : ∀ k' t, L'.entered k' t ↔ L.entered k' t ∨ (k' = k ∧ 0 < inn t)
  /-- A token enters once. -/
  once : ∀ t, inn t ≤ 1
  /-- A token that enters has not entered before. -/
  fresh : ∀ t, 0 < inn t → ∀ k', ¬ L.entered k' t

/-- A token that is neither at the place of the move nor enters there is not affected. -/
theorem Move.untouched {L L' : Ledger K T} {k} {inn : T → ℕ} (hm : L.Move L' k inn) {t}
    (hheld : L.held k t = 0) (hinn : inn t = 0) :
    (∀ k', L'.held k' t = L.held k' t) ∧ L'.left t = L.left t := by
  have hflow := hm.flow t
  have hle := hm.left_le t
  refine ⟨fun k' => ?_, by omega⟩
  by_cases hk : k' = k
  · subst hk
    omega
  · rw [hm.frame k' hk]

/-- **Conservation.** A move keeps a ledger settled. -/
theorem Settled.move {L L' : Ledger K T} {k} {inn : T → ℕ} (h : L.Settled) (hm : L.Move L' k inn) :
    L'.Settled := by
  have hinn : ∀ {k' t}, L.entered k' t → inn t = 0 := fun {k' t} hold =>
    Nat.eq_zero_of_not_pos fun hp => hm.fresh t hp k' hold
  refine ⟨fun {k' t} he => ?_, fun {k' t} he k'' hne => ?_, fun {t} hn => ?_⟩
  · rcases (hm.entered k' t).mp he with hold | ⟨rfl, hnew⟩
    · by_cases hk : k' = k
      · subst hk
        rw [hm.flow t, hinn hold, h.once hold]
      · obtain ⟨hheld, hleft⟩ := hm.untouched (h.elsewhere hold k (Ne.symm hk)) (hinn hold)
        rw [hheld, hleft, h.once hold]
    · obtain ⟨hheld, hleft⟩ := h.absent (hm.fresh t hnew)
      have hle := hm.once t
      rw [hm.flow t, hheld, hleft]
      omega
  · rcases (hm.entered k' t).mp he with hold | ⟨rfl, hnew⟩
    · by_cases hk : k'' = k
      · subst hk
        obtain ⟨hheld, -⟩ := hm.untouched (h.elsewhere hold k'' hne) (hinn hold)
        rw [hheld, h.elsewhere hold k'' hne]
      · rw [hm.frame k'' hk, h.elsewhere hold k'' hne]
    · rw [hm.frame k'' hne]
      exact (h.absent (hm.fresh t hnew)).1 k''
  · have hold : ∀ k', ¬ L.entered k' t := fun k' hc => hn k' ((hm.entered k' t).mpr (.inl hc))
    have hzero : inn t = 0 :=
      Nat.eq_zero_of_not_pos fun hp => hn k ((hm.entered k t).mpr (.inr ⟨rfl, hp⟩))
    obtain ⟨hheld, hleft⟩ := h.absent hold
    obtain ⟨hheld', hleft'⟩ := hm.untouched (hheld k) hzero
    exact ⟨fun k' => by rw [hheld', hheld], by rw [hleft', hleft]⟩

end Ledger

end Fyles
