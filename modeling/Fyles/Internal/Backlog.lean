import Mathlib.Data.List.Basic
import Mathlib.Tactic.Common

/-!
# Updates that are carried out later

Values are stored by keys. Updates are emitted one after the other; each has a key and a value, and
is carried out at some later time by storing its value. Some values are final: an update that
follows one for the same key should repeat it.

If updates of the same key are carried out in the order in which they were emitted, then what waits
for a key is the end of what was emitted for it, and the stored value is that of the last update
that was carried out. `Backlog` says this, and that what waits behind a final value repeats it. Its
rules are those of emitting updates (`Backlog.emit`), of carrying out the oldest one of its key
(`Backlog.execute`), of updates that are carried out at once (`Backlog.await`), and of values that
are stored without an update (`Backlog.store`).

## Main definitions

* `Backlog` — the updates of each key are carried out in order

## Main results

* `Backlog.execute` — carrying out the oldest update of a key
* `Backlog.settled` — when nothing waits, the value of the last update is stored
-/

namespace Fyles

variable {α κ ν : Type*} [DecidableEq κ]

/-- The updates of a key. -/
def ofKey (key : α → κ) (k : κ) (l : List α) : List α := l.filter fun a => key a = k

section OfKey

variable {key : α → κ} {k : κ} {a : α} {l l' : List α}

@[simp] theorem ofKey_append : ofKey key k (l ++ l') = ofKey key k l ++ ofKey key k l' :=
  List.filter_append ..

theorem ofKey_cons_self : ofKey key (key a) (a :: l) = a :: ofKey key (key a) l :=
  List.filter_cons_of_pos (decide_eq_true rfl)

theorem ofKey_cons_of_ne (h : key a ≠ k) : ofKey key k (a :: l) = ofKey key k l :=
  List.filter_cons_of_neg (by simpa using h)

theorem ofKey_eq_nil (h : ∀ a ∈ l, key a ≠ k) : ofKey key k l = [] :=
  List.filter_eq_nil_iff.mpr fun a ha => by simpa using h a ha

theorem mem_ofKey : a ∈ ofKey key k l ↔ a ∈ l ∧ key a = k := by
  rw [ofKey, List.mem_filter, decide_eq_true_eq]

end OfKey

/-! ### Updates in a list of other things -/

section Erase

variable {β : Type*} {f : β → Option α} {l : List β} {i : ℕ} {b : β} {a : α}

theorem filterMap_eraseIdx_of_some (hb : l[i]? = some b) (ha : f b = some a) :
    l.filterMap f = (l.take i).filterMap f ++ a :: (l.drop (i + 1)).filterMap f ∧
    (l.eraseIdx i).filterMap f = (l.take i).filterMap f ++ (l.drop (i + 1)).filterMap f := by
  have hsplit : l = l.take i ++ b :: l.drop (i + 1) := by
    obtain ⟨hlt, rfl⟩ := List.getElem?_eq_some_iff.mp hb
    rw [List.getElem_cons_drop, List.take_append_drop]
  constructor
  · conv_lhs => rw [hsplit]
    rw [List.filterMap_append, List.filterMap_cons_some ha]
  · rw [List.eraseIdx_eq_take_drop_succ, List.filterMap_append]

theorem filterMap_eraseIdx_of_none (hb : l[i]? = some b) (hnone : f b = none) :
    (l.eraseIdx i).filterMap f = l.filterMap f := by
  have hsplit : l = l.take i ++ b :: l.drop (i + 1) := by
    obtain ⟨hlt, rfl⟩ := List.getElem?_eq_some_iff.mp hb
    rw [List.getElem_cons_drop, List.take_append_drop]
  conv_rhs => rw [hsplit]
  rw [List.eraseIdx_eq_take_drop_succ, List.filterMap_append, List.filterMap_append,
    List.filterMap_cons_none hnone]

end Erase

/-- **Updates in order.** The updates `waiting` have not been carried out, all other ones of
`emitted` have. -/
structure Backlog (key : α → κ) (value : α → ν) (final : ν → Prop) (emitted waiting : List α)
    (stored : κ → Option ν) : Prop where
  /-- What waits for a key was emitted last, and the value of the update before is stored. -/
  carriedOut : ∀ k, ∃ done, ofKey key k emitted = done ++ ofKey key k waiting ∧
    ∀ a ∈ done.getLast?, ∀ v ∈ stored k, v = value a
  /-- What waits behind a final value repeats it. -/
  behind : waiting.Pairwise fun a b => final (value a) → key b = key a → value b = value a
  /-- What waits for a key with a final value repeats it. -/
  repeats : ∀ a ∈ waiting, ∀ v ∈ stored (key a), final v → value a = v

namespace Backlog

variable {key : α → κ} {value : α → ν} {final : ν → Prop} {emitted waiting new : List α}
  {stored stored' : κ → Option ν} {a : α} {k : κ}

theorem nil : Backlog key value final [] [] stored where
  carriedOut _ := ⟨[], rfl, fun _ h => nomatch h⟩
  behind := .nil
  repeats _ h := nomatch h

theorem mem_emitted (h : Backlog key value final emitted waiting stored) (ha : a ∈ waiting) :
    a ∈ emitted := by
  obtain ⟨done, heq, -⟩ := h.carriedOut (key a)
  have hmem : a ∈ ofKey key (key a) emitted := by
    rw [heq]
    exact List.mem_append_right _ (mem_ofKey.mpr ⟨ha, rfl⟩)
  exact (mem_ofKey.mp hmem).1

/-- Updates are emitted that repeat final values, both stored and waiting. -/
theorem emit (h : Backlog key value final emitted waiting stored)
    (hnew : ∀ a ∈ new, (∀ v ∈ stored (key a), final v → value a = v) ∧
      ∀ b ∈ waiting, key a = key b → final (value b) → value a = value b)
    (hpair : new.Pairwise fun a b => final (value a) → key b = key a → value b = value a) :
    Backlog key value final (emitted ++ new) (waiting ++ new) stored where
  carriedOut k := by
    obtain ⟨done, heq, hlast⟩ := h.carriedOut k
    refine ⟨done, ?_, hlast⟩
    rw [ofKey_append, ofKey_append, heq, List.append_assoc]
  behind := by
    refine List.pairwise_append.mpr ⟨h.behind, hpair, fun b hb a ha hfinal heq => ?_⟩
    exact (hnew a ha).2 b hb heq hfinal
  repeats a ha := by
    obtain ha | ha := List.mem_append.mp ha
    · exact h.repeats a ha
    · exact (hnew a ha).1

/-- The oldest update of its key is carried out. -/
theorem execute {before after} (h : Backlog key value final emitted (before ++ a :: after) stored)
    (hfirst : ∀ b ∈ before, key b ≠ key a) (hself : ∀ v ∈ stored' (key a), v = value a)
    (hother : ∀ k ≠ key a, stored' k = stored k) :
    Backlog key value final emitted (before ++ after) stored' where
  carriedOut k := by
    obtain ⟨done, heq, hlast⟩ := h.carriedOut k
    rw [ofKey_append] at heq ⊢
    obtain rfl | hk := eq_or_ne k (key a)
    · refine ⟨done ++ [a], ?_, fun b hb => ?_⟩
      · rw [heq, ofKey_cons_self, ofKey_eq_nil hfirst]
        simp
      · obtain rfl : a = b := by simpa using hb
        exact hself
    · refine ⟨done, ?_, ?_⟩
      · rw [heq, ofKey_cons_of_ne hk.symm]
      · rw [hother k hk]
        exact hlast
  behind := h.behind.sublist ((List.sublist_cons_self a after).append_left before)
  repeats b hb v hv hfinal := by
    have hb' : b ∈ before ++ a :: after := by
      obtain hb | hb := List.mem_append.mp hb
      · exact List.mem_append_left _ hb
      · exact List.mem_append_right _ (List.mem_cons_of_mem _ hb)
    by_cases hk : key b = key a
    · -- An update of the same key was emitted after `a`, so it repeats a final value of `a`.
      have hafter : b ∈ after := by
        obtain hb | hb := List.mem_append.mp hb
        · exact absurd hk (hfirst b hb)
        · exact hb
      rw [hk] at hv
      rw [hself v hv] at hfinal ⊢
      have hbehind := (List.pairwise_cons.mp (List.pairwise_append.mp h.behind).2.1).1
      exact hbehind b hafter hfinal hk
    · rw [hother _ hk] at hv
      exact h.repeats b hb' v hv hfinal

/-- An update is carried out at once, when none of its key waits. -/
theorem await (h : Backlog key value final emitted waiting stored)
    (hnone : ∀ b ∈ waiting, key b ≠ key a) (hself : ∀ v ∈ stored' (key a), v = value a)
    (hother : ∀ k ≠ key a, stored' k = stored k) :
    Backlog key value final (emitted ++ [a]) waiting stored' where
  carriedOut k := by
    obtain ⟨done, heq, hlast⟩ := h.carriedOut k
    obtain rfl | hk := eq_or_ne k (key a)
    · refine ⟨ofKey key (key a) emitted ++ [a], ?_, fun b hb => ?_⟩
      · rw [ofKey_append, ofKey_eq_nil hnone, ofKey_cons_self, List.append_nil]
        rfl
      · obtain rfl : a = b := by simpa using hb
        exact hself
    · refine ⟨done, ?_, ?_⟩
      · rw [ofKey_append, ofKey_cons_of_ne hk.symm, heq]
        exact List.append_nil _
      · rw [hother k hk]
        exact hlast
  behind := h.behind
  repeats b hb v hv := by
    rw [hother _ (hnone b hb)] at hv
    exact h.repeats b hb v hv

/-- Values change without an update: they are removed, or there never was an update of the key. -/
theorem store (h : Backlog key value final emitted waiting stored)
    (hstored : ∀ k, ∀ v ∈ stored' k, v ∈ stored k ∨ ∀ a ∈ emitted, key a ≠ k) :
    Backlog key value final emitted waiting stored' where
  carriedOut k := by
    obtain ⟨done, heq, hlast⟩ := h.carriedOut k
    refine ⟨done, heq, fun a ha v hv => ?_⟩
    obtain hold | hnone := hstored k v hv
    · exact hlast a ha v hold
    · have hmem : a ∈ ofKey key k emitted := by
        rw [heq]
        exact List.mem_append_left _ (List.mem_of_getLast? ha)
      exact absurd (mem_ofKey.mp hmem).2 (hnone a (mem_ofKey.mp hmem).1)
  behind := h.behind
  repeats a ha v hv := by
    obtain hold | hnone := hstored (key a) v hv
    · exact h.repeats a ha v hold
    · exact absurd rfl (hnone a (h.mem_emitted ha))

/-- **When nothing waits for a key**, the value of its last update is stored. -/
theorem settled (h : Backlog key value final emitted waiting stored)
    (hnone : ∀ a ∈ waiting, key a ≠ k) :
    ∀ a ∈ (ofKey key k emitted).getLast?, ∀ v ∈ stored k, v = value a := by
  obtain ⟨done, heq, hlast⟩ := h.carriedOut k
  rw [heq, ofKey_eq_nil hnone, List.append_nil]
  exact hlast

end Backlog

end Fyles
