import Mathlib.Data.List.Perm.Basic

/-!
# Lists of which a part is looked at

## Main results

* `forall_mem_iff_eraseIdx` — what holds of every element, with one of them apart
* `countP_le_one` — a condition that no two elements meet
* `filter_eq_filter_iff` — what is left of a list is what satisfies a condition
* `filter_filterMap_key` — the elements that come from one key
-/

namespace Fyles

variable {α : Type*} {l : List α}

/-- What holds of every element, when one of them is looked at apart. -/
theorem forall_mem_iff_eraseIdx {i : ℕ} {a} (h : l[i]? = some a) {P : α → Prop} :
    (∀ x ∈ l, P x) ↔ P a ∧ ∀ x ∈ l.eraseIdx i, P x := by
  obtain ⟨hi, rfl⟩ := List.getElem?_eq_some_iff.mp h
  rw [← List.forall_mem_cons]
  exact forall_congr' fun x => imp_congr_left (List.getElem_cons_eraseIdx_perm hi).mem_iff.symm

/-- If no two elements meet a condition, it is met at most once. -/
theorem countP_le_one {p : α → Bool} (hl : l.Nodup)
    (h : ∀ a ∈ l, ∀ b ∈ l, p a = true → p b = true → a = b) : l.countP p ≤ 1 := by
  have hnodup := hl.filter p
  have heq : ∀ a ∈ l.filter p, ∀ b ∈ l.filter p, a = b := by
    intro a ha b hb
    obtain ⟨ha, hpa⟩ := List.mem_filter.mp ha
    obtain ⟨hb, hpb⟩ := List.mem_filter.mp hb
    exact h a ha b hb hpa hpb
  rw [List.countP_eq_length_filter]
  cases hfilter : l.filter p with
  | nil => exact Nat.zero_le 1
  | cons a rest =>
    cases rest with
    | nil => exact Nat.le_refl 1
    | cons b rest =>
      rw [hfilter] at hnodup heq
      have hab : a = b := heq a (by simp) b (by simp)
      exact absurd (hab ▸ List.mem_cons_self) (List.nodup_cons.mp hnodup).1

/-- What is left of a list are the elements that satisfy `q`, as far as `p` tells: none of the
others is left, and none of them is missing. -/
theorem filter_eq_filter_iff {p q : α → Bool} (hq : ∀ a, q a = true → p a = true)
    {before after missing : List α} (hsub : after.Sublist before)
    (hperm : (missing ++ after).Perm before) :
    after.filter p = before.filter q ↔
      (∀ a ∈ after, p a = true → q a = true) ∧ ∀ a ∈ missing, ¬ q a = true := by
  have hcount : before.countP q = missing.countP q + after.countP q := by
    rw [← hperm.countP_eq, List.countP_append]
  have hsame : (∀ a ∈ after, p a = true → q a = true) → after.filter p = after.filter q :=
    fun h => List.filter_congr fun a ha => Bool.eq_iff_iff.mpr ⟨h a ha, hq a⟩
  constructor
  · intro h
    have hleft : ∀ a ∈ after, p a = true → q a = true := fun a ha hpa =>
      (List.mem_filter.mp (h ▸ List.mem_filter.mpr ⟨ha, hpa⟩)).2
    refine ⟨hleft, List.countP_eq_zero.mp ?_⟩
    rw [hsame hleft] at h
    rw [List.countP_eq_length_filter (l := before), ← h, ← List.countP_eq_length_filter] at hcount
    omega
  · rintro ⟨hleft, hmissing⟩
    rw [hsame hleft]
    refine (hsub.filter q).eq_of_length ?_
    rw [← List.countP_eq_length_filter, ← List.countP_eq_length_filter, hcount,
      List.countP_eq_zero.mpr hmissing, Nat.zero_add]

/-- In a list with distinct keys, the elements that come from one key. -/
theorem filter_filterMap_key {β κ : Type*} [DecidableEq κ] {f : α → Option β} {keyOf : α → κ}
    {k : β → κ} (hkey : ∀ a, ∀ b ∈ f a, k b = keyOf a) (hnodup : (l.map keyOf).Nodup) {a}
    (ha : a ∈ l) :
    ((l.filterMap f).filter fun b => k b = keyOf a) = (f a).toList := by
  induction l with
  | nil => cases ha
  | cons c l ih =>
    rw [List.map_cons, List.nodup_cons] at hnodup
    have hrest : a = c → ((l.filterMap f).filter fun b => k b = keyOf a) = [] := by
      rintro rfl
      rw [List.filter_eq_nil_iff]
      intro b hb
      obtain ⟨c, hc, hbc⟩ := List.mem_filterMap.mp hb
      rw [decide_eq_true_eq, hkey c b hbc]
      exact fun heq => hnodup.1 (heq ▸ List.mem_map_of_mem hc)
    rw [List.filterMap_cons]
    by_cases hac : a = c
    · subst hac
      cases hf : f a with
      | none => exact hrest rfl
      | some b =>
        simp only [List.filter_cons, hkey a b hf, decide_true, if_true, hrest rfl]
        rfl
    · have hmem : a ∈ l := (List.mem_cons.mp ha).resolve_left hac
      have hne : keyOf c ≠ keyOf a := fun heq => hnodup.1 (heq ▸ List.mem_map_of_mem hmem)
      cases hf : f c with
      | none => exact ih hnodup.2 hmem
      | some b =>
        simp only [List.filter_cons, hkey c b hf, hne, decide_false]
        exact ih hnodup.2 hmem

end Fyles
