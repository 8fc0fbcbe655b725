import Mathlib

/-!
# Texts with separators, and texts that are cut off

A record is often written as its fields with a separator after each of them but the last. The
fields can be read back if none of them contains the separator; the last field is whatever is
left and may contain it.

A text that must not be too long is cut off: the longest beginning is kept whose weight is within
the limit.

## Main definitions

* `delimited` — fields with a separator after each, and a last field
* `cutOff` — the longest beginning within a limit

## Main results

* `delimited_inj` — fields without the separator can be read back
* `cutOff_of_le`, `cutOff_append_of_lt` — a text within the limit is kept, and nothing after a text
  that is not
-/

namespace Fyles

variable {α : Type*} {sep : α} {fields fields' : List (List α)} {last last' : List α}

/-! ### Separators -/

/-- The fields, each followed by the separator, and then the last field. -/
def delimited (sep : α) (fields : List (List α)) (last : List α) : List α :=
  fields.foldr (fun field rest => field ++ sep :: rest) last

@[simp] theorem delimited_nil : delimited sep [] last = last := rfl

@[simp] theorem delimited_cons (field : List α) :
    delimited sep (field :: fields) last = field ++ sep :: delimited sep fields last := rfl

/-- The first separator ends the first field. -/
theorem append_sep_inj {x x' rest rest'} (hx : sep ∉ x) (hx' : sep ∉ x')
    (h : x ++ sep :: rest = x' ++ sep :: rest') : x = x' ∧ rest = rest' := by
  -- One of the two fields begins with the other; what it has besides would begin with the
  -- separator.
  obtain ⟨m, hm, hrest⟩ | ⟨m, hm, hrest⟩ := List.append_eq_append_iff.mp h
  · cases m with
    | nil =>
      rw [List.append_nil] at hm
      exact ⟨hm.symm, (List.cons.inj hrest).2⟩
    | cons a m =>
      obtain rfl : sep = a := (List.cons.inj hrest).1
      exact absurd (by rw [hm]; simp) hx'
  · cases m with
    | nil =>
      rw [List.append_nil] at hm
      exact ⟨hm, (List.cons.inj hrest).2.symm⟩
    | cons a m =>
      obtain rfl : sep = a := (List.cons.inj hrest).1
      exact absurd (by rw [hm]; simp) hx

/-- **Reading back.** Two records with equally many fields, none of which contains the separator,
are written differently unless they are the same. -/
theorem delimited_inj (hlen : fields.length = fields'.length) (h : ∀ f ∈ fields, sep ∉ f)
    (h' : ∀ f ∈ fields', sep ∉ f) (heq : delimited sep fields last = delimited sep fields' last') :
    fields = fields' ∧ last = last' := by
  induction fields generalizing fields' with
  | nil =>
    obtain rfl : fields' = [] := List.length_eq_zero_iff.mp hlen.symm
    exact ⟨rfl, heq⟩
  | cons field fields ih =>
    cases fields' with
    | nil => cases hlen
    | cons field' fields' =>
      rw [delimited_cons, delimited_cons] at heq
      obtain ⟨rfl, hrest⟩ := append_sep_inj (h _ List.mem_cons_self) (h' _ List.mem_cons_self) heq
      obtain ⟨rfl, rfl⟩ := ih (Nat.succ.inj hlen) (fun f hf => h f (List.mem_cons_of_mem _ hf))
        (fun f hf => h' f (List.mem_cons_of_mem _ hf)) hrest
      exact ⟨rfl, rfl⟩

/-! ### Limits -/

/-- The longest beginning of a list whose weight is at most the limit. -/
def cutOff (weight : α → ℕ) : ℕ → List α → List α
  | _, [] => []
  | limit, a :: l => if weight a ≤ limit then a :: cutOff weight (limit - weight a) l else []

theorem cutOff_of_le {weight : α → ℕ} {limit : ℕ} {l} (h : (l.map weight).sum ≤ limit) :
    cutOff weight limit l = l := by
  induction l generalizing limit with
  | nil => rfl
  | cons a l ih =>
    rw [List.map_cons, List.sum_cons] at h
    rw [cutOff, if_pos (by omega), ih (by omega)]

theorem mem_of_mem_cutOff {weight : α → ℕ} {limit : ℕ} {l a} (h : a ∈ cutOff weight limit l) :
    a ∈ l := by
  induction l generalizing limit with
  | nil => cases h
  | cons b l ih =>
    rw [cutOff] at h
    split at h
    · exact List.mem_cons.mpr ((List.mem_cons.mp h).imp_right ih)
    · cases h

/-- What follows a text that is too long is cut off with its end. -/
theorem cutOff_append_of_lt {weight : α → ℕ} {limit : ℕ} {l} (h : limit < (l.map weight).sum)
    (rest : List α) : cutOff weight limit (l ++ rest) = cutOff weight limit l := by
  induction l generalizing limit with
  | nil => cases h
  | cons a l ih =>
    rw [List.map_cons, List.sum_cons] at h
    rw [List.cons_append, cutOff, cutOff]
    split
    · rw [ih (by omega)]
    · rfl

end Fyles
