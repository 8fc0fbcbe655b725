import Fyles.Internal.Trace
import Fyles.Internal.Update
import Mathlib.Data.Nat.Notation
import Mathlib.Tactic.Common

/-!
# Maps that forget

`core/src/library/ttlmap.rs`, `p2p/src/data_structures/scoped_expiry_map.rs` and
`p2p/src/data_structures/idle_expiry_map.rs`. The first one has one value for a key and finds it for
a fixed time after it was inserted. The second one has a queue of values for a key (the *scope*);
each of them is found for a fixed time after it was pushed, and a clean-up that is due once in a
while removes what cannot be found any more. The third one has one value for a key and finds it for
a fixed time after it was last used; every access may clean up the entries of all keys.

Times are numbers, and every operation is given the time at which it runs.

## The crate below

`TtlMap` rests on a crate that is not part of the repository. An entry is found as long as less than
its time to live has passed. Whether removing an entry returns the value of one whose time is over
is not documented, so it is a parameter of the map.

## Main results

* `TtlMap.get_eq_some`, `TtlMap.insert_cases`, `TtlMap.map_of_remove`
* `ScopedExpiryMap.holds_push`, `ScopedExpiryMap.holds_of_mem_get`, `ScopedExpiryMap.holds_get` —
  what is found was pushed, and not too long ago
* `ScopedExpiryMap.get_eq_pushed` — over whole histories, exactly that is found
* `IdleExpiryMap.entries_entry` — what an access does to the entries of other keys
-/

namespace Fyles

open Function (update update_of_ne update_self)

variable {K V : Type}

/-! ### One value for a key -/

/-- `TtlMap`. -/
structure TtlMap (K V : Type) where
  /-- The values, and when they expire. -/
  map : K → Option (V × ℕ)
  /-- How long a value is found. -/
  ttl : ℕ
  /-- Whether removing an entry returns its value when its time is over. -/
  removesStale : Bool

namespace TtlMap

/-- `new`. -/
def new (removesStale : Bool) (ttl : ℕ) : TtlMap K V := ⟨fun _ => none, ttl, removesStale⟩

/-- `get`. -/
def get (m : TtlMap K V) (now : ℕ) (key : K) : Option V :=
  match m.map key with
  | some (value, expiry) => if now < expiry then some value else none
  | none => none

/-- `insert`: the map, and the value that was replaced unless its time was over. -/
def insert [DecidableEq K] (m : TtlMap K V) (now : ℕ) (key : K) (value : V) :
    TtlMap K V × Option V :=
  ({ m with map := update m.map key (some (value, now + m.ttl)) }, m.get now key)

/-- `remove`. -/
def remove [DecidableEq K] (m : TtlMap K V) (now : ℕ) (key : K) : TtlMap K V × Option V :=
  ({ m with map := update m.map key none },
    if m.removesStale then (m.map key).map Prod.fst else m.get now key)

/-- `clear`. -/
def clear (m : TtlMap K V) : TtlMap K V := new m.removesStale m.ttl

/-- Entries go, depending on the key and on when they expire. `insert` begins with removing entries
whose time is over, once in a while. -/
def discard (m : TtlMap K V) (p : K → ℕ → Bool) : TtlMap K V :=
  { m with map := fun key => (m.map key).filter fun e => !p key e.2 }

variable {m : TtlMap K V} {now expiry : ℕ} {key key' : K} {value value' : V}

theorem get_eq_some :
    m.get now key = some value ↔ ∃ expiry, m.map key = some (value, expiry) ∧ now < expiry := by
  rw [get]
  cases hm : m.map key with
  | none => simp
  | some e =>
    obtain ⟨v, t⟩ := e
    by_cases ht : now < t
    · simp only [if_pos ht, Option.some.injEq, Prod.mk.injEq]
      constructor
      · rintro rfl
        exact ⟨t, ⟨rfl, rfl⟩, ht⟩
      · rintro ⟨_, ⟨rfl, rfl⟩, -⟩
        rfl
    · simp only [if_neg ht, reduceCtorEq, Option.some.injEq, Prod.mk.injEq, false_iff, not_exists,
        not_and]
      rintro _ ⟨-, rfl⟩
      exact ht

theorem discard_eq_some {p : K → ℕ → Bool} : (m.discard p).map key = some (value, expiry) ↔
      m.map key = some (value, expiry) ∧ p key expiry = false := by
  rw [discard, Option.filter_eq_some_iff, Bool.not_eq_true']

variable [DecidableEq K]

/-- An entry after an insertion is the new one or an old one. -/
theorem insert_cases
    (h : (m.insert now key value).1.map key' = some (value', expiry)) :
    (key' = key ∧ value' = value ∧ expiry = now + m.ttl) ∨
      (key' ≠ key ∧ m.map key' = some (value', expiry)) := by
  obtain ⟨rfl, hnew⟩ | hold := update_eq_cases h
  · obtain ⟨⟩ := hnew
    exact .inl ⟨rfl, rfl, rfl⟩
  · exact .inr hold

theorem map_of_map_remove (now : ℕ)
    (h : (m.remove now key).1.map key' = some (value, expiry)) :
    key' ≠ key ∧ m.map key' = some (value, expiry) := by
  exact of_update_eq h nofun

theorem map_of_remove (h : (m.remove now key).2 = some value) :
    ∃ expiry, m.map key = some (value, expiry) := by
  simp only [remove] at h
  split at h
  · obtain ⟨⟨v, t⟩, hm, rfl⟩ := Option.map_eq_some_iff.mp h
    exact ⟨t, hm⟩
  · obtain ⟨t, hm, -⟩ := get_eq_some.mp h
    exact ⟨t, hm⟩

end TtlMap

/-! ### A queue of values for a key -/

/-- `ScopeQueue`. -/
structure ScopeQueue (V : Type) where
  /-- The values, and when they expire. -/
  entries : List (V × ℕ)
  lastTouched : ℕ

namespace ScopeQueue

/-- `new`. -/
def new (now : ℕ) : ScopeQueue V := ⟨[], now⟩

variable (q : ScopeQueue V)

/-- `push`. -/
def push (value : V) (valueTtl now : ℕ) : ScopeQueue V :=
  ⟨q.entries ++ [(value, now + valueTtl)], now⟩

/-- `valid_values_newest_first`. -/
def validValuesNewestFirst (now : ℕ) : List V :=
  (q.entries.reverse.filter fun e => now < e.2).map Prod.fst

/-- `prune_expired`. -/
def pruneExpired (now : ℕ) : ScopeQueue V :=
  { q with entries := q.entries.filter fun e => now < e.2 }

/-- `is_idle`. -/
def isIdle (scopeIdleTtl now : ℕ) : Bool := scopeIdleTtl ≤ now - q.lastTouched

/-- `is_empty`. -/
def isEmpty (now : ℕ) : Bool := (q.entries.filter fun e => now < e.2).isEmpty

end ScopeQueue

/-- `ScopedExpiryMap`. -/
structure ScopedExpiryMap (K V : Type) where
  scopes : K → Option (ScopeQueue V)
  lastCleanup : ℕ
  scopeIdleTtl : ℕ
  valueTtl : ℕ
  cleanupInterval : ℕ

namespace ScopedExpiryMap

/-- `new`. -/
def new (scopeIdleTtl valueTtl cleanupInterval now : ℕ) : ScopedExpiryMap K V :=
  ⟨fun _ => none, now, scopeIdleTtl, valueTtl, cleanupInterval⟩

/-- What the clean-up retains of a queue. `is_empty` looks at the clock again. -/
def retained (m : ScopedExpiryMap K V) (now later : ℕ) (q : ScopeQueue V) : Option (ScopeQueue V) :=
  if q.isIdle m.scopeIdleTtl now then none
  else if (q.pruneExpired now).isEmpty later then none
  else some (q.pruneExpired now)

/-- `cleanup_if_due`. -/
def cleanupIfDue (m : ScopedExpiryMap K V) (now : ℕ) (later : K → ℕ := fun _ => now) :
    ScopedExpiryMap K V :=
  if now - m.lastCleanup < m.cleanupInterval then m
  else { m with
    lastCleanup := now
    scopes := fun key => (m.scopes key).bind (m.retained now (later key)) }

/-- `push`. -/
def push [DecidableEq K] (m : ScopedExpiryMap K V) (now : ℕ) (scope : K) (value : V)
    (later : K → ℕ := fun _ => now) : ScopedExpiryMap K V :=
  let m := m.cleanupIfDue now later
  let queue := (m.scopes scope).getD (.new now)
  { m with scopes := update m.scopes scope (some (queue.push value m.valueTtl now)) }

/-- `get`: the values, and the map whose queue was touched. -/
def get [DecidableEq K] (m : ScopedExpiryMap K V) (now : ℕ) (scope : K)
    (later : K → ℕ := fun _ => now) : List V × ScopedExpiryMap K V :=
  let m := m.cleanupIfDue now later
  match m.scopes scope with
  | none => ([], m)
  | some queue =>
    (queue.validValuesNewestFirst now,
      { m with scopes := update m.scopes scope (some { queue with lastTouched := now }) })

/-- `remove_scope`. -/
def removeScope [DecidableEq K] (m : ScopedExpiryMap K V) (scope : K) : ScopedExpiryMap K V :=
  { m with scopes := update m.scopes scope none }

/-- `clear`. -/
def clear (m : ScopedExpiryMap K V) (now : ℕ) : ScopedExpiryMap K V :=
  { m with scopes := fun _ => none, lastCleanup := now }

/-- A value is in the queue of a scope, and expires at a given time. -/
def Holds (m : ScopedExpiryMap K V) (scope : K) (value : V) (expiry : ℕ) : Prop :=
  ∃ queue, m.scopes scope = some queue ∧ (value, expiry) ∈ queue.entries

variable {m : ScopedExpiryMap K V} {now expiry : ℕ} {scope scope' : K} {value value' : V}

@[simp] theorem valueTtl_cleanupIfDue {later : K → ℕ} :
    (m.cleanupIfDue now later).valueTtl = m.valueTtl := by
  rw [cleanupIfDue]
  split <;> rfl

theorem not_holds_new {idle ttl interval : ℕ} :
    ¬ (new idle ttl interval now : ScopedExpiryMap K V).Holds scope value expiry := by
  rintro ⟨queue, h, -⟩
  cases h

theorem scopes_cleanupIfDue (m : ScopedExpiryMap K V) (now : ℕ) (later : K → ℕ) (scope : K) :
    (m.cleanupIfDue now later).scopes scope = m.scopes scope ∨ ∃ q, m.scopes scope = some q ∧
      ((m.cleanupIfDue now later).scopes scope = none ∧ (m.scopeIdleTtl ≤ now - q.lastTouched ∨
          ((q.pruneExpired now).entries.filter fun e => later scope < e.2) = []) ∨
        (m.cleanupIfDue now later).scopes scope = some (q.pruneExpired now)) := by
  rw [cleanupIfDue]
  split
  · exact .inl rfl
  · cases hq : m.scopes scope with
    | none => simp [hq]
    | some q =>
      refine .inr ⟨q, rfl, ?_⟩
      simp only [hq, Option.bind_some, retained]
      split
      · next hidle => exact .inl ⟨rfl, .inl (of_decide_eq_true hidle)⟩
      · split
        · next hempty => exact .inl ⟨rfl, .inr (List.isEmpty_iff.mp hempty)⟩
        · exact .inr rfl

theorem holds_cleanupIfDue (h : (m.cleanupIfDue now).Holds scope value expiry) :
    m.Holds scope value expiry := by
  obtain ⟨queue, hqueue, hmem⟩ := h
  obtain heq | ⟨q, hq, ⟨hnone, -⟩ | hsome⟩ := m.scopes_cleanupIfDue now (fun _ => now) scope
  · exact ⟨queue, heq ▸ hqueue, hmem⟩
  · cases hnone.symm.trans hqueue
  · obtain rfl := Option.mem_unique hsome hqueue
    exact ⟨q, hq, (List.mem_filter.mp hmem).1⟩

variable [DecidableEq K]

@[simp] theorem valueTtl_push : (m.push now scope value).valueTtl = m.valueTtl := by
  simp [push]

@[simp] theorem valueTtl_get : (m.get now scope).2.valueTtl = m.valueTtl := by
  rw [get]
  split <;> simp

/-- What is in a queue after a push is the new value or was there before. -/
theorem holds_push (h : (m.push now scope value).Holds scope' value' expiry) :
    (scope' = scope ∧ value' = value ∧ expiry = now + m.valueTtl) ∨
      m.Holds scope' value' expiry := by
  obtain ⟨queue, hqueue, hmem⟩ := h
  obtain ⟨rfl, hnew⟩ | ⟨-, hold⟩ := update_eq_cases hqueue
  · obtain ⟨⟩ := hnew
    simp only [ScopeQueue.push, List.mem_append, List.mem_singleton, Prod.mk.injEq,
      valueTtl_cleanupIfDue] at hmem
    rcases hmem with hmem | ⟨rfl, rfl⟩
    · cases hold : (m.cleanupIfDue now).scopes scope' with
      | none =>
        rw [hold] at hmem
        cases hmem
      | some old =>
        rw [hold] at hmem
        exact .inr (holds_cleanupIfDue ⟨old, hold, hmem⟩)
    · exact .inl ⟨rfl, rfl, rfl⟩
  · exact .inr (holds_cleanupIfDue ⟨queue, hold, hmem⟩)

/-- What is found is in the queue, and its time is not over. -/
theorem holds_of_mem_get (h : value ∈ (m.get now scope).1) :
    ∃ expiry, m.Holds scope value expiry ∧ now < expiry := by
  rw [get] at h
  cases hqueue : (m.cleanupIfDue now).scopes scope with
  | none =>
    rw [hqueue] at h
    cases h
  | some queue =>
    rw [hqueue] at h
    obtain ⟨⟨v, expiry⟩, hmem, rfl⟩ := List.mem_map.mp h
    obtain ⟨hmem, hlt⟩ := List.mem_filter.mp hmem
    refine ⟨expiry, holds_cleanupIfDue ⟨queue, hqueue, List.mem_reverse.mp hmem⟩, ?_⟩
    exact of_decide_eq_true hlt

theorem holds_get (h : (m.get now scope).2.Holds scope' value expiry) :
    m.Holds scope' value expiry := by
  rw [get] at h
  cases hqueue : (m.cleanupIfDue now).scopes scope with
  | none =>
    rw [hqueue] at h
    exact holds_cleanupIfDue h
  | some queue =>
    rw [hqueue] at h
    obtain ⟨queue', hqueue', hmem⟩ := h
    obtain ⟨rfl, hnew⟩ | ⟨-, hold⟩ := update_eq_cases hqueue'
    · obtain ⟨⟩ := hnew
      exact holds_cleanupIfDue ⟨queue, hqueue, hmem⟩
    · exact holds_cleanupIfDue ⟨queue', hold, hmem⟩

/-! ### Whole histories of a scoped map -/

/-- What can be asked of the map. -/
inductive Operation (K V : Type)
  | push (scope : K) (value : V)
  | get (scope : K)
  | removeScope (scope : K)
  | clear

/-- An operation while time goes by. It looks at the clock when it starts, and a clean-up looks at
it again for every queue. -/
structure Call (K V : Type) where
  operation : Operation K V
  start : ℕ
  later : K → ℕ
  stop : ℕ
  start_le : ∀ scope, start ≤ later scope
  le_stop : ∀ scope, later scope ≤ stop

/-- A call that takes no time. -/
def Call.instant (operation : Operation K V) (now : ℕ) : Call K V :=
  ⟨operation, now, fun _ => now, now, fun _ => Nat.le_refl now, fun _ => Nat.le_refl now⟩

/-- The map after a call. -/
def call (m : ScopedExpiryMap K V) (c : Call K V) : ScopedExpiryMap K V :=
  match c.operation with
  | .push scope value => m.push c.start scope value c.later
  | .get scope => (m.get c.start scope c.later).2
  | .removeScope scope => m.removeScope scope
  | .clear => m.clear c.start

/-- After a call that empties a scope, nothing that was pushed before is found there. -/
def Call.empties (scope : K) (c : Call K V) : Bool :=
  match c.operation with
  | .removeScope scope' => scope' = scope
  | .clear => true
  | .push _ _ | .get _ => false

/-- What a call pushes to a scope, and when it expires. -/
def Call.pushes (valueTtl : ℕ) (scope : K) (c : Call K V) : Option (V × ℕ) :=
  match c.operation with
  | .push scope' value => if scope' = scope then some (value, c.start + valueTtl) else none
  | .removeScope _ | .clear | .get _ => none

/-- **The specification.** What was pushed to a scope since it was last emptied, in that order. -/
def pushedTo (valueTtl : ℕ) (calls : List (Call K V)) (scope : K) : List (V × ℕ) :=
  (since (Call.empties scope) calls).filterMap (Call.pushes valueTtl scope)

/-- The calls are made one after the other, from a given time on. -/
def Timed (t : ℕ) : List (Call K V) → Prop
  | [] => True
  | c :: calls => t ≤ c.start ∧ Timed c.stop calls

theorem pushedTo_concat {ttl : ℕ} {calls} {c : Call K V} : pushedTo ttl (calls ++ [c]) scope =
      if c.empties scope then [] else pushedTo ttl calls scope ++ (c.pushes ttl scope).toList := by
  cases hc : c.empties scope with
  | true =>
    rw [if_pos rfl, pushedTo, since_concat_of_pos hc]
    rcases c with ⟨op, _, _, _, _, _⟩
    cases op with
    | push | get => cases hc
    | removeScope | clear => rfl
  | false =>
    rw [if_neg Bool.false_ne_true, pushedTo, since_concat_of_neg hc, List.filterMap_append]
    cases h : c.pushes ttl scope <;> simp [pushedTo, h]

/-- What is in the queue of a scope. -/
def entriesOf (m : ScopedExpiryMap K V) (scope : K) : List (V × ℕ) :=
  (m.scopes scope).elim [] ScopeQueue.entries

/-- At a time, the map is as good as the lists of what was pushed. -/
structure Refines (m : ScopedExpiryMap K V) (ttl t : ℕ) (pushed : K → List (V × ℕ)) : Prop where
  /-- What can still be found is the same. -/
  live : ∀ scope,
    (m.entriesOf scope).filter (fun e => t < e.2) = (pushed scope).filter fun e => t < e.2
  /-- Pushing something touches the queue. -/
  touched : ∀ scope q, m.scopes scope = some q →
    q.lastTouched ≤ t ∧ ∀ e ∈ q.entries, e.2 ≤ q.lastTouched + ttl
  valueTtl : m.valueTtl = ttl
  idle : ttl ≤ m.scopeIdleTtl

theorem filter_lt_filter_lt {l : List (V × ℕ)} {t u : ℕ} (htu : t ≤ u) :
    ((l.filter fun e => t < e.2).filter fun e => u < e.2) = l.filter fun e => u < e.2 := by
  rw [List.filter_filter]
  refine List.filter_congr fun e _ => ?_
  by_cases hu : u < e.2
  · simp [hu, Nat.lt_of_le_of_lt htu hu]
  · simp [hu]

theorem filter_lt_congr {l l' : List (V × ℕ)} {t u : ℕ} (htu : t ≤ u)
    (h : (l.filter fun e => t < e.2) = l'.filter fun e => t < e.2) :
    (l.filter fun e => u < e.2) = l'.filter fun e => u < e.2 := by
  rw [← filter_lt_filter_lt htu, h, filter_lt_filter_lt htu]

variable {ttl t : ℕ} {pushed : K → List (V × ℕ)} {later : K → ℕ} {calls : List (Call K V)}
  {c : Call K V}

omit [DecidableEq K] in
/-- A clean-up takes away what has expired when it looks at the queue for the last time. -/
theorem Refines.live_cleanupIfDue (h : m.Refines ttl t pushed) (htn : t ≤ now)
    (hl : now ≤ later scope) :
    ∃ u, now ≤ u ∧ u ≤ later scope ∧
      ((m.cleanupIfDue now later).entriesOf scope).filter (fun e => now < e.2) =
        (pushed scope).filter fun e => u < e.2 := by
  have hlive := filter_lt_congr htn (h.live scope)
  obtain heq | ⟨q, hq, ⟨hnone, hidle | hempty⟩ | hsome⟩ := m.scopes_cleanupIfDue now later scope
  · exact ⟨now, Nat.le_refl _, hl, by rw [← hlive, entriesOf, heq, entriesOf]⟩
  · -- The queue is idle, so that everything in it has expired.
    obtain ⟨htouched, hexpiry⟩ := h.touched scope q hq
    refine ⟨now, Nat.le_refl _, hl, ?_⟩
    rw [← hlive, entriesOf, hnone, entriesOf, hq, Option.elim_none, Option.elim_some,
      List.filter_nil, eq_comm, List.filter_eq_nil_iff]
    intro e he
    have hle := h.idle
    have := hexpiry e he
    rw [decide_eq_true_eq]
    omega
  · refine ⟨later scope, hl, Nat.le_refl _, ?_⟩
    rw [← filter_lt_congr hl hlive, ← filter_lt_filter_lt hl, entriesOf, hnone, entriesOf, hq]
    exact hempty.symm
  · refine ⟨now, Nat.le_refl _, hl, ?_⟩
    rw [← hlive, entriesOf, hsome, entriesOf, hq]
    exact filter_lt_filter_lt (Nat.le_refl now)

omit [DecidableEq K] in
theorem Refines.touched_cleanupIfDue (h : m.Refines ttl t pushed) {q}
    (hq : (m.cleanupIfDue now later).scopes scope = some q) :
    q.lastTouched ≤ t ∧ ∀ e ∈ q.entries, e.2 ≤ q.lastTouched + ttl := by
  obtain heq | ⟨old, hold, ⟨hnone, -⟩ | hsome⟩ := m.scopes_cleanupIfDue now later scope
  · exact h.touched scope q (heq ▸ hq)
  · cases hnone.symm.trans hq
  · obtain rfl := Option.mem_unique hsome hq
    obtain ⟨htouched, hexpiry⟩ := h.touched scope old hold
    exact ⟨htouched, fun e he => hexpiry e (List.mem_filter.mp he).1⟩

omit [DecidableEq K] in
theorem Refines.cleaned (h : m.Refines ttl t pushed) (htn : t ≤ c.start) :
    (m.cleanupIfDue c.start c.later).Refines ttl c.stop pushed := by
  refine ⟨fun s => ?_, fun s q hq => ?_, ?_, ?_⟩
  · obtain ⟨u, -, hu, heq⟩ := h.live_cleanupIfDue htn (c.start_le s)
    have hle := c.le_stop s
    rw [← filter_lt_filter_lt (Nat.le_trans (c.start_le s) hle), heq,
      filter_lt_filter_lt (Nat.le_trans hu hle)]
  · obtain ⟨htouched, hexpiry⟩ := h.touched_cleanupIfDue hq
    have := c.start_le s
    have := c.le_stop s
    exact ⟨by omega, hexpiry⟩
  · rw [valueTtl_cleanupIfDue, h.valueTtl]
  · rw [cleanupIfDue]
    split <;> exact h.idle

/-- A clean-up, after which one queue is touched and gets what is pushed. -/
theorem Refines.put (h : m.Refines ttl t pushed) (htn : t ≤ c.start) (scope : K)
    (fresh : List (V × ℕ)) (hfresh : ∀ e ∈ fresh, e.2 = c.start + ttl) :
    Refines { m.cleanupIfDue c.start c.later with
      scopes := update (m.cleanupIfDue c.start c.later).scopes scope
        (some ⟨(m.cleanupIfDue c.start c.later).entriesOf scope ++ fresh, c.start⟩) }
      ttl c.stop (update pushed scope (pushed scope ++ fresh)) := by
  have hcleaned := h.cleaned htn
  refine ⟨fun s => ?_, fun s q hq => ?_, hcleaned.valueTtl, hcleaned.idle⟩
  · have hlive := hcleaned.live s
    by_cases hs : s = scope
    · subst hs
      simp only [entriesOf, update_self, Option.elim_some, List.filter_append] at hlive ⊢
      rw [hlive]
    · simpa only [entriesOf, update_of_ne hs] using hlive
  · rcases update_eq_cases hq with ⟨rfl, hq⟩ | ⟨-, hq⟩
    · obtain ⟨⟩ := hq
      refine ⟨Nat.le_trans (c.start_le s) (c.le_stop s), fun e he => ?_⟩
      rcases List.mem_append.mp he with he | he
      · cases hold : (m.cleanupIfDue c.start c.later).scopes s with
        | none => simp [entriesOf, hold] at he
        | some old =>
          obtain ⟨htouched, hexpiry⟩ := h.touched_cleanupIfDue hold
          simp only [entriesOf, hold, Option.elim_some] at he
          exact Nat.le_trans (hexpiry e he)
            (Nat.add_le_add_right (Nat.le_trans htouched htn) ttl)
      · exact Nat.le_of_eq (hfresh e he)
    · exact hcleaned.touched s q hq

/-- **One call.** -/
theorem Refines.call (h : m.Refines ttl t (pushedTo ttl calls)) (htn : t ≤ c.start) :
    (m.call c).Refines ttl c.stop (pushedTo ttl (calls ++ [c])) := by
  have hto : pushedTo ttl (calls ++ [c]) = _ := funext fun _ => pushedTo_concat
  rw [hto]
  cases hc : c.operation with
  | push s value =>
    convert h.put htn s [(value, c.start + ttl)] (by simp) using 1
    · simp only [ScopedExpiryMap.call, hc, push, ScopeQueue.push, entriesOf, valueTtl_cleanupIfDue,
        h.valueTtl]
      cases (m.cleanupIfDue c.start c.later).scopes s <;> rfl
    · funext s'
      by_cases hs : s' = s
      · subst hs
        simp [Call.empties, Call.pushes, hc]
      · simp [Call.empties, Call.pushes, hc, hs, Ne.symm hs]
  | get s =>
    simp only [ScopedExpiryMap.call, Call.empties, Call.pushes, hc, Bool.false_eq_true, if_false,
      Option.toList_none, List.append_nil, ScopedExpiryMap.get]
    split
    · exact h.cleaned htn
    · rename_i q hq
      simpa [entriesOf, hq] using h.put htn s [] nofun
  | removeScope s =>
    simp only [ScopedExpiryMap.call, hc, removeScope]
    refine ⟨fun s' => ?_, fun s' q hq => ?_, h.valueTtl, h.idle⟩
    · by_cases hs : s' = s
      · subst hs
        simp [Call.empties, hc, entriesOf]
      · have hle := Nat.le_trans (c.start_le s') (c.le_stop s')
        simpa [Call.empties, Call.pushes, hc, hs, Ne.symm hs, entriesOf] using
          filter_lt_congr (Nat.le_trans htn hle) (h.live s')
    · obtain ⟨htouched, hexpiry⟩ := h.touched s' q (of_update_eq hq nofun).2
      have := c.start_le s'
      have := c.le_stop s'
      exact ⟨by omega, hexpiry⟩
  | clear =>
    simp only [ScopedExpiryMap.call, hc, ScopedExpiryMap.clear]
    exact ⟨fun s => by simp [Call.empties, hc, entriesOf], nofun, h.valueTtl, h.idle⟩

theorem Refines.foldl {pre} (h : m.Refines ttl t (pushedTo ttl pre)) (ht : Timed t (calls ++ [c])) :
    ∃ t' ≤ c.start,
      (calls.foldl ScopedExpiryMap.call m).Refines ttl t' (pushedTo ttl (pre ++ calls)) := by
  induction calls generalizing m t pre with
  | nil => exact ⟨t, ht.1, by simpa using h⟩
  | cons d calls ih => simpa using ih (h.call ht.1) ht.2

/-- **Whole histories.** A look-up at the times of a last call finds what was pushed since the scope
was last emptied and has not expired, the newest value first. When that is judged is a time between
its two looks at the clock; for a call that takes no time, both are its start. -/
theorem get_eq_pushed {idle interval start : ℕ} (hidle : ttl ≤ idle)
    (ht : Timed start (calls ++ [c])) :
    ∃ now, c.start ≤ now ∧ now ≤ c.later scope ∧
      ((calls.foldl call (new idle ttl interval start)).get c.start scope c.later).1 =
        ((pushedTo ttl calls scope).reverse.filter fun e => now < e.2).map Prod.fst := by
  have hnew : (new idle ttl interval start : ScopedExpiryMap K V).Refines ttl start
      (pushedTo ttl []) := ⟨fun _ => rfl, nofun, rfl, hidle⟩
  obtain ⟨t, htc, h⟩ := hnew.foldl ht
  obtain ⟨now, hle, hlate, hlive⟩ := h.live_cleanupIfDue htc (c.start_le scope)
  refine ⟨now, hle, hlate, ?_⟩
  rw [List.nil_append] at hlive
  rw [List.filter_reverse, ← hlive, get]
  split <;> rename_i hq
  · simp [entriesOf, hq]
  · simp [entriesOf, hq, ScopeQueue.validValuesNewestFirst]

/-- A clean-up comes between two values, of which the first one has expired. -/
theorem get_eq_pushed_second : (([.instant (.push () 7) 0, .instant (.push () 8) 4].foldl call
    (new 5 5 1 0)).get 5 ()).1 = [8] := by
  have ht : Timed 0 ([.instant (.push () 7) 0, .instant (.push () 8) 4] ++
      [.instant (.get ()) 5]) := by simp [Timed, Call.instant]
  obtain ⟨now, hle, hge, h⟩ := get_eq_pushed (Nat.le_refl 5) ht
  obtain rfl := Nat.le_antisymm hge hle
  exact h

end ScopedExpiryMap

/-! ### One value for a key, as long as it is used -/

/-- `IdleExpiryMap`, without what is done with the values that expire. -/
structure IdleExpiryMap (K V : Type) where
  /-- The values, and when they were last touched. -/
  entries : K → Option (V × ℕ)
  idleTtl : ℕ
  cleanupInterval : ℕ
  lastCleanup : ℕ

namespace IdleExpiryMap

/-- `is_expired`. -/
def isExpired (m : IdleExpiryMap K V) (now : ℕ) (e : V × ℕ) : Bool := m.idleTtl ≤ now - e.2

/-- `cleanup_if_due`. -/
def cleanupIfDue (m : IdleExpiryMap K V) (now : ℕ) : IdleExpiryMap K V :=
  if now - m.lastCleanup < m.cleanupInterval then m
  else { m with
    lastCleanup := now
    entries := fun key => (m.entries key).filter fun e => !m.isExpired now e }

/-- The map after a look at the entry of one key: what is over is not found. Some accesses remove
such an entry, and some leave it for the next one, which does not find it either. -/
def lookUp [DecidableEq K] (m : IdleExpiryMap K V) (now : ℕ) (key : K) : IdleExpiryMap K V :=
  { m with
    entries := update m.entries key
      ((m.entries key).filter fun e => !m.isExpired now e) }

/-- The map when `entry` returns. -/
def entry [DecidableEq K] (m : IdleExpiryMap K V) (now : ℕ) (key : K) : IdleExpiryMap K V :=
  (m.cleanupIfDue now).lookUp now key

variable {m : IdleExpiryMap K V} {now : ℕ} {key : K}

/-- A clean-up removes entries whose time is over, and nothing else. -/
theorem entries_cleanupIfDue (m : IdleExpiryMap K V) (now : ℕ) (key : K) :
    (m.cleanupIfDue now).entries key = m.entries key ∨
      (m.cleanupIfDue now).entries key = none ∧
        ∃ e, m.entries key = some e ∧ m.isExpired now e = true := by
  rw [cleanupIfDue]
  split
  · exact .inl rfl
  · dsimp only
    cases he : m.entries key with
    | none => exact .inl rfl
    | some e =>
      rw [Option.filter_some]
      cases hexpired : m.isExpired now e with
      | false => exact .inl rfl
      | true => exact .inr ⟨rfl, e, rfl, hexpired⟩

theorem entries_lookUp [DecidableEq K] {key'} (h : key' ≠ key) :
    (m.lookUp now key).entries key' = m.entries key' :=
  update_of_ne h _ _

/-- **The entries of other keys.** -/
theorem entries_entry [DecidableEq K] {key'} (h : key' ≠ key) :
    (m.entry now key).entries key' = m.entries key' ∨
      (m.entry now key).entries key' = none ∧
        ∃ e, m.entries key' = some e ∧ m.isExpired now e = true := by
  rw [entry, entries_lookUp h]
  exact m.entries_cleanupIfDue now key'

theorem entries_of_lookUp [DecidableEq K] {key' e} (h : (m.lookUp now key).entries key' = some e) :
    m.entries key' = some e := by
  rcases update_eq_cases h with ⟨rfl, h⟩ | ⟨-, h⟩
  · exact (Option.filter_eq_some_iff.mp h).1
  · exact h

theorem entries_of_entry [DecidableEq K] {key' e} (h : (m.entry now key).entries key' = some e) :
    m.entries key' = some e := by
  have hcleaned := entries_of_lookUp h
  rcases m.entries_cleanupIfDue now key' with heq | ⟨hnone, -⟩
  · exact heq.symm.trans hcleaned
  · cases hnone.symm.trans hcleaned

@[simp] theorem idleTtl_entry [DecidableEq K] : (m.entry now key).idleTtl = m.idleTtl := by
  simp only [entry, lookUp, cleanupIfDue]
  split <;> rfl

end IdleExpiryMap

end Fyles
