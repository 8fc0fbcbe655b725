import Fyles.ExpiringMaps
import Fyles.Internal.Run
import Mathlib

/-!
# What becomes of the values of a map

`p2p/src/data_structures/idle_expiry_map.rs`, with what every call tells its caller and with what is
done with the values that leave the map. A value is put into the map by a call; it leaves when a
caller gets it, when `on_expire` is called with it, or when it is dropped. A call is about the entry
of one key, and does to it what its `Effect` says; most of them clean up first. While a caller has
an `IdleEntry` in its hands, nobody else reaches the map, and time goes on.

A caller that gets a reference to a value may change the value. It is the same value after that, so
the accounts are of what a function `ident` says of the values, which changes do not touch.

## Main results

* `answers_eq_iff` — which calls show when a map cleans up
* `accounted_iff` — which calls let a value vanish
-/

namespace Fyles.IdleExpiryMap

open Function (update update_of_ne update_self)

variable {K V I : Type}

/-! ### Calls -/

/-- What a call does to the entry of its key. -/
structure Effect (V : Type) where
  entry : Option (V × ℕ)
  /-- The value that the caller gets, or gets a reference to. -/
  seen : Option V := none
  /-- Whether the caller has an `IdleEntry` in its hands then. -/
  opened : Bool := false
  /-- The value that was put into the map. -/
  inserted : Option V := none
  /-- The value that the caller owns. -/
  returned : Option V := none
  /-- The value that `on_expire` was called with. -/
  expired : Option V := none

/-- What the caller learns: a value, and which kind of `IdleEntry` it has. -/
def Effect.answer (x : Effect V) : Option V × Option Bool :=
  (x.seen, if x.opened then some x.entry.isSome else none)

/-- The calls of an `IdleEntry`, of an `OccupiedIdleEntry` (from `getMut` on), and of a
`VacantIdleEntry`. Those named `get` are `getMut` without a change. -/
inductive EntryCall (V : Type)
  | insert (value : V)
  | orInsert (default : V)
  | andModify
  | getMut
  | intoMut
  | intoMutOrInsert (default : V)
  | occupiedInsert (value : V)
  | remove
  | destruct
  | vacantInsert (value : V)

/-- The calls of the map, and of the entry that `entry` has returned. -/
inductive Call (K V : Type)
  | insert (key : K) (value : V)
  | getMut (key : K)
  | remove (key : K)
  | entry (key : K)
  | ofEntry (call : EntryCall V)

section Effects

variable (gone : V × ℕ → Bool) (now : ℕ) (change : V → V)

/-- A new value. The caller gets the old one, whether its time is over or not. -/
def put (value : V) (opened : Bool) (e : Option (V × ℕ)) : Effect V where
  entry := some (value, now)
  seen := e.map Prod.fst
  opened := opened
  inserted := some value
  returned := e.map Prod.fst

/-- A new value in an empty place, and a reference to it. -/
def fill (value : V) : Effect V where
  entry := some (change value, now)
  seen := some value
  inserted := some value

/-- A reference to the value, unless its time is over. -/
def touch (opened : Bool) (e : V × ℕ) (otherwise : Effect V) : Effect V :=
  if gone e then otherwise
  else { entry := some (change e.1, now), seen := some e.1, opened := opened }

/-- An entry without a value has not all of the calls, and one with a value neither. -/
def EntryCall.effect : EntryCall V → Option (V × ℕ) → Option (Effect V)
  | .insert value, e => some (put now value false e)
  | .orInsert default, none | .vacantInsert default, none => some (fill now change default)
  | .orInsert default, some e | .intoMutOrInsert default, some e =>
    some (touch gone now change false e
      { fill now change default with expired := some e.1 })
  | .andModify, none => some { entry := none, opened := true }
  -- The closure that replaces the entry ignores the old value.
  | .andModify, some e => some (touch gone now change true e { entry := none, opened := true })
  | .getMut, some e => some (touch gone now change true e { entry := some e, opened := true })
  | .intoMut, some e => some (touch gone now change false e { entry := none, expired := some e.1 })
  | .occupiedInsert value, some e => some (put now value true (some e))
  | .remove, some e => some { entry := none, seen := some e.1, returned := some e.1 }
  | .destruct, some e => some { entry := none, expired := some e.1 }
  | _, _ => none

def Call.effect : Call K V → Option (V × ℕ) → Option (Effect V)
  | .insert _ value, e => some (put now value false e)
  | .getMut _, none | .remove _, none => some { entry := none }
  | .getMut _, some e => some (touch gone now change false e { entry := some e })
  | .remove _, some e =>
    some (if gone e then { entry := none }
      else { entry := none, seen := some e.1, returned := some e.1 })
  | .entry _, none => some { entry := none, opened := true }
  | .entry _, some e =>
    some (if gone e then { entry := none, opened := true, expired := some e.1 }
      else { entry := some e, opened := true })
  | .ofEntry call, e => call.effect gone now change e

end Effects

/-- The key that a call is about. -/
def Call.key (opened : Option K) : Call K V → Option K
  | .insert key _ | .getMut key | .remove key | .entry key => some key
  | .ofEntry _ => opened

/-- A call, when it is made, and what the caller does to the value that it gets a reference to. -/
structure Use (K : Type) (ident : V → I) where
  now : ℕ
  call : Call K V
  change : V → V := id
  same : ∀ value, ident (change value) = ident value := by intro; rfl

/-- A call that changes no value. -/
def Use.plain (now : ℕ) (call : Call K V) : Use K (id : V → V) where
  now := now
  call := call

/-- A map that is used, and the accounts. -/
structure State (K V : Type) where
  map : IdleExpiryMap K V
  keys : Finset K
  /-- The key of the `IdleEntry` that a caller has. -/
  opened : Option K
  now : ℕ
  answers : List (Option V × Option Bool)
  inserted : Multiset V
  returned : Multiset V
  expired : Multiset V

namespace State

/-- `IdleExpiryMap::new`. -/
def new (idleTtl cleanupInterval now : ℕ) : State K V :=
  ⟨⟨fun _ => none, idleTtl, cleanupInterval, now⟩, ∅, none, now, [], 0, 0, 0⟩

/-- The values that the map has. -/
def held (s : State K V) : Multiset V :=
  ∑ key ∈ s.keys, (((s.map.entries key).map Prod.fst).toList : Multiset V)

/-- `cleanup_if_due`, with the calls of `on_expire`. -/
def cleanupIfDue (s : State K V) (now : ℕ) : State K V :=
  { s with
    map := s.map.cleanupIfDue now
    expired := s.expired +
      if now - s.map.lastCleanup < s.map.cleanupInterval then 0
      else ∑ key ∈ s.keys,
        ((((s.map.entries key).filter (s.map.isExpired now)).map Prod.fst).toList : Multiset V) }

/-- The calls that begin with a clean-up. -/
def cleaned (s : State K V) (now : ℕ) : Call K V → State K V
  | .remove _ | .ofEntry _ => s
  | _ => s.cleanupIfDue now

/-- What a call does before it looks for its entry. -/
theorem entries_cleaned (s : State K V) (now : ℕ) (c : Call K V) (key : K) :
    (s.cleaned now c).map.entries key = s.map.entries key ∨
      (s.cleaned now c).map.entries key = none ∧
        ∃ e, s.map.entries key = some e ∧ s.map.isExpired now e = true := by
  rw [cleaned.eq_def]
  split
  · exact .inl rfl
  · exact .inl rfl
  · exact s.map.entries_cleanupIfDue now key

@[simp] theorem idleTtl_cleaned {s : State K V} {now} (c : Call K V) :
    (s.cleaned now c).map.idleTtl = s.map.idleTtl := by
  rw [cleaned.eq_def]
  split
  · rfl
  · rfl
  · simp only [cleanupIfDue, IdleExpiryMap.cleanupIfDue]
    split <;> rfl

@[simp] theorem answers_cleaned {s : State K V} {now} (c : Call K V) :
    (s.cleaned now c).answers = s.answers := by
  cases c <;> rfl

variable [DecidableEq K]

/-- An effect on the entry of a key. -/
def apply (s : State K V) (now : ℕ) (key : K) (x : Effect V) : State K V where
  map := { s.map with entries := update s.map.entries key x.entry }
  keys := insert key s.keys
  opened := if x.opened then some key else none
  now := now
  answers := s.answers ++ [x.answer]
  inserted := s.inserted + x.inserted.toList
  returned := s.returned + x.returned.toList
  expired := s.expired + x.expired.toList

/-- One call. Time does not go back, and only a caller that has an entry can use it. -/
def step {ident : V → I} (s : State K V) (u : Use K ident) : Option (State K V) :=
  if u.now < s.now then none
  else
    let c := s.cleaned u.now u.call
    (u.call.key s.opened).bind fun key =>
      (u.call.effect (s.map.isExpired u.now) u.now u.change (c.map.entries key)).map
        (c.apply u.now key)

end State

/-! ### When a map cleans up -/

section Alike

variable {gone gone' : V × ℕ → Bool} {now : ℕ} {change : V → V} {e e₁ e₂ : Option (V × ℕ)}

/-- The entries of a key in two maps: the same, or one of them is over and the other one is gone. -/
inductive Alike (gone : V × ℕ → Bool) : Option (V × ℕ) → Option (V × ℕ) → Prop
  | same (e : Option (V × ℕ)) : Alike gone e e
  | left {e : V × ℕ} (h : gone e = true) : Alike gone (some e) none
  | right {e : V × ℕ} (h : gone e = true) : Alike gone none (some e)

namespace Alike

theorem symm (h : Alike gone e₁ e₂) : Alike gone e₂ e₁ := by
  cases h with
  | same => exact .same _
  | left h => exact .right h
  | right h => exact .left h

theorem mono (h : Alike gone e₁ e₂) (himp : ∀ e, gone e = true → gone' e = true) :
    Alike gone' e₁ e₂ := by
  cases h with
  | same => exact .same _
  | left h => exact .left (himp _ h)
  | right h => exact .right (himp _ h)

/-- One of the maps cleans up. -/
theorem forget (h : Alike gone e₁ e₂)
    (hforget : e = e₁ ∨ e = none ∧ ∃ x, e₁ = some x ∧ gone x = true) : Alike gone e e₂ := by
  rcases hforget with rfl | ⟨rfl, x, rfl, hx⟩
  · exact h
  · cases h with
    | same => exact .right hx
    | left => exact .same none

end Alike

/-- `IdleExpiryMap::insert`. -/
def Call.isInsert : Call K V → Bool
  | .insert .. => true
  | _ => false

/-- A call is possible on both maps or on none, and leaves them alike. Only `insert` may tell a
difference. -/
theorem Alike.effect (h : Alike gone e₁ e₂) {c : Call K V}
    (hentry : ∀ call, c = .ofEntry call → e₁ = e₂) {x₁}
    (hx : c.effect gone now change e₁ = some x₁) :
    ∃ x₂, c.effect gone now change e₂ = some x₂ ∧ Alike gone x₁.entry x₂.entry ∧
      x₁.opened = x₂.opened ∧ (x₁.opened = true → x₁.entry = x₂.entry) ∧
      (x₁.answer = x₂.answer ↔ (c.isInsert = true → e₁.isSome = e₂.isSome)) := by
  cases h with
  | same => exact ⟨x₁, hx, .same _, rfl, fun _ => rfl, by simp⟩
  | left h | right h =>
    cases c with
    | ofEntry call => cases hentry call rfl
    | _ =>
      obtain ⟨⟩ := hx
      simp [Call.effect, Call.isInsert, Effect.answer, put, touch, h, Alike.same, Alike.left h,
        Alike.right h]

end Alike

section Histories

variable [DecidableEq K] {ident : V → I} {s t : State K V} {u : Use K ident} {now : ℕ} {key : K}

theorem State.step_eq_some : s.step u = some t ↔ s.now ≤ u.now ∧ ∃ key x,
    u.call.key s.opened = some key ∧ u.call.effect (s.map.isExpired u.now) u.now u.change
      ((s.cleaned u.now u.call).map.entries key) = some x ∧
    (s.cleaned u.now u.call).apply u.now key x = t := by
  rw [State.step]
  split
  · next hnow => simp [Nat.not_le.mpr hnow]
  · next hnow => simp [Nat.le_of_not_lt hnow, Option.bind_eq_some_iff]

/-- A call of two maps at the same time. -/
def both (s : State K V × State K V) (u : Use K ident) : Option (State K V × State K V) :=
  (s.1.step u).bind fun t => (s.2.step u).map (t, ·)

/-- No `insert` finds an old value in only one of the maps. -/
def Unseen (s : State K V × State K V) (u : Use K ident) : Prop :=
  ∀ key ∈ u.call.key s.1.opened, u.call.isInsert = true →
    ((s.1.cleaned u.now u.call).map.entries key).isSome =
      ((s.2.cleaned u.now u.call).map.entries key).isSome

instance (s : State K V × State K V) (u : Use K ident) : Decidable (Unseen s u) :=
  inferInstanceAs (Decidable (∀ key ∈ _, _ → _))

/-- Two maps with the same history. -/
structure Related (s : State K V × State K V) : Prop where
  idleTtl : s.1.map.idleTtl = s.2.map.idleTtl
  now : s.1.now = s.2.now
  opened : s.1.opened = s.2.opened
  entries : ∀ key, Alike (s.1.map.isExpired s.1.now) (s.1.map.entries key) (s.2.map.entries key)
  inHand : ∀ key, s.1.opened = some key → s.1.map.entries key = s.2.map.entries key

theorem Related.step {s : State K V × State K V} (h : Related s) (hstep : s.1.step u = some t) :
    ∃ t', s.2.step u = some t' ∧ Related (t, t') ∧
      (s.1.answers = s.2.answers → (t.answers = t'.answers ↔ Unseen s u)) := by
  obtain ⟨hnow, key, x, hkey, hx, rfl⟩ := State.step_eq_some.mp hstep
  have hover : s.2.map.isExpired u.now = s.1.map.isExpired u.now := by
    funext e
    rw [isExpired, isExpired, h.idleTtl]
  have halike key : Alike (s.1.map.isExpired u.now)
      ((s.1.cleaned u.now u.call).map.entries key)
      ((s.2.cleaned u.now u.call).map.entries key) := by
    have hold : Alike (s.1.map.isExpired u.now) (s.1.map.entries key) (s.2.map.entries key) := by
      refine (h.entries key).mono fun e he => ?_
      simp only [isExpired, decide_eq_true_eq] at he ⊢
      omega
    have hforget := s.2.entries_cleaned u.now u.call key
    rw [hover] at hforget
    exact ((hold.forget (s.1.entries_cleaned u.now u.call key)).symm.forget hforget).symm
  obtain ⟨x', hx', hentry, hopened, hinHand, hanswer⟩ := (halike key).effect (fun call hcall => by
    rw [hcall] at hkey ⊢
    exact h.inHand key hkey) hx
  refine ⟨_, State.step_eq_some.mpr ⟨h.now ▸ hnow, key, x', h.opened ▸ hkey, hover ▸ hx', rfl⟩,
    ⟨?_, rfl, ?_, fun key' => ?_, fun key' hkey' => ?_⟩, fun hanswers => ?_⟩
  · simpa [State.apply] using h.idleTtl
  · simp [State.apply, hopened]
  · have hsame : ((s.1.cleaned u.now u.call).apply u.now key x).map.isExpired u.now =
        s.1.map.isExpired u.now := by
      funext e
      simp [isExpired, State.apply]
    change Alike (State.map _ |>.isExpired u.now) _ _
    rw [hsame]
    simp only [State.apply]
    by_cases hne : key' = key
    · subst hne
      simpa using hentry
    · simpa [update_of_ne hne] using halike key'
  · simp only [State.apply, Option.ite_none_right_eq_some, Option.some.injEq] at hkey' ⊢
    obtain ⟨hx, rfl⟩ := hkey'
    simpa using hinHand hx
  · rw [Unseen, hkey]
    simpa [State.apply, hanswers] using hanswer

theorem Related.isSome_both {s : State K V × State K V} {uses : List (Use K ident)} (h : Related s)
    (hrun : (runFrom State.step s.1 uses).isSome) : (runFrom both s uses).isSome := by
  induction uses generalizing s with
  | nil => rfl
  | cons u uses ih =>
    obtain ⟨t, hrun⟩ := Option.isSome_iff_exists.mp hrun
    obtain ⟨t₁, ht₁, hrun⟩ := Option.bind_eq_some_iff.mp hrun
    obtain ⟨t₂, ht₂, ht, -⟩ := h.step ht₁
    rw [runFrom_cons, both, ht₁, ht₂]
    exact ih ht (Option.isSome_of_eq_some hrun)

/-- **What a clean-up shows.** Two maps that differ in when they clean up allow the same calls. They
give the same answers exactly if no `insert` finds that an old value, whose time is over, is in one
of them only. -/
theorem answers_eq_iff {idleTtl interval interval' now : ℕ} {uses : List (Use K ident)}
    (hrun : (runFrom State.step (.new idleTtl interval now) uses).isSome) :
    (runFrom both (.new idleTtl interval now, .new idleTtl interval' now) uses).isSome ∧
      ((∀ pre, pre <+: uses → ∀ s, runFrom both
          (.new idleTtl interval now, .new idleTtl interval' now) pre = some s →
        s.1.answers = s.2.answers) ↔
      Admitted both Unseen (.new idleTtl interval now, .new idleTtl interval' now) uses) := by
  have hnew : Related ((.new idleTtl interval now, .new idleTtl interval' now) :
      State K V × State K V) := ⟨rfl, rfl, rfl, fun _ => .same _, fun _ _ => rfl⟩
  have hboth := hnew.isSome_both hrun
  refine ⟨hboth, forall_prefix_iff_admitted (I := Related) (fun {s t u} hs hstep => ?_)
    (fun {s t u} hs hanswers hstep => ?_) hnew rfl hboth⟩
  · obtain ⟨t₁, ht₁, hstep⟩ := Option.bind_eq_some_iff.mp hstep
    obtain ⟨t₂, ht₂, rfl⟩ := Option.map_eq_some_iff.mp hstep
    obtain ⟨t', ht', hrelated, -⟩ := hs.step ht₁
    rwa [Option.mem_unique ht₂ ht']
  · obtain ⟨t₁, ht₁, hstep⟩ := Option.bind_eq_some_iff.mp hstep
    obtain ⟨t₂, ht₂, rfl⟩ := Option.map_eq_some_iff.mp hstep
    obtain ⟨t', ht', -, hiff⟩ := hs.step ht₁
    rw [Option.mem_unique ht₂ ht']
    exact hiff hanswers

/-- A value whose time is over is found in neither map, although one of them still has it. -/
theorem answers_eq_get : ∃ s, runFrom both (.new 5 1 0, .new 5 100 0)
      [Use.plain 0 (.insert 0 1), .plain 5 (.getMut 0)] = some s ∧ s.1.answers = s.2.answers ∧
    s.1.map.entries 0 = none ∧ s.2.map.entries 0 = some (1, 0) := by
  have hunseen : Admitted both Unseen (.new 5 1 0, .new 5 100 0)
      [Use.plain 0 (.insert 0 1), .plain 5 (.getMut 0)] := by decide
  exact ⟨_, rfl, (answers_eq_iff (by decide)).2.mpr hunseen _ (List.prefix_refl _) _ rfl, rfl, rfl⟩

/-- A second `insert` returns the first value, unless it was removed by a clean-up. -/
theorem insert_returns_expired : ∃ s, runFrom both (.new 5 1 0, .new 5 100 0)
      [Use.plain 0 (.insert 0 1), .plain 5 (.insert 0 2)] = some s ∧
    s.1.answers = [(none, none), (none, none)] ∧ s.2.answers = [(none, none), (some 1, none)] :=
  ⟨_, rfl, rfl, rfl⟩

end Histories

/-! ### Where the values go -/

section Accounts

variable {gone : V × ℕ → Bool} {change : V → V} {ident : V → I} {e : Option (V × ℕ)} {x : Effect V}

/-- No value gets lost, and none comes from nowhere. -/
def Effect.Conserves (ident : V → I) (e : Option (V × ℕ)) (x : Effect V) : Prop :=
  ((e.map Prod.fst).toList + x.inserted.toList : Multiset V).map ident =
    ((x.entry.map Prod.fst).toList + x.returned.toList + x.expired.toList : Multiset V).map ident

/-- The calls that drop a value whose time is over. -/
def Call.drops : Call K V → Bool
  | .remove _ | .ofEntry .andModify => true
  | _ => false

/-- **One call.** -/
theorem Call.conserves_iff {c : Call K V} {now} (hsame : ∀ v, ident (change v) = ident v)
    (hx : c.effect gone now change e = some x) :
    x.Conserves ident e ↔ (c.drops = true → ∀ v ∈ e, gone v = false) := by
  have hswap : ∀ v w : V, ident v ::ₘ {ident w} = ident w ::ₘ {ident v} := fun v w =>
    Multiset.cons_swap _ _ 0
  rcases e with _ | v
  · cases c with
    | ofEntry call =>
      cases call <;> obtain ⟨⟩ := hx <;> simp [Effect.Conserves, drops, put, fill, hsame]
    | _ =>
      obtain ⟨⟩ := hx
      simp [Effect.Conserves, drops, put]
  · by_cases hv : gone v = true
    · cases c with
      | ofEntry call =>
        cases call <;> obtain ⟨⟩ := hx <;>
          simp [Effect.Conserves, drops, put, fill, touch, hv, hsame, hswap v.1]
      | _ =>
        obtain ⟨⟩ := hx
        simp [Effect.Conserves, drops, put, touch, hv, hswap v.1]
    · cases c with
      | ofEntry call =>
        cases call <;> obtain ⟨⟩ := hx <;>
          simp [Effect.Conserves, drops, put, touch, hv, hsame, hswap v.1]
      | _ =>
        obtain ⟨⟩ := hx
        simp [Effect.Conserves, drops, put, touch, hv, hsame, hswap v.1]

end Accounts

namespace State

/-- Every value is in the map, was given to a caller, or `on_expire` was called with it. -/
def Accounted (ident : V → I) (s : State K V) : Prop :=
  s.inserted.map ident = (s.held + s.returned + s.expired).map ident

/-- Nothing is stored under a key that was not used. -/
def Known (s : State K V) : Prop := ∀ key, key ∉ s.keys → s.map.entries key = none

variable {ident : V → I} {s t : State K V} {now : ℕ} {key : K}

/-- A clean-up calls `on_expire` with what it removes. -/
theorem accounted_cleanupIfDue :
    (s.cleanupIfDue now).Accounted ident ↔ s.Accounted ident := by
  simp only [Accounted, held, cleanupIfDue, IdleExpiryMap.cleanupIfDue]
  split
  · rw [add_zero]
  · have hsplit : ∀ key ∈ s.keys, (↑((s.map.entries key).map Prod.fst).toList : Multiset V) =
        ↑(((s.map.entries key).filter fun e => !s.map.isExpired now e).map Prod.fst).toList +
        ↑(((s.map.entries key).filter (s.map.isExpired now)).map Prod.fst).toList := by
      intro key _
      cases s.map.entries key with
      | none => rfl
      | some e => cases he : s.map.isExpired now e <;> simp [Option.filter_some, he]
    rw [Finset.sum_congr rfl hsplit, Finset.sum_add_distrib]
    exact Eq.congr rfl (congrArg _ (by abel))

theorem known_cleaned (h : s.Known) (c : Call K V) : (s.cleaned now c).Known := by
  intro key hkey
  have hnone : s.map.entries key = none := h key (by cases c <;> exact hkey)
  rcases s.entries_cleaned now c key with heq | ⟨heq, -⟩
  · exact heq.trans hnone
  · exact heq

theorem accounted_cleaned (c : Call K V) :
    (s.cleaned now c).Accounted ident ↔ s.Accounted ident := by
  cases c with
  | remove | ofEntry => rfl
  | _ => exact accounted_cleanupIfDue

/-- No call drops the value of an entry. -/
def Spares (s : State K V) (u : Use K ident) : Prop :=
  u.call.drops = true → ∀ key ∈ u.call.key s.opened, ∀ e ∈ s.map.entries key,
    s.map.isExpired u.now e = false

instance (s : State K V) (u : Use K ident) : Decidable (Spares s u) :=
  inferInstanceAs (Decidable (_ → ∀ key ∈ _, ∀ e ∈ _, _))

variable [DecidableEq K] {u : Use K ident}

/-- The value of a key, and the others. -/
theorem held_eq (h : s.Known) (key : K) : s.held = ↑((s.map.entries key).map Prod.fst).toList +
    ∑ key' ∈ s.keys.erase key, ↑((s.map.entries key').map Prod.fst).toList := by
  by_cases hkey : key ∈ s.keys
  · exact (Finset.add_sum_erase _ _ hkey).symm
  · rw [Finset.erase_eq_of_notMem hkey, h key hkey]
    exact (zero_add _).symm

theorem known_apply {x} (h : s.Known) (key : K) : (s.apply now key x).Known := by
  intro key' hkey'
  obtain ⟨hne, hkey'⟩ := not_or.mp (Finset.mem_insert.not.mp hkey')
  exact (update_of_ne hne _ _).trans (h key' hkey')

/-- An effect keeps the accounts exactly if it conserves the values. -/
theorem accounted_apply {x} (h : s.Known) (hs : s.Accounted ident) :
    (s.apply now key x).Accounted ident ↔ x.Conserves ident (s.map.entries key) := by
  have hheld : (s.apply now key x).held = ↑(x.entry.map Prod.fst).toList +
      ∑ key' ∈ s.keys.erase key, ↑((s.map.entries key').map Prod.fst).toList := by
    rw [held_eq (known_apply h key) key]
    simp only [apply, update_self, Finset.erase_insert_eq_erase]
    refine congrArg _ (Finset.sum_congr rfl fun key' hkey' => ?_)
    rw [update_of_ne (Finset.ne_of_mem_erase hkey')]
  rw [Accounted, held_eq h key] at hs
  rw [Accounted, hheld, Effect.Conserves]
  simp only [apply, Multiset.map_add] at hs ⊢
  rw [hs]
  have hcancel : ∀ old rest returned expired inserted new given dropped : Multiset I,
      old + rest + returned + expired + inserted =
        new + rest + (returned + given) + (expired + dropped) ↔
      old + inserted = new + given + dropped := by
    intro old rest returned expired inserted new given dropped
    exact (Eq.congr (by abel) (by abel)).trans (add_right_inj (rest + returned + expired))
  exact hcancel ..

theorem known_step (h : s.Known) (hstep : s.step u = some t) : t.Known := by
  obtain ⟨-, key, x, -, -, rfl⟩ := step_eq_some.mp hstep
  exact known_apply (known_cleaned h _) key

/-- A call keeps the accounts exactly if it drops nothing. -/
theorem accounted_step_iff (h : s.Known) (hs : s.Accounted ident) (hstep : s.step u = some t) :
    t.Accounted ident ↔ Spares s u := by
  obtain ⟨-, key, x, hkey, hx, rfl⟩ := step_eq_some.mp hstep
  rw [accounted_apply (known_cleaned h _) ((accounted_cleaned _).mpr hs),
    Call.conserves_iff u.same hx, Spares, hkey]
  refine imp_congr_right fun hdrops => ?_
  have hsame : s.cleaned u.now u.call = s := by
    cases hcall : u.call with
    | remove | ofEntry => rfl
    | _ => simp [hcall, Call.drops] at hdrops
  simp [hsame]

end State

/-- **Where values vanish.** Every value that was inserted is in the map, was given to one caller,
or `on_expire` was called with it once, exactly as long as no `remove` and no `and_modify` finds a
value whose time is over. -/
theorem accounted_iff {ident : V → I} [DecidableEq K] {idleTtl interval now : ℕ}
    {uses : List (Use K ident)}
    (hrun : (runFrom State.step (.new idleTtl interval now) uses).isSome) :
    (∀ pre, pre <+: uses → ∀ s, runFrom State.step (.new idleTtl interval now) pre = some s →
      s.Accounted ident) ↔ Admitted State.step State.Spares (.new idleTtl interval now) uses :=
  forall_prefix_iff_admitted State.known_step State.accounted_step_iff (fun _ _ => rfl) rfl hrun

/-- A value is removed by a clean-up, and another one by a caller. -/
theorem accounted_removed : ∃ s, runFrom State.step (.new 5 1 0) [Use.plain 0 (.insert 0 1),
      .plain 4 (.insert 1 2), .plain 5 (.getMut 1), .plain 6 (.remove 1)] = some s ∧
    s.Accounted id ∧ s.expired = {1} ∧ s.returned = {2} := by
  have hspares : Admitted State.step State.Spares (.new 5 1 0) [Use.plain 0 (.insert 0 1),
      .plain 4 (.insert 1 2), .plain 5 (.getMut 1), .plain 6 (.remove 1)] := by decide
  exact ⟨_, rfl, (accounted_iff (by decide)).mpr hspares _ (List.prefix_refl _) _ rfl, rfl, rfl⟩

/-- A value whose time is over vanishes when it is removed, and when its entry is to be modified. -/
theorem dropped_silently :
    (∃ s, runFrom State.step (.new 5 100 0) [Use.plain 0 (.insert 0 1), .plain 5 (.remove 0)] =
      some s ∧ s.inserted = {1} ∧ s.held = 0 ∧ s.returned = 0 ∧ s.expired = 0) ∧
    ∃ s, runFrom State.step (.new 5 100 0) [Use.plain 0 (.insert 0 1), .plain 4 (.entry 0),
        .plain 5 (.ofEntry .andModify)] = some s ∧
      s.inserted = {1} ∧ s.held = 0 ∧ s.returned = 0 ∧ s.expired = 0 :=
  ⟨⟨_, rfl, rfl, rfl, rfl, rfl⟩, _, rfl, rfl, rfl, rfl, rfl⟩

end Fyles.IdleExpiryMap
