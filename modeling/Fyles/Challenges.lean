import Fyles.ExpiringMaps

/-!
# Challenges

Whoever presents the challenge of a self contact invite gets the identity of the user, secret keys
included, and whoever presents that of a contact share gets the public contact. A client asks the
brain for a challenge and shows it to the other device, which presents it over the network. Every
handler (`core/src/core/brain/handle_action.rs`) looks at the challenges once, under the lock of
`EphemeralBrainData`, so the handlers come one after the other. The two kinds of challenges are of
different types and are kept apart, each in a `TtlSet`, which is a `TtlMap` without values.

## Main results

* `Challenges.disclosed_once` — what was done about a challenge that is answered
-/

namespace Fyles.Challenges

inductive Kind
  | selfContactInvite
  | contactShare

/-- The times of `EphemeralBrainData::new`, in milliseconds. -/
def Kind.ttl : Kind → ℕ
  | .selfContactInvite => 60000
  | .contactShare => 120000

inductive Action (C A : Type)
  | register (challenge : C)
  | unregister (challenge : C)
  /-- A peer presents a challenge; the contact is what the database returns. -/
  | validate (challenge : C) (contact : Option A)
  /-- `vacuum_if_needed`, with which a registration begins. -/
  | vacuum

variable {C A : Type} [DecidableEq C] (kind : Kind)

/-- Look for a challenge. An invite is used up, also if the database fails afterwards. -/
def find (challenges : TtlMap C Unit) (now : ℕ) (c : C) : TtlMap C Unit × Option Unit :=
  match kind with
  | .selfContactInvite => challenges.remove now c
  | .contactShare => (challenges, challenges.get now c)

/-- The challenges after an action, and what the peer is told. -/
def handle (challenges : TtlMap C Unit) (now : ℕ) : Action C A → TtlMap C Unit × Option A
  | .register c => ((challenges.insert now c ()).1, none)
  | .unregister c => ((challenges.remove now c).1, none)
  | .validate c contact =>
    let (challenges, found) := find kind challenges now c
    (challenges, if found.isSome then contact else none)
  | .vacuum => (challenges.discard fun _ expiry => expiry ≤ now, none)

/-- The challenges after some actions, the last of which comes first. -/
def after (removesStale : Bool) : List (ℕ × Action C A) → TtlMap C Unit
  | [] => .new removesStale kind.ttl
  | (now, action) :: earlier => (handle kind (after removesStale earlier) now action).1

/-- What becomes of a challenge depends on the action. -/
def Action.Decides (c : C) : Action C A → Prop
  | .register c' | .unregister c' => c' = c
  | .validate c' _ => kind = .selfContactInvite ∧ c' = c
  | .vacuum => False

variable {kind} {removesStale : Bool} {history : List (ℕ × Action C A)} {c : C} {now expiry : ℕ}

theorem settings_after : (after kind removesStale history).ttl = kind.ttl ∧
    (after kind removesStale history).removesStale = removesStale := by
  induction history with
  | nil => exact ⟨rfl, rfl⟩
  | cons x earlier ih =>
    obtain ⟨now, action⟩ := x
    cases action with
    | validate => cases kind <;> exact ih
    | _ => exact ih

/-- A challenge that is there is new, or was there before and nothing was decided. -/
theorem handle_cases {challenges : TtlMap C Unit} {action : Action C A}
    (h : (handle kind challenges now action).1.map c = some ((), expiry)) :
    action = .register c ∧ expiry = now + challenges.ttl ∨
      ¬ action.Decides kind c ∧ challenges.map c = some ((), expiry) := by
  cases action with
  | register c' =>
    obtain ⟨rfl, -, rfl⟩ | ⟨hne, hold⟩ := TtlMap.insert_cases h
    · exact .inl ⟨rfl, rfl⟩
    · exact .inr ⟨hne.symm, hold⟩
  | unregister c' => exact .inr ((TtlMap.map_of_map_remove now h).imp_left Ne.symm)
  | validate c' contact =>
    cases kind with
    | selfContactInvite =>
      obtain ⟨hne, hold⟩ := TtlMap.map_of_map_remove now h
      exact .inr ⟨fun hdecides => hne hdecides.2.symm, hold⟩
    | contactShare => exact .inr ⟨by rintro ⟨⟨⟩, -⟩, h⟩
  | vacuum =>
    rw [handle, TtlMap.discard_eq_some] at h
    exact .inr ⟨id, h.1⟩

/-- A challenge that is there was registered, and nothing was decided since then. -/
theorem registered_of_map (h : (after kind removesStale history).map c = some ((), expiry)) :
    ∃ later t earlier, history = later ++ (t, .register c) :: earlier ∧
      expiry = t + kind.ttl ∧ ∀ x ∈ later, ¬ x.2.Decides kind c := by
  induction history with
  | nil => cases h
  | cons x earlier ih =>
    obtain ⟨now, action⟩ := x
    obtain ⟨rfl, rfl⟩ | ⟨hnot, hold⟩ := handle_cases h
    · exact ⟨[], now, earlier, rfl, congrArg _ settings_after.1, nofun⟩
    · obtain ⟨later, t, before, rfl, hexpiry, hlater⟩ := ih hold
      exact ⟨_ :: later, t, before, rfl, hexpiry, List.forall_mem_cons.mpr ⟨hnot, hlater⟩⟩

/-- A challenge that is found is there. -/
theorem map_of_find {challenges : TtlMap C Unit} {u}
    (h : (find kind challenges now c).2 = some u) : ∃ expiry, challenges.map c = some (u, expiry) ∧
      (kind = .contactShare ∨ challenges.removesStale = false → now < expiry) := by
  cases kind with
  | selfContactInvite =>
    obtain ⟨expiry, hmap⟩ := TtlMap.map_of_remove h
    refine ⟨expiry, hmap, ?_⟩
    rintro (hkind | hstale)
    · cases hkind
    · have hget : challenges.get now c = some u := by simpa [find, TtlMap.remove, hstale] using h
      obtain ⟨expiry', hmap', hlt⟩ := TtlMap.get_eq_some.mp hget
      cases hmap.symm.trans hmap'
      exact hlt
  | contactShare =>
    obtain ⟨expiry, hmap, hlt⟩ := TtlMap.get_eq_some.mp h
    exact ⟨expiry, hmap, fun _ => hlt⟩

/-- **A challenge is answered after it was registered**, not withdrawn and, if it is that of an
invite, not presented before, by whomever and with whatever answer. This was not longer ago than the
time to live, for an invite provided that removing a value that has expired does not return it. -/
theorem disclosed_once {contact : Option A} {a : A} (h : (handle kind
      (after kind removesStale history) now (.validate c contact)).2 = some a) :
    contact = some a ∧ ∃ later t earlier, history = later ++ (t, .register c) :: earlier ∧
      (∀ x ∈ later, ¬ x.2.Decides kind c) ∧
      (kind = .contactShare ∨ removesStale = false → now < t + kind.ttl) := by
  obtain ⟨hfound, hcontact⟩ := Option.ite_none_right_eq_some.mp h
  obtain ⟨expiry, hmap, hlive⟩ := map_of_find (Option.eq_some_of_isSome hfound)
  obtain ⟨later, t, earlier, rfl, rfl, hlater⟩ := registered_of_map hmap
  rw [settings_after.2] at hlive
  exact ⟨hcontact, later, t, earlier, rfl, hlater, hlive⟩

/-- An invite is withdrawn and registered again, and another one is presented. -/
def sampleHistory : List (ℕ × Action ℕ Unit) :=
  [(20000, .vacuum), (15000, .validate 8 (some ())), (10000, .register 7), (5000, .unregister 7),
    (1000, .register 8), (0, .register 7)]

/-- The invite is presented half a minute after its first registration. -/
theorem disclosed_once_invite : (handle .selfContactInvite
      (after .selfContactInvite false sampleHistory) 30000 (.validate 7 (some ()))).2 = some () ∧
    ∃ later t earlier, sampleHistory = later ++ (t, .register 7) :: earlier ∧
      (∀ x ∈ later, ¬ x.2.Decides .selfContactInvite 7) ∧
      (Kind.selfContactInvite = .contactShare ∨ false = false →
        30000 < t + Kind.ttl .selfContactInvite) :=
  ⟨rfl, (disclosed_once (a := ()) rfl).2⟩

end Fyles.Challenges
