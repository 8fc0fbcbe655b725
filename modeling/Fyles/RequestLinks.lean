import Fyles.SessionSendReceive
import Mathlib.Data.Set.Card

/-!
# A request is sent again once

`receive_encrypted_response` sends a request again after an error, under a new id of the transport.
What keeps it from doing so for ever is the count of retries in the registration of the request,
which is read in one critical section (`check_request_metadata`), increased in another
(`get_request_for_resend` and `get_request_for_resend_after_session_error`) and moved to the new id
in a third (`update_request_id`). Events may be handled at any time between these, also before the
registration of the id that they are about, and requests may time out meanwhile.

## The invariant

An id under which a request was sent again is *linked* to the id before. The registration of an id
that has such a link has been counted, and so its handler never gets past the check: the id stays
idle (`Linked.resent`). The registration is moved along the link and not made anew, since it is
still under the old id when the new one is recorded (`Linked.counted`).

## Main results

* `Linked.handle`, `Linked.sendEncryptedRequest`, `Linked.record` — what the tasks do to the
  invariant
* `Linked.step` — every step keeps it
* `transmitted_at_most_twice` — no request is sent more than twice, and it keeps its external id
-/

namespace Fyles.SessionSendReceive

open Function (update update_of_ne update_self)

variable {Request Session Res : Type}

/-! ### The invariant -/

/-- The id was given out, no handler works on its event, and the request was not sent again under
another id. -/
def Stage.isIdle : Stage Request → Bool
  | .inTransit | .lost | .over => true
  | .unsent | .checked .. | .resending .. | .resent _ => false

theorem Stage.held_of_isIdle {stage : Stage Request} (h : stage.isIdle) : stage.held = none := by
  cases stage with
  | checked | resending => cases h
  | _ => rfl

/-- Ids are linked to the ids under which their requests were sent again. -/
structure Linked (w : World Request Session Res) : Prop where
  /-- Nothing is known about an id that was not given out. -/
  fresh : ∀ r, w.nextRequestId ≤ r →
    w.stages r = .unsent ∧ w.sends r = none ∧ w.registry.register r = none
  /-- An id that is about to be recorded is not registered. Its event may have been handled. -/
  sending : ∀ r send, w.sends r = some send →
    w.registry.register r = none ∧ (w.stages r).isIdle
  /-- The call that records an id knows which id it is linked to. -/
  updating : ∀ r send, w.sends r = some send →
    ∀ old, send.config = .update old ↔ w.stages old = .resent r
  /-- A request that was sent again is registered under its old id until the new one is recorded. -/
  counted : ∀ r send old, w.sends r = some send → w.stages old = .resent r →
    ∃ it, w.registry.register old = some it ∧ 0 < it.retryCount
  /-- The handler of an error has read the external id of its request. -/
  held : ∀ r externalId, (w.stages r).held = some externalId →
    ∃ it, w.registry.register r = some it ∧ it.externalId = externalId
  /-- A request that is about to be sent again has been counted. -/
  resending : ∀ r nodeId externalId contactId request,
    w.stages r = .resending nodeId externalId contactId request →
      ∀ it, w.registry.register r = some it → 0 < it.retryCount
  /-- An id under which a request was sent again is idle, and has been counted. -/
  resent : ∀ r new, w.stages r = .resent new → new < w.nextRequestId ∧ (w.stages new).isIdle ∧
    ∀ it, w.registry.register new = some it → 0 < it.retryCount
  /-- No id is linked to two. -/
  unique : ∀ r r' new, w.stages r = .resent new → w.stages r' = .resent new → r = r'
  /-- No two requests have the same external id. -/
  injective : ∀ r r' it it', w.registry.register r = some it →
    w.registry.register r' = some it' → it.externalId = it'.externalId → r = r'
  /-- External ids are given out in order. -/
  registered_lt : ∀ r it, w.registry.register r = some it →
    it.externalId < w.registry.nextExternalRequestId

theorem Linked.new : Linked (World.new : World Request Session Res) where
  fresh _ _ := ⟨rfl, rfl, rfl⟩
  sending _ _ h := nomatch h
  updating _ _ h := nomatch h
  counted _ _ _ h := nomatch h
  held _ _ h := nomatch h
  resending _ _ _ _ _ h := nomatch h
  resent _ _ h := nomatch h
  unique _ _ _ h := nomatch h
  injective _ _ _ _ h := nomatch h
  registered_lt _ _ h := nomatch h

variable {w : World Request Session Res} {r : ℕ} {it : RegisteredRequest Request Session}

/-! ### Handling an event -/

/-- What the handler of an event changes. -/
def World.handle (w : World Request Session Res) (r : ℕ) (stage : Stage Request)
    (it : Option (RegisteredRequest Request Session)) (commands : List (Command PeerId))
    (effects : List (Effect Res)) : World Request Session Res :=
  { w with
    stages := update w.stages r stage
    registry := { w.registry with
      register := update w.registry.register r it
      commands := commands }
    effects := w.effects ++ effects }

/-- `Advances w r stage it'`: the handler of the event of `r` takes it to a stage, or the transport
loses it. The registration is removed, or stays with its external id and with no fewer retries. Only
an id that is not linked to another one leaves the idle stages. -/
structure Advances (w : World Request Session Res) (r : ℕ) (stage : Stage Request)
    (it' : Option (RegisteredRequest Request Session)) : Prop where
  before : w.stages r ≠ .unsent ∧ ∀ new, w.stages r ≠ .resent new
  after : ∀ new, stage ≠ .resent new
  same : ∀ j ∈ it', ∃ it, w.registry.register r = some it ∧ j.externalId = it.externalId ∧
    it.retryCount ≤ j.retryCount
  held : ∀ externalId, stage.held = some externalId → ∃ j ∈ it', j.externalId = externalId
  counted : ∀ nodeId externalId contactId request,
    stage = .resending nodeId externalId contactId request → ∀ j ∈ it', 0 < j.retryCount
  idle : stage.isIdle ∨
    (∃ it, w.registry.register r = some it) ∧ ∀ old, w.stages old ≠ .resent r

namespace Advances

variable {stage : Stage Request} {it' : Option (RegisteredRequest Request Session)}

/-- An id becomes idle, and its registration stays or is removed. -/
theorem of_idle (hbefore : w.stages r ≠ .unsent ∧ ∀ new, w.stages r ≠ .resent new)
    (hidle : stage.isIdle) (hsame : ∀ j ∈ it', w.registry.register r = some j) :
    Advances w r stage it' where
  before := hbefore
  after := by
    rintro new rfl
    cases hidle
  same j hj := ⟨j, hsame j hj, rfl, Nat.le_refl _⟩
  held externalId hheld := by
    rw [Stage.held_of_isIdle hidle] at hheld
    cases hheld
  counted := by
    rintro _ _ _ _ rfl
    cases hidle
  idle := .inl hidle

/-- Every registration was there before, with the same external id. -/
theorem register_before (h : Advances w r stage it') {r' : ℕ} {j}
    (hj : update w.registry.register r it' r' = some j) :
    ∃ j', w.registry.register r' = some j' ∧ j.externalId = j'.externalId ∧
      j'.retryCount ≤ j.retryCount := by
  rcases update_eq_cases hj with ⟨rfl, hnew⟩ | ⟨-, hold⟩
  · exact h.same j hnew
  · exact ⟨j, hold, rfl, Nat.le_refl _⟩

theorem resent_iff (h : Advances w r stage it') {old new : ℕ} :
    update w.stages r stage old = .resent new ↔ w.stages old = .resent new := by
  constructor
  · intro hst
    exact (of_update_eq hst (h.after new)).2
  · intro hst
    have hne : old ≠ r := fun hc => h.before.2 new (hc ▸ hst)
    exact (update_of_ne hne _ _).trans hst

end Advances

theorem Linked.handle (h : Linked w) {stage it'} (ha : Advances w r stage it')
    (commands : List (Command PeerId)) (effects : List (Effect Res)) :
    Linked (w.handle r stage it' commands effects) := by
  have hstages : ∀ {r'}, r' ≠ r → update w.stages r stage r' = w.stages r' :=
    fun hne => update_of_ne hne _ _
  have hregister : ∀ {r'}, r' ≠ r →
      update w.registry.register r it' r' = w.registry.register r' :=
    fun hne => update_of_ne hne _ _
  constructor
  case fresh =>
    intro r' hr'
    obtain ⟨h1, h2, h3⟩ := h.fresh r' hr'
    have hne : r' ≠ r := fun hc => ha.before.1 (hc ▸ h1)
    exact ⟨(hstages hne).trans h1, h2, (hregister hne).trans h3⟩
  case sending =>
    intro r' send hs
    obtain ⟨h1, h2⟩ := h.sending r' send hs
    show update w.registry.register r it' r' = none ∧
      (update w.stages r stage r').isIdle
    by_cases hr' : r' = r
    · subst hr'
      rw [update_self, update_self]
      constructor
      · refine Option.eq_none_iff_forall_not_mem.mpr fun j hj => ?_
        obtain ⟨it, hit, -⟩ := ha.same j hj
        cases h1.symm.trans hit
      · refine ha.idle.resolve_right ?_
        rintro ⟨⟨it, hit⟩, -⟩
        cases h1.symm.trans hit
    · rw [hstages hr', hregister hr']
      exact ⟨h1, h2⟩
  case updating =>
    intro r' send hs old
    exact (h.updating r' send hs old).trans ha.resent_iff.symm
  case counted =>
    intro r' send old hs hst
    have hst' := ha.resent_iff.mp hst
    obtain ⟨it, hit, hlt⟩ := h.counted r' send old hs hst'
    have hne : old ≠ r := fun hc => ha.before.2 r' (hc ▸ hst')
    exact ⟨it, (hregister hne).trans hit, hlt⟩
  case held =>
    intro r' externalId hheld
    change (update w.stages r stage r').held = _ at hheld
    show ∃ j, update w.registry.register r it' r' = some j ∧ _
    by_cases hr' : r' = r
    · subst hr'
      rw [update_self] at hheld ⊢
      exact ha.held externalId hheld
    · rw [hstages hr'] at hheld
      rw [hregister hr']
      exact h.held r' externalId hheld
  case resending =>
    intro r' nodeId externalId contactId request hst j hj
    change update w.stages r stage r' = _ at hst
    change update w.registry.register r it' r' = _ at hj
    by_cases hr' : r' = r
    · subst hr'
      rw [update_self] at hst hj
      exact ha.counted _ _ _ _ hst j hj
    · rw [hstages hr'] at hst
      rw [hregister hr'] at hj
      exact h.resending r' _ _ _ _ hst j hj
  case resent =>
    intro r₁ new hst
    have hst' := ha.resent_iff.mp hst
    obtain ⟨hlt, hidle, hcount⟩ := h.resent r₁ new hst'
    refine ⟨hlt, ?_, ?_⟩
    · show (update w.stages r stage new).isIdle
      by_cases hnew : new = r
      · subst hnew
        rw [update_self]
        exact ha.idle.resolve_right fun hc => hc.2 r₁ hst'
      · rw [hstages hnew]
        exact hidle
    · intro j hj
      obtain ⟨j', hj', -, hle⟩ := ha.register_before hj
      exact Nat.lt_of_lt_of_le (hcount j' hj') hle
  case unique =>
    intro r₁ r₂ new h1 h2
    exact h.unique r₁ r₂ new (ha.resent_iff.mp h1) (ha.resent_iff.mp h2)
  case injective =>
    intro r₁ r₂ j₁ j₂ h1 h2 hext
    obtain ⟨k₁, hk₁, hext₁, -⟩ := ha.register_before h1
    obtain ⟨k₂, hk₂, hext₂, -⟩ := ha.register_before h2
    exact h.injective r₁ r₂ k₁ k₂ hk₁ hk₂ (by rw [← hext₁, ← hext₂, hext])
  case registered_lt =>
    intro r' j hj
    obtain ⟨k, hk, hext, -⟩ := ha.register_before hj
    rw [hext]
    exact h.registered_lt r' k hk

/-- An id whose stage changes while its registration stays. -/
theorem Linked.advance (h : Linked w) {stage} (ha : Advances w r stage (w.registry.register r))
    (effects : List (Effect Res)) : Linked { w with
      stages := update w.stages r stage
      effects := w.effects ++ effects } := by
  have heq : w.handle r stage (w.registry.register r) w.registry.commands effects = { w with
      stages := update w.stages r stage
      effects := w.effects ++ effects } := by
    rw [World.handle, Function.update_eq_self]
  rw [← heq]
  exact h.handle ha _ _

/-- An id whose event is being handled was given out, and is not linked to a new one. -/
theorem stage_of_held {externalId : ℕ} (hheld : (w.stages r).held = some externalId) :
    w.stages r ≠ .unsent ∧ ∀ new, w.stages r ≠ .resent new := by
  refine ⟨?_, fun new => ?_⟩ <;> intro hst <;> rw [hst] at hheld <;> cases hheld

theorem stage_of_inTransit (hstage : w.stages r = .inTransit) :
    w.stages r ≠ .unsent ∧ ∀ new, w.stages r ≠ .resent new := by
  refine ⟨?_, fun new => ?_⟩ <;> rw [hstage] <;> intro hst <;> cases hst

/-- An id whose event is being handled is not linked to an old one. -/
theorem Linked.not_resent_of_held (h : Linked w) {externalId : ℕ}
    (hheld : (w.stages r).held = some externalId) (old : ℕ) : w.stages old ≠ .resent r := by
  intro hst
  rw [Stage.held_of_isIdle (h.resent old r hst).2.1] at hheld
  cases hheld

/-- The handler of an event is done, and the registration stays. -/
theorem Linked.report (h : Linked w) (effect : Effect Res)
    (hbefore : w.stages r ≠ .unsent ∧ ∀ new, w.stages r ≠ .resent new) :
    Linked (w.report r effect) :=
  h.advance (.of_idle hbefore rfl fun _ hj => hj) [effect]

/-! ### Sending -/

/-- `Issues w send stages`: the call `send` gets a new id. If it sends a request again then the
handler that has called it goes on, and its id is linked to the new one. -/
structure Issues (w : World Request Session Res) (send : SendInternal Request Session)
    (stages : ℕ → Stage Request) : Prop where
  same : ∀ r, send.config ≠ .update r → stages r = w.stages r
  linked : ∀ old, send.config = .update old → stages old = .resent w.nextRequestId ∧
    ∃ nodeId externalId contactId request,
      w.stages old = .resending nodeId externalId contactId request

namespace Issues

variable {send : SendInternal Request Session} {stages : ℕ → Stage Request}

/-- A new request is sent. -/
theorem register {idempotent : Bool} (hconfig : send.config = .register idempotent) :
    Issues w send w.stages := by
  refine ⟨fun _ _ => rfl, fun old hc => ?_⟩
  cases hconfig.symm.trans hc

/-- The handler of an error sends its request again. -/
theorem resend {nodeId : PeerId} {externalId : ℕ} {contactId request}
    (hstage : w.stages r = .resending nodeId externalId contactId request)
    (hconfig : send.config = .update r) :
    Issues w send (update w.stages r (.resent w.nextRequestId)) := by
  refine ⟨fun r' hr' => update_of_ne (fun hc => hr' ?_) _ _, fun old hc => ?_⟩
  · rw [hc, hconfig]
  obtain rfl := SendInternalConfig.update.inj (hconfig.symm.trans hc)
  exact ⟨update_self _ _ _, _, _, _, _, hstage⟩

/-- An id keeps its stage unless its handler is the one that sends. -/
theorem stages_cases (hs : Issues w send stages) (r : ℕ) :
    stages r = w.stages r ∨ send.config = .update r ∧ stages r = .resent w.nextRequestId ∧
      ∃ nodeId externalId contactId request,
        w.stages r = .resending nodeId externalId contactId request := by
  by_cases hc : send.config = .update r
  · exact .inr ⟨hc, hs.linked r hc⟩
  · exact .inl (hs.same r hc)

/-- An id whose handler is not about to send keeps its stage. -/
theorem stages_eq (hs : Issues w send stages) {r : ℕ}
    (hne : ∀ nodeId externalId contactId request,
      w.stages r ≠ .resending nodeId externalId contactId request) : stages r = w.stages r := by
  refine (hs.stages_cases r).resolve_right ?_
  rintro ⟨-, -, _, _, _, _, hst⟩
  exact hne _ _ _ _ hst

theorem stages_of_isIdle (hs : Issues w send stages) {r : ℕ} (hi : (w.stages r).isIdle) :
    stages r = w.stages r :=
  hs.stages_eq fun _ _ _ _ hst => by
    rw [hst] at hi
    cases hi

theorem stages_of_held (hs : Issues w send stages) {r externalId : ℕ}
    (hheld : (update stages w.nextRequestId .inTransit r).held = some externalId) :
    w.stages r = update stages w.nextRequestId .inTransit r := by
  have hne : r ≠ w.nextRequestId := by
    rintro rfl
    rw [update_self] at hheld
    cases hheld
  rw [update_of_ne hne] at hheld ⊢
  rcases hs.stages_cases r with hc | ⟨-, hc, -⟩
  · exact hc.symm
  · rw [hc] at hheld
    cases hheld

/-- The links are those from before, and the one to the new id. -/
theorem resent_cases (hs : Issues w send stages) (h : Linked w) {old new : ℕ}
    (hst : update stages w.nextRequestId .inTransit old = .resent new) :
    w.stages old = .resent new ∧ new < w.nextRequestId ∨
      new = w.nextRequestId ∧ send.config = .update old := by
  obtain ⟨-, hst⟩ := of_update_eq hst nofun
  rcases hs.stages_cases old with hc | ⟨hc, hnext, -⟩
  · rw [hc] at hst
    exact .inl ⟨hst, (h.resent old new hst).1⟩
  · exact .inr ⟨(Stage.resent.inj (hnext.symm.trans hst)).symm, hc⟩

theorem resent_iff (hs : Issues w send stages) (h : Linked w) {old new : ℕ}
    (hne : new ≠ w.nextRequestId) :
    update stages w.nextRequestId .inTransit old = .resent new ↔
      w.stages old = .resent new := by
  constructor
  · intro hst
    exact ((hs.resent_cases h hst).resolve_right fun hc => hne hc.1).1
  · intro hst
    have hold : old ≠ w.nextRequestId := by
      rintro rfl
      cases (h.fresh _ (Nat.le_refl _)).1.symm.trans hst
    rw [update_of_ne hold, hs.stages_eq (by rw [hst]; nofun), hst]

theorem resent_next_iff (hs : Issues w send stages) (h : Linked w) {old : ℕ} :
    update stages w.nextRequestId .inTransit old = .resent w.nextRequestId ↔
      send.config = .update old := by
  constructor
  · intro hst
    exact ((hs.resent_cases h hst).resolve_left fun hc => Nat.lt_irrefl _ hc.2).2
  · intro hc
    obtain ⟨hst, _, _, _, _, hold⟩ := hs.linked old hc
    have hne : old ≠ w.nextRequestId := by
      rintro rfl
      cases (h.fresh _ (Nat.le_refl _)).1.symm.trans hold
    exact (update_of_ne hne _ _).trans hst

end Issues

/-- A new id is in transit, and about to be recorded. -/
theorem Linked.sendEncryptedRequest (h : Linked w) {send} {stages : ℕ → Stage Request}
    (hi : Issues w send stages) :
    Linked (World.sendEncryptedRequest { w with stages := stages } send) := by
  obtain ⟨-, -, hunregistered⟩ := h.fresh w.nextRequestId (Nat.le_refl _)
  constructor
  case fresh =>
    intro r' hr'
    change w.nextRequestId + 1 ≤ r' at hr'
    have hne : r' ≠ w.nextRequestId := by omega
    obtain ⟨h1, h2, h3⟩ := h.fresh r' (by omega)
    refine ⟨(update_of_ne hne _ _).trans ?_, (update_of_ne hne _ _).trans h2, h3⟩
    exact (hi.stages_eq (by rw [h1]; nofun)).trans h1
  case sending =>
    intro r' send' hs
    show _ ∧ (update stages w.nextRequestId .inTransit r').isIdle
    rcases update_eq_cases hs with ⟨rfl, -⟩ | ⟨hne, hs⟩
    · rw [update_self]
      exact ⟨hunregistered, rfl⟩
    · obtain ⟨h1, h2⟩ := h.sending r' send' hs
      rw [update_of_ne hne, hi.stages_of_isIdle h2]
      exact ⟨h1, h2⟩
  case updating =>
    intro r' send' hs old
    rcases update_eq_cases hs with ⟨rfl, hsend⟩ | ⟨hne, hs⟩
    · obtain ⟨⟩ := hsend
      exact (hi.resent_next_iff h).symm
    · exact (h.updating r' send' hs old).trans (hi.resent_iff h hne).symm
  case counted =>
    intro r' send' old hs hst
    rcases update_eq_cases hs with ⟨rfl, -⟩ | ⟨hne, hs⟩
    · obtain ⟨-, _, externalId, _, _, hold⟩ := hi.linked old ((hi.resent_next_iff h).mp hst)
      obtain ⟨it, hit, -⟩ := h.held old externalId (by rw [hold]; rfl)
      exact ⟨it, hit, h.resending old _ _ _ _ hold it hit⟩
    · exact h.counted r' send' old hs ((hi.resent_iff h hne).mp hst)
  case held =>
    intro r' externalId hheld
    have hst := hi.stages_of_held hheld
    exact h.held r' externalId (hst ▸ hheld)
  case resending =>
    intro r' nodeId externalId contactId request hst it hit
    change update stages w.nextRequestId .inTransit r' = _ at hst
    have hst' := hi.stages_of_held (by rw [hst]; rfl)
    exact h.resending r' _ _ _ _ (hst'.trans hst) it hit
  case resent =>
    intro old new hst
    show new < w.nextRequestId + 1 ∧
      (update stages w.nextRequestId .inTransit new).isIdle ∧ _
    rcases hi.resent_cases h hst with ⟨hst, hlt⟩ | ⟨rfl, -⟩
    · obtain ⟨-, hidle, hcount⟩ := h.resent old new hst
      rw [update_of_ne (Nat.ne_of_lt hlt), hi.stages_of_isIdle hidle]
      exact ⟨Nat.lt_succ_of_lt hlt, hidle, hcount⟩
    · rw [update_self]
      refine ⟨Nat.lt_succ_self _, rfl, fun it hit => ?_⟩
      cases hunregistered.symm.trans hit
  case unique =>
    intro r₁ r₂ new h1 h2
    by_cases hnew : new = w.nextRequestId
    · subst hnew
      exact SendInternalConfig.update.inj
        (((hi.resent_next_iff h).mp h1).symm.trans ((hi.resent_next_iff h).mp h2))
    · exact h.unique r₁ r₂ new ((hi.resent_iff h hnew).mp h1) ((hi.resent_iff h hnew).mp h2)
  case injective => exact h.injective
  case registered_lt => exact h.registered_lt

/-! ### Recording an id -/

variable {send : SendInternal Request Session} {old : ℕ}

/-- The world after a new registration. -/
def World.registered (w : World Request Session Res) (r : ℕ) (nodeId : PeerId)
    (data : Option (RegisteredRequestData Request Session)) : World Request Session Res :=
  { w with
    registry := (w.registry.insert r nodeId data).2
    sends := update w.sends r none }

@[simp] theorem World.register_registered_self (nodeId : PeerId)
    (data : Option (RegisteredRequestData Request Session)) :
    (w.registered r nodeId data).registry.register r =
      some ⟨w.registry.nextExternalRequestId, 0, data⟩ :=
  update_self _ _ _

theorem World.register_registered_of_ne (nodeId : PeerId)
    (data : Option (RegisteredRequestData Request Session)) {r' : ℕ} (hne : r' ≠ r) :
    (w.registered r nodeId data).registry.register r' = w.registry.register r' :=
  update_of_ne hne _ _

/-- The world after a registration has moved to a new id. -/
def World.moved (w : World Request Session Res) (r old : ℕ)
    (it : RegisteredRequest Request Session) : World Request Session Res :=
  { w with
    registry := { w.registry with
      register := update (update w.registry.register old none) r (some it) }
    sends := update w.sends r none }

theorem World.sends_of_update {r' : ℕ} {send'} (hs : update w.sends r none r' = some send') :
    r' ≠ r ∧ w.sends r' = some send' :=
  of_update_eq hs (Option.some_ne_none send').symm

/-- A registration that has moved was at the old id. -/
theorem World.register_moved {r' : ℕ} {j} (hj : (w.moved r old it).registry.register r' = some j) :
    r' = r ∧ j = it ∨ r' ≠ r ∧ r' ≠ old ∧ w.registry.register r' = some j := by
  rcases update_eq_cases hj with ⟨rfl, hnew⟩ | ⟨hr', hj⟩
  · exact .inl ⟨rfl, (Option.some.inj hnew).symm⟩
  · exact .inr ⟨hr', of_update_eq hj (Option.some_ne_none j).symm⟩

theorem World.register_moved_self (w : World Request Session Res) (r old : ℕ)
    (it : RegisteredRequest Request Session) :
    (w.moved r old it).registry.register r = some it :=
  update_self _ _ _

theorem World.register_moved_of_ne (w : World Request Session Res) {r old r' : ℕ}
    (it : RegisteredRequest Request Session) (hr' : r' ≠ r) (hold : r' ≠ old) :
    (w.moved r old it).registry.register r' = w.registry.register r' :=
  (update_of_ne hr' _ _).trans (update_of_ne hold _ _)

theorem Linked.not_held (h : Linked w) (hsend : w.sends r = some send) : (w.stages r).held = none :=
  Stage.held_of_isIdle (h.sending r send hsend).2

/-- A call of `send_internal` that finds no registration under the old id has none to look for. -/
theorem Linked.not_resent_of_sends (h : Linked w) (hsend : w.sends r = some send)
    (hupdate : ∀ old, send.config = .update old → w.registry.register old = none) (old : ℕ) :
    w.stages old ≠ .resent r := by
  intro hst
  obtain ⟨it, hit, -⟩ := h.counted r send old hsend hst
  cases (hupdate old ((h.updating r send hsend old).mpr hst)).symm.trans hit

/-- **An id is recorded.** The registrations of the others stay, but for that of the id which it is
linked to. -/
theorem Linked.record (h : Linked w) (hsend : w.sends r = some send)
    {registry : TimeoutRequestRegistry ℕ PeerId Request Session}
    (hself : registry.register r = some it)
    (hother : ∀ r' ≠ r, ∀ j, registry.register r' = some j → w.registry.register r' = some j)
    (hstays : ∀ r' ≠ r, w.stages r' ≠ .resent r →
      registry.register r' = w.registry.register r')
    (hcounted : ∀ old, w.stages old = .resent r → 0 < it.retryCount)
    (hdistinct : ∀ r' ≠ r, ∀ j, registry.register r' = some j → j.externalId ≠ it.externalId)
    (hlt : ∀ r' j, registry.register r' = some j → j.externalId < registry.nextExternalRequestId) :
    Linked { w with registry := registry, sends := update w.sends r none } := by
  obtain ⟨hnone, hidle⟩ := h.sending r send hsend
  constructor
  case fresh =>
    intro r' hr'
    obtain ⟨h1, h2, h3⟩ := h.fresh r' hr'
    have hne : r' ≠ r := by
      rintro rfl
      cases h2.symm.trans hsend
    have hlink : w.stages r' ≠ .resent r := by
      rw [h1]
      nofun
    exact ⟨h1, (update_of_ne hne _ _).trans h2, (hstays r' hne hlink).trans h3⟩
  case sending =>
    intro r' send' hs
    obtain ⟨hne, hs⟩ := World.sends_of_update hs
    obtain ⟨h1, h2⟩ := h.sending r' send' hs
    refine ⟨Option.eq_none_iff_forall_not_mem.mpr fun j hj => ?_, h2⟩
    cases h1.symm.trans (hother r' hne j hj)
  case updating => exact fun r' send' hs => h.updating r' send' (World.sends_of_update hs).2
  case counted =>
    intro r' send' old hs hst
    obtain ⟨hne, hs⟩ := World.sends_of_update hs
    obtain ⟨j, hj, hcount⟩ := h.counted r' send' old hs hst
    have hold : old ≠ r := by
      rintro rfl
      cases hnone.symm.trans hj
    have hlink : w.stages old ≠ .resent r := fun hc =>
      hne (Stage.resent.inj (Eq.trans (Eq.symm hst) hc))
    exact ⟨j, (hstays old hold hlink).trans hj, hcount⟩
  case held =>
    intro r' externalId hheld
    have hne : r' ≠ r := by
      rintro rfl
      cases (h.not_held hsend).symm.trans hheld
    obtain ⟨j, hj, hext⟩ := h.held r' externalId hheld
    exact ⟨j, (hstays r' hne ((stage_of_held hheld).2 r)).trans hj, hext⟩
  case resending =>
    intro r' nodeId externalId contactId request hst j hj
    have hne : r' ≠ r := by
      rintro rfl
      rw [show w.stages r' = _ from hst] at hidle
      cases hidle
    exact h.resending r' _ _ _ _ hst j (hother r' hne j hj)
  case resent =>
    intro r' new hst
    obtain ⟨h1, h2, h3⟩ := h.resent r' new hst
    refine ⟨h1, h2, fun j hj => ?_⟩
    by_cases hnew : new = r
    · subst hnew
      obtain rfl := Option.mem_unique hself hj
      exact hcounted r' hst
    · exact h3 j (hother new hnew j hj)
  case unique => exact h.unique
  case injective =>
    intro r' r'' j j' hj hj' hext
    by_cases hr' : r' = r
    · by_cases hr'' : r'' = r
      · rw [hr', hr'']
      · subst hr'
        obtain rfl := Option.mem_unique hself hj
        exact absurd hext.symm (hdistinct r'' hr'' j' hj')
    · by_cases hr'' : r'' = r
      · subst hr''
        obtain rfl := Option.mem_unique hself hj'
        exact absurd hext (hdistinct r' hr' j hj)
      · exact h.injective r' r'' j j' (hother r' hr' j hj) (hother r'' hr'' j' hj') hext
  case registered_lt => exact hlt

/-- A request that was not sent again is registered. -/
theorem Linked.registered (h : Linked w) (hsend : w.sends r = some send)
    (hfirst : ∀ old, w.stages old ≠ .resent r) (nodeId : PeerId)
    (data : Option (RegisteredRequestData Request Session)) :
    Linked (w.registered r nodeId data) := by
  have hself := World.register_registered_self (w := w) (r := r) nodeId data
  have hother := fun r' (hne : r' ≠ r) =>
    World.register_registered_of_ne (w := w) nodeId data hne
  -- the new external id is larger than all others
  have hlt : ∀ r' ≠ r, ∀ j, (w.registered r nodeId data).registry.register r' = some j →
      j.externalId < w.registry.nextExternalRequestId :=
    fun r' hne j hj => h.registered_lt r' j ((hother r' hne).symm.trans hj)
  refine h.record hsend hself (fun r' hne j hj => (hother r' hne).symm.trans hj)
    (fun r' hne _ => hother r' hne) (fun old hst => absurd hst (hfirst old))
    (fun r' hne j hj => Nat.ne_of_lt (hlt r' hne j hj)) fun r' j hj => ?_
  by_cases hr' : r' = r
  · subst hr'
    obtain rfl := Option.mem_unique hself hj
    exact Nat.lt_succ_self _
  · exact Nat.lt_succ_of_lt (hlt r' hr' j hj)

theorem Linked.moved (h : Linked w) (hsend : w.sends r = some send)
    (hconfig : send.config = .update old) (hit : w.registry.register old = some it) :
    Linked (w.moved r old it) := by
  have hstage := (h.updating r send hsend old).mp hconfig
  have hother : ∀ r' ≠ r, ∀ j, (w.moved r old it).registry.register r' = some j →
      r' ≠ old ∧ w.registry.register r' = some j := fun r' hne j hj =>
    ((World.register_moved hj).resolve_left fun hc => hne hc.1).2
  refine h.record hsend (World.register_moved_self w r old it)
    (fun r' hne j hj => (hother r' hne j hj).2) (fun r' hne hlink => ?_) (fun _ _ => ?_)
    (fun r' hne j hj hext => ?_) fun r' j hj => ?_
  · exact World.register_moved_of_ne w it hne fun hc => hlink (hc ▸ hstage)
  · obtain ⟨j, hj, hlt⟩ := h.counted r send old hsend hstage
    exact Option.mem_unique hj hit ▸ hlt
  · obtain ⟨hold, hj⟩ := hother r' hne j hj
    exact hold (h.injective _ _ _ _ hj hit hext)
  · rcases World.register_moved hj with ⟨rfl, rfl⟩ | ⟨-, -, hj⟩
    · exact h.registered_lt old _ hit
    · exact h.registered_lt r' j hj

/-! ### Every run -/

theorem Linked.move (h : Linked w) {w' e} (hmove : Move w e w') : Linked w' := by
  cases hmove with
  | unsent => exact h
  | sent => exact h.sendEncryptedRequest (.register rfl)
  | registered hsend hdata hupdate =>
    exact h.registered hsend (h.not_resent_of_sends hsend hupdate) _ _
  | moved hsend hconfig hit => exact h.moved hsend hconfig hit
  | unknown hstage hit heffect => exact h.report _ (stage_of_inTransit hstage)
  | answered hstage hit heffect =>
    have ha : Advances w _ .over none := .of_idle (stage_of_inTransit hstage) rfl nofun
    exact h.handle ha _ _
  | refused hstage hit heffect => exact h.report _ (stage_of_inTransit hstage)
  | @checked nodeId requestId error it hstage hit hretry =>
    have ha : Advances w requestId (.checked nodeId it.externalId error)
        (w.registry.register requestId) := by
      refine ⟨stage_of_inTransit hstage, nofun, fun j hj => ⟨j, hj, rfl, Nat.le_refl _⟩, ?_,
        nofun, .inr ⟨⟨it, hit⟩, fun old hst => ?_⟩⟩
      · rintro externalId ⟨⟩
        exact ⟨it, hit, rfl⟩
      · -- the registration has not been counted, so the id is not linked to an old one
        have hlt := (h.resent old requestId hst).2.2 it hit
        omega
    simpa using h.advance ha []
  | unfetched hheld heffect => exact h.report _ (stage_of_held hheld)
  | @fetched requestId _ nodeId externalId error it data effects hstage hit hdata hresend
      heffects =>
    have hheld : (w.stages requestId).held = some externalId := by rw [hstage]; rfl
    obtain ⟨_, hit', rfl⟩ := h.held requestId externalId hheld
    obtain rfl := Option.mem_unique hit hit'
    have ha : Advances w requestId
        (.resending nodeId it.externalId data.contactId data.request)
        (some { it with retryCount := it.retryCount + 1 }) := by
      refine ⟨stage_of_held hheld, nofun, ?_, ?_, ?_,
        .inr ⟨⟨it, hit⟩, h.not_resent_of_held hheld⟩⟩
      · rintro j ⟨⟩
        exact ⟨it, hit, rfl, Nat.le_succ _⟩
      · rintro externalId ⟨⟩
        exact ⟨_, rfl, rfl⟩
      · rintro _ _ _ _ - j ⟨⟩
        exact Nat.succ_pos _
    exact h.handle ha _ _
  | unresent hheld heffect => exact h.report _ (stage_of_held hheld)
  | resent hstage => exact h.sendEncryptedRequest (.resend hstage rfl)
  | lost hstage =>
    simpa using h.advance (.of_idle (stage_of_inTransit hstage) rfl fun _ hj => hj) []
  | polled hpoll => exact { h with }

/-- `Caused w first r`: the request that was sent under the id `first` was sent under the id `r`. -/
inductive World.Caused (w : World Request Session Res) (first : ℕ) : ℕ → Prop
  | first : Caused w first first
  | again {r new : ℕ} : Caused w first r → w.stages r = .resent new → Caused w first new

/-- A request that was sent again is not sent again. -/
theorem Linked.caused (h : Linked w) {first : ℕ} (hr : w.Caused first r) :
    r = first ∨ w.stages first = .resent r := by
  induction hr with
  | first => exact .inl rfl
  | again _ hst ih =>
    rcases ih with rfl | hfirst
    · exact .inr hst
    · have hidle := (h.resent _ _ hfirst).2.1
      rw [hst] at hidle
      cases hidle

theorem Linked.encard_caused (h : Linked w) (first : ℕ) : {r | w.Caused first r}.encard ≤ 2 := by
  obtain ⟨new, hnew⟩ : ∃ new, ∀ r, w.stages first = .resent r → r = new := by
    by_cases hst : ∃ new, w.stages first = .resent new
    · obtain ⟨new, hst⟩ := hst
      exact ⟨new, fun r hr => Stage.resent.inj (hr.symm.trans hst)⟩
    · exact ⟨0, fun r hr => absurd ⟨r, hr⟩ hst⟩
  have hsub : {r | w.Caused first r} ⊆ {first, new} := by
    intro r hr
    rcases h.caused hr with rfl | hst
    · exact .inl rfl
    · exact .inr (hnew r hst)
  calc {r | w.Caused first r}.encard
      ≤ ({first, new} : Set ℕ).encard := Set.encard_le_encard hsub
    _ ≤ ({new} : Set ℕ).encard + 1 := Set.encard_insert_le _ _
    _ = 2 := by rw [Set.encard_singleton, one_add_one_eq_two]

variable [DecidableEq Session]

theorem Linked.step {w' e} (h : Linked w) (hstep : w.step e = some w') : Linked w' :=
  h.move (World.step_move hstep)

theorem Linked.of_run {events} {ok : World Request Session Res → Event Request Session Res → Prop}
    (hrun : Run World.step ok .new events w) : Linked w :=
  hrun.invariant Linked.new fun h _ hstep => h.step hstep

/-- **A request is sent at most twice, and keeps its external id.** However sending, registering,
answers, errors, losses and timeouts follow each other, no request is sent under more than two ids,
and the call that sends it again registers it with what it was registered with before. -/
theorem transmitted_at_most_twice {events : List (Event Request Session Res)}
    (hrun : Run World.step (fun _ _ => True) .new events w) :
    (∀ first, {r | w.Caused first r}.encard ≤ 2) ∧
      ∀ r send old, w.sends r = some send → send.config = .update old →
        ∃ it, w.registry.register old = some it ∧
          (World.registration w.registry r send).register r = some it := by
  have h := Linked.of_run hrun
  refine ⟨h.encard_caused, fun r send old hsend hconfig => ?_⟩
  obtain ⟨it, hit, -⟩ := h.counted r send old hsend ((h.updating r send hsend old).mp hconfig)
  refine ⟨it, hit, ?_⟩
  rw [World.registration, hconfig]
  simp only [TimeoutRequestRegistry.updateRequestId, hit, update_self]

/-- A request is answered with an error of the session, and is sent again while its timeout
passes. -/
theorem transmitted_at_most_twice_resent : ∃ w : World ℕ ℕ ℕ, Run World.step (fun _ _ => True) .new
        [.send ⟨"peer"⟩ none 7 false (.ok 0), .register 0,
          .deliver ⟨"peer"⟩ 0 (.receiveError (.remoteError .missingSession)),
          .fetch 0 (some 0), .poll (some 0), .resend 0 (.ok 1)] w ∧
      w.stages 0 = .resent 1 ∧ {r | w.Caused 0 r}.encard ≤ 2 ∧
      (w.sends 1).map (·.config) = some (.update 0) := by
  exact Run.exists_and Run.get_runFrom fun hrun =>
    ⟨rfl, (transmitted_at_most_twice hrun).1 0, rfl⟩

end Fyles.SessionSendReceive
