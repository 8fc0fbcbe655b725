import Fyles.RequestLinks

/-!
# A request is completed once

The rest of the program knows a request by its external id, and takes the first `receive_response`
or `handle_receive_error` for it as its end. There are three ways in which the end can come twice,
or the id is not known when it comes:

* A request is registered after it was handed to the transport. The event of the request may be
  handled before that.
* A timeout is reported without looking into the registry, so the event may still come.
* An error is reported without stopping the timeout, which is then reported as well.

Timeouts are meant for requests of which the transport has lost track. If they are reported for
these only, and events are handled after the registration, then every request ends once.

## The invariant

Where registrations are is mostly known from `Linked`, and external ids are not used again
(`Timed`), whenever events and timeouts come; `Tracked` and `Ended` add to them what depends on when
these come. The registration of a request that has ended is either
gone, or under an id whose event was reported, or under an id that is lost and whose timeout has
passed (`Ended.ended`). Nothing can then report it again.

## Main results

* `tracked_ended_step` — every step keeps the invariant
* `completed_once` — no request ends twice, and every event finds its registration
* `completed_twice` — what happens otherwise
-/

namespace Fyles.SessionSendReceive

open TimeoutRequestRegistryWorker

open Function (update update_of_ne update_self)

variable {Request Session Res : Type}

/-! ### The condition -/

/-- **Events come after the registration, and timeouts for lost requests.** -/
def Punctual (w : World Request Session Res) : Event Request Session Res → Prop
  | .deliver _ requestId _ => (w.sends requestId).isNone
  | .poll expired => ∀ externalId ∈ expired, ∃ r < w.nextRequestId,
      (w.registry.register r).map (·.externalId) = some externalId ∧ (w.stages r).isLost
  | _ => True

instance (w : World Request Session Res) (e) : Decidable (Punctual w e) := by
  rw [Punctual.eq_def]
  split <;> infer_instance

/-- How often a request is still going to time out. -/
def World.timers (w : World Request Session Res) (externalId : ℕ) : ℕ :=
  w.worker.timers w.registry.commands externalId

variable {w : World Request Session Res} {r : ℕ} {it : RegisteredRequest Request Session}

/-! ### External ids are not used again -/

section Timed

variable {w' : World Request Session Res} {e : Event Request Session Res}

/-- The world after the worker was polled. -/
def World.polled (w : World Request Session Res) (timeout : Option (ℕ × PeerId))
    (worker : TimeoutRequestRegistryWorker PeerId) (commands : List (Command PeerId)) :
    World Request Session Res :=
  { w with
    registry := { w.registry with commands := commands }
    worker := worker
    effects := w.effects ++ timeout.toList.map fun t =>
      .handleReceiveError t.2 (.ok t.1) (.localError .timeout) }

theorem World.completed_polled (w : World Request Session Res) (timeout : Option (ℕ × PeerId))
    (worker : TimeoutRequestRegistryWorker PeerId) (commands : List (Command PeerId)) :
    (w.polled timeout worker commands).completed =
      w.completed ++ (timeout.map Prod.fst).toList := by
  cases timeout with
  | none => exact List.filterMap_append
  | some t => exact List.filterMap_append

/-- Only external ids that were given out are completed or time out, and they time out once. -/
structure Timed (w : World Request Session Res) : Prop where
  completed_lt : ∀ k ∈ w.completed, k < w.registry.nextExternalRequestId
  timers_lt : ∀ k, w.timers k ≠ 0 → k < w.registry.nextExternalRequestId
  timers_le : ∀ k, w.timers k ≤ 1

theorem World.completed_append {effects} (h : w'.effects = w.effects ++ effects) :
    w'.completed = w.completed ++ effects.filterMap Effect.completes := by
  rw [World.completed, h, List.filterMap_append]
  rfl

theorem World.completed_report {effect requestId} (h : effect.requestId = some requestId) :
    (w.report r effect).completed = w.completed ++ requestId.toOption.toList := by
  have happend :
      (w.report r effect).completed = w.completed ++ [effect].filterMap Effect.completes :=
    World.completed_append rfl
  rw [happend, List.filterMap_cons, Effect.completes, h]
  cases requestId <;> rfl

theorem Timed.new : Timed (World.new : World Request Session Res) where
  completed_lt _ h := nomatch h
  timers_lt _ h := absurd rfl h
  timers_le _ := Nat.zero_le _

/-- No external id is given out, completed that was not given out, or timed out more often. -/
theorem Timed.mono (h : Timed w)
    (hcompleted : ∀ k ∈ w'.completed, k ∈ w.completed ∨ k < w.registry.nextExternalRequestId)
    (hnext : w'.registry.nextExternalRequestId = w.registry.nextExternalRequestId)
    (htimers : ∀ k, w'.timers k ≤ w.timers k) : Timed w' where
  completed_lt k hk := by
    rw [hnext]
    exact (hcompleted k hk).elim (h.completed_lt k) id
  timers_lt k hk := by
    rw [hnext]
    refine h.timers_lt k fun hzero => hk ?_
    exact Nat.eq_zero_of_le_zero (hzero ▸ htimers k)
  timers_le k := Nat.le_trans (htimers k) (h.timers_le k)

/-- An end is reported for a request that is registered, or for none. -/
theorem Timed.report (h : Timed w) {effect requestId} (heffect : effect.requestId = some requestId)
    (hlt : ∀ k ∈ requestId.toOption, k < w.registry.nextExternalRequestId) :
    Timed (w.report r effect) := by
  refine h.mono (fun k hk => ?_) rfl fun _ => Nat.le_refl _
  rw [World.completed_report heffect, List.mem_append, Option.mem_toList] at hk
  exact hk.imp_right (hlt k)

theorem World.timers_registered (nodeId : PeerId)
    (data : Option (RegisteredRequestData Request Session)) (k : ℕ) :
    (w.registered r nodeId data).timers k =
      w.timers k + if w.registry.nextExternalRequestId = k then 1 else 0 := by
  refine (timers_append _ _ _ _).trans ?_
  simp only [Command.starts, Option.toList_some, List.count_singleton, beq_iff_eq]
  rfl

theorem Timed.registered (h : Timed w) (nodeId : PeerId)
    (data : Option (RegisteredRequestData Request Session)) :
    Timed (w.registered r nodeId data) where
  completed_lt k hk := Nat.lt_succ_of_lt (h.completed_lt k hk)
  timers_lt k hk := by
    show k < w.registry.nextExternalRequestId + 1
    by_cases hnext : w.registry.nextExternalRequestId = k
    · omega
    · rw [World.timers_registered, if_neg hnext] at hk
      exact Nat.lt_succ_of_lt (h.timers_lt k hk)
  timers_le k := by
    rw [World.timers_registered]
    by_cases hnext : w.registry.nextExternalRequestId = k
    · have hzero : w.timers k = 0 := by
        by_contra hne
        exact absurd (h.timers_lt k hne) (by omega)
      rw [if_pos hnext, hzero]
    · rw [if_neg hnext]
      exact h.timers_le k

theorem completes_of_silent {effects : List (Effect Res)}
    (h : ∀ effect ∈ effects, effect.requestId = none) :
    effects.filterMap Effect.completes = [] :=
  List.filterMap_eq_nil_iff.mpr fun effect hmem => by
    rw [Effect.completes, h effect hmem]
    rfl

theorem Timed.move (h : Timed w) (hl : Linked w) (hmove : Move w e w') : Timed w' := by
  have hheld : ∀ {r externalId}, (w.stages r).held = some externalId →
      externalId < w.registry.nextExternalRequestId := by
    intro r externalId hst
    obtain ⟨it, hit, rfl⟩ := hl.held r externalId hst
    exact hl.registered_lt r it hit
  cases hmove with
  | unsent => exact h
  | sent => exact h.mono (fun _ => .inl) rfl fun _ => Nat.le_refl _
  | registered hsend hdata hupdate => exact h.registered _ _
  | moved hsend hconfig hit => exact h.mono (fun _ => .inl) rfl fun _ => Nat.le_refl _
  | unknown hstage hit heffect => exact h.report heffect nofun
  | @answered nodeId requestId decrypted it effect hstage hit heffect =>
    have hremoved : Timed { w with registry := { w.registry with
        register := update w.registry.register requestId none
        commands := w.registry.commands ++ [.unRegister it.externalId] } } :=
      h.mono (fun _ => .inl) rfl fun k =>
        Nat.le_of_eq (timers_append _ _ _ _)
    refine hremoved.report heffect ?_
    rintro k ⟨⟩
    exact hl.registered_lt _ it hit
  | refused hstage hit heffect =>
    refine h.report heffect ?_
    rintro k ⟨⟩
    exact hl.registered_lt _ _ hit
  | checked hstage hit hretry => exact h.mono (fun _ => .inl) rfl fun _ => Nat.le_refl _
  | unfetched hst heffect =>
    refine h.report heffect ?_
    rintro k ⟨⟩
    exact hheld hst
  | @fetched requestId _ nodeId externalId error it data effects hstage hit hdata hresend
      heffects =>
    refine h.mono (fun k hk => .inl ?_) rfl fun k =>
      Nat.le_of_eq (timers_append _ _ _ _)
    rwa [World.completed_append (w := w) rfl, completes_of_silent heffects,
      List.append_nil] at hk
  | unresent hst heffect =>
    refine h.report heffect ?_
    rintro k ⟨⟩
    exact hheld hst
  | resent hstage => exact h.mono (fun _ => .inl) rfl fun _ => Nat.le_refl _
  | lost hstage => exact h.mono (fun _ => .inl) rfl fun _ => Nat.le_refl _
  | @polled expired timeout worker commands hpoll =>
    obtain ⟨hle, htimeout, hlt⟩ := timers_pollNext hpoll
    show Timed (w.polled timeout worker commands)
    refine h.mono (fun k hk => ?_) rfl hle
    rw [World.completed_polled, htimeout, List.mem_append, Option.mem_toList] at hk
    exact hk.imp_right fun hk => h.timers_lt k (Nat.ne_of_gt (Nat.zero_lt_of_lt (hlt k hk)))

end Timed

/-! ### The invariant -/

/-- The registrations are where they have to be. -/
structure Tracked (w : World Request Session Res) : Prop extends Linked w where
  /-- The event of an id that is about to be recorded was not handled. -/
  unhandled : ∀ r send, w.sends r = some send → w.stages r = .inTransit ∨ w.stages r = .lost
  /-- Whoever waits for an event is registered, or about to be. -/
  found : ∀ r, w.stages r = .inTransit → w.sends r = none →
    ∃ it, w.registry.register r = some it

/-- Requests that have ended are not heard of again. -/
structure Ended (w : World Request Session Res) : Prop extends Timed w where
  /-- A request that has ended and is still registered is not heard of again. -/
  ended : ∀ r it, w.registry.register r = some it → it.externalId ∈ w.completed →
    w.stages r = .over ∨ w.stages r = .lost ∧ w.timers it.externalId = 0
  nodup : w.completed.Nodup
  /-- Every event has found its registration. -/
  known : ∀ effect ∈ w.effects, effect.requestId ≠ some (.error ())

theorem Tracked.new : Tracked (World.new : World Request Session Res) where
  __ := Linked.new
  unhandled _ _ h := by cases h
  found _ h := by cases h

theorem Ended.new : Ended (World.new : World Request Session Res) where
  __ := Timed.new
  ended _ _ h := by cases h
  nodup := List.nodup_nil
  known _ h := by cases h

/-- The event of the id was reported, or lost. -/
def Stage.isSettled : Stage Request → Bool
  | .lost | .over => true
  | .unsent | .inTransit | .checked .. | .resending .. | .resent _ => false

theorem Stage.isSettled_of_held {stage : Stage Request} {externalId : ℕ}
    (h : stage.held = some externalId) : stage.isSettled = false := by
  cases stage with
  | checked | resending => rfl
  | _ => cases h

theorem Ended.not_completed (h : Ended w) (hit : w.registry.register r = some it)
    (hstage : (w.stages r).isSettled = false) : it.externalId ∉ w.completed := by
  intro hmem
  rcases h.ended r it hit hmem with hst | ⟨hst, -⟩ <;> rw [hst] at hstage <;> cases hstage

theorem Linked.sends_of_held (h : Linked w) {externalId : ℕ}
    (hheld : (w.stages r).held = some externalId) : w.sends r = none := by
  cases hs : w.sends r with
  | none => rfl
  | some send => cases (h.not_held hs).symm.trans hheld

/-! ### Where the registrations are -/

namespace Tracked

variable {w' : World Request Session Res}

/-- The stage of an id changes that is recorded, or an id is lost. -/
theorem advance {stage} (h : Tracked w) (hlinked : Linked w')
    (hstages : w'.stages = update w.stages r stage) (hsends : w'.sends = w.sends)
    (hregister : ∀ r' ≠ r, w'.registry.register r' = w.registry.register r')
    (hafter : stage ≠ .inTransit) (hrecorded : w.sends r = none ∨ stage = .lost) : Tracked w' := by
  refine ⟨hlinked, fun r' send hs => ?_, fun r' hst hs => ?_⟩
  · rw [hsends] at hs
    rw [hstages]
    by_cases hr' : r' = r
    · subst hr'
      rw [update_self]
      rcases hrecorded with hnone | hlost
      · cases hnone.symm.trans hs
      · exact .inr hlost
    · rw [update_of_ne hr']
      exact h.unhandled r' send hs
  · rw [hstages] at hst
    rw [hsends] at hs
    obtain ⟨hne, hst⟩ := of_update_eq hst hafter
    rw [hregister r' hne]
    exact h.found r' hst hs

/-- A new id is in transit, and about to be recorded. -/
theorem transmit {stages : ℕ → Stage Request} {send} (h : Tracked w)
    (hlinked : Linked (World.sendEncryptedRequest { w with stages := stages } send))
    (hsame : ∀ r', w.sends r' ≠ none → stages r' = w.stages r')
    (hafter : ∀ r', stages r' = .inTransit → w.stages r' = .inTransit) :
    Tracked (World.sendEncryptedRequest { w with stages := stages } send) := by
  refine ⟨hlinked, fun r' send' hs => ?_, fun r' hst hs => ?_⟩
  · change update w.sends w.nextRequestId (some send) r' = some send' at hs
    show update stages w.nextRequestId .inTransit r' = _ ∨
      update stages w.nextRequestId .inTransit r' = _
    by_cases hr' : r' = w.nextRequestId
    · exact .inl (hr' ▸ update_self _ _ _)
    · rw [update_of_ne hr'] at hs ⊢
      rw [hsame r' (hs ▸ Option.some_ne_none send')]
      exact h.unhandled r' send' hs
  · change update stages w.nextRequestId .inTransit r' = _ at hst
    obtain ⟨hne, hs⟩ := of_update_eq hs (Option.some_ne_none send)
    rw [update_of_ne hne] at hst
    exact h.found r' (hafter r' hst) hs

/-- An id is recorded, and no one else who waits loses the registration. -/
theorem record (h : Tracked w) (hlinked : Linked w') (hstages : w'.stages = w.stages)
    (hsends : w'.sends = update w.sends r none)
    (hself : ∃ it, w'.registry.register r = some it)
    (hother : ∀ r' ≠ r, w.stages r' = .inTransit →
      w'.registry.register r' = w.registry.register r') : Tracked w' := by
  refine ⟨hlinked, fun r' send' hs => ?_, fun r' hst hs => ?_⟩
  · rw [hsends] at hs
    rw [hstages]
    exact h.unhandled r' send' (World.sends_of_update hs).2
  · rw [hstages] at hst
    rw [hsends] at hs
    by_cases hr' : r' = r
    · exact hr' ▸ hself
    · rw [update_of_ne hr'] at hs
      rw [hother r' hr' hst]
      exact h.found r' hst hs

theorem move {e} (h : Tracked w) (hlinked : Linked w') (hok : Punctual w e) (hmove : Move w e w') :
    Tracked w' := by
  cases hmove with
  | unsent => exact h
  | sent => exact h.transmit hlinked (fun _ _ => rfl) fun _ hst => hst
  | registered hsend hdata hupdate =>
    exact h.record hlinked rfl rfl ⟨_, World.register_registered_self _ _⟩
      fun r' hne _ => World.register_registered_of_ne _ _ hne
  | moved hsend hconfig hit =>
    refine h.record hlinked rfl rfl ⟨_, World.register_moved_self w _ _ _⟩ fun r' hne hst => ?_
    refine World.register_moved_of_ne w _ hne ?_
    rintro rfl
    cases ((h.updating _ _ hsend _).mp hconfig).symm.trans hst
  | unknown hstage hit =>
    obtain ⟨it, hsome⟩ := h.found _ hstage (Option.isNone_iff_eq_none.mp hok)
    cases hit.symm.trans hsome
  | answered =>
    exact h.advance hlinked rfl rfl (fun r' hne => update_of_ne hne _ _) nofun
      (.inl (Option.isNone_iff_eq_none.mp hok))
  | refused | checked =>
    exact h.advance hlinked rfl rfl (fun _ _ => rfl) nofun
      (.inl (Option.isNone_iff_eq_none.mp hok))
  | unfetched hheld | unresent hheld =>
    exact h.advance hlinked rfl rfl (fun _ _ => rfl) nofun (.inl (h.sends_of_held hheld))
  | @fetched requestId _ _ externalId _ _ _ _ hstage =>
    have hheld : (w.stages requestId).held = some externalId := by rw [hstage]; rfl
    exact h.advance hlinked rfl rfl (fun r' hne => update_of_ne hne _ _) nofun
      (.inl (h.sends_of_held hheld))
  | @resent requestId _ _ externalId _ _ hstage =>
    have hheld : (w.stages requestId).held = some externalId := by rw [hstage]; rfl
    refine h.transmit hlinked (fun r' hr' => update_of_ne ?_ _ _)
      fun r' hst => (of_update_eq hst nofun).2
    rintro rfl
    exact hr' (h.sends_of_held hheld)
  | lost => exact h.advance hlinked rfl rfl (fun _ _ => rfl) nofun (.inr rfl)
  | polled => exact ⟨hlinked, h.unhandled, h.found⟩

end Tracked

/-! ### Requests that have ended -/

namespace Ended

variable {w' : World Request Session Res}

/-- Nothing is reported, and the registrations of requests that have ended were there before. -/
theorem quiet {effects} (h : Ended w) (htimed : Timed w')
    (heffects : w'.effects = w.effects ++ effects)
    (hsilent : ∀ effect ∈ effects, effect.requestId = none)
    (hstages : ∀ r, (w.stages r).isSettled → w'.stages r = w.stages r)
    (hregister : ∀ r j, w'.registry.register r = some j → j.externalId ∈ w.completed →
      ∃ j', w.registry.register r = some j' ∧ j'.externalId = j.externalId)
    (htimers : ∀ k ∈ w.completed, w'.timers k = w.timers k) : Ended w' := by
  have hcompleted : w'.completed = w.completed := by
    rw [World.completed_append heffects, completes_of_silent hsilent, List.append_nil]
  refine ⟨htimed, fun r' j hj hmem => ?_, hcompleted ▸ h.nodup, fun effect hmem => ?_⟩
  · rw [hcompleted] at hmem
    obtain ⟨j', hj', hext⟩ := hregister r' j hj hmem
    rw [htimers _ hmem, ← hext]
    have hended := h.ended r' j' hj' (hext.symm ▸ hmem)
    rwa [hstages r' (by rcases hended with hst | ⟨hst, -⟩ <;> rw [hst] <;> rfl)]
  · rw [heffects] at hmem
    rcases List.mem_append.mp hmem with hmem | hmem
    · exact h.known effect hmem
    · rw [hsilent effect hmem]
      exact (Option.some_ne_none _).symm

/-- The end of a request is reported, whose event is being handled. -/
theorem report {effect} (h : Ended w) (hl : Linked w) (htimed : Timed w')
    (hit : w.registry.register r = some it) (hstage : (w.stages r).isSettled = false)
    (heffects : w'.effects = w.effects ++ [effect])
    (heffect : effect.requestId = some (.ok it.externalId))
    (hstages : w'.stages = update w.stages r .over)
    (hregister : ∀ r j, w'.registry.register r = some j → w.registry.register r = some j)
    (htimers : ∀ k, w'.timers k = w.timers k) : Ended w' := by
  have hcompleted : w'.completed = w.completed ++ [it.externalId] := by
    rw [World.completed_append heffects, List.filterMap_cons, Effect.completes, heffect]
    rfl
  refine ⟨htimed, fun r' j hj hmem => ?_, ?_, fun e hmem => ?_⟩
  · rw [hcompleted, List.mem_append, List.mem_singleton] at hmem
    rw [hstages, htimers]
    by_cases hr' : r' = r
    · subst hr'
      exact .inl (update_self _ _ _)
    · rw [update_of_ne hr']
      rcases hmem with hmem | hmem
      · exact h.ended r' j (hregister r' j hj) hmem
      · exact absurd (hl.injective r' r j it (hregister r' j hj) hit hmem) hr'
  · rw [hcompleted]
    refine List.nodup_append.mpr ⟨h.nodup, List.nodup_singleton _, ?_⟩
    rintro a ha b hb rfl
    exact h.not_completed hit hstage (List.mem_singleton.mp hb ▸ ha)
  · rw [heffects] at hmem
    rcases List.mem_append.mp hmem with hmem | hmem
    · exact h.known e hmem
    · rw [List.mem_singleton.mp hmem, heffect]
      exact fun hc => by cases hc

theorem report_held {externalId : ℕ} {effect} (h : Ended w) (hl : Linked w)
    (htimed : Timed (w.report r effect)) (hheld : (w.stages r).held = some externalId)
    (heffect : effect.requestId = some (.ok externalId)) : Ended (w.report r effect) := by
  obtain ⟨it, hit, rfl⟩ := hl.held r externalId hheld
  exact h.report hl htimed hit (Stage.isSettled_of_held hheld) rfl heffect rfl (fun _ _ hj => hj)
    fun _ => rfl

end Ended

/-! ### Timeouts -/

theorem Ended.polled (h : Ended w) (hl : Linked w) {expired timeout worker commands}
    (htimed : Timed (w.polled timeout worker commands)) (hok : Punctual w (.poll expired))
    (hpoll : w.worker.pollNext w.registry.commands expired = some (timeout, worker, commands)) :
    Ended (w.polled timeout worker commands) := by
  obtain ⟨hle, htimeout, hlt⟩ := timers_pollNext hpoll
  have hcompleted := w.completed_polled timeout worker commands
  rw [htimeout] at hcompleted
  -- the request that times out is lost, so it has not ended, and this was its only timeout
  have hlost : ∀ k ∈ expired, ∃ r it, w.registry.register r = some it ∧ it.externalId = k ∧
      w.stages r = .lost ∧ k ∉ w.completed := by
    intro k hk
    obtain ⟨r, -, hreg, hst⟩ := hok k hk
    obtain ⟨it, hit, rfl⟩ := Option.map_eq_some_iff.mp hreg
    have hstage : w.stages r = .lost := by
      cases hst' : w.stages r <;> rw [hst'] at hst <;> first | rfl | cases hst
    refine ⟨r, it, hit, rfl, hstage, fun hmem => ?_⟩
    rcases h.ended r it hit hmem with ho | ⟨-, hzero⟩
    · cases hstage.symm.trans ho
    · rw [World.timers] at hzero
      exact Nat.not_lt_zero _ (hzero ▸ hlt _ hk)
  refine ⟨htimed, fun r' j hj hmem => ?_, ?_, fun effect hmem => ?_⟩
  · rw [hcompleted, List.mem_append, Option.mem_toList] at hmem
    rcases hmem with hmem | hmem
    · rcases h.ended r' j hj hmem with ho | ⟨hl, hzero⟩
      · exact .inl ho
      · exact .inr ⟨hl, Nat.eq_zero_of_le_zero (hzero ▸ hle j.externalId)⟩
    · obtain ⟨r, it, hit, hext, hstage, -⟩ := hlost _ hmem
      obtain rfl := hl.injective r r' it j hit hj hext
      exact .inr ⟨hstage, by
        have h1 := hlt j.externalId hmem
        have h2 : w.worker.timers w.registry.commands j.externalId ≤ 1 := h.timers_le _
        show worker.timers commands j.externalId = 0
        omega⟩
  · rw [hcompleted]
    cases expired with
    | none => simpa using h.nodup
    | some k =>
      obtain ⟨-, -, -, -, -, hnot⟩ := hlost k rfl
      refine List.nodup_append.mpr ⟨h.nodup, List.nodup_singleton _, ?_⟩
      rintro a ha b hb rfl
      exact hnot (List.mem_singleton.mp hb ▸ ha)
  · rcases List.mem_append.mp hmem with hmem | hmem
    · exact h.known effect hmem
    · obtain ⟨t, -, rfl⟩ := List.mem_map.mp hmem
      exact fun hc => by cases hc

/-! ### Every request ends once -/

variable [DecidableEq Session]

theorem tracked_ended_step {w w'} {e : Event Request Session Res} (h : Tracked w ∧ Ended w)
    (hok : Punctual w e) (hstep : w.step e = some w') : Tracked w' ∧ Ended w' := by
  obtain ⟨ht, hw⟩ := h
  have hl := ht.toLinked
  have hmove := World.step_move hstep
  have htimed' := hw.toTimed.move hl hmove
  refine ⟨ht.move (hl.move hmove) hok hmove, ?_⟩
  have hne : ∀ {r r'}, (w.stages r).isSettled = false → (w.stages r').isSettled → r' ≠ r := by
    rintro r r' hr hr' rfl
    cases hr.symm.trans hr'
  have hnew : (w.stages w.nextRequestId).isSettled = false := by
    rw [(hl.fresh _ (Nat.le_refl _)).1]
    rfl
  have hsame : ∀ r j, w.registry.register r = some j → j.externalId ∈ w.completed →
      ∃ j', w.registry.register r = some j' ∧ j'.externalId = j.externalId :=
    fun _ j hj _ => ⟨j, hj, rfl⟩
  have hnil := (List.append_nil w.effects).symm
  cases hmove with
  | unsent => exact hw
  | sent =>
    exact hw.quiet htimed' hnil (List.forall_mem_nil _)
      (fun r' hst => update_of_ne (hne hnew hst) _ _) hsame fun _ _ => rfl
  | @registered requestId send data =>
    have hlt : ∀ k ∈ w.completed, w.registry.nextExternalRequestId ≠ k :=
      fun k hk => Nat.ne_of_gt (hw.completed_lt k hk)
    refine hw.quiet htimed' hnil (List.forall_mem_nil _) (fun _ _ => rfl)
      (fun r' j hj hmem => ⟨j, ?_, rfl⟩) fun k hk => ?_
    · refine (of_update_eq hj fun hc => ?_).2
      exact hlt j.externalId hmem (congrArg RegisteredRequest.externalId (Option.some.inj hc))
    · refine (World.timers_registered send.nodeId data k).trans ?_
      rw [if_neg (hlt k hk), Nat.add_zero]
  | @moved requestId send old it hsend hconfig hit =>
    refine hw.quiet htimed' hnil (List.forall_mem_nil _) (fun _ _ => rfl)
      (fun r' j hj hmem => ⟨j, ?_, rfl⟩) fun _ _ => rfl
    rcases World.register_moved (w := w) hj with ⟨-, rfl⟩ | ⟨-, -, hj⟩
    · -- the request was sent again, so it has not ended
      have hstage := (hl.updating _ _ hsend _).mp hconfig
      exact absurd hmem (hw.not_completed hit (by rw [hstage]; rfl))
    · exact hj
  | unknown hstage hit heffect =>
    obtain ⟨it, hsome⟩ := ht.found _ hstage (Option.isNone_iff_eq_none.mp hok)
    cases hit.symm.trans hsome
  | answered hstage hit heffect =>
    exact hw.report hl htimed' hit (by rw [hstage]; rfl) rfl heffect rfl
      (fun r' j hj => (of_update_eq hj (Option.some_ne_none j).symm).2)
      fun k => timers_append _ _ _ _
  | refused hstage hit heffect =>
    exact hw.report hl htimed' hit (by rw [hstage]; rfl) rfl heffect rfl (fun _ _ hj => hj)
      fun _ => rfl
  | @checked _ requestId _ _ hstage | @lost requestId hstage =>
    have hbefore : (w.stages requestId).isSettled = false := by rw [hstage]; rfl
    exact hw.quiet htimed' hnil (List.forall_mem_nil _)
      (fun r' hst => update_of_ne (hne hbefore hst) _ _) hsame fun _ _ => rfl
  | unfetched hheld heffect | unresent hheld heffect =>
    exact hw.report_held hl htimed' hheld heffect
  | @fetched requestId _ nodeId externalId error it data effects hstage hit hdata hresend
      heffects =>
    have hbefore : (w.stages requestId).isSettled = false := by rw [hstage]; rfl
    refine hw.quiet htimed' rfl heffects (fun r' hst => update_of_ne (hne hbefore hst) _ _)
      (fun r' j hj _ => ?_) fun k _ => timers_append _ _ _ _
    rcases update_eq_cases hj with ⟨rfl, hnew⟩ | ⟨-, hold⟩
    · obtain ⟨⟩ := hnew
      exact ⟨it, hit, rfl⟩
    · exact ⟨j, hold, rfl⟩
  | @resent requestId session nodeId externalId contactId request hstage =>
    have hbefore : (w.stages requestId).isSettled = false := by rw [hstage]; rfl
    exact hw.quiet htimed' hnil (List.forall_mem_nil _)
      (fun r' hst => (update_of_ne (hne hnew hst) _ _).trans (update_of_ne (hne hbefore hst) _ _))
      hsame fun _ _ => rfl
  | polled hpoll => exact hw.polled hl htimed' hok hpoll

/-- **Every request ends once.** If events are handled after the registration, and timeouts are
reported for lost requests only, then no external id is completed twice, and no event is reported
for an unknown request. -/
theorem completed_once {w : World Request Session Res} {events : List (Event Request Session Res)}
    (hrun : Run World.step Punctual .new events w) :
    w.completed.Nodup ∧ ∀ effect ∈ w.effects, effect.requestId ≠ some (.error ()) := by
  obtain ⟨-, h⟩ : Tracked w ∧ Ended w :=
    hrun.invariant ⟨Tracked.new, Ended.new⟩ tracked_ended_step
  exact ⟨h.nodup, h.known⟩

/-- The first request is sent again after an error of the session, and answered. The second is lost,
and times out. -/
theorem completed_once_resent : ∃ w : World ℕ ℕ ℕ, Run World.step Punctual .new
        [.send ⟨"peer"⟩ none 7 false (.ok 0), .register 0,
          .deliver ⟨"peer"⟩ 0 (.receiveError (.remoteError .missingSession)),
          .fetch 0 (some 0), .resend 0 (.ok 1), .register 1,
          .deliver ⟨"peer"⟩ 1 (.response (.ok (none, 8))),
          .send ⟨"peer"⟩ none 7 false (.ok 1), .register 2, .lose 2,
          .poll none, .poll none, .poll none, .poll (some 1)] w ∧
      w.completed = [0, 1] ∧ w.completed.Nodup ∧
      ∀ effect ∈ w.effects, effect.requestId ≠ some (.error ()) :=
  ⟨_, Run.get_runFrom, by decide,
    completed_once (Run.get_runFrom)⟩

/-- **Otherwise a request can end twice.** A request times out and is answered then; a request fails
and times out then, since the handler of the error has not stopped the timeout; and a request that
is answered before it is registered is not known. -/
theorem completed_twice : (∃ w : World ℕ ℕ ℕ, Run World.step (fun _ _ => True) .new
        [.send ⟨"peer"⟩ none 7 false (.ok 0), .register 0, .poll (some 0),
          .deliver ⟨"peer"⟩ 0 (.response (.ok (none, 8)))] w ∧ w.completed = [0, 0]) ∧
    (∃ w : World ℕ ℕ ℕ, Run World.step (fun _ _ => True) .new
        [.send ⟨"peer"⟩ none 7 false (.ok 0), .register 0,
          .deliver ⟨"peer"⟩ 0 (.receiveError (.localError (.transportError .connectionClosed))),
          .fetch 0 (some 0), .poll (some 0)] w ∧ w.completed = [0, 0]) ∧
    (∃ w : World ℕ ℕ ℕ, Run World.step (fun _ _ => True) .new
        [.send ⟨"peer"⟩ none 7 false (.ok 0),
          .deliver ⟨"peer"⟩ 0 (.response (.ok (none, 8))), .register 0] w ∧
      w.effects.map Effect.requestId = [some (.error ())]) :=
  ⟨⟨_, Run.get_runFrom, by decide⟩,
    ⟨_, Run.get_runFrom, by decide⟩,
    ⟨_, Run.get_runFrom, rfl⟩⟩

end Fyles.SessionSendReceive
