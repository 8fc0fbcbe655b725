import Fyles.Internal.Run
import Fyles.Internal.Update
import Fyles.RequestRegistry

/-!
# Sending requests and receiving responses

`p2p/src/send_receive_traits/session_send_receive.rs`, with the part of `event_loop.rs` that polls
the worker of the registry. A request is encrypted and handed to the transport, which gives it an
id, and only then registered under that id. A response removes the registration. An error lets the
request be sent again, if it was not sent again before and if the error allows for it, under a new
id to which the registration moves.

## Interleavings

Senders, the handlers of the transport's events and the event loop run side by side, and each use of
the registry is a step of its own. The transport gives out every id once and reports at most one
event for each, so the tasks that are under way are found by the id that they work on: `sends` holds
the calls of `send_internal` that still have to register an id, and `stages` what became of the
event of an id.

The session that a request is encrypted with, the outcome of decrypting a response, and the current
session that an error is compared with are parameters: sessions come and go meanwhile.

## Main results

* `World.step_move` — what each step does
-/

namespace Fyles.SessionSendReceive

open TimeoutRequestRegistry

open Function (update)

/-! ### Tasks and effects -/

/-- How `send_internal` records the id of a request. -/
inductive SendInternalConfig
  | register (idempotent : Bool)
  | update (oldRequestId : ℕ)
  | registerOnlyId
  deriving DecidableEq, Repr

/-- A call of `send_internal` that has handed its request to the transport. -/
structure SendInternal (Request Session : Type) where
  nodeId : PeerId
  contactId : Option ContactId
  request : Request
  /-- The session that the request was encrypted with. -/
  session : Session
  config : SendInternalConfig

/-- What the transport reports about a request. -/
inductive ReceivePayload (Res : Type)
  /-- A response, with what comes of decrypting it with the recent sessions. -/
  | response (decrypted : Except LocalReceiveError (Option ContactId × Res))
  | receiveError (error : ReceiveError)

/-- What became of the event of a request. -/
inductive Stage (Request : Type)
  | unsent
  | inTransit
  | lost
  /-- An error was reported, and the request was not sent again before. -/
  | checked (nodeId : PeerId) (externalId : ℕ) (error : ReceiveError)
  | resending (nodeId : PeerId) (externalId : ℕ) (contactId : Option ContactId) (request : Request)
  /-- The request was sent again, under another id. -/
  | resent (newRequestId : ℕ)
  /-- The event was reported to the rest of the program. -/
  | over

/-- The transport will never report an event. -/
def Stage.isLost {Request : Type} : Stage Request → Bool
  | .lost => true
  | _ => false

/-- The external id that the handler of an error has read in the registry. -/
def Stage.held {Request : Type} : Stage Request → Option ℕ
  | .checked _ externalId _ | .resending _ externalId _ _ => some externalId
  | _ => none

/-- What the rest of the program gets to see. -/
inductive Effect (Res : Type)
  | receiveResponse (nodeId : PeerId) (contactId : Option ContactId) (requestId : Except Unit ℕ)
      (response : Res)
  | handleReceiveError (nodeId : PeerId) (requestId : Except Unit ℕ) (error : ReceiveError)
  | clearSession (nodeId : PeerId)

/-- The request that an effect is about. -/
def Effect.requestId {Res : Type} : Effect Res → Option (Except Unit ℕ)
  | .receiveResponse _ _ requestId _ | .handleReceiveError _ requestId _ => some requestId
  | .clearSession _ => none

/-- The external id that an effect completes. -/
def Effect.completes {Res : Type} (effect : Effect Res) : Option ℕ :=
  effect.requestId.bind Except.toOption

/-- What is done with a response, given what comes of decrypting it. -/
def Effect.ofDecrypted {Res : Type} (nodeId : PeerId) (requestId : Except Unit ℕ) :
    Except LocalReceiveError (Option ContactId × Res) → Effect Res
  | .ok (contactId, response) => .receiveResponse nodeId contactId requestId response
  | .error error => .handleReceiveError nodeId requestId (.localError error)

@[simp] theorem Effect.requestId_ofDecrypted {Res : Type} (nodeId : PeerId)
    (requestId : Except Unit ℕ) (decrypted : Except LocalReceiveError (Option ContactId × Res)) :
    (Effect.ofDecrypted nodeId requestId decrypted).requestId = some requestId := by
  cases decrypted <;> rfl

/-! ### The world -/

variable {Request Session Res : Type}

/-- The registry, the worker, the transport and the tasks. -/
structure World (Request Session Res : Type) where
  /-- What became of the event of each id. -/
  stages : ℕ → Stage Request
  /-- The calls of `send_internal` that have not recorded their id yet. -/
  sends : ℕ → Option (SendInternal Request Session)
  nextRequestId : ℕ
  registry : TimeoutRequestRegistry ℕ PeerId Request Session
  worker : TimeoutRequestRegistryWorker PeerId
  /-- What the rest of the program got to see. -/
  effects : List (Effect Res)

/-- What can happen. -/
inductive Event (Request Session Res : Type)
  /-- `send_request` or `send_request_idempotent`, up to the id of the request. There is a session
  with which the request can be encrypted, or there is none. -/
  | send (nodeId : PeerId) (contactId : Option ContactId) (request : Request) (idempotent : Bool)
      (session : Except String Session)
  /-- The rest of `send_internal`. -/
  | register (requestId : ℕ)
  /-- The transport reports an event, and the handler gets to its first use of the registry. -/
  | deliver (nodeId : PeerId) (requestId : ℕ) (payload : ReceivePayload Res)
  /-- The handler of an error gets to its second use of the registry. -/
  | fetch (requestId : ℕ) (currentSession : Option Session)
  /-- The handler of an error sends the request again, up to the new id. -/
  | resend (requestId : ℕ) (session : Except String Session)
  /-- The transport loses track of a request. -/
  | lose (requestId : ℕ)
  /-- The event loop polls the worker. -/
  | poll (expired : Option ℕ)

namespace World

/-- Nothing has happened. -/
def new : World Request Session Res :=
  ⟨fun _ => .unsent, fun _ => none, 0, .new, .new, []⟩

variable (w : World Request Session Res)

/-- The external ids that were completed. -/
def completed : List ℕ := w.effects.filterMap Effect.completes

/-- `send_internal`, from the transport's id to the registration. -/
def sendEncryptedRequest (send : SendInternal Request Session) : World Request Session Res :=
  { w with
    stages := update w.stages w.nextRequestId .inTransit
    sends := update w.sends w.nextRequestId (some send)
    nextRequestId := w.nextRequestId + 1 }

/-- `send_internal`, the registration. -/
def registration (registry : TimeoutRequestRegistry ℕ PeerId Request Session) (requestId : ℕ)
    (send : SendInternal Request Session) : TimeoutRequestRegistry ℕ PeerId Request Session :=
  match send.config with
  | .register idempotent =>
    (registry.registerRequest send.session requestId send.nodeId send.contactId send.request
      idempotent).2
  | .registerOnlyId => (registry.registerRequestId requestId send.nodeId).2
  | .update oldRequestId =>
    match registry.updateRequestId oldRequestId requestId with
    | (some _, registry) => registry
    | (none, registry) => (registry.registerRequestId requestId send.nodeId).2

/-- The handler of an event calls `receive_response` or `handle_receive_error`, and is done. -/
def report (requestId : ℕ) (effect : Effect Res) : World Request Session Res :=
  { w with
    stages := update w.stages requestId .over
    effects := w.effects ++ [effect] }

/-- `receive_encrypted_response` for a response. -/
def receiveResponse (nodeId : PeerId) (requestId : ℕ)
    (decrypted : Except LocalReceiveError (Option ContactId × Res)) : World Request Session Res :=
  let removed := w.registry.removeRequest requestId
  { w with registry := removed.2 }.report requestId
    (.ofDecrypted nodeId (removed.1.elim (.error ()) .ok) decrypted)

/-- `receive_encrypted_response` for an error, up to `check_request_metadata`. -/
def receiveError (nodeId : PeerId) (requestId : ℕ)
    (error : ReceiveError) : World Request Session Res :=
  match w.registry.checkRequestMetadata requestId with
  | none => w.report requestId (.handleReceiveError nodeId (.error ()) error)
  | some (retryCount, externalId) =>
    if retryCount > 0 then
      w.report requestId (.handleReceiveError nodeId (.ok externalId) error)
    else
      { w with stages := update w.stages requestId (.checked nodeId externalId error) }

/-- `receive_encrypted_response` for an error: the request is read in the registry. -/
def fetchRequest [DecidableEq Session] (w : World Request Session Res) (requestId : ℕ)
    (nodeId : PeerId) (externalId : ℕ) (error : ReceiveError) (currentSession : Option Session) :
    World Request Session Res :=
  match error with
  | .remoteError _ =>
    match w.registry.getRequestForResendAfterSessionError currentSession requestId with
    | (none, registry) =>
      { w with registry := registry }.report requestId
        (.handleReceiveError nodeId (.ok externalId) error)
    | (some r, registry) =>
      { w with
        registry := registry
        stages := update w.stages requestId
          (.resending nodeId externalId r.contactId r.request)
        effects := w.effects ++ if r.requiresNewSession then [.clearSession nodeId] else [] }
  | .localError _ =>
    match w.registry.getRequestForResend requestId with
    | (none, registry) =>
      { w with registry := registry }.report requestId
        (.handleReceiveError nodeId (.ok externalId) error)
    | (some r, registry) =>
      if !r.idempotent then
        { w with registry := registry }.report requestId
          (.handleReceiveError nodeId (.ok externalId) error)
      else
        { w with
          registry := registry
          stages := update w.stages requestId
            (.resending nodeId externalId r.contactId r.request) }

/-- `receive_encrypted_response` for an error: the request is sent again. -/
def resend (requestId : ℕ) (nodeId : PeerId) (externalId : ℕ)
    (contactId : Option ContactId) (request : Request) (session : Except String Session) :
    World Request Session Res :=
  match session with
  | .error error =>
    w.report requestId
      (.handleReceiveError nodeId (.ok externalId) (.localError (.resendError error)))
  | .ok session =>
    { w with stages := update w.stages requestId (.resent w.nextRequestId) }
      |>.sendEncryptedRequest ⟨nodeId, contactId, request, session, .update requestId⟩

/-- One step. -/
def step [DecidableEq Session] (w : World Request Session Res) :
    Event Request Session Res → Option (World Request Session Res)
  | .send nodeId contactId request idempotent session =>
    match session with
    | .error _ => some w
    | .ok session =>
      some (w.sendEncryptedRequest ⟨nodeId, contactId, request, session, .register idempotent⟩)
  | .register requestId =>
    (w.sends requestId).map fun send => { w with
      registry := registration w.registry requestId send
      sends := update w.sends requestId none }
  | .deliver nodeId requestId payload =>
    match w.stages requestId with
    | .inTransit =>
      match payload with
      | .response decrypted => some (w.receiveResponse nodeId requestId decrypted)
      | .receiveError error => some (w.receiveError nodeId requestId error)
    | _ => none
  | .fetch requestId currentSession =>
    match w.stages requestId with
    | .checked nodeId externalId error =>
      some (w.fetchRequest requestId nodeId externalId error currentSession)
    | _ => none
  | .resend requestId session =>
    match w.stages requestId with
    | .resending nodeId externalId contactId request =>
      some (w.resend requestId nodeId externalId contactId request session)
    | _ => none
  | .lose requestId =>
    match w.stages requestId with
    | .inTransit => some { w with stages := update w.stages requestId .lost }
    | _ => none
  | .poll expired =>
    (w.worker.pollNext w.registry.commands expired).map fun r => { w with
      registry := { w.registry with commands := r.2.2 }
      worker := r.2.1
      effects := w.effects ++
        r.1.toList.map fun t => .handleReceiveError t.2 (.ok t.1) (.localError .timeout) }

end World

/-! ### What a step does -/

/-- `Move w e w'`: one of the things that the event `e` can do. -/
inductive Move (w : World Request Session Res) :
    Event Request Session Res → World Request Session Res → Prop
  /-- There is no session to encrypt the request with. -/
  | unsent {nodeId contactId request idempotent error} :
      Move w (.send nodeId contactId request idempotent (.error error)) w
  | sent {nodeId contactId request idempotent session} :
      Move w (.send nodeId contactId request idempotent (.ok session))
        (w.sendEncryptedRequest ⟨nodeId, contactId, request, session, .register idempotent⟩)
  /-- The request gets an external id. -/
  | registered {requestId send data} (hsend : w.sends requestId = some send)
      (hdata : data = match send.config with
        | .register idempotent =>
          some ⟨send.contactId, send.request, idempotent, send.session⟩
        | _ => none)
      (hupdate : ∀ old, send.config = .update old → w.registry.register old = none) :
      Move w (.register requestId)
        { w with
          registry := (w.registry.insert requestId send.nodeId data).2
          sends := update w.sends requestId none }
  /-- The request keeps its external id. -/
  | moved {requestId send old it} (hsend : w.sends requestId = some send)
      (hconfig : send.config = .update old) (hit : w.registry.register old = some it) :
      Move w (.register requestId)
        { w with
          registry := { w.registry with
            register := update (update w.registry.register old none) requestId
              (some it) }
          sends := update w.sends requestId none }
  /-- An event is reported, and there is no registration. -/
  | unknown {nodeId requestId payload effect} (hstage : w.stages requestId = .inTransit)
      (hit : w.registry.register requestId = none) (heffect : effect.requestId = some (.error ())) :
      Move w (.deliver nodeId requestId payload) (w.report requestId effect)
  | answered {nodeId requestId decrypted it effect} (hstage : w.stages requestId = .inTransit)
      (hit : w.registry.register requestId = some it)
      (heffect : effect.requestId = some (.ok it.externalId)) :
      Move w (.deliver nodeId requestId (.response decrypted))
        (World.report
          { w with registry := { w.registry with
            register := update w.registry.register requestId none
            commands := w.registry.commands ++ [.unRegister it.externalId] } }
          requestId effect)
  /-- An error is reported, and the request was sent again before. -/
  | refused {nodeId requestId error it effect} (hstage : w.stages requestId = .inTransit)
      (hit : w.registry.register requestId = some it)
      (heffect : effect.requestId = some (.ok it.externalId)) :
      Move w (.deliver nodeId requestId (.receiveError error)) (w.report requestId effect)
  | checked {nodeId requestId error it} (hstage : w.stages requestId = .inTransit)
      (hit : w.registry.register requestId = some it) (hretry : it.retryCount = 0) :
      Move w (.deliver nodeId requestId (.receiveError error))
        { w with
          stages := update w.stages requestId (.checked nodeId it.externalId error) }
  /-- The request cannot be sent again, or must not. -/
  | unfetched {requestId currentSession externalId effect}
      (hheld : (w.stages requestId).held = some externalId)
      (heffect : effect.requestId = some (.ok externalId)) :
      Move w (.fetch requestId currentSession) (w.report requestId effect)
  | fetched {requestId currentSession nodeId externalId error it data effects}
      (hstage : w.stages requestId = .checked nodeId externalId error)
      (hit : w.registry.register requestId = some it) (hdata : it.data = some data)
      (hresend : (∃ e, error = .remoteError e) ∨ data.idempotent = true)
      (heffects : ∀ effect ∈ effects, effect.requestId = none) :
      Move w (.fetch requestId currentSession)
        { w with
          registry := w.registry.bumpRetries requestId it
          stages := update w.stages requestId
            (.resending nodeId externalId data.contactId data.request)
          effects := w.effects ++ effects }
  /-- There is no session to encrypt the request with. -/
  | unresent {requestId error externalId effect}
      (hheld : (w.stages requestId).held = some externalId)
      (heffect : effect.requestId = some (.ok externalId)) :
      Move w (.resend requestId (.error error)) (w.report requestId effect)
  | resent {requestId session nodeId externalId contactId request}
      (hstage : w.stages requestId = .resending nodeId externalId contactId request) :
      Move w (.resend requestId (.ok session))
        (World.sendEncryptedRequest
          { w with stages := update w.stages requestId (.resent w.nextRequestId) }
          ⟨nodeId, contactId, request, session, .update requestId⟩)
  | lost {requestId} (hstage : w.stages requestId = .inTransit) :
      Move w (.lose requestId) { w with stages := update w.stages requestId .lost }
  | polled {expired timeout worker commands}
      (hpoll : w.worker.pollNext w.registry.commands expired =
        some (timeout, worker, commands)) :
      Move w (.poll expired)
        { w with
          registry := { w.registry with commands := commands }
          worker := worker
          effects := w.effects ++ timeout.toList.map fun t =>
            .handleReceiveError t.2 (.ok t.1) (.localError .timeout) }

namespace World

variable {w w' : World Request Session Res}

variable {requestId : ℕ}

theorem register_move {send} (hsend : w.sends requestId = some send) : Move w (.register requestId)
      { w with
        registry := registration w.registry requestId send
        sends := update w.sends requestId none } := by
  obtain ⟨nodeId, contactId, request, session, config⟩ := send
  cases config with
  | register idempotent => exact .registered hsend rfl (fun old h => by cases h)
  | registerOnlyId => exact .registered hsend rfl (fun old h => by cases h)
  | update old =>
    cases hit : w.registry.register old with
    | some it =>
      have h := Move.moved hsend rfl hit
      simpa only [registration, updateRequestId, hit] using h
    | none =>
      have h := Move.registered hsend rfl fun old' h => by cases h; exact hit
      simpa only [registration, updateRequestId,
        registerRequestId, hit] using h

theorem receiveResponse_move (nodeId : PeerId) (hstage : w.stages requestId = .inTransit)
    (decrypted : Except LocalReceiveError (Option ContactId × Res)) :
    Move w (.deliver nodeId requestId (.response decrypted))
      (w.receiveResponse nodeId requestId decrypted) := by
  cases hit : w.registry.register requestId with
  | none =>
    rw [receiveResponse, removeRequest, hit]
    exact .unknown hstage hit (by simp)
  | some it =>
    rw [receiveResponse, removeRequest, hit]
    exact .answered hstage hit (by simp)

theorem receiveError_move (nodeId : PeerId)
    (hstage : w.stages requestId = .inTransit) (error : ReceiveError) :
    Move w (.deliver nodeId requestId (.receiveError error))
      (w.receiveError nodeId requestId error) := by
  cases hit : w.registry.register requestId with
  | none =>
    rw [receiveError, checkRequestMetadata, hit]
    exact .unknown hstage hit rfl
  | some it =>
    rw [receiveError, checkRequestMetadata, hit]
    show Move w _ (if it.retryCount > 0 then _ else _)
    by_cases hretry : it.retryCount > 0
    · rw [if_pos hretry]
      exact .refused hstage hit rfl
    · rw [if_neg hretry]
      exact .checked hstage hit (by omega)

theorem fetchRequest_move [DecidableEq Session] {externalId : ℕ} {nodeId error}
    (hstage : w.stages requestId = .checked nodeId externalId error)
    (currentSession : Option Session) : Move w (.fetch requestId currentSession)
      (w.fetchRequest requestId nodeId externalId error currentSession) := by
  have hheld : (w.stages requestId).held = some externalId := by rw [hstage]; rfl
  have hgone : Move w (.fetch requestId currentSession) (w.report requestId
      (.handleReceiveError nodeId (.ok externalId) error)) := .unfetched hheld rfl
  cases hit : w.registry.register requestId with
  | none =>
    cases error <;> simpa only [fetchRequest, getRequestForResend,
      getRequestForResendAfterSessionError, hit] using hgone
  | some it =>
    cases hdata : it.data with
    | none =>
      cases error <;> simpa only [fetchRequest, getRequestForResend,
        getRequestForResendAfterSessionError, hit, hdata] using hgone
    | some data =>
      cases error with
      | remoteError e =>
        rw [fetchRequest, getRequestForResendAfterSessionError, hit]
        simp only [hdata]
        refine .fetched hstage hit hdata (.inl ⟨e, rfl⟩) fun effect heffect => ?_
        split at heffect
        · rw [List.mem_singleton.mp heffect]
          rfl
        · cases heffect
      | localError e =>
        rw [fetchRequest, getRequestForResend, hit]
        simp only [hdata]
        by_cases hid : data.idempotent = true
        · simp only [hid, if_true, Bool.not_true, Bool.false_eq_true, if_false]
          have h : Move w (.fetch requestId currentSession) _ :=
            .fetched hstage hit hdata (.inr hid) (List.forall_mem_nil _)
          simpa using h
        · simpa only [hid, Bool.false_eq_true, if_false] using hgone

/-- **What a step does.** -/
theorem step_move [DecidableEq Session] {e} (h : w.step e = some w') : Move w e w' := by
  cases e with
  | send nodeId contactId request idempotent session =>
    cases session with
    | error error =>
      obtain ⟨⟩ := h
      exact .unsent
    | ok session =>
      obtain ⟨⟩ := h
      exact .sent
  | register requestId =>
    obtain ⟨send, hsend, rfl⟩ := Option.map_eq_some_iff.mp h
    exact register_move hsend
  | deliver nodeId requestId payload =>
    cases payload with
    | response decrypted =>
      rw [step] at h
      split at h
      · next hstage =>
        obtain ⟨⟩ := h
        exact receiveResponse_move nodeId hstage decrypted
      · cases h
    | receiveError error =>
      rw [step] at h
      split at h
      · next hstage =>
        obtain ⟨⟩ := h
        exact receiveError_move nodeId hstage error
      · cases h
  | fetch requestId currentSession =>
    rw [step] at h
    split at h
    · next nodeId externalId error hstage =>
      obtain ⟨⟩ := h
      exact fetchRequest_move hstage currentSession
    · cases h
  | resend requestId session =>
    rw [step] at h
    split at h
    · next nodeId externalId contactId request hstage =>
      obtain ⟨⟩ := h
      cases session with
      | error error => exact .unresent (by rw [hstage]; rfl) rfl
      | ok session => exact .resent hstage
    · cases h
  | lose requestId =>
    rw [step] at h
    split at h
    · next hstage =>
      obtain ⟨⟩ := h
      exact .lost hstage
    · cases h
  | poll expired =>
    obtain ⟨⟨timeout, worker, commands⟩, hpoll, rfl⟩ := Option.map_eq_some_iff.mp h
    exact .polled hpoll

end World

end Fyles.SessionSendReceive
