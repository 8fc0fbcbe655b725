import Fyles.SessionSendReceive

/-!
# One registry for each type of requests

`p2p/src/event_loop/trait_impls/request_registry.rs`. The event loop has a registry for each of
three types of requests and implements `RequestRegistry` once for each type, by handing every call
on to one of the three. All calls go to the registry of the type, but for one: for the challenge of
a shared contact, `register_request_id` goes to the registry of the filerequests.

`send_internal` is told which registry to use. `send_request` and `send_request_idempotent` give it
the event loop itself, and so the implementation for the type of the request. A request that is sent
again goes to the registry that the handler of its response has named, which is the registry of its
type. So the call that goes astray is never made.

## Main results

* `coherent_iff` — when `send_internal` records an id in the right registry
* `recorded_coherently` — it always does
-/

namespace Fyles.SessionSendReceive

/-- The types that `RequestRegistry` is implemented for. -/
inductive RequestType
  | fileRequest
  | contactShareChallenge
  | selfContactInviteChallenge
  deriving DecidableEq

/-- The registries of the event loop, each one with the requests of its type. -/
abbrev Registries (Request : RequestType → Type) (Session : Type) : Type :=
  (t : RequestType) → TimeoutRequestRegistry ℕ PeerId (Request t) Session

namespace Registries

variable {Request : RequestType → Type} {Session : Type} (rs : Registries Request Session)
  (t : RequestType) (requestId : ℕ)

/-- A call is handed on to one of the registries. -/
def handOn {α : Type}
    (call : TimeoutRequestRegistry ℕ PeerId (Request t) Session →
      α × TimeoutRequestRegistry ℕ PeerId (Request t) Session) : α × Registries Request Session :=
  ((call (rs t)).1, Function.update rs t (call (rs t)).2)

/-- `register_request_id` of the event loop. -/
def registerRequestId (nodeId : PeerId) : RequestType → ℕ × Registries Request Session
  | .fileRequest | .contactShareChallenge =>
    rs.handOn .fileRequest (·.registerRequestId requestId nodeId)
  | .selfContactInviteChallenge =>
    rs.handOn .selfContactInviteChallenge (·.registerRequestId requestId nodeId)

/-- `register_request`. -/
def registerRequest (session : Session)
    (requestId : ℕ) (nodeId : PeerId) (contactId : Option ContactId) (request : Request t)
    (idempotent : Bool) : ℕ × Registries Request Session :=
  rs.handOn t (·.registerRequest session requestId nodeId contactId request idempotent)

/-- `update_request_id`. -/
def updateRequestId (old new : ℕ) : Option ℕ × Registries Request Session :=
  rs.handOn t (·.updateRequestId old new)

/-- `remove_request`. -/
def removeRequest : Option ℕ × Registries Request Session :=
  rs.handOn t (·.removeRequest requestId)

/-- `check_request_metadata`. -/
def checkRequestMetadata : Option (ℕ × ℕ) :=
  (rs t).checkRequestMetadata requestId

/-- What `send_internal` is given as registry: the event loop, which hands every call on, or the
registry of the type itself. -/
inductive Argument
  | eventLoop
  | ofType
  deriving DecidableEq

/-- `register_request_id` of an argument. The other methods of the event loop lead to the registry
of the type. -/
def Argument.registerRequestId (nodeId : PeerId) : Argument → ℕ × Registries Request Session
  | .eventLoop => rs.registerRequestId requestId nodeId t
  | .ofType => rs.handOn t (·.registerRequestId requestId nodeId)

/-- `send_internal`, when the transport has given the request its id. Before that, it may fail for
want of a session. -/
def sendInternal (nodeId : PeerId) (contactId : Option ContactId) (request : Request t)
    (registry : Argument) (config : SendInternalConfig) (session : Except String Session)
    (requestId : ℕ) : Except String (ℕ × Registries Request Session) :=
  session.map fun session =>
    match config with
    | .register idempotent =>
      rs.registerRequest t session requestId nodeId contactId request idempotent
    | .registerOnlyId => registry.registerRequestId rs t requestId nodeId
    | .update oldRequestId =>
      match rs.updateRequestId t oldRequestId requestId with
      | (some externalId, rs) => (externalId, rs)
      | (none, rs) => registry.registerRequestId rs t requestId nodeId

/-- The calls of `send_internal`. -/
inductive Caller
  | sendRequest
  | sendRequestIdempotent
  /-- `receive_encrypted_response`, with the registry that the handlers of the events name. -/
  | resend (oldRequestId : ℕ)

namespace Caller

def registry : Caller → Argument
  | .sendRequest | .sendRequestIdempotent => .eventLoop
  | .resend _ => .ofType

def config : Caller → SendInternalConfig
  | .sendRequest => .register false
  | .sendRequestIdempotent => .register true
  | .resend oldRequestId => .update oldRequestId

end Caller

/-- After a request was recorded, those who ask for it find it, and the other registries are as they
were. -/
structure Coherent (rs rs' : Registries Request Session) (t : RequestType)
    (requestId externalId : ℕ) : Prop where
  checked : (rs'.checkRequestMetadata t requestId).map Prod.snd = some externalId
  removed : (rs'.removeRequest t requestId).1 = some externalId
  others : ∀ t' ≠ t, rs' t' = rs t'

/-- Only the id is recorded: because that was asked for, or because the request that is sent again
is not in the registry any more. -/
def OnlyId : SendInternalConfig → Prop
  | .register _ => False
  | .registerOnlyId => True
  | .update oldRequestId => (rs t).register oldRequestId = none

variable {rs rs' : Registries Request Session} {t : RequestType} {requestId externalId : ℕ}

theorem Coherent.of_entry {reg it} (h : reg.register requestId = some it)
    (he : it.externalId = externalId) :
    Coherent rs (Function.update rs t reg) t requestId externalId where
  checked := by simp [checkRequestMetadata, TimeoutRequestRegistry.checkRequestMetadata, h, he]
  removed := by simp [removeRequest, handOn, TimeoutRequestRegistry.removeRequest, h, he]
  others t' ht := Function.update_of_ne ht _ _

variable {nodeId : PeerId} {contactId : Option ContactId} {request : Request t}
  {session : Except String Session}

/-- Recording only the id is right but for one type and the event loop. -/
theorem coherent_registerRequestId_iff {registry : Argument} :
    Coherent rs (registry.registerRequestId rs t requestId nodeId).2 t requestId
        (registry.registerRequestId rs t requestId nodeId).1 ↔
      ¬ (registry = .eventLoop ∧ t = .contactShareChallenge) := by
  have hright {reg} (h : reg = (rs t).registerRequestId requestId nodeId) :
      Coherent rs (Function.update rs t reg.2) t requestId reg.1 :=
    h ▸ .of_entry (Function.update_self _ _ _) rfl
  cases registry with
  | ofType => exact iff_of_true (hright rfl) nofun
  | eventLoop =>
    cases t with
    | fileRequest | selfContactInviteChallenge => exact iff_of_true (hright rfl) nofun
    | contactShareChallenge =>
      refine iff_of_false (fun h => ?_) (fun h => h ⟨rfl, rfl⟩)
      have hfile := congrArg TimeoutRequestRegistry.nextExternalRequestId
        (h.others .fileRequest nofun)
      simp [Argument.registerRequestId, registerRequestId, handOn,
        TimeoutRequestRegistry.registerRequestId, TimeoutRequestRegistry.insert] at hfile

/-- **Where a request is recorded.** For every argument and every state of the registries,
`send_internal` records the id in the registry that its type is looked up in and leaves the others
alone, unless the event loop is to record only the id of a challenge of a shared contact. -/
theorem coherent_iff {registry : Argument} {config : SendInternalConfig}
    (h : rs.sendInternal t nodeId contactId request registry config session requestId =
      .ok (externalId, rs')) :
    Coherent rs rs' t requestId externalId ↔
      ¬ ((registry = .eventLoop ∧ t = .contactShareChallenge) ∧ rs.OnlyId t config) := by
  cases session with
  | error error => cases h
  | ok session =>
    have h := Except.ok.inj h
    cases config with
    | register idempotent =>
      obtain ⟨rfl, rfl⟩ := Prod.mk.inj h
      exact iff_of_true (.of_entry (Function.update_self _ _ _) rfl) fun h => h.2
    | registerOnlyId =>
      obtain ⟨rfl, rfl⟩ := Prod.ext_iff.mp h
      exact coherent_registerRequestId_iff.trans (by simp [OnlyId])
    | update old =>
      cases hold : (rs t).register old with
      | none =>
        -- The registry is put back as it was, and the id is recorded as a new one.
        simp only [updateRequestId, handOn, TimeoutRequestRegistry.updateRequestId, hold,
          Function.update_eq_self] at h
        obtain ⟨rfl, rfl⟩ := Prod.ext_iff.mp h
        exact coherent_registerRequestId_iff.trans (by simp [OnlyId, hold])
      | some it =>
        simp only [updateRequestId, handOn, TimeoutRequestRegistry.updateRequestId, hold] at h
        obtain ⟨rfl, rfl⟩ := Prod.mk.inj h
        exact iff_of_true (.of_entry (Function.update_self _ _ _) rfl) (by simp [OnlyId, hold])

/-- **Every request is recorded where it is looked up**, whatever its type, whoever sends it and
whatever the registries contain, and the registries of the other types stay as they are. -/
theorem recorded_coherently (caller : Caller)
    (h : rs.sendInternal t nodeId contactId request caller.registry caller.config session
      requestId = .ok (externalId, rs')) :
    Coherent rs rs' t requestId externalId := by
  refine (coherent_iff h).mpr ?_
  rintro ⟨⟨hloop, -⟩, honly⟩
  cases caller with
  | sendRequest | sendRequestIdempotent => exact honly
  | resend old => cases hloop

/-- A challenge of a shared contact is sent again when request 7 was removed. -/
theorem recorded_coherently_removed : ∃ rs',
    sendInternal (fun _ => .new : Registries (fun _ => Unit) Unit) .contactShareChallenge ⟨"peer"⟩
      none () (Caller.resend 7).registry (Caller.resend 7).config (.ok ()) 8 = .ok (0, rs') ∧
    Coherent (fun _ => .new) rs' .contactShareChallenge 8 0 :=
  have h : sendInternal (fun _ => .new : Registries (fun _ => Unit) Unit) .contactShareChallenge
      ⟨"peer"⟩ none () (Caller.resend 7).registry (Caller.resend 7).config (.ok ()) 8 =
        .ok (0, _) := rfl
  ⟨_, h, recorded_coherently _ h⟩

end Registries

end Fyles.SessionSendReceive
