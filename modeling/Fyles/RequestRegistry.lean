import Fyles.DomainModels
import Mathlib.Logic.Function.Basic

/-!
# The request registry

`p2p/src/send_receive_traits/request_registry.rs`. The transport gives every request an id of its
own; a request that is sent again gets another one. The registry gives every request an *external*
id that stays, keeps what is needed to send the request again, and has a worker report requests that
nobody has heard of for too long.

The registry and the worker share nothing but a channel of commands. A timeout that has been
reported is not taken out of the registry, and the worker may report a timeout while the command
that would have removed it is still in the channel.

## Maps

A map is a function to `Option`, and counters are natural numbers. An expiring entry of the
worker's queue and the entry with its node id are made and removed together, so that one map stands
for both. When an entry expires is a parameter of `pollNext`.

## Main results

* `TimeoutRequestRegistryWorker.timers_pollNext` — a request does not time out more often than its
  timeout was started
-/

namespace Fyles

open Function (update update_of_ne)

variable {RequestId NodeId Request Session : Type}

/-! ### The worker -/

/-- What the registry tells the worker. -/
inductive Command (NodeId : Type)
  | register (requestId : ℕ) (nodeId : NodeId)
  | unRegister (requestId : ℕ)
  | resetTimeout (requestId : ℕ)
  deriving DecidableEq, Repr

/-- The request whose timeout a command starts. -/
def Command.starts : Command NodeId → Option ℕ
  | .register requestId _ => some requestId
  | .unRegister _ | .resetTimeout _ => none

/-- The worker. -/
structure TimeoutRequestRegistryWorker (NodeId : Type) where
  /-- The requests that can time out, by their external ids. -/
  register : ℕ → Option NodeId

namespace TimeoutRequestRegistryWorker

/-- No request can time out. -/
def new : TimeoutRequestRegistryWorker NodeId := ⟨fun _ => none⟩

variable (worker : TimeoutRequestRegistryWorker NodeId)

/-- The first half of `poll_next`: one command. How long an entry has to wait is not part of the
model, so a timeout that is reset is as it was. -/
def handleCommand : Command NodeId → TimeoutRequestRegistryWorker NodeId
  | .register requestId nodeId => ⟨update worker.register requestId (some nodeId)⟩
  | .unRegister requestId => ⟨update worker.register requestId none⟩
  | .resetTimeout _ => worker

/-- The second half of `poll_next`: the entry of a request expires. There is none if the request
cannot time out. -/
def expire (requestId : ℕ) : Option ((ℕ × NodeId) × TimeoutRequestRegistryWorker NodeId) :=
  (worker.register requestId).map fun nodeId =>
    ((requestId, nodeId), ⟨update worker.register requestId none⟩)

variable (commands : List (Command NodeId))

/-- `poll_next`: handle the first command, and then report the request whose entry has expired, if
there is one. -/
def pollNext (expired : Option ℕ) :
    Option (Option (ℕ × NodeId) × TimeoutRequestRegistryWorker NodeId × List (Command NodeId)) :=
  let worker := commands.head?.elim worker worker.handleCommand
  match expired with
  | none => some (none, worker, commands.tail)
  | some requestId => (worker.expire requestId).map fun r => (some r.1, r.2, commands.tail)

/-- How often a request is still going to time out: once for every command that starts its timeout,
and once more if the timeout has started. -/
def timers (requestId : ℕ) : ℕ :=
  (commands.filterMap Command.starts).count requestId + (worker.register requestId).isSome.toNat

theorem timers_append (command : Command NodeId) (requestId : ℕ) :
    worker.timers (commands ++ [command]) requestId =
      worker.timers commands requestId + command.starts.toList.count requestId := by
  have h : [command].filterMap Command.starts = command.starts.toList := by
    cases command <;> rfl
  rw [timers, timers, List.filterMap_append, List.count_append, h]
  omega

/-- Handling a command starts no timeout that was not about to start. -/
theorem timers_handleCommand (requestId : ℕ) :
    (commands.head?.elim worker worker.handleCommand).timers commands.tail requestId ≤
      worker.timers commands requestId := by
  cases commands with
  | nil => exact Nat.le_refl _
  | cons command commands =>
    show (worker.handleCommand command).timers commands requestId ≤ _
    cases command with
    | register k nodeId =>
      simp only [timers, handleCommand, List.filterMap_cons, Command.starts, List.count_cons]
      by_cases hk : requestId = k
      · subst hk
        simp
      · rw [update_of_ne hk]
        omega
    | unRegister k =>
      simp only [timers, handleCommand, List.filterMap_cons, Command.starts]
      by_cases hk : requestId = k
      · subst hk
        simp
      · rw [update_of_ne hk]
    | resetTimeout k => simp [timers, handleCommand, List.filterMap_cons, Command.starts]

/-- **One poll.** No request gets more timeouts, and the one that is reported has one less. -/
theorem timers_pollNext {worker worker' : TimeoutRequestRegistryWorker NodeId}
    {commands commands' expired timeout}
    (h : worker.pollNext commands expired = some (timeout, worker', commands')) :
    (∀ k, worker'.timers commands' k ≤ worker.timers commands k) ∧
      timeout.map Prod.fst = expired ∧
      ∀ k ∈ expired, worker'.timers commands' k < worker.timers commands k := by
  have hle := worker.timers_handleCommand commands
  cases expired with
  | none =>
    obtain ⟨rfl, rfl, rfl⟩ := by simpa using h
    exact ⟨hle, rfl, fun k hk => by cases hk⟩
  | some k =>
    obtain ⟨r, hr, h⟩ := Option.map_eq_some_iff.mp h
    obtain ⟨nodeId, hnode, rfl⟩ := Option.map_eq_some_iff.mp hr
    obtain ⟨rfl, rfl, rfl⟩ := by simpa using h
    have hlt : ∀ j, timers ⟨update
        (commands.head?.elim worker worker.handleCommand).register k none⟩ commands.tail j +
          (if j = k then 1 else 0) ≤ worker.timers commands j := by
      intro j
      refine Nat.le_trans ?_ (hle j)
      by_cases hj : j = k
      · subst hj
        simp [timers, hnode]
      · simp [timers, hj]
    refine ⟨fun j => Nat.le_trans (Nat.le_add_right _ _) (hlt j), rfl, ?_⟩
    rintro j ⟨⟩
    have hk := hlt k
    rw [if_pos rfl] at hk
    exact Nat.lt_of_succ_le hk

end TimeoutRequestRegistryWorker

/-! ### The registry -/

/-- What is needed to send a request again. -/
structure RegisteredRequestData (Request Session : Type) where
  contactId : Option ContactId
  request : Request
  /-- Whether the request may be processed more than once. -/
  idempotent : Bool
  /-- The session with which the request was encrypted. -/
  session : Session

/-- A request that was sent. -/
structure RegisteredRequest (Request Session : Type) where
  /-- The id that stays when the request is sent again. -/
  externalId : ℕ
  retryCount : ℕ
  /-- What is needed to send it again. -/
  data : Option (RegisteredRequestData Request Session)

/-- The registry. -/
structure TimeoutRequestRegistry (RequestId NodeId Request Session : Type) where
  /-- The requests, by the ids of the transport. -/
  register : RequestId → Option (RegisteredRequest Request Session)
  nextExternalRequestId : ℕ
  /-- The commands that the worker has not handled yet. -/
  commands : List (Command NodeId)

/-- What is sent after an error at this end. -/
structure RequestForResend (Request : Type) where
  request : Request
  contactId : Option ContactId
  idempotent : Bool

/-- What is sent after an error of the session. -/
structure RequestForResendAfterSessionError (Request : Type) where
  request : Request
  contactId : Option ContactId
  /-- Whether the session with which the request was sent is the current one. -/
  requiresNewSession : Bool

namespace TimeoutRequestRegistry

/-- No request was sent. -/
def new : TimeoutRequestRegistry RequestId NodeId Request Session := ⟨fun _ => none, 0, []⟩

/-- `check_request_metadata`. -/
def checkRequestMetadata (reg : TimeoutRequestRegistry RequestId NodeId Request Session)
    (requestId : RequestId) : Option (ℕ × ℕ) :=
  (reg.register requestId).map fun it => (it.retryCount, it.externalId)

variable [DecidableEq RequestId]

/-- The registry with a new entry, whose timeout starts. -/
def insert (reg : TimeoutRequestRegistry RequestId NodeId Request Session)
    (requestId : RequestId) (nodeId : NodeId)
    (data : Option (RegisteredRequestData Request Session)) :
    ℕ × TimeoutRequestRegistry RequestId NodeId Request Session :=
  (reg.nextExternalRequestId,
    { register := update reg.register requestId
        (some ⟨reg.nextExternalRequestId, 0, data⟩)
      nextExternalRequestId := reg.nextExternalRequestId + 1
      commands := reg.commands ++ [.register reg.nextExternalRequestId nodeId] })

/-- `register_request_id`. -/
def registerRequestId (reg : TimeoutRequestRegistry RequestId NodeId Request Session)
    (requestId : RequestId) (nodeId : NodeId) :
    ℕ × TimeoutRequestRegistry RequestId NodeId Request Session :=
  reg.insert requestId nodeId none

/-- `register_request`. -/
def registerRequest (reg : TimeoutRequestRegistry RequestId NodeId Request Session)
    (session : Session) (requestId : RequestId) (nodeId : NodeId) (contactId : Option ContactId)
    (request : Request) (idempotent : Bool) :
    ℕ × TimeoutRequestRegistry RequestId NodeId Request Session :=
  reg.insert requestId nodeId (some ⟨contactId, request, idempotent, session⟩)

/-- `remove_request`, for the external id; the timeout is stopped. -/
def removeRequest (reg : TimeoutRequestRegistry RequestId NodeId Request Session)
    (requestId : RequestId) :
    Option ℕ × TimeoutRequestRegistry RequestId NodeId Request Session :=
  match reg.register requestId with
  | none => (none, reg)
  | some it =>
    (some it.externalId,
      { reg with
        register := update reg.register requestId none
        commands := reg.commands ++ [.unRegister it.externalId] })

/-- The request is going to be sent again: count that, and let the timeout start anew. -/
def bumpRetries (reg : TimeoutRequestRegistry RequestId NodeId Request Session)
    (requestId : RequestId) (it : RegisteredRequest Request Session) :
    TimeoutRequestRegistry RequestId NodeId Request Session :=
  { reg with
    register := update reg.register requestId
      (some { it with retryCount := it.retryCount + 1 })
    commands := reg.commands ++ [.resetTimeout it.externalId] }

/-- `get_request_for_resend`. -/
def getRequestForResend (reg : TimeoutRequestRegistry RequestId NodeId Request Session)
    (requestId : RequestId) : Option (RequestForResend Request) ×
      TimeoutRequestRegistry RequestId NodeId Request Session :=
  match reg.register requestId with
  | none => (none, reg)
  | some it =>
    match it.data with
    | none => (none, reg)
    | some data =>
      if data.idempotent then
        (some ⟨data.request, data.contactId, data.idempotent⟩, reg.bumpRetries requestId it)
      else (none, reg)

/-- `get_request_for_resend_after_session_error`. -/
def getRequestForResendAfterSessionError [DecidableEq Session]
    (reg : TimeoutRequestRegistry RequestId NodeId Request Session)
    (currentSession : Option Session) (requestId : RequestId) :
    Option (RequestForResendAfterSessionError Request) ×
      TimeoutRequestRegistry RequestId NodeId Request Session :=
  match reg.register requestId with
  | none => (none, reg)
  | some it =>
    match it.data with
    | none => (none, reg)
    | some data =>
      (some ⟨data.request, data.contactId,
        (currentSession.map fun c => decide (c = data.session)).getD false⟩,
        reg.bumpRetries requestId it)

/-- `update_request_id`: the entry moves to the new id. -/
def updateRequestId (reg : TimeoutRequestRegistry RequestId NodeId Request Session)
    (oldRequestId newRequestId : RequestId) :
    Option ℕ × TimeoutRequestRegistry RequestId NodeId Request Session :=
  match reg.register oldRequestId with
  | none => (none, reg)
  | some it =>
    (some it.externalId,
      { reg with
        register := update (update reg.register oldRequestId none)
          newRequestId (some it) })

end TimeoutRequestRegistry

end Fyles
