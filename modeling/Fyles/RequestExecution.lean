import Fyles.Internal.Lists
import Fyles.RequestLinks
import Fyles.SessionTrials

/-!
# A request is executed once

A request that is not idempotent is sent again after an error of the session, and only then: the
other end is taken not to have read it. This is a promise that the other end has to keep. It answers
with an error when no session can decrypt the request (`session_responder.rs`), and all handlers of
requests send that error as `CryptError`. But it also answers with an error when the request was
executed and the reply cannot be encrypted, and that error is sent as `CryptError` too.

The sender is that of `SessionSendReceive`, with every interleaving of its tasks. If no reply fails
to be encrypted, a request that is not idempotent is executed at most once.

## The other end

Each request that the transport carries is handed to the other end at most once, at any time after
it was sent. Which message arrives does not matter here, and is a parameter. `decrypt_respond` is
two steps, up to the reply of `respond_to` and from the encryption on, and the sessions can be used
by others in between. A transport error can be reported for any request, whether it was executed or
not.

## Main results

* `executed_once` — then a request that is not idempotent is executed at most once, and errors are
  sent for requests that were not executed
* `executed_twice` — what happens otherwise
-/

namespace Fyles.RequestExecution

open Function (update update_of_ne update_self)

open SessionSendReceive (Stage SendInternalConfig SendInternal ReceivePayload Move Linked Issues
  stage_of_inTransit stage_of_held)

variable {K Request S Res : Type}

/-! ### The other end -/

/-- Why there is no response. -/
inductive SessionResponderError
  | missingSession
  | couldNotDecrypt
  | encryptError (error : EncryptionError)
  deriving DecidableEq, Repr

/-- What is sent instead of a response. -/
inductive SessionErrorResponse
  | missingSession
  | cryptError
  deriving DecidableEq, Repr

/-- What the handlers of requests send for an error. -/
def SessionResponderError.sent : SessionResponderError → SessionErrorResponse
  | .missingSession | .couldNotDecrypt | .encryptError _ => .cryptError

/-- What the sender makes of it. -/
def SessionErrorResponse.received : SessionErrorResponse → RemoteReceiveError
  | .missingSession => .missingSession
  | .cryptError => .cannotDecrypt

/-- What has become of a request at the other end. -/
inductive Inbound (K Res : Type)
  | notReceived
  /-- The request was executed, and the reply has to be encrypted. -/
  | replying (session : ℕ) (response : Res)
  | answered (answer : Except SessionErrorResponse (Encrypted K Res))
  | silent

/-- The session with which a reply has to be encrypted. -/
def Inbound.session : Inbound K Res → Option ℕ
  | .replying session _ => some session
  | _ => none

/-- Whether an event of the transport can be reported for a request. -/
def Inbound.Reports (inbound : Inbound K Res) : ReceivePayload Res → Prop
  | .response _ => ∃ response, inbound = .answered (.ok response)
  | .receiveError (.remoteError error) =>
    ∃ answer, inbound = .answered (.error answer) ∧ answer.received = error
  | .receiveError (.localError (.transportError _)) => True
  | .receiveError (.localError _) => False

instance (inbound : Inbound K Res) (payload : ReceivePayload Res) :
    Decidable (inbound.Reports payload) := by
  rw [Inbound.Reports.eq_def]
  split
  · rcases inbound with _ | _ | (_ | response) | _
    case answered.ok => exact .isTrue ⟨response, rfl⟩
    all_goals exact .isFalse (by simp)
  · next error =>
    rcases inbound with _ | _ | (answer | _) | _
    case answered.error => exact decidable_of_iff (answer.received = error) (by simp)
    all_goals exact .isFalse (by simp)
  · exact .isTrue trivial
  · exact .isFalse id

/-! ### Both ends -/

/-- The request that was sent under some id. -/
structure Origin where
  first : ℕ
  /-- Whether it was sent with `send_request_idempotent`. -/
  idempotent : Bool
  deriving DecidableEq, Repr

/-- Both ends. -/
structure World (K Request S Res : Type) where
  sender : SessionSendReceive.World Request S Res
  /-- The request that each id of the transport stands for. -/
  origins : ℕ → Option Origin
  sessions : List (Session K)
  /-- What has become of each id at the other end. -/
  inbound : ℕ → Inbound K Res
  /-- The ids for which `respond_to` was called. -/
  executed : List ℕ

/-- What can happen. -/
inductive Event (K Request S Res : Type)
  | sender (event : SessionSendReceive.Event Request S Res)
  | receive (requestId : ℕ) (recent : List ℕ) (request : Encrypted K Request)
      (respondTo : Option ContactId → Request → Option Res)
  | reply (requestId : ℕ) (seals : Bool)
  | establish (session : Session K)
  | use (k : ℕ) (session : Session K)

namespace World

/-- Nothing has happened. -/
def new : World K Request S Res := ⟨.new, fun _ => none, [], fun _ => .notReceived, []⟩

variable (w : World K Request S Res)

/-- How often a request was executed. -/
def executions (request : Origin) : ℕ :=
  w.executed.countP fun r => w.origins r = some request

/-- What the ids of the transport stand for, after an event at the sender. -/
def originsAfter : SessionSendReceive.Event Request S Res → ℕ → Option Origin
  | .send _ _ _ idempotent (.ok _) =>
    update w.origins w.sender.nextRequestId (some ⟨w.sender.nextRequestId, idempotent⟩)
  | .resend requestId (.ok _) =>
    update w.origins w.sender.nextRequestId (w.origins requestId)
  | _ => w.origins

/-- The transport reports only what the other end has answered. -/
def Reports : SessionSendReceive.Event Request S Res → Prop
  | .deliver _ requestId payload => (w.inbound requestId).Reports payload
  | _ => True

instance (w : World K Request S Res) : ∀ e, Decidable (w.Reports e)
  | .deliver _ requestId payload =>
    inferInstanceAs (Decidable ((w.inbound requestId).Reports payload))
  | .send .. | .register _ | .fetch .. | .resend .. | .lose _ | .poll _ =>
    inferInstanceAs (Decidable True)

/-- `decrypt_respond`, up to the reply of `respond_to`. -/
def receive [DecidableEq K] (w : World K Request S Res) (requestId : ℕ) (recent : List ℕ)
    (request : Encrypted K Request) (respondTo : Option ContactId → Request → Option Res) :
    World K Request S Res :=
  match decryptRespond recent request w.sessions with
  | none => { w with inbound := update w.inbound requestId .silent }
  | some (.respondTo s contactId plaintext, sessions) =>
    { w with
      sessions := sessions
      inbound := update w.inbound requestId
        ((respondTo contactId plaintext).elim .silent (.replying s))
      executed := w.executed ++ [requestId] }
  | some (.missingSession, sessions) =>
    { w with
      sessions := sessions
      inbound := update w.inbound requestId
        (.answered (.error SessionResponderError.missingSession.sent)) }
  | some (.couldNotDecrypt, sessions) =>
    { w with
      sessions := sessions
      inbound := update w.inbound requestId
        (.answered (.error SessionResponderError.couldNotDecrypt.sent)) }

/-- `decrypt_respond`, from the encryption on. -/
def reply (requestId k : ℕ) (session : Session K) (response : Res)
    (seals : Bool) : World K Request S Res :=
  let encrypted := session.dencryptor.encrypt seals response
  { w with
    sessions := w.sessions.set k { session with dencryptor := encrypted.2 }
    inbound := update w.inbound requestId
      (.answered (encrypted.1.mapError fun e => (SessionResponderError.encryptError e).sent)) }

/-- One step. -/
def step [DecidableEq K] [DecidableEq S] (w : World K Request S Res) :
    Event K Request S Res → Option (World K Request S Res)
  | .sender e =>
    if w.Reports e then
      (w.sender.step e).map fun s => { w with sender := s, origins := w.originsAfter e }
    else none
  | .receive requestId recent request respondTo =>
    match w.inbound requestId with
    | .notReceived =>
      if requestId < w.sender.nextRequestId then
        some (w.receive requestId recent request respondTo)
      else none
    | _ => none
  | .reply requestId seals =>
    match w.inbound requestId with
    | .replying k response =>
      w.sessions[k]?.map fun session => w.reply requestId k session response seals
    | _ => none
  | .establish session => some { w with sessions := w.sessions ++ [session] }
  | .use k session => some { w with sessions := w.sessions.set k session }

end World

/-- **No reply fails to be encrypted.** When a reply is about to be encrypted, the session has a
nonce left, and the cipher works. -/
def RepliesEncrypted (w : World K Request S Res) : Event K Request S Res → Prop
  | .reply requestId seals => ∀ k ∈ (w.inbound requestId).session, seals = true ∧
      ∀ session ∈ w.sessions[k]?,
        session.dencryptor.nonceGeneratorValidator.usedNonceCounter ≠ u64Half
  | _ => True

instance (w : World K Request S Res) (e) : Decidable (RepliesEncrypted w e) := by
  rw [RepliesEncrypted.eq_def]
  split <;> infer_instance

/-! ### Refused requests -/

/-- The other end has answered with an error. -/
def Refused (w : World K Request S Res) (r : ℕ) : Prop :=
  ∃ e, w.inbound r = .answered (.error e)

/-- The handler of an error sends the request again, or has. -/
def sendsAgain : Stage Request → Bool
  | .resending .. | .resent _ => true
  | .unsent | .inTransit | .lost | .over | .checked .. => false

/-- A request that was sent again was refused, unless it is idempotent. -/
structure Chained (w : World K Request S Res) : Prop where
  /-- An id stands for the request that was sent under it first, or again. -/
  given : ∀ r o, w.origins r = some o →
    r < w.sender.nextRequestId ∧ (r = o.first ∨ w.sender.stages o.first = .resent r)
  /-- What is sent again stands for the same request. -/
  resent : ∀ r new, w.sender.stages r = .resent new → w.origins new = w.origins r
  /-- What is about to be registered is as it was sent. -/
  registering : ∀ r send idempotent, w.sender.sends r = some send →
    send.config = .register idempotent →
    ∃ o, w.origins r = some o ∧ o.idempotent = idempotent
  /-- What is registered is as it was sent. -/
  registered : ∀ r it data, w.sender.registry.register r = some it → it.data = some data →
    ∃ o, w.origins r = some o ∧ o.idempotent = data.idempotent
  /-- An error of the session comes from the other end. -/
  checked : ∀ r nodeId externalId e,
    w.sender.stages r = .checked nodeId externalId (.remoteError e) → Refused w r
  /-- A request is sent again after it was refused, unless it is idempotent. -/
  again : ∀ r o, sendsAgain (w.sender.stages r) → w.origins r = some o → o.idempotent = false →
    Refused w r

/-- Requests are executed once, and refused if they are not executed. -/
structure Honest (w : World K Request S Res) : Prop where
  refused : ∀ r, Refused w r → r ∉ w.executed
  received : ∀ r ∈ w.executed, w.inbound r ≠ .notReceived
  nodup : w.executed.Nodup

theorem Chained.new : Chained (World.new : World K Request S Res) where
  given _ _ h := by cases h
  resent _ _ h := by cases h
  registering _ _ _ h := by cases h
  registered _ _ _ h := by cases h
  checked _ _ _ _ h := by cases h
  again _ _ _ h := by cases h

theorem Honest.new : Honest (World.new : World K Request S Res) where
  refused _ _ h := by cases h
  received _ h := by cases h
  nodup := List.nodup_nil

variable {w w' : World K Request S Res} {r : ℕ}

/-! ### Steps of the other end -/

/-- The other end does not take back what it has answered. -/
theorem Chained.of_inbound (h : Chained w) (hsender : w'.sender = w.sender)
    (horigins : w'.origins = w.origins) (hrefused : ∀ r, Refused w r → Refused w' r) :
    Chained w' := by
  obtain ⟨sender, origins, sessions, inbound, executed⟩ := w'
  obtain rfl : sender = w.sender := hsender
  obtain rfl : origins = w.origins := horigins
  exact
    { given := h.given
      resent := h.resent
      registering := h.registering
      registered := h.registered
      checked := fun r nodeId externalId e hst => hrefused r (h.checked r nodeId externalId e hst)
      again := fun r o hst ho hid => hrefused r (h.again r o hst ho hid) }

/-- A change of what has become of an id that was not refused. -/
theorem refused_update (hr : ¬ Refused w r) {inbound} {r' : ℕ} (h : Refused w r') :
    ∃ e, update w.inbound r inbound r' = .answered (.error e) := by
  have hne : r' ≠ r := by
    rintro rfl
    exact hr h
  rw [update_of_ne hne]
  exact h

theorem not_refused_of_notReceived (h : w.inbound r = .notReceived) : ¬ Refused w r := by
  rintro ⟨e, he⟩
  cases h.symm.trans he

theorem not_refused_of_replying {k : ℕ} {response} (h : w.inbound r = .replying k response) :
    ¬ Refused w r := by
  rintro ⟨e, he⟩
  cases h.symm.trans he

/-- An id that was not executed gets an answer, or is dropped. -/
theorem Honest.unexecuted (h : Honest w) (hr : r ∉ w.executed) (inbound : Inbound K Res)
    (sessions : List (Session K)) :
    Honest { w with
      sessions := sessions, inbound := update w.inbound r inbound } := by
  refine ⟨?_, ?_, h.nodup⟩
  · rintro r' ⟨e, he⟩
    rcases update_eq_cases he with ⟨rfl, -⟩ | ⟨-, hold⟩
    · exact hr
    · exact h.refused r' ⟨e, hold⟩
  · intro r' hr'
    have hne : r' ≠ r := by
      rintro rfl
      exact hr hr'
    show update w.inbound r inbound r' ≠ _
    rw [update_of_ne hne]
    exact h.received r' hr'

/-- An id is executed, or was, and is not answered with an error. -/
theorem Honest.executes (h : Honest w) {executed} (hsub : ∀ r' ∈ executed, r' = r ∨ r' ∈ w.executed)
    (hnodup : executed.Nodup) {inbound} (hin : inbound ≠ .notReceived)
    (hanswer : ∀ e, inbound ≠ .answered (.error e)) (sessions : List (Session K)) : Honest { w with
      sessions := sessions
      inbound := update w.inbound r inbound
      executed := executed } := by
  refine ⟨?_, ?_, hnodup⟩
  · rintro r' ⟨e, he⟩ hmem
    rcases update_eq_cases he with ⟨-, hnew⟩ | ⟨hne, hold⟩
    · exact hanswer e hnew
    · exact h.refused r' ⟨e, hold⟩ ((hsub r' hmem).resolve_left hne)
  · intro r' hmem
    show update w.inbound r inbound r' ≠ _
    by_cases hr' : r' = r
    · subst hr'
      rw [update_self]
      exact hin
    · rw [update_of_ne hr']
      exact h.received r' ((hsub r' hmem).resolve_left hr')

/-- A session that has a nonce left encrypts if the cipher works. -/
theorem encrypt_ok {d : Dencryptor K}
    (h : d.nonceGeneratorValidator.usedNonceCounter ≠ u64Half) (response : Res) :
    ∃ message, (d.encrypt true response).1 = .ok message := by
  rw [Dencryptor.encrypt, NonceGeneratorValidator.getNextSendNonce, if_neg h]
  split
  · next he => split at he <;> cases he
  · exact ⟨_, rfl⟩

/-- The sender does not notice that a request arrives. -/
theorem receive_sender [DecidableEq K] (recent : List ℕ) (request : Encrypted K Request)
    (respondTo : Option ContactId → Request → Option Res) :
    (w.receive r recent request respondTo).sender = w.sender := by
  rw [World.receive]
  split <;> rfl

theorem receive_keeps [DecidableEq K] (hc : Chained w) (hh : Honest w)
    (hr : w.inbound r = .notReceived) (recent : List ℕ) (request : Encrypted K Request)
    (respondTo : Option ContactId → Request → Option Res) :
    Chained (w.receive r recent request respondTo) ∧
      Honest (w.receive r recent request respondTo) := by
  have hnot : r ∉ w.executed := fun hmem => hh.received r hmem hr
  have hrefused : ∀ {inbound : Inbound K Res} (r' : ℕ), Refused w r' →
      ∃ e, update w.inbound r inbound r' = .answered (.error e) :=
    fun _ h => refused_update (not_refused_of_notReceived hr) h
  rw [World.receive]
  split
  · exact ⟨hc.of_inbound rfl rfl hrefused, hh.unexecuted hnot _ _⟩
  · next k contactId plaintext sessions _ =>
    refine ⟨hc.of_inbound rfl rfl hrefused, hh.executes ?_ ?_ ?_ ?_ _⟩
    · intro r' hmem
      rcases List.mem_append.mp hmem with hmem | hmem
      · exact .inr hmem
      · exact .inl (List.mem_singleton.mp hmem)
    · refine List.nodup_append.mpr ⟨hh.nodup, List.nodup_singleton r, ?_⟩
      rintro a ha b hb rfl
      exact hnot (List.mem_singleton.mp hb ▸ ha)
    · cases respondTo contactId plaintext <;> exact fun hc => by cases hc
    · cases respondTo contactId plaintext <;> exact fun e hc => by cases hc
  · exact ⟨hc.of_inbound rfl rfl hrefused, hh.unexecuted hnot _ _⟩
  · exact ⟨hc.of_inbound rfl rfl hrefused, hh.unexecuted hnot _ _⟩

theorem reply_keeps (hc : Chained w) (hh : Honest w) {k : ℕ} {response : Res}
    (hr : w.inbound r = .replying k response) {session} {seals : Bool} (hseals : seals = true)
    (hnonce : session.dencryptor.nonceGeneratorValidator.usedNonceCounter ≠ u64Half) :
    Chained (w.reply r k session response seals) ∧
      Honest (w.reply r k session response seals) := by
  subst hseals
  obtain ⟨message, hmessage⟩ := encrypt_ok hnonce response
  refine ⟨hc.of_inbound rfl rfl fun r' h => refused_update (not_refused_of_replying hr) h,
    hh.executes (fun r' hmem => .inr hmem) hh.nodup ?_ ?_ _⟩
  · exact fun hc => by cases hc
  · rw [hmessage]
    exact fun e hc => by cases hc

/-! ### Steps of the sender -/

/-- The event of an id is handled, or lost. -/
theorem Chained.handled (h : Chained w) {sender stage}
    (hstages : sender.stages = update w.sender.stages r stage)
    (hsends : sender.sends = w.sender.sends) (hnext : sender.nextRequestId = w.sender.nextRequestId)
    (hregister : ∀ r' it', sender.registry.register r' = some it' →
      ∃ it, w.sender.registry.register r' = some it ∧ it.data = it'.data)
    (hbefore : w.sender.stages r ≠ .unsent ∧ ∀ new, w.sender.stages r ≠ .resent new)
    (hafter : ∀ new, stage ≠ .resent new)
    (hchecked : ∀ nodeId externalId e, stage = .checked nodeId externalId (.remoteError e) →
      Refused w r)
    (hagain : ∀ o, sendsAgain stage → w.origins r = some o → o.idempotent = false → Refused w r) :
    Chained { w with sender := sender } := by
  constructor
  case given =>
    intro r' o ho
    obtain ⟨hlt, hgiven⟩ := h.given r' o ho
    refine ⟨hnext ▸ hlt, hgiven.imp_right fun hst => ?_⟩
    have hne : o.first ≠ r := fun hc => hbefore.2 r' (hc ▸ hst)
    rw [hstages, update_of_ne hne, hst]
  case resent =>
    intro r' new hst
    rw [hstages] at hst
    exact h.resent r' new (of_update_eq hst (hafter new)).2
  case registering => exact fun r' send i hs => h.registering r' send i (hsends ▸ hs)
  case registered =>
    intro r' it' data hit' hdata
    obtain ⟨it, hit, heq⟩ := hregister r' it' hit'
    exact h.registered r' it data hit (heq.trans hdata)
  case checked =>
    intro r' nodeId externalId e hst
    rw [hstages] at hst
    rcases update_eq_cases hst with ⟨rfl, hnew⟩ | ⟨-, hold⟩
    · exact hchecked nodeId externalId e hnew
    · exact h.checked r' nodeId externalId e hold
  case again =>
    intro r' o hst ho hid
    rw [hstages] at hst
    by_cases hr' : r' = r
    · subst hr'
      rw [update_self] at hst
      exact hagain o hst ho hid
    · rw [update_of_ne hr'] at hst
      exact h.again r' o hst ho hid

theorem Chained.report (h : Chained w)
    (hbefore : w.sender.stages r ≠ .unsent ∧ ∀ new, w.sender.stages r ≠ .resent new)
    (effect : SessionSendReceive.Effect Res) :
    Chained { w with sender := w.sender.report r effect } :=
  h.handled rfl rfl rfl (fun _ it hit => ⟨it, hit, rfl⟩) hbefore nofun nofun nofun

/-- A new id is given out, for a new request or for the one whose handler sends it again. -/
theorem Chained.issue (h : Chained w) (hl : Linked w.sender) {send stages origin}
    (hi : Issues w.sender send stages)
    (horigin : (∃ i, send.config = .register i ∧ origin = some ⟨w.sender.nextRequestId, i⟩) ∨
      ∃ old, send.config = .update old ∧ origin = w.origins old) : Chained { w with
      sender := SessionSendReceive.World.sendEncryptedRequest { w.sender with stages := stages } send
      origins := update w.origins w.sender.nextRequestId origin } := by
  have horigins : ∀ {r'}, r' ≠ w.sender.nextRequestId →
      update w.origins w.sender.nextRequestId origin r' = w.origins r' :=
    fun hne => update_of_ne hne _ _
  constructor
  case given =>
    intro r' o ho
    rcases update_eq_cases ho with ⟨rfl, hnew⟩ | ⟨-, hold⟩
    · refine ⟨Nat.lt_succ_self _, ?_⟩
      rcases horigin with ⟨i, -, rfl⟩ | ⟨old, hconfig, rfl⟩
      · obtain ⟨⟩ := hnew
        exact .inl rfl
      · obtain ⟨-, _, externalId, _, _, hold⟩ := hi.linked old hconfig
        rcases (h.given old o hnew).2 with rfl | hst
        · exact .inr ((hi.resent_next_iff hl).mpr hconfig)
        · -- what was sent again is not sent again
          have hheld : (w.sender.stages old).held = some externalId := by rw [hold]; rfl
          exact absurd hst (hl.not_resent_of_held hheld o.first)
    · obtain ⟨hlt, hgiven⟩ := h.given r' o hold
      exact ⟨Nat.lt_succ_of_lt hlt, hgiven.imp_right (hi.resent_iff hl (Nat.ne_of_lt hlt)).mpr⟩
  case resent =>
    intro r' new hst
    have hne := (of_update_eq hst nofun).1
    refine Eq.trans ?_ (horigins hne).symm
    rcases hi.resent_cases hl hst with ⟨hold, hlt⟩ | ⟨rfl, hconfig⟩
    · exact (horigins (Nat.ne_of_lt hlt)).trans (h.resent r' new hold)
    · rcases horigin with ⟨i, hregister, -⟩ | ⟨old, hold, rfl⟩
      · cases hregister.symm.trans hconfig
      · obtain rfl := SendInternalConfig.update.inj (hold.symm.trans hconfig)
        exact update_self _ _ _
  case registering =>
    intro r' send' i hs hconfig
    show ∃ o, update w.origins w.sender.nextRequestId origin r' = some o ∧ _
    rcases update_eq_cases hs with ⟨rfl, hnew⟩ | ⟨hne, hold⟩
    · obtain ⟨⟩ := hnew
      rw [update_self]
      rcases horigin with ⟨i', hregister, rfl⟩ | ⟨old, hold, -⟩
      · obtain rfl := SendInternalConfig.register.inj (hregister.symm.trans hconfig)
        exact ⟨_, rfl, rfl⟩
      · cases hold.symm.trans hconfig
    · rw [update_of_ne hne]
      exact h.registering r' send' i hold hconfig
  case registered =>
    intro r' it data hit hdata
    obtain ⟨o, ho, hid⟩ := h.registered r' it data hit hdata
    exact ⟨o, (horigins (Nat.ne_of_lt (h.given r' o ho).1)).trans ho, hid⟩
  case checked =>
    intro r' nodeId externalId e hst
    have hheld := congrArg Stage.held hst
    exact h.checked r' nodeId externalId e ((hi.stages_of_held hheld).trans hst)
  case again =>
    intro r' o hst ho hid
    change sendsAgain (update stages w.sender.nextRequestId .inTransit r') at hst
    have hne : r' ≠ w.sender.nextRequestId := by
      rintro rfl
      rw [update_self] at hst
      cases hst
    rw [update_of_ne hne] at hst
    refine h.again r' o ?_ ((horigins hne).symm.trans ho) hid
    rcases hi.stages_cases r' with hc | ⟨-, -, _, _, _, _, hc⟩
    · exact hc ▸ hst
    · rw [hc]
      rfl

/-- An id is recorded: it is registered as it was sent. -/
theorem Chained.recorded (h : Chained w) {registry}
    (hregistry : ∀ r' it data, registry.register r' = some it → it.data = some data →
      ∃ o, w.origins r' = some o ∧ o.idempotent = data.idempotent) :
    Chained { w with sender := { w.sender with
      registry := registry, sends := update w.sender.sends r none } } :=
  { h with
    registering := fun r' send i hs =>
      h.registering r' send i (of_update_eq hs (Option.some_ne_none send).symm).2
    registered := hregistry }

theorem sender_keeps {e sender} (h : Chained w) (hl : Linked w.sender) (hreports : w.Reports e)
    (hmove : Move w.sender e sender) :
    Chained { w with sender := sender, origins := w.originsAfter e } := by
  have hsame : ∀ (r' : ℕ) it, w.sender.registry.register r' = some it →
      ∃ it', w.sender.registry.register r' = some it' ∧ it'.data = it.data :=
    fun _ it hit => ⟨it, hit, rfl⟩
  cases hmove with
  | unsent => exact h
  | sent =>
    exact h.issue hl (.register rfl) (.inl ⟨_, rfl, rfl⟩)
  | @registered r send data hsend hdata _ =>
    refine h.recorded fun r' it data' hit hdata' => ?_
    rcases update_eq_cases hit with ⟨rfl, hnew⟩ | ⟨-, hold⟩
    · obtain ⟨⟩ := hnew
      cases hconfig : send.config with
      | register i =>
        rw [hdata, hconfig] at hdata'
        obtain ⟨⟩ := hdata'
        exact h.registering r' send i hsend hconfig
      | update old =>
        rw [hdata, hconfig] at hdata'
        cases hdata'
      | registerOnlyId =>
        rw [hdata, hconfig] at hdata'
        cases hdata'
    · exact h.registered r' it data' hold hdata'
  | @moved r send old it hsend hconfig hit =>
    refine h.recorded fun r' it' data' hit' hdata' => ?_
    rcases update_eq_cases hit' with ⟨rfl, hnew⟩ | ⟨-, hold⟩
    · obtain ⟨⟩ := hnew
      rw [h.resent old r' ((hl.updating r' send hsend old).mp hconfig)]
      exact h.registered old it data' hit hdata'
    · exact h.registered r' it' data' (of_update_eq hold (Option.some_ne_none it').symm).2 hdata'
  | unknown hstage _ _ => exact h.report (stage_of_inTransit hstage) _
  | @answered nodeId r decrypted it effect hstage hit heffect =>
    refine h.handled rfl rfl rfl (fun r' it' hit' => ?_) (stage_of_inTransit hstage)
      nofun nofun nofun
    exact ⟨it', (of_update_eq hit' (Option.some_ne_none it').symm).2, rfl⟩
  | refused hstage _ _ => exact h.report (stage_of_inTransit hstage) _
  | @checked nodeId r error it hstage hit hretry =>
    refine h.handled rfl rfl rfl hsame (stage_of_inTransit hstage) nofun (fun _ _ e' hc => ?_)
      nofun
    -- an error of the session is what the other end has answered
    obtain ⟨-, -, rfl⟩ := Stage.checked.inj hc
    obtain ⟨answer, hanswer, -⟩ := hreports
    exact ⟨answer, hanswer⟩
  | unfetched hheld _ => exact h.report (stage_of_held hheld) _
  | @fetched r _ nodeId externalId error it data effects hstage hit hdata hresend heffects =>
    have hheld : (w.sender.stages r).held = some externalId := by rw [hstage]; rfl
    refine h.handled rfl rfl rfl (fun r' it' hit' => ?_) (stage_of_held hheld) nofun nofun ?_
    · rcases update_eq_cases hit' with ⟨rfl, hnew⟩ | ⟨-, hold⟩
      · obtain ⟨⟩ := hnew
        exact ⟨it, hit, rfl⟩
      · exact ⟨it', hold, rfl⟩
    · intro o _ ho hid
      rcases hresend with ⟨e', rfl⟩ | hidem
      · exact h.checked r nodeId externalId e' hstage
      · obtain ⟨o', ho', hid'⟩ := h.registered r it data hit hdata
        obtain rfl := Option.mem_unique ho ho'
        cases hid.symm.trans (hid'.trans hidem)
  | unresent hheld _ => exact h.report (stage_of_held hheld) _
  | resent hstage => exact h.issue hl (.resend hstage rfl) (.inr ⟨_, rfl, rfl⟩)
  | lost hstage =>
    exact h.handled rfl rfl rfl hsame (stage_of_inTransit hstage) nofun nofun nofun
  | polled hpoll =>
    exact { h with }

/-! ### Every request is executed once -/

theorem chained_honest_step [DecidableEq K] [DecidableEq S] {e}
    (h : Linked w.sender ∧ Chained w ∧ Honest w) (hok : RepliesEncrypted w e)
    (hstep : w.step e = some w') : Linked w'.sender ∧ Chained w' ∧ Honest w' := by
  obtain ⟨hl, hc, hh⟩ := h
  cases e with
  | sender e =>
    rw [World.step] at hstep
    split at hstep
    · next hreports =>
      obtain ⟨s, hs, rfl⟩ := Option.map_eq_some_iff.mp hstep
      exact ⟨hl.step hs, sender_keeps hc hl hreports (SessionSendReceive.World.step_move hs),
        hh.refused, hh.received, hh.nodup⟩
    · cases hstep
  | receive r recent request respondTo =>
    rw [World.step] at hstep
    split at hstep
    · next hr =>
      split at hstep
      · obtain ⟨⟩ := hstep
        exact ⟨receive_sender (w := w) recent request respondTo ▸ hl,
          receive_keeps hc hh hr recent request respondTo⟩
      · cases hstep
    · cases hstep
  | reply r seals =>
    rw [World.step] at hstep
    split at hstep
    · next k response hr =>
      obtain ⟨session, hsession, rfl⟩ := Option.map_eq_some_iff.mp hstep
      obtain ⟨hseals, hnonce⟩ := hok k (by rw [hr]; rfl)
      exact ⟨hl, reply_keeps hc hh hr hseals (hnonce session hsession)⟩
    · cases hstep
  | establish session =>
    obtain ⟨⟩ := hstep
    exact ⟨hl, hc.of_inbound rfl rfl fun _ h => h, hh.refused, hh.received, hh.nodup⟩
  | use k session =>
    obtain ⟨⟩ := hstep
    exact ⟨hl, hc.of_inbound rfl rfl fun _ h => h, hh.refused, hh.received, hh.nodup⟩

/-- **At most once.** If no reply fails to be encrypted, then a request that is not idempotent is
executed at most once, and whoever is answered with an error was not executed. -/
theorem executed_once [DecidableEq K] [DecidableEq S] {w : World K Request S Res}
    {events : List (Event K Request S Res)}
    (hrun : Run World.step RepliesEncrypted .new events w) :
    (∀ request : Origin, request.idempotent = false → w.executions request ≤ 1) ∧
      ∀ r e, w.inbound r = .answered (.error e) → r ∉ w.executed := by
  obtain ⟨-, hc, hh⟩ : Linked w.sender ∧ Chained w ∧ Honest w :=
    hrun.invariant ⟨Linked.new, Chained.new, Honest.new⟩ chained_honest_step
  refine ⟨fun request hid => countP_le_one hh.nodup ?_, fun r e he => hh.refused r ⟨e, he⟩⟩
  intro r hr r' hr' ho ho'
  have ho := of_decide_eq_true ho
  have ho' := of_decide_eq_true ho'
  -- an id is the first one of its request, or the one under which it was sent again
  rcases (hc.given r request ho).2 with rfl | hst <;>
    rcases (hc.given r' request ho').2 with heq | hst'
  · exact heq.symm
  · exact absurd hr (hh.refused _ (hc.again _ request (by rw [hst']; rfl) ho hid))
  · subst heq
    exact absurd hr' (hh.refused _ (hc.again _ request (by rw [hst]; rfl) ho' hid))
  · exact Stage.resent.inj (hst.symm.trans hst')

/-- A session of the other end. -/
def sampleSession : Session ℕ := ⟨⟨5, newNonceGeneratorValidatorForSessionResponder⟩, none⟩

/-- The event that the other end gets a request, and executes it if it can be decrypted. -/
def sampleReceive (requestId : ℕ) (recent : List ℕ) (nonce : ℕ) : Event ℕ ℕ ℕ ℕ :=
  .receive requestId recent ⟨nonce, .sealed 5 nonce 7⟩ fun _ _ => some 8

/-- The events from an error of the session to the registration of the second id. -/
def sampleResend : List (Event ℕ ℕ ℕ ℕ) :=
  [.sender (.deliver ⟨"peer"⟩ 0 (.receiveError (.remoteError .cannotDecrypt))),
    .sender (.fetch 0 none), .sender (.resend 0 (.ok 1)), .sender (.register 1)]

/-- The other end has no session for the request at first. -/
theorem executed_once_resent : ∃ w : World ℕ ℕ ℕ ℕ, Run World.step RepliesEncrypted .new
        ([.sender (.send ⟨"peer"⟩ none 7 false (.ok 0)), .sender (.register 0),
          sampleReceive 0 [] 0] ++ sampleResend ++
          [.establish sampleSession, sampleReceive 1 [0] 0, .reply 1 true]) w ∧
      w.executed = [1] ∧ w.executions ⟨0, false⟩ ≤ 1 :=
  ⟨_, Run.get_runFrom, by decide,
    (executed_once (Run.get_runFrom)).1 ⟨0, false⟩ rfl⟩

/-- **If a reply cannot be encrypted, the request is executed twice.** It is answered with an error
after it was executed, and the sender sends it again. -/
theorem executed_twice : ∃ w : World ℕ ℕ ℕ ℕ, Run World.step (fun _ _ => True) .new
        ([.establish sampleSession, .sender (.send ⟨"peer"⟩ none 7 false (.ok 0)),
          .sender (.register 0), sampleReceive 0 [0] 0, .reply 0 false] ++ sampleResend ++
          [sampleReceive 1 [0] 1]) w ∧
      w.executions ⟨0, false⟩ = 2 ∧ w.inbound 0 = .answered (.error .cryptError) ∧
      0 ∈ w.executed :=
  ⟨_, Run.get_runFrom, by decide, rfl, by decide⟩

end Fyles.RequestExecution
