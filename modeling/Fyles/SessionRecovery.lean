import Fyles.RequestLinks

/-!
# Recovering from a broken session

When the other end has lost a session, or cannot decrypt with it, it answers with an error. The
handler of the error then compares the current session of the peer with the one that the request was
encrypted under (`get_request_for_resend_after_session_error`), and clears it if they are the same,
so that the next message needs a new one. That works for a request that was registered and is
answered with such an error for the first time. It does not work otherwise:

* a request that was sent again and fails again is given up, and nothing is cleared;
* so is a request whose event is handled before its registration;
* a response that no recent session can decrypt is reported, and nothing is cleared;
* who has looked up the session before it is cleared, or is handed it while it is on the way to the
  store, uses it after that;
* a request of the other end that was encrypted under the session is decrypted with it, since it is
  kept in a cache, and the reply is encrypted under it (`decrypt_respond`).

## The node

`SessionSendReceive.World` takes the sessions from its events. Here they come from where the source
takes them from: a call of `send_internal` is given the current session of the peer, or one that has
just been established and is about to be stored. The handler of an error reads the current session
before it reads the registration, and clears the session of the peer later, under another lock. The
handler of a request of the other end reads the recent sessions, decrypts with one of them, and
encrypts the reply under it. Sessions are established with secrets that no other session has. That
a session expires, or that all are removed when the identity changes, is an event that can happen
at any time.

## Main results

* `Linked.frame` — who is not concerned by an event stays as it is
* `Recovering.step` — the invariant
* `recovers_of_orderly` — the next message is not encrypted under the session of a request that has
  failed
* `broken_session_used_again` — what happens otherwise
-/

namespace Fyles

open Function (update update_of_ne update_self)

/-! ### Who is not concerned -/

namespace SessionSendReceive

variable {Request Session Res : Type} {w w' : World Request Session Res}
  {e : Event Request Session Res} {r k : ℕ}

/-- The handler of an error, and its registration, are changed by its own steps only. -/
theorem Linked.frame (h : Linked w) (hmove : Move w e w') (hheld : (w.stages r).held = some k)
    (hfetch : ∀ c, e ≠ .fetch r c) (hresend : ∀ s, e ≠ .resend r s) :
    w'.stages r = w.stages r ∧ w'.registry.register r = w.registry.register r := by
  have htransit : ∀ {r'}, w.stages r' = .inTransit → r ≠ r' := by
    rintro r' hst rfl
    rw [hst] at hheld
    cases hheld
  have hsends : ∀ {r' send}, w.sends r' = some send → r ≠ r' := by
    rintro r' send hsend rfl
    cases (h.not_held hsend).symm.trans hheld
  have hnew : r ≠ w.nextRequestId := by
    rintro rfl
    rw [(h.fresh _ (Nat.le_refl _)).1] at hheld
    cases hheld
  cases hmove with
  | unsent => exact ⟨rfl, rfl⟩
  | sent => exact ⟨update_of_ne hnew _ _, rfl⟩
  | registered hsend => exact ⟨rfl, update_of_ne (hsends hsend) _ _⟩
  | @moved requestId send old it hsend hconfig hit =>
    have hold : r ≠ old := by
      rintro rfl
      rw [(h.updating requestId send hsend r).mp hconfig] at hheld
      cases hheld
    exact ⟨rfl, World.register_moved_of_ne w it (hsends hsend) hold⟩
  | unknown hstage | refused hstage | checked hstage | lost hstage =>
    exact ⟨update_of_ne (htransit hstage) _ _, rfl⟩
  | answered hstage =>
    exact ⟨update_of_ne (htransit hstage) _ _,
      update_of_ne (htransit hstage) _ _⟩
  | @unfetched requestId c =>
    exact ⟨update_of_ne (fun hc => hfetch c (by rw [hc])) _ _, rfl⟩
  | @fetched requestId c =>
    have hne : r ≠ requestId := fun hc => hfetch c (by rw [hc])
    exact ⟨update_of_ne hne _ _, update_of_ne hne _ _⟩
  | @unresent requestId error =>
    exact ⟨update_of_ne (fun hc => hresend (.error error) (by rw [hc])) _ _, rfl⟩
  | @resent requestId session =>
    have hne : r ≠ requestId := fun hc => hresend (.ok session) (by rw [hc])
    exact ⟨(update_of_ne hnew _ _).trans (update_of_ne hne _ _), rfl⟩
  | polled => exact ⟨rfl, rfl⟩

/-- The other end could not use the session, or this end could not decrypt the response with any. -/
def ReceivePayload.isSessionFailure : ReceivePayload Res → Bool
  | .receiveError (.remoteError _) | .response (.error _) => true
  | .receiveError (.localError _) | .response (.ok _) => false

/-- The event is handled by `receive_response`. -/
def ReceivePayload.isResponse : ReceivePayload Res → Bool
  | .response _ => true
  | .receiveError _ => false

theorem ReceivePayload.exists_remoteError {payload : ReceivePayload Res}
    (hfailure : payload.isSessionFailure = true) (hresponse : payload.isResponse = false) :
    ∃ error, payload = .receiveError (.remoteError error) := by
  cases payload with
  | response => cases hresponse
  | receiveError error =>
    cases error with
    | remoteError error => exact ⟨error, rfl⟩
    | localError => cases hfailure

end SessionSendReceive

namespace SessionRecovery

open SessionSendReceive (World Stage Move Linked ReceivePayload SendInternal)

variable {Request Session Res : Type}

/-! ### The node -/

/-- What happens between this node and its peers. -/
inductive Happening (Session : Type)
  /-- A request that was encrypted under the session has failed because of it. -/
  | failed (peer : PeerId) (session : Session)
  /-- A request or a reply was encrypted under the session and sent. -/
  | sent (peer : PeerId) (session : Session)
  deriving DecidableEq

/-- The requests and the sessions of a node. -/
structure Node (Request Session Res : Type) where
  requests : World Request Session Res
  /-- The peer that an id was given out for, and the session of the request. -/
  used : ℕ → Option (PeerId × Session)
  /-- `session_store`. -/
  sessionStore : PeerId → Option Session
  /-- `expired_session_cache`. -/
  cache : PeerId → List Session
  /-- The sessions that are established and not stored yet. -/
  built : List (PeerId × Session)
  /-- The calls of `send_internal` that have got their session. -/
  senders : List (PeerId × Session)
  /-- The handlers of requests, with the recent sessions that they have read. -/
  receivers : List (PeerId × List Session)
  /-- The handlers of requests that have decrypted theirs and owe a reply. -/
  responders : List (PeerId × Session)
  /-- What the handlers of errors have read in the store. -/
  read : ℕ → Option (Option Session)
  /-- The handlers of errors that are about to clear the session of a peer. -/
  clearing : ℕ → Option PeerId
  known : List Session
  history : List (Happening Session)

/-- What can happen. -/
inductive Event (Request Session Res : Type)
  /-- A session is established, and those who wait for it are handed it. -/
  | established (peer : PeerId) (session : Session) (waiters : ℕ)
  | store (peer : PeerId) (session : Session)
  /-- A session expires, or is removed because the identity has changed. -/
  | forget (peer : PeerId)
  /-- A cached session expires. -/
  | expire (peer : PeerId) (session : Session)
  /-- `get_or_establish_session` finds a session. -/
  | lookUp (peer : PeerId)
  /-- A request of the peer arrives, and its handler reads the recent sessions. -/
  | receive (peer : PeerId)
  /-- One of them decrypts the request. -/
  | decrypt (peer : PeerId) (sessions : List Session) (session : Session)
  /-- The reply is encrypted and handed to the transport. -/
  | reply (peer : PeerId) (session : Session)
  /-- A request is encrypted and handed to the transport. -/
  | send (peer : PeerId) (contactId : Option ContactId) (request : Request) (idempotent : Bool)
      (session : Session)
  | register (requestId : ℕ)
  | deliver (requestId : ℕ) (payload : ReceivePayload Res)
  /-- The handler of an error of the other end reads the current session. -/
  | readSession (requestId : ℕ)
  /-- The handler of an error reads the registration. -/
  | fetch (requestId : ℕ)
  /-- The handler of an error clears the session. -/
  | clearSession (requestId : ℕ)
  /-- The handler of an error sends the request again. -/
  | resend (requestId : ℕ) (session : Except String Session)
  | lose (requestId : ℕ)
  | poll (expired : Option ℕ)

namespace Node

/-- Nothing has happened. -/
def new : Node Request Session Res :=
  ⟨.new, fun _ => none, fun _ => none, fun _ => [], [], [], [], [], fun _ => none, fun _ => none,
    [], []⟩

variable [DecidableEq Session]

variable (n : Node Request Session Res)

/-- `get_recent_receive_sessions`. -/
def recentSessions (peer : PeerId) : List Session := (n.sessionStore peer).toList ++ n.cache peer

/-- A step of the requests. -/
def carry (e : SessionSendReceive.Event Request Session Res) : Option (Node Request Session Res) :=
  (n.requests.step e).map fun w => { n with requests := w }

/-- A step of the requests that encrypts one under a session that a call of `send_internal` has. -/
def transmit (peer : PeerId) (session : Session)
    (e : SessionSendReceive.Event Request Session Res) : Option (Node Request Session Res) :=
  if (peer, session) ∈ n.senders then
    (n.requests.step e).map fun w => { n with
      requests := w
      used := update n.used n.requests.nextRequestId (some (peer, session))
      senders := n.senders.erase (peer, session)
      history := n.history ++ [.sent peer session] }
  else none

/-- Whether the handler of an error of the other end has to clear the session, given what it has
read. -/
def requiresNewSession (requestId : ℕ)
    (currentSession : Option Session) : Bool :=
  (n.requests.registry.getRequestForResendAfterSessionError currentSession requestId).1.any
    fun r => r.requiresNewSession

/-- One step. -/
def step : Event Request Session Res → Option (Node Request Session Res)
  | .established peer session waiters =>
    if session ∈ n.known then none
    else some { n with
      known := session :: n.known
      built := (peer, session) :: n.built
      senders := n.senders ++ List.replicate waiters (peer, session) }
  | .store peer session =>
    if (peer, session) ∈ n.built then
      some { n with
        built := n.built.erase (peer, session)
        cache := update n.cache peer (n.recentSessions peer)
        sessionStore := update n.sessionStore peer (some session) }
    else none
  | .forget peer => some { n with sessionStore := update n.sessionStore peer none }
  | .expire peer session =>
    some { n with cache := update n.cache peer ((n.cache peer).erase session) }
  | .lookUp peer =>
    (n.sessionStore peer).map fun session =>
      { n with senders := n.senders ++ [(peer, session)] }
  | .receive peer => some { n with receivers := n.receivers ++ [(peer, n.recentSessions peer)] }
  | .decrypt peer sessions session =>
    if (peer, sessions) ∈ n.receivers ∧ session ∈ sessions then
      some { n with
        receivers := n.receivers.erase (peer, sessions)
        responders := n.responders ++ [(peer, session)] }
    else none
  | .reply peer session =>
    if (peer, session) ∈ n.responders then
      some { n with
        responders := n.responders.erase (peer, session)
        history := n.history ++ [.sent peer session] }
    else none
  | .send peer contactId request idempotent session =>
    n.transmit peer session (.send peer contactId request idempotent (.ok session))
  | .register requestId => n.carry (.register requestId)
  | .deliver requestId payload =>
    (n.used requestId).bind fun u =>
      (n.requests.step (.deliver u.1 requestId payload)).map fun w => { n with
        requests := w
        history := n.history ++ if payload.isSessionFailure then [.failed u.1 u.2] else [] }
  | .readSession requestId =>
    match n.requests.stages requestId, n.read requestId with
    | .checked peer _ (.remoteError _), none =>
      some { n with
        read := update n.read requestId (some (n.sessionStore peer)) }
    | _, _ => none
  | .fetch requestId =>
    match n.requests.stages requestId with
    | .checked peer _ (.remoteError _) =>
      (n.read requestId).bind fun currentSession =>
        (n.requests.step (.fetch requestId currentSession)).map fun w => { n with
          requests := w
          clearing := if n.requiresNewSession requestId currentSession then
            update n.clearing requestId (some peer) else n.clearing }
    | .checked _ _ (.localError _) => n.carry (.fetch requestId none)
    | _ => none
  | .clearSession requestId =>
    (n.clearing requestId).map fun peer => { n with
      cache := update n.cache peer (n.recentSessions peer)
      sessionStore := update n.sessionStore peer none
      clearing := update n.clearing requestId none }
  | .resend requestId session =>
    if (n.clearing requestId).isSome then none
    else
      match session with
      | .error error => n.carry (.resend requestId (.error error))
      | .ok session =>
        match n.requests.stages requestId with
        | .resending peer _ _ _ => n.transmit peer session (.resend requestId (.ok session))
        | _ => none
  | .lose requestId => n.carry (.lose requestId)
  | .poll expired => n.carry (.poll expired)

end Node

/-! ### The session of the next message -/

variable {peer : PeerId} {session : Session}

/-- **The next message is not encrypted under the session of a request that has failed.** -/
def Recovers (history : List (Happening Session)) : Prop :=
  ∀ pre peer session between session' post,
    history = pre ++ .failed peer session :: (between ++ .sent peer session' :: post) →
    (∀ s, .sent peer s ∉ between) → session' ≠ session

/-- The next message is encrypted under the session that has failed. -/
theorem not_recovers {history post} (pre : List (Happening Session))
    (h : history = pre ++ .failed peer session :: .sent peer session :: post) :
    ¬ Recovers history :=
  fun hrecovers => hrecovers pre peer session [] session post h (fun _ => List.not_mem_nil) rfl

variable (n : Node Request Session Res)

/-- The handler of an error of a peer's session has not cleared the session yet. -/
def Node.isHandling (peer : PeerId) (r : ℕ) : Bool :=
  n.clearing r = some peer || match n.requests.stages r with
    | .checked peer' _ (.remoteError _) => peer' = peer
    | _ => false

/-- **The condition.** A session fails a request that is registered and was not sent again before,
by an error of the other end, while nobody is about to use the session, to reply under it or to
store it; nobody looks a session of the peer up until the handler of the error has cleared it; and
the other end has sent no request under a session that is handled after the session has failed. -/
def Orderly : Event Request Session Res → Prop
  | .deliver r payload => payload.isSessionFailure → payload.isResponse = false ∧
      (∃ it ∈ n.requests.registry.register r, it.retryCount = 0) ∧
      ∀ u ∈ n.used r, u ∉ n.senders ∧ u ∉ n.built ∧ u ∉ n.responders
  | .lookUp peer => ∀ r < n.requests.nextRequestId, n.isHandling peer r = false
  | .decrypt peer _ session => .failed peer session ∉ n.history
  | _ => True

instance [DecidableEq Session] (n : Node Request Session Res) (e : Event Request Session Res) :
    Decidable (Orderly n e) := by
  rw [Orderly.eq_def]
  split <;> infer_instance

/-! ### The sessions of the requests -/

/-- It is known under which session a request was encrypted: to the call that is about to record it,
and to the registration of a request that was not sent again. -/
structure Recorded (w : World Request Session Res) (used : ℕ → Option (PeerId × Session)) :
    Prop where
  linked : Linked w
  sending : ∀ r send, w.sends r = some send →
    used r = some (send.nodeId, send.session) ∧ send.config ≠ .registerOnlyId
  recorded : ∀ r it, w.registry.register r = some it → it.retryCount = 0 →
    ∃ data peer, it.data = some data ∧ used r = some (peer, data.session)

namespace Recorded

variable {w w' : World Request Session Res} {used used' : ℕ → Option (PeerId × Session)}
  {e : SessionSendReceive.Event Request Session Res}

theorem new : Recorded (World.new : World Request Session Res) (fun _ => none) where
  linked := .new
  sending _ _ h := nomatch h
  recorded _ _ h := nomatch h

/-- Registrations that have not been counted are where they were. -/
theorem of_register (h : Recorded w used) (hl : Linked w')
    (hsends : ∀ r send, w'.sends r = some send → w.sends r = some send)
    (hregister : ∀ r it, w'.registry.register r = some it → it.retryCount = 0 →
      w.registry.register r = some it) : Recorded w' used where
  linked := hl
  sending r send hs := h.sending r send (hsends r send hs)
  recorded r it hit hretry := h.recorded r it (hregister r it hit hretry) hretry

theorem sendEncryptedRequest (h : Recorded w used) {send} {stages : ℕ → Stage Request}
    (hl : Linked (World.sendEncryptedRequest { w with stages := stages } send))
    (hconfig : send.config ≠ .registerOnlyId) :
    Recorded (World.sendEncryptedRequest { w with stages := stages } send)
      (update used w.nextRequestId (some (send.nodeId, send.session))) := by
  obtain ⟨-, -, hnone⟩ := h.linked.fresh w.nextRequestId (Nat.le_refl _)
  refine ⟨hl, fun r send' hs => ?_, fun r it hit hretry => ?_⟩
  · rcases update_eq_cases hs with ⟨rfl, hnew⟩ | ⟨hne, hs⟩
    · obtain ⟨⟩ := hnew
      exact ⟨update_self _ _ _, hconfig⟩
    · rw [update_of_ne hne]
      exact h.sending r send' hs
  · have hne : r ≠ w.nextRequestId := by
      rintro rfl
      cases hnone.symm.trans hit
    rw [update_of_ne hne]
    exact h.recorded r it hit hretry

theorem register (h : Recorded w used) {requestId : ℕ}
    (hmove : Move w (.register requestId) w') : Recorded w' used := by
  have hl := h.linked.move hmove
  cases hmove with
  | @registered requestId send data hsend hdata hupdate =>
    refine ⟨hl, fun r send' hs => h.sending r send' (World.sends_of_update hs).2,
      fun r it hit hretry => ?_⟩
    rcases update_eq_cases hit with ⟨rfl, hnew⟩ | ⟨-, hit⟩
    · obtain ⟨⟩ := hnew
      obtain ⟨hused, honly⟩ := h.sending r send hsend
      cases hconfig : send.config with
      | register idempotent =>
        rw [hconfig] at hdata
        exact ⟨_, send.nodeId, hdata, hused⟩
      | registerOnlyId => exact absurd hconfig honly
      | update old =>
        -- the registration is still under the old id
        have hst := (h.linked.updating r send hsend old).mp hconfig
        exact absurd hst (h.linked.not_resent_of_sends hsend hupdate old)
    · exact h.recorded r it hit hretry
  | @moved requestId send old it hsend hconfig hit =>
    refine h.of_register hl (fun r send' hs => (World.sends_of_update hs).2) fun r j hj hretry => ?_
    rcases World.register_moved hj with ⟨-, rfl⟩ | ⟨-, -, hj⟩
    · have hst := (h.linked.updating requestId send hsend old).mp hconfig
      obtain ⟨j', hj', hlt⟩ := h.linked.counted requestId send old hsend hst
      cases Option.mem_unique hit hj'
      omega
    · exact hj

/-- The events in which a request is sent or recorded. -/
def records : SessionSendReceive.Event Request Session Res → Bool
  | .send .. | .register _ | .resend _ (.ok _) => true
  | _ => false

theorem handle (h : Recorded w used) (hmove : Move w e w') (hrecords : records e = false) :
    Recorded w' used := by
  have hl := h.linked.move hmove
  cases hmove with
  | unknown | refused | checked | unfetched | unresent | lost | polled =>
    exact h.of_register hl (fun _ _ => id) fun _ _ hit _ => hit
  | answered =>
    exact h.of_register hl (fun _ _ => id) fun _ _ hit _ => (of_update_eq hit nofun).2
  | fetched hstage hit =>
    refine h.of_register hl (fun _ _ => id) fun r j hj hretry => ?_
    rcases update_eq_cases hj with ⟨-, hnew⟩ | ⟨-, hj⟩
    · cases Option.some.inj hnew
      cases hretry
    · exact hj
  | _ => cases hrecords

end Recorded

/-! ### The invariant -/

/-- The handler of an error is going to clear the session: it has read that the session is the
current one, or has not read the store yet. -/
def Pending (r : ℕ) (peer : PeerId) (session : Session) : Prop :=
  n.clearing r = some peer ∨
    ∃ externalId error it data,
      n.requests.stages r = .checked peer externalId (.remoteError error) ∧
      n.requests.registry.register r = some it ∧ it.data = some data ∧ data.session = session ∧
      (n.read r = none ∨ n.read r = some (some session))

/-- A session that has failed a request is not used, is not about to be stored, and is not the
current one unless it is about to be cleared. -/
structure Recovering (n : Node Request Session Res) : Prop where
  recorded : Recorded n.requests n.used
  /-- Only the handler of an error reads the store. -/
  unread : ∀ r current, n.read r = some current →
    n.requests.stages r ≠ .unsent ∧ n.requests.stages r ≠ .inTransit
  /-- Who is about to clear a session sends the request again after that. -/
  clearing : ∀ r peer, n.clearing r = some peer → ∃ externalId contactId request,
    n.requests.stages r = .resending peer externalId contactId request
  known_senders : ∀ u ∈ n.senders, u.2 ∈ n.known
  known_built : ∀ u ∈ n.built, u.2 ∈ n.known
  known_store : ∀ peer session, n.sessionStore peer = some session → session ∈ n.known
  known_used : ∀ r u, n.used r = some u → u.2 ∈ n.known
  failed : ∀ peer session, .failed peer session ∈ n.history →
    session ∈ n.known ∧ (peer, session) ∉ n.senders ∧ (peer, session) ∉ n.built
  pending : ∀ peer session, .failed peer session ∈ n.history →
    n.sessionStore peer = some session → ∃ r, Pending n r peer session
  replies : ∀ u ∈ n.responders, .failed u.1 u.2 ∉ n.history
  quiet : ∀ pre peer session post, n.history = pre ++ .failed peer session :: post →
    .sent peer session ∉ post

theorem Recovering.new : Recovering (Node.new : Node Request Session Res) where
  recorded := .new
  unread _ _ h := nomatch h
  clearing _ _ h := nomatch h
  known_senders _ h := nomatch h
  known_built _ h := nomatch h
  known_store _ _ h := nomatch h
  known_used _ _ h := nomatch h
  failed _ _ h := nomatch h
  pending _ _ h := nomatch h
  replies _ h := nomatch h
  quiet pre _ _ _ h := absurd h (List.append_ne_nil_of_right_ne_nil pre (List.cons_ne_nil _ _)).symm

variable {n n' : Node Request Session Res} {w' : World Request Session Res}
  {e : SessionSendReceive.Event Request Session Res}

/-- An event that was handled or lost does not come back. -/
theorem stages_settled {w} (hl : Linked w) (hmove : Move w e w') {r : ℕ}
    (h : w.stages r ≠ .unsent ∧ w.stages r ≠ .inTransit) :
    w'.stages r ≠ .unsent ∧ w'.stages r ≠ .inTransit := by
  have hnew : r ≠ w.nextRequestId := by
    rintro rfl
    exact h.1 (hl.fresh _ (Nat.le_refl _)).1
  -- the stage of an id that changes is one of those that are neither
  have hupdate : ∀ {stages : ℕ → Stage Request} {r' stage}, stage ≠ .unsent → stage ≠ .inTransit →
      (stages r ≠ .unsent ∧ stages r ≠ .inTransit) →
      update stages r' stage r ≠ .unsent ∧
        update stages r' stage r ≠ .inTransit := by
    intro stages r' stage h1 h2 hst
    by_cases hr : r = r'
    · subst hr
      rw [update_self]
      exact ⟨h1, h2⟩
    · rw [update_of_ne hr]
      exact hst
  cases hmove with
  | unsent | registered | moved | polled => exact h
  | sent =>
    simp only [World.sendEncryptedRequest, update_of_ne hnew]
    exact h
  | resent =>
    simp only [World.sendEncryptedRequest, update_of_ne hnew]
    exact hupdate nofun nofun h
  | _ =>
    exact hupdate nofun nofun h

/-- One more thing has happened, and it is not a message under a session that has failed. -/
theorem quiet_concat {history} {x : Happening Session}
    (h : ∀ pre peer session post, history = pre ++ .failed peer session :: post →
      .sent peer session ∉ post)
    (hx : ∀ peer session, .failed peer session ∈ history → x ≠ .sent peer session) :
    ∀ pre peer session post, history ++ [x] = pre ++ .failed peer session :: post →
      .sent peer session ∉ post := by
  intro pre peer session post heq hmem
  rcases List.eq_nil_or_concat post with rfl | ⟨post, y, rfl⟩
  · cases hmem
  · rw [List.concat_eq_append, ← List.cons_append, ← List.append_assoc] at heq
    obtain ⟨hhistory, hlast⟩ := List.append_inj' heq rfl
    obtain rfl : x = y := (List.cons.inj hlast).1
    rw [List.concat_eq_append] at hmem
    rcases List.mem_append.mp hmem with hmem | hmem
    · exact h pre peer session post hhistory hmem
    · refine hx peer session ?_ (List.mem_singleton.mp hmem).symm
      rw [hhistory]
      exact List.mem_append_right _ List.mem_cons_self

theorem failed_of_concat {history} {p p' : PeerId} {s s' : Session}
    (h : Happening.failed p s ∈ history ++ [.sent p' s']) : .failed p s ∈ history :=
  (List.mem_append.mp h).resolve_right (by simp)

/-- Who is going to clear a session is handling an error. -/
theorem Pending.isHandling (h : Recovering n) {r : ℕ} (hp : Pending n r peer session) :
    r < n.requests.nextRequestId ∧ n.isHandling peer r = true := by
  have hlt : n.requests.stages r ≠ .unsent → r < n.requests.nextRequestId := fun hne =>
    Nat.lt_of_not_le fun hle => hne (h.recorded.linked.fresh r hle).1
  rcases hp with hc | ⟨externalId, error, it, data, hst, -⟩
  · obtain ⟨externalId, contactId, request, hst⟩ := h.clearing r peer hc
    refine ⟨hlt (by rw [hst]; nofun), ?_⟩
    simp [Node.isHandling, hc]
  · refine ⟨hlt (by rw [hst]; nofun), ?_⟩
    simp [Node.isHandling, hst]

theorem Recovering.forget (h : Recovering n) (peer : PeerId) :
    Recovering { n with sessionStore := update n.sessionStore peer none } where
  __ := h
  known_store p s hs := h.known_store p s (of_update_eq hs nofun).2
  pending p s hf hs := h.pending p s hf (of_update_eq hs nofun).2

variable [DecidableEq Session]

/-- A request is sent again by a handler that is about to. -/
theorem stages_of_resend {w : World Request Session Res} {r : ℕ} {session}
    (hstep : w.step (.resend r session) = some w') : ∃ peer externalId contactId request,
      w.stages r = .resending peer externalId contactId request := by
  rw [World.step] at hstep
  split at hstep
  · next peer externalId contactId request hst => exact ⟨peer, externalId, contactId, request, hst⟩
  · cases hstep

/-- The requests take a step that is not one of the handler `r`. -/
structure Apart (n : Node Request Session Res)
    (e : SessionSendReceive.Event Request Session Res) : Prop where
  fetch : ∀ r c, e = .fetch r c → ∃ peer externalId error,
    n.requests.stages r = .checked peer externalId (.localError error)
  resend : ∀ r s, e = .resend r s → n.clearing r = none

/-- Who is going to clear a session is not concerned. -/
theorem Pending.frame (h : Recovering n) (hstep : n.requests.step e = some w') (ha : Apart n e)
    {r : ℕ} (hp : Pending n r peer session)
    (used : ℕ → Option (PeerId × Session)) (senders : List (PeerId × Session))
    (history : List (Happening Session)) :
    Pending { n with requests := w', used := used, senders := senders, history := history }
      r peer session := by
  rcases hp with hp | ⟨externalId, error, it, data, hst, hit, hdata, hsession, hread⟩
  · exact .inl hp
  · have hframe := h.recorded.linked.frame (World.step_move hstep)
      (by rw [hst]; rfl : (n.requests.stages r).held = some externalId)
      (by
        rintro c rfl
        obtain ⟨_, _, _, hst'⟩ := ha.fetch r c rfl
        cases hst.symm.trans hst')
      (by
        rintro s rfl
        obtain ⟨_, _, _, _, hst'⟩ := stages_of_resend hstep
        cases hst.symm.trans hst')
    exact .inr ⟨externalId, error, it, data, hframe.1.trans hst, hframe.2.trans hit, hdata,
      hsession, hread⟩

theorem Recovering.clearing_frame (h : Recovering n) (hstep : n.requests.step e = some w')
    (ha : Apart n e) (r : ℕ) (peer : PeerId) (hc : n.clearing r = some peer) :
    ∃ externalId contactId request, w'.stages r = .resending peer externalId contactId request := by
  obtain ⟨externalId, contactId, request, hst⟩ := h.clearing r peer hc
  have hframe := h.recorded.linked.frame (World.step_move hstep)
    (by rw [hst]; rfl : (n.requests.stages r).held = some externalId)
    (by
      rintro c rfl
      obtain ⟨_, _, _, hst'⟩ := ha.fetch r c rfl
      cases hst.symm.trans hst')
    (by
      rintro s rfl
      cases hc.symm.trans (ha.resend r s rfl))
  exact ⟨externalId, contactId, request, hframe.1.trans hst⟩

theorem Recovering.unread_step (h : Recovering n) (hstep : n.requests.step e = some w') (r : ℕ)
    (current : Option Session) (hread : n.read r = some current) :
    w'.stages r ≠ .unsent ∧ w'.stages r ≠ .inTransit :=
  stages_settled h.recorded.linked (World.step_move hstep) (h.unread r current hread)

/-! ### Steps of the requests -/

/-- A step that sends nothing and is no failure of a session. -/
theorem Recovering.carry (h : Recovering n) (hstep : n.requests.step e = some w')
    (hrec : Recorded w' n.used) (ha : Apart n e) : Recovering { n with requests := w' } where
  __ := h
  recorded := hrec
  unread := h.unread_step hstep
  clearing := h.clearing_frame hstep ha
  pending peer session hf hs := by
    obtain ⟨r, hp⟩ := h.pending peer session hf hs
    exact ⟨r, hp.frame h hstep ha n.used n.senders n.history⟩

/-- A request is encrypted under a session that has not failed, and sent. -/
theorem Recovering.transmit (h : Recovering n)
    (hstep : n.transmit peer session e = some n') (ha : Apart n e)
    (hrec : ∀ w', n.requests.step e = some w' → Recorded w'
      (update n.used n.requests.nextRequestId (some (peer, session)))) : Recovering n' := by
  rw [Node.transmit] at hstep
  split at hstep
  · next hmem =>
    obtain ⟨w', hw', rfl⟩ := Option.map_eq_some_iff.mp hstep
    have hsub : ∀ u ∈ n.senders.erase (peer, session), u ∈ n.senders :=
      fun u hu => List.mem_of_mem_erase hu
    -- the session has not failed: nobody has one that has
    have hnot : ∀ p s, .failed p s ∈ n.history →
        Happening.sent peer session ≠ .sent p s := by
      intro p s hf heq
      cases heq
      exact (h.failed peer session hf).2.1 hmem
    refine { h with
      recorded := hrec w' hw'
      unread := h.unread_step hw'
      clearing := h.clearing_frame hw' ha
      known_senders := fun u hu => h.known_senders u (hsub u hu)
      known_used := fun r u hu => ?_
      failed := fun p s hf => ?_
      pending := fun p s hf hs => ?_
      replies := fun u hu hf => h.replies u hu (failed_of_concat hf)
      quiet := quiet_concat h.quiet hnot }
    · rcases update_eq_cases hu with ⟨-, hnew⟩ | ⟨-, hu⟩
      · obtain ⟨⟩ := hnew
        exact h.known_senders _ hmem
      · exact h.known_used r u hu
    · obtain ⟨h1, h2, h3⟩ := h.failed p s (failed_of_concat hf)
      exact ⟨h1, fun hc => h2 (hsub _ hc), h3⟩
    · obtain ⟨r, hp⟩ := h.pending p s (failed_of_concat hf) hs
      exact ⟨r, hp.frame h hw' ha _ _ _⟩
  · cases hstep

theorem Recovering.deliver (h : Recovering n) {r : ℕ} {payload : ReceivePayload Res}
    (hok : Orderly n (.deliver r payload)) (hstep : n.step (.deliver r payload) = some n') :
    Recovering n' := by
  obtain ⟨⟨peer, session⟩, hused, hstep⟩ := Option.bind_eq_some_iff.mp hstep
  obtain ⟨w', hw', rfl⟩ := Option.map_eq_some_iff.mp hstep
  have ha : Apart n (.deliver peer r payload) := ⟨by simp, by simp⟩
  have hmove := World.step_move hw'
  have hrec : Recorded w' n.used := h.recorded.handle hmove rfl
  cases hfailure : payload.isSessionFailure with
  | false =>
    have hcarry := h.carry hw' hrec ha
    simpa only [Bool.false_eq_true, if_false, List.append_nil] using hcarry
  | true =>
    obtain ⟨herror, ⟨it, hit, hretry⟩, hfree⟩ := hok hfailure
    obtain ⟨hsenders, hbuilt, hresponders⟩ := hfree _ hused
    obtain ⟨error, rfl⟩ := ReceivePayload.exists_remoteError hfailure herror
    -- the handler goes on, and the registration has the session of the request
    obtain ⟨data, peer', hdata, hused'⟩ := h.recorded.recorded r it hit hretry
    obtain ⟨rfl, rfl⟩ := Prod.mk.inj (Option.mem_unique hused hused')
    have htransit : n.requests.stages r = .inTransit := by
      rw [World.step] at hw'
      split at hw'
      · assumption
      · cases hw'
    have hnext : w' = { n.requests with
        stages := update n.requests.stages r
          (.checked peer it.externalId (.remoteError error)) } := by
      rw [World.step, htransit] at hw'
      obtain ⟨⟩ := hw'
      rw [World.receiveError, TimeoutRequestRegistry.checkRequestMetadata, hit]
      simp only [Option.map_some, hretry, gt_iff_lt, Nat.lt_irrefl, if_false]
    have hreplies : ∀ u ∈ n.responders,
        .failed u.1 u.2 ∉ n.history ++ [.failed peer data.session] := by
      rintro ⟨p, s⟩ hu hf
      rcases List.mem_append.mp hf with hf | hf
      · exact h.replies _ hu hf
      · obtain ⟨rfl, rfl⟩ := Happening.failed.inj (List.mem_singleton.mp hf)
        exact hresponders hu
    have hread : n.read r = none := by
      cases hread : n.read r with
      | none => rfl
      | some current => exact absurd htransit (h.unread r current hread).2
    refine { h with
      recorded := hrec
      unread := h.unread_step hw'
      clearing := h.clearing_frame hw' ha
      failed := fun p s hf => ?_
      pending := fun p s hf hs => ?_
      replies := hreplies
      quiet := quiet_concat h.quiet (by simp) }
    · rcases List.mem_append.mp hf with hf | hf
      · exact h.failed p s hf
      · obtain ⟨rfl, rfl⟩ := Happening.failed.inj (List.mem_singleton.mp hf)
        exact ⟨h.known_used r _ hused, hsenders, hbuilt⟩
    · rcases List.mem_append.mp hf with hf | hf
      · obtain ⟨r', hp⟩ := h.pending p s hf hs
        exact ⟨r', hp.frame h hw' ha _ _ _⟩
      obtain ⟨rfl, rfl⟩ := Happening.failed.inj (List.mem_singleton.mp hf)
      refine ⟨r, .inr ?_⟩
      rw [hnext]
      exact ⟨it.externalId, error, it, data, update_self _ _ _, hit, hdata, rfl,
        .inl hread⟩

/-- The handler of an error of the other end reads the registration. -/
theorem Recovering.fetch (h : Recovering n) {r : ℕ} (hstep : n.step (.fetch r) = some n') :
    Recovering n' := by
  rw [Node.step] at hstep
  split at hstep
  · next peer externalId error hst =>
    obtain ⟨current, hread, hstep⟩ := Option.bind_eq_some_iff.mp hstep
    obtain ⟨w', hw', rfl⟩ := Option.map_eq_some_iff.mp hstep
    have hmove := World.step_move hw'
    have hheld : (n.requests.stages r).held = some externalId := by rw [hst]; rfl
    have hrec : Recorded w' n.used := h.recorded.handle hmove rfl
    obtain ⟨it, hit, hext⟩ := h.recorded.linked.held r externalId hheld
    have hother : ∀ {r'}, r' ≠ r → ∀ {k}, (n.requests.stages r').held = some k →
        w'.stages r' = n.requests.stages r' ∧
          w'.registry.register r' = n.requests.registry.register r' := by
      intro r' hne k hk
      refine h.recorded.linked.frame hmove hk ?_ (by simp)
      rintro c hc
      cases hc
      exact hne rfl
    -- the session is cleared if it was the current one
    have hnew : ∀ data, it.data = some data → current = some data.session →
        n.requiresNewSession r current = true := by
      intro data hdata hcurrent
      rw [Node.requiresNewSession, TimeoutRequestRegistry.getRequestForResendAfterSessionError, hit,
        hcurrent]
      simp [hdata]
    refine { h with
      recorded := hrec
      unread := h.unread_step hw'
      clearing := fun r' peer' hc => ?_
      pending := fun p s hf hs => ?_ }
    · have hcases : r' = r ∧ peer' = peer ∧ n.requiresNewSession r current = true ∨
          n.clearing r' = some peer' := by
        split at hc
        · next hrequires =>
          rcases update_eq_cases hc with ⟨rfl, hpeer⟩ | ⟨-, hc⟩
          · exact .inl ⟨rfl, (Option.some.inj hpeer).symm, hrequires⟩
          · exact .inr hc
        · exact .inr hc
      rcases hcases with ⟨rfl, rfl, hrequires⟩ | hc
      · -- the request was found, so it is about to be sent again
        rw [Node.requiresNewSession, TimeoutRequestRegistry.getRequestForResendAfterSessionError,
          hit] at hrequires
        cases hdata : it.data with
        | none => simp [hdata] at hrequires
        | some data =>
          rw [World.step, hst] at hw'
          obtain ⟨⟩ := hw'
          simp only [World.fetchRequest,
            TimeoutRequestRegistry.getRequestForResendAfterSessionError, hit, hdata,
            update_self]
          exact ⟨_, _, _, rfl⟩
      · obtain ⟨externalId', contactId, request, hst'⟩ := h.clearing r' peer' hc
        have hne : r' ≠ r := by
          rintro rfl
          cases hst.symm.trans hst'
        exact ⟨externalId', contactId, request,
          (hother hne (by rw [hst']; rfl)).1.trans hst'⟩
    · obtain ⟨r', hp⟩ := h.pending p s hf hs
      have hclear : ∀ {p'}, n.clearing r' = some p' → r' ≠ r := by
        rintro p' hc rfl
        obtain ⟨_, _, _, hst'⟩ := h.clearing r' p' hc
        cases hst.symm.trans hst'
      rcases hp with hc | ⟨externalId', error', it', data, hst', hit', hdata, hsession, hread'⟩
      · refine ⟨r', .inl ?_⟩
        split
        · exact (update_of_ne (hclear hc) _ _).trans hc
        · exact hc
      · by_cases hr : r' = r
        · subst hr
          obtain rfl := Option.mem_unique hit hit'
          obtain ⟨rfl, -, -⟩ := Stage.checked.inj (hst.symm.trans hst')
          have hcurrent : current = some data.session := by
            rcases hread' with hread' | hread'
            · cases hread.symm.trans hread'
            · rw [hsession]
              exact Option.mem_unique hread hread'
          refine ⟨r', .inl ?_⟩
          dsimp only
          rw [if_pos (hnew data hdata hcurrent), update_self]
        · obtain ⟨hs1, hs2⟩ := hother hr (by rw [hst']; rfl)
          exact ⟨r', .inr ⟨externalId', error', it', data, hs1.trans hst', hs2.trans hit', hdata,
            hsession, hread'⟩⟩
  · next peer externalId error hst =>
    obtain ⟨w', hw', rfl⟩ := Option.map_eq_some_iff.mp hstep
    refine h.carry hw' (h.recorded.handle (World.step_move hw') rfl) ⟨?_, by simp⟩
    rintro r' c heq
    cases heq
    exact ⟨peer, externalId, error, hst⟩
  · cases hstep

/-! ### Steps of the sessions -/

/-- A session that is established is a new one. -/
theorem Recovering.established (h : Recovering n) {waiters : ℕ}
    (hstep : n.step (.established peer session waiters) = some n') : Recovering n' := by
  rw [Node.step] at hstep
  split at hstep
  · cases hstep
  · next hnew =>
    obtain ⟨⟩ := hstep
    have hne : ∀ p s, s ∈ n.known → (p, s) ≠ (peer, session) := by
      rintro p s hs heq
      cases heq
      exact hnew hs
    refine { h with
      known_senders := fun u hu => ?_
      known_built := fun u hu => ?_
      known_store := fun p s hs => List.mem_cons_of_mem _ (h.known_store p s hs)
      known_used := fun r u hu => List.mem_cons_of_mem _ (h.known_used r u hu)
      failed := fun p s hf => ?_ }
    · rcases List.mem_append.mp hu with hu | hu
      · exact List.mem_cons_of_mem _ (h.known_senders u hu)
      · rw [List.eq_of_mem_replicate hu]
        exact List.mem_cons_self
    · rcases List.mem_cons.mp hu with rfl | hu
      · exact List.mem_cons_self
      · exact List.mem_cons_of_mem _ (h.known_built u hu)
    · obtain ⟨h1, h2, h3⟩ := h.failed p s hf
      refine ⟨List.mem_cons_of_mem _ h1, fun hc => ?_, fun hc => ?_⟩
      · rcases List.mem_append.mp hc with hc | hc
        · exact h2 hc
        · exact hne p s h1 (List.eq_of_mem_replicate hc)
      · rcases List.mem_cons.mp hc with hc | hc
        · exact hne p s h1 hc
        · exact h3 hc

/-- A session that is stored has not failed. -/
theorem Recovering.store (h : Recovering n)
    (hstep : n.step (.store peer session) = some n') : Recovering n' := by
  rw [Node.step] at hstep
  split at hstep
  · next hmem =>
    obtain ⟨⟩ := hstep
    refine { h with
      known_built := fun u hu => h.known_built u (List.mem_of_mem_erase hu)
      known_store := fun p s hs => ?_
      failed := fun p s hf => ?_
      pending := fun p s hf hs => ?_ }
    · rcases update_eq_cases hs with ⟨rfl, hnew⟩ | ⟨-, hs⟩
      · obtain ⟨⟩ := hnew
        exact h.known_built _ hmem
      · exact h.known_store p s hs
    · obtain ⟨h1, h2, h3⟩ := h.failed p s hf
      exact ⟨h1, h2, fun hc => h3 (List.mem_of_mem_erase hc)⟩
    · rcases update_eq_cases hs with ⟨rfl, hnew⟩ | ⟨-, hs⟩
      · obtain ⟨⟩ := hnew
        exact absurd hmem (h.failed p session hf).2.2
      · exact h.pending p s hf hs
  · cases hstep

/-- The session that is looked up has not failed: it would be about to be cleared. -/
theorem Recovering.lookUp (h : Recovering n) (hok : Orderly n (.lookUp peer))
    (hstep : n.step (.lookUp peer) = some n') : Recovering n' := by
  obtain ⟨session, hsession, rfl⟩ := Option.map_eq_some_iff.mp hstep
  refine { h with
    known_senders := fun u hu => ?_
    failed := fun p s hf => ?_ }
  · rcases List.mem_append.mp hu with hu | hu
    · exact h.known_senders u hu
    · rw [List.mem_singleton.mp hu]
      exact h.known_store peer session hsession
  · obtain ⟨h1, h2, h3⟩ := h.failed p s hf
    refine ⟨h1, fun hc => ?_, h3⟩
    rcases List.mem_append.mp hc with hc | hc
    · exact h2 hc
    · obtain ⟨rfl, rfl⟩ := Prod.mk.inj (List.mem_singleton.mp hc)
      obtain ⟨r, hp⟩ := h.pending _ _ hf hsession
      obtain ⟨hlt, hhandling⟩ := hp.isHandling h
      exact absurd (hok r hlt) (by rw [hhandling]; nofun)

/-- A request is decrypted under a session that has not failed. -/
theorem Recovering.decrypt (h : Recovering n) {sessions} (hok : Orderly n (.decrypt peer sessions
    session)) (hstep : n.step (.decrypt peer sessions session) = some n') : Recovering n' := by
  rw [Node.step] at hstep
  split at hstep
  · obtain ⟨⟩ := hstep
    refine { h with replies := fun u hu => ?_ }
    rcases List.mem_append.mp hu with hu | hu
    · exact h.replies u hu
    · rw [List.mem_singleton.mp hu]
      exact hok
  · cases hstep

/-- A reply is sent under the session that has decrypted the request. -/
theorem Recovering.reply (h : Recovering n)
    (hstep : n.step (.reply peer session) = some n') : Recovering n' := by
  rw [Node.step] at hstep
  split at hstep
  · next hmem =>
    obtain ⟨⟩ := hstep
    refine { h with
      failed := fun p s hf => h.failed p s (failed_of_concat hf)
      pending := fun p s hf => h.pending p s (failed_of_concat hf)
      replies := fun u hu hf => h.replies u (List.mem_of_mem_erase hu) (failed_of_concat hf)
      quiet := quiet_concat h.quiet fun p s hf heq => ?_ }
    obtain ⟨rfl, rfl⟩ := Happening.sent.inj heq
    exact h.replies _ hmem hf
  · cases hstep

/-- The handler of an error reads the current session. -/
theorem Recovering.readSession (h : Recovering n) {r : ℕ}
    (hstep : n.step (.readSession r) = some n') : Recovering n' := by
  rw [Node.step] at hstep
  split at hstep
  · next peer externalId error hst hnone =>
    obtain ⟨⟩ := hstep
    refine { h with
      unread := fun r' current hread => ?_
      pending := fun p s hf hs => ?_ }
    · rcases update_eq_cases hread with ⟨rfl, -⟩ | ⟨-, hread⟩
      · exact ⟨by rw [hst]; nofun, by rw [hst]; nofun⟩
      · exact h.unread r' current hread
    · obtain ⟨r', hc | ⟨externalId', error', it, data, hst', hit, hdata, hsession, hread⟩⟩ :=
        h.pending p s hf hs
      · exact ⟨r', .inl hc⟩
      · refine ⟨r', .inr ⟨externalId', error', it, data, hst', hit, hdata, hsession, ?_⟩⟩
        dsimp only
        by_cases hr : r' = r
        · subst hr
          obtain ⟨rfl, -, -⟩ := Stage.checked.inj (hst.symm.trans hst')
          rw [update_self, hs]
          exact .inr rfl
        · rw [update_of_ne hr]
          exact hread
  · cases hstep

theorem Recovering.clearSession (h : Recovering n) {r : ℕ}
    (hstep : n.step (.clearSession r) = some n') : Recovering n' := by
  obtain ⟨peer, hpeer, rfl⟩ := Option.map_eq_some_iff.mp hstep
  refine { h with
    clearing := fun r' p hc => h.clearing r' p (of_update_eq hc nofun).2
    known_store := (h.forget peer).known_store
    pending := fun p s hf hs => ?_ }
  obtain ⟨hne, hs⟩ := of_update_eq hs nofun
  obtain ⟨r', hc | hchecked⟩ := h.pending p s hf hs
  · -- it is the session of another peer that this handler clears
    have hr : r' ≠ r := by
      rintro rfl
      exact hne (Option.mem_unique hc hpeer)
    exact ⟨r', .inl ((update_of_ne hr _ _).trans hc)⟩
  · exact ⟨r', .inr hchecked⟩

/-- **One step.** -/
theorem Recovering.step (h : Recovering n) {event} (hok : Orderly n event)
    (hstep : n.step event = some n') : Recovering n' := by
  cases event with
  | established => exact h.established hstep
  | store => exact h.store hstep
  | forget peer =>
    obtain ⟨⟩ := hstep
    exact h.forget peer
  | expire | receive =>
    obtain ⟨⟩ := hstep
    exact { h with }
  | lookUp => exact h.lookUp hok hstep
  | decrypt => exact h.decrypt hok hstep
  | reply => exact h.reply hstep
  | send peer contactId request idempotent session =>
    refine h.transmit hstep ⟨by simp, by simp⟩ fun w' hw' => ?_
    have hl := h.recorded.linked.move (World.step_move hw')
    obtain ⟨⟩ := hw'
    exact h.recorded.sendEncryptedRequest hl (by simp)
  | register r =>
    obtain ⟨w', hw', rfl⟩ := Option.map_eq_some_iff.mp hstep
    exact h.carry hw' (h.recorded.register (World.step_move hw')) ⟨by simp, by simp⟩
  | deliver => exact h.deliver hok hstep
  | readSession => exact h.readSession hstep
  | fetch => exact h.fetch hstep
  | clearSession => exact h.clearSession hstep
  | resend r session =>
    rw [Node.step.eq_def] at hstep
    dsimp only at hstep
    split at hstep
    · cases hstep
    · next hclearing =>
      have ha : ∀ s, Apart n (.resend r s) := by
        refine fun s => ⟨by simp, fun r' s' heq => ?_⟩
        cases heq
        exact Option.not_isSome_iff_eq_none.mp hclearing
      cases session with
      | error error =>
        obtain ⟨w', hw', rfl⟩ := Option.map_eq_some_iff.mp hstep
        exact h.carry hw' (h.recorded.handle (World.step_move hw') rfl) (ha _)
      | ok session =>
        dsimp only at hstep
        split at hstep
        · next peer externalId contactId request hst =>
          refine h.transmit hstep (ha _) fun w' hw' => ?_
          have hl := h.recorded.linked.move (World.step_move hw')
          rw [World.step, hst] at hw'
          obtain ⟨⟩ := hw'
          exact h.recorded.sendEncryptedRequest hl (by simp)
        · cases hstep
  | lose r =>
    obtain ⟨w', hw', rfl⟩ := Option.map_eq_some_iff.mp hstep
    exact h.carry hw' (h.recorded.handle (World.step_move hw') rfl) ⟨by simp, by simp⟩
  | poll expired =>
    obtain ⟨w', hw', rfl⟩ := Option.map_eq_some_iff.mp hstep
    exact h.carry hw' (h.recorded.handle (World.step_move hw') rfl) ⟨by simp, by simp⟩

/-- **A whole run.** -/
theorem Recovering.of_run {events}
    (hrun : Run Node.step Orderly (.new : Node Request Session Res) events n) : Recovering n :=
  hrun.invariant .new fun h hok hstep => h.step hok hstep

/-! ### The next message -/

/-- **The session is not used again.** In every run in which a session fails only requests that are
registered and were not sent again, by an error of the other end, while nobody is about to use it,
to reply under it or to store it, and in which nobody looks a session up until the handler of the
error has cleared it and no request of the other end is decrypted with it after that, the next
message to the peer is encrypted under another session. -/
theorem recovers_of_orderly {events : List (Event Request Session Res)}
    (hrun : Run Node.step Orderly (.new : Node Request Session Res) events n) :
    Recovers n.history := by
  intro pre peer session between session' post heq _ hsame
  subst hsame
  refine (Recovering.of_run hrun).quiet pre peer session' _ heq ?_
  exact List.mem_append_right _ List.mem_cons_self

/-- The other end has lost the session. It is cleared, another one is established, and the request
is sent again under that one. -/
theorem recovers_of_orderly_missing : ∃ n : Node ℕ ℕ ℕ, Run Node.step Orderly .new
        [.established ⟨"peer"⟩ 0 1, .store ⟨"peer"⟩ 0, .send ⟨"peer"⟩ none 7 false 0, .register 0,
          .deliver 0 (.receiveError (.remoteError .missingSession)), .readSession 0, .fetch 0,
          .clearSession 0, .established ⟨"peer"⟩ 1 1, .resend 0 (.ok 1)] n ∧
      n.history = [.sent ⟨"peer"⟩ 0, .failed ⟨"peer"⟩ 0, .sent ⟨"peer"⟩ 1] ∧
      Recovers n.history := by
  exact Run.exists_and Run.get_runFrom fun hrun => ⟨by decide, recovers_of_orderly hrun⟩

/-- **A broken session is used again.** The other end has lost the session of a request that was
already sent again: the handler gives up and the next request is encrypted under the same session.
A response cannot be decrypted: the same. A third request has looked the session up before it is
cleared, and is encrypted under it after that. And a request of the other end is decrypted with the
session when it has been cleared, and the reply encrypted under it. -/
theorem broken_session_used_again : (∃ n : Node ℕ ℕ ℕ, Run Node.step (fun _ _ => True) .new
        [.established ⟨"peer"⟩ 0 1, .store ⟨"peer"⟩ 0, .send ⟨"peer"⟩ none 7 false 0, .register 0,
          .deliver 0 (.receiveError (.remoteError .missingSession)), .readSession 0, .fetch 0,
          .clearSession 0, .established ⟨"peer"⟩ 1 1, .store ⟨"peer"⟩ 1, .resend 0 (.ok 1),
          .register 1, .deliver 1 (.receiveError (.remoteError .missingSession)),
          .lookUp ⟨"peer"⟩, .send ⟨"peer"⟩ none 8 false 1] n ∧ ¬ Recovers n.history) ∧
    (∃ n : Node ℕ ℕ ℕ, Run Node.step (fun _ _ => True) .new
        [.established ⟨"peer"⟩ 0 1, .store ⟨"peer"⟩ 0, .send ⟨"peer"⟩ none 7 false 0, .register 0,
          .deliver 0 (.response (.error (.decryptError "[CryptError]"))), .lookUp ⟨"peer"⟩,
          .send ⟨"peer"⟩ none 8 false 0] n ∧ ¬ Recovers n.history) ∧
    (∃ n : Node ℕ ℕ ℕ, Run Node.step (fun _ _ => True) .new
        [.established ⟨"peer"⟩ 0 1, .store ⟨"peer"⟩ 0, .send ⟨"peer"⟩ none 7 false 0, .register 0,
          .lookUp ⟨"peer"⟩, .deliver 0 (.receiveError (.remoteError .missingSession)),
          .readSession 0, .fetch 0, .clearSession 0, .send ⟨"peer"⟩ none 8 false 0] n ∧
      ¬ Recovers n.history) ∧
    ∃ n : Node ℕ ℕ ℕ, Run Node.step (fun _ _ => True) .new
        [.established ⟨"peer"⟩ 0 1, .store ⟨"peer"⟩ 0, .send ⟨"peer"⟩ none 7 false 0, .register 0,
          .deliver 0 (.receiveError (.remoteError .missingSession)), .readSession 0, .fetch 0,
          .clearSession 0, .receive ⟨"peer"⟩, .decrypt ⟨"peer"⟩ [0] 0, .reply ⟨"peer"⟩ 0] n ∧
      ¬ Recovers n.history :=
  ⟨⟨_, Run.get_runFrom,
      not_recovers [.sent ⟨"peer"⟩ 0, .failed ⟨"peer"⟩ 0, .sent ⟨"peer"⟩ 1] rfl⟩,
    ⟨_, Run.get_runFrom, not_recovers [.sent ⟨"peer"⟩ 0] rfl⟩,
    ⟨_, Run.get_runFrom, not_recovers [.sent ⟨"peer"⟩ 0] rfl⟩,
    ⟨_, Run.get_runFrom, not_recovers [.sent ⟨"peer"⟩ 0] rfl⟩⟩

end SessionRecovery

end Fyles
