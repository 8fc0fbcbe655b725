import Fyles.ExpiringMaps
import Fyles.Handshake

/-!
# The session manager

`p2p/src/send_receive_traits/get_session.rs`: the stores of the sessions of one node, and everything
that reads or changes them. The stores are those of the source. A session is found for a while after
it was stored; one that was replaced or cleared is kept for a few seconds, because messages that
were encrypted under it may still arrive.

## Interleavings

Handlers are tasks that run side by side. A handler that waits (for a lock, for the brain, for the
session that another handler establishes) is a `Task` of the node, and between two of its steps
anything can happen. A step of a handler is what it does while it holds the locks that it needs.
`update_identity` changes four things under four locks, which are four events.

What the brain answers, what the random number generator yields, which of the recent sessions a
message was encrypted under, and how much time passes between two steps is part of the events.

## What happened

A step emits *acts*: what was received, sent, stored, encrypted or accepted. No step reads them.

## Main results

* `Begun`, `Node.begun_of_step` — where a task comes from
* `Did`, `Node.did_of_step` — why something happened
* `Manages`, `Node.manages_of_step` — what happens to the stores
* `Node.sessionStore_of_step`, `Node.expiredSessionCache_of_step` — where the contents of the stores
  come from
* `Node.has_of_step` — where a session comes from
-/

namespace Fyles.Handshake

variable {z : Sizes}

/-! ### The stores -/

/-- `SessionManager`. -/
structure SessionManager where
  sessionStore : TtlMap PeerId Session
  sessionBuildStore : TtlMap PeerId InitiatorSessionCreation
  selfContactId : ContactId
  keys : ContactKeys
  expiredSessionCache : ScopedExpiryMap PeerId Session

namespace SessionManager

/-- `SessionManager::new`. The flag is the parameter of the maps. -/
def new (removesStale : Bool) (now : ℕ) (contactId : ContactId) (contactKeys : ContactKeys) :
    SessionManager where
  sessionStore := .new removesStale (sessionValidityDuration + acceptSessionPastValidDuration)
  sessionBuildStore := .new removesStale sessionConstructionTimeout
  selfContactId := contactId
  keys := contactKeys
  expiredSessionCache := .new (seconds 15) (seconds 15) (seconds 60) now

variable (m : SessionManager) (now : ℕ)

/-- The cache after a session was replaced or removed. -/
def retain (peer : PeerId) : Option Session → ScopedExpiryMap PeerId Session
  | some session => m.expiredSessionCache.push now peer session
  | none => m.expiredSessionCache

/-- How both handlers of an establishment end: the session is stored, and the one that it replaces
is retained. -/
def insertSession (peer : PeerId) (session : Session) : SessionManager :=
  let r := m.sessionStore.insert now peer session
  { m with sessionStore := r.1, expiredSessionCache := m.retain now peer r.2 }

variable (nodeId : PeerId)

/-- `clear_session`. -/
def clearSession : SessionManager :=
  let r := m.sessionStore.remove now nodeId
  { m with sessionStore := r.1, expiredSessionCache := m.retain now nodeId r.2 }

/-- `get_established_session`. -/
def getEstablishedSession (useForSend : Bool) : Option Session :=
  match m.sessionStore.get now nodeId with
  | some session =>
    if useForSend ∧ now < session.useExpiry then some session
    else if now < session.acceptExpiry then some session
    else none
  | none => none

/-- `get_recent_receive_sessions`. -/
def getRecentReceiveSessions : List Session × SessionManager :=
  let r := m.expiredSessionCache.get now nodeId
  ((m.sessionStore.get now nodeId).toList ++ r.1, { m with expiredSessionCache := r.2 })

end SessionManager

/-! ### What happens -/

/-- What a step of a node does that others can see, or that is worth remembering. -/
inductive Act (z : Sizes)
  | receivedRequest (peer : PeerId) (request : AuthWireRequest z)
  | receivedResponse (peer : PeerId) (response : KeyExchangeResponse z)
  /-- The brain has answered what the keys of a contact are. -/
  | brainReturned (contactId : ContactId) (keys : Option ContactPublicKeys)
  /-- A request was sent. The public keys are those that it was signed for. -/
  | sentRequest (peer : PeerId) (signer : ContactPublicKeys) (builder : InitiatorSessionCreation)
      (request : AuthWireRequest z)
  | refused (peer : PeerId) (error : ResponderSessionEstablishmentError)
  /-- A request was answered, after its session was stored. -/
  | answered (peer : PeerId) (request : AuthWireRequest z) (signer : ContactPublicKeys)
      (response : KeyExchangeResponse z) (session : Session)
  /-- The session of a request that was sent with a builder was stored. -/
  | stored (peer : PeerId) (builder : InitiatorSessionCreation) (session : Session)
  /-- A request is to be sent: the session that the store has, and the one that may be used. -/
  | lookedUp (peer : PeerId) (now : ℕ) (stored found : Option Session)
  | accepted (peer : PeerId) (session : Session) (now : ℕ)
  /-- A request was encrypted under a session that was found when it was looked up, or that was
  established after that. -/
  | encryptedRequest (peer : PeerId) (session : Session) (lookedUp now : ℕ) (established : Bool)
  | encryptedResponse (peer : PeerId) (session : Session) (now : ℕ)
  deriving DecidableEq

/-! ### Handlers -/

/-- What a handler does next. -/
inductive Task (z : Sizes)
  /-- `get_or_establish_session`: look for a session. -/
  | lookUp (peer : PeerId) (contact : Option ContactId) (attempt : ℕ)
  /-- There is none: look for an establishment that is under way, or begin one. -/
  | build (peer : PeerId) (contact : Option ContactId) (attempt lookedUp : ℕ)
  /-- Wait for the session that another handler has begun to establish. -/
  | join (peer : PeerId) (contact : Option ContactId) (attempt lookedUp channel : ℕ)
  /-- Wait for the session that this handler has begun to establish. -/
  | await (peer : PeerId) (lookedUp channel : ℕ)
  /-- `send_internal`: encrypt the request. -/
  | encryptRequest (peer : PeerId) (session : Session) (lookedUp : ℕ) (established : Bool)
  /-- `handle_session_establishment_request`: sign the response. -/
  | sign (peer : PeerId) (request : AuthWireRequest z) (session : Session)
      (message : KeyExchangeResponseMessage z) (selfContactId : ContactId) (isAuthenticated : Bool)
  /-- The response is signed: store the session, and send the response. -/
  | answer (peer : PeerId) (request : AuthWireRequest z) (signer : ContactPublicKeys)
      (response : KeyExchangeResponse z) (session : Session)
  /-- `handle_session_establishment_response`: the builder was removed, and the brain is asked for
  the keys of the sender. -/
  | finish (peer : PeerId) (builder : InitiatorSessionCreation) (response : KeyExchangeResponse z)
  | store (peer : PeerId) (builder : InitiatorSessionCreation) (session : Session)
  /-- `decrypt_respond` and `receive_encrypted_response`: the recent sessions were read, and a
  request or a response is to be decrypted with one of them. -/
  | decrypt (peer : PeerId) (session : Session) (isRequest : Bool) (readAt : ℕ)
  /-- `decrypt_respond`: encrypt the response to a request. -/
  | encryptResponse (peer : PeerId) (session : Session) (acceptedAt : ℕ)
  deriving DecidableEq

/-- The session that a handler has in its hands. -/
def Task.session : Task z → Option Session
  | .encryptRequest _ session _ _ | .sign _ _ session _ _ _ | .answer _ _ _ _ session
  | .store _ _ session | .decrypt _ session _ _ | .encryptResponse _ session _ => some session
  | .lookUp .. | .build .. | .join .. | .await .. | .finish .. => none

/-- What those who wait for a session do when they are told about it. An establishment that another
handler has begun is attempted again if it fails, but only once. -/
def Task.deliver (channel : ℕ) (result : Except SessionEstablishmentError Session) :
    Task z → Option (Task z)
  | .join peer contact attempt lookedUp channel' =>
    if channel' = channel then
      match result with
      | .ok session => some (.encryptRequest peer session lookedUp true)
      | .error _ => if attempt + 1 < 2 then some (.lookUp peer contact (attempt + 1)) else none
    else some (.join peer contact attempt lookedUp channel')
  | .await peer lookedUp channel' =>
    if channel' = channel then
      match result with
      | .ok session => some (.encryptRequest peer session lookedUp true)
      | .error _ => none
    else some (.await peer lookedUp channel')
  | task => some task

/-- What a step does to a node: the stores, what its handler does next, what happens, and what those
who wait on a channel are told. -/
structure Outcome (z : Sizes) where
  manager : SessionManager
  tasks : List (Task z)
  acts : List (Act z)
  broadcast : Option (ℕ × Except SessionEstablishmentError Session)

/-- Those who wait, after they were told. -/
def Outcome.delivered (o : Outcome z) (tasks : List (Task z)) : List (Task z) :=
  match o.broadcast with
  | some (channel, result) => tasks.filterMap (Task.deliver channel result)
  | none => tasks

namespace SessionManager

variable (m : SessionManager) (S : Suite z)

/-- Nothing happens to the stores, and nobody is told anything. -/
def continueWith (tasks : List (Task z)) (acts : List (Act z)) : Outcome z :=
  ⟨m, tasks, acts, none⟩

/-- `get_or_establish_session`: look for a session. -/
def lookUp (now : ℕ) (peer : PeerId) (contact : Option ContactId)
    (attempt : ℕ) : Outcome z :=
  let found := m.getEstablishedSession now peer true
  m.continueWith
    [match found with
      | some session => .encryptRequest peer session now false
      | none => .build peer contact attempt now]
    [.lookedUp peer now ((m.sessionStore.map peer).map Prod.fst) found]

/-- `get_or_establish_session`, with the lock of the build store: wait for an establishment that is
under way, or begin one. -/
def build (now : ℕ) (seed : Bytes) (channel : ℕ) (peer : PeerId)
    (contact : Option ContactId) (attempt lookedUp : ℕ) : Outcome z :=
  match m.sessionBuildStore.get now peer with
  | some sessionBuild =>
    m.continueWith [.join peer contact attempt lookedUp sessionBuild.channel] []
  | none =>
    match SessionInitiatorSecrets.new S seed with
    | none => m.continueWith [] []
    | some sessionInitiatorSecrets =>
      match (SessionInitiationRequest.new sessionInitiatorSecrets.publicKeys contact).sign S seed
          m.keys.privateKeys m.selfContactId with
      | none => m.continueWith [] []
      | some request =>
        let sessionCreation := ⟨sessionInitiatorSecrets.privateKeys, channel⟩
        continueWith
          { m with
            sessionBuildStore := (m.sessionBuildStore.insert now peer sessionCreation).1 }
          [.await peer lookedUp channel]
          [.sentRequest peer m.keys.publicKeys sessionCreation request]

/-- `handle_session_establishment_request`, when the brain has answered. -/
def handleSessionEstablishmentRequest (now : ℕ) (seed : Bytes) (peer : PeerId)
    (request : AuthWireRequest z) (maybeKeys : Option ContactPublicKeys) : Outcome z :=
  let acts := [.receivedRequest peer request, .brainReturned request.sender maybeKeys]
  match request.toSessionAndResponse S now seed (maybeKeys.map fun keys => (request.sender, keys))
    with
  | .error (.signatureVerification _) =>
    m.continueWith [] (acts ++ [.refused peer (.contactVerificationFailed request.sender)])
  | .error .kyber => m.continueWith [] (acts ++ [.refused peer .sharedSecretGenerationFailed])
  | .ok (session, response) =>
    m.continueWith [.sign peer request session response m.selfContactId maybeKeys.isSome] acts

/-- The same handler, with the lock of the keys. -/
def sign (seed : Bytes) (peer : PeerId) (request : AuthWireRequest z)
    (session : Session) (message : KeyExchangeResponseMessage z) (selfContactId : ContactId)
    (isAuthenticated : Bool) : Outcome z :=
  match message.sign S seed m.keys.privateKeys selfContactId isAuthenticated with
  | some signed => m.continueWith [.answer peer request m.keys.publicKeys signed session] []
  | none => m.continueWith [] [.refused peer .sharedSecretGenerationFailed]

/-- `handle_session_establishment_response`, up to the question to the brain. -/
def handleSessionEstablishmentResponse (now : ℕ) (peer : PeerId)
    (response : Except ResponderSessionEstablishmentError (KeyExchangeResponse z)) : Outcome z :=
  let r := m.sessionBuildStore.remove now peer
  let m' := { m with sessionBuildStore := r.1 }
  match response with
  | .error e => ⟨m', [], [], r.2.map fun builder => (builder.channel, .error (.responder e))⟩
  | .ok response =>
    m'.continueWith (r.2.toList.map fun builder => .finish peer builder response)
      [.receivedResponse peer response]

/-- The same handler, when the brain has answered. -/
def finish (now : ℕ) (peer : PeerId) (builder : InitiatorSessionCreation)
    (response : KeyExchangeResponse z) (maybeKeys : Option ContactPublicKeys) : Outcome z :=
  let r := builder.toSession S now response maybeKeys
  ⟨m, match r.1 with
      | .ok session => [.store peer builder session]
      | .error _ => [],
    [.brainReturned response.sender maybeKeys], some (builder.channel, r.2)⟩

/-- `handle_session_establishment_failure`. -/
def handleSessionEstablishmentFailure (now : ℕ) (peer : PeerId) : Outcome z :=
  let r := m.sessionBuildStore.remove now peer
  ⟨{ m with sessionBuildStore := r.1 }, [], [],
    r.2.map fun builder => (builder.channel, .error .noResponse)⟩

/-- A message of a peer has arrived, and its recent sessions are read. -/
def receive (now : ℕ) (peer : PeerId) (isRequest : Bool) (index : ℕ) : Outcome z :=
  let r := m.getRecentReceiveSessions now peer
  r.2.continueWith (r.1[index]?.toList.map fun session => .decrypt peer session isRequest now) []

end SessionManager

/-- One step of a handler. Those who wait for a session have none of their own. -/
def Task.run (S : Suite z) (m : SessionManager) (now : ℕ) (channel : ℕ) (seed : Bytes)
    (maybeKeys : Option ContactPublicKeys) : Task z → Option (Outcome z)
  | .lookUp peer contact attempt => some (m.lookUp now peer contact attempt)
  | .build peer contact attempt lookedUp =>
    some (m.build S now seed channel peer contact attempt lookedUp)
  | .join .. | .await .. => none
  | .encryptRequest peer session lookedUp established =>
    some (m.continueWith [] [.encryptedRequest peer session lookedUp now established])
  | .sign peer request session message selfContactId isAuthenticated =>
    some (m.sign S seed peer request session message selfContactId isAuthenticated)
  | .answer peer request signer response session =>
    some ((m.insertSession now peer session).continueWith []
      [.answered peer request signer response session])
  | .finish peer builder response => some (m.finish S now peer builder response maybeKeys)
  | .store peer builder session =>
    some ((m.insertSession now peer session).continueWith [] [.stored peer builder session])
  | .decrypt peer session isRequest _ =>
    some (m.continueWith (bif isRequest then [.encryptResponse peer session now] else [])
      [.accepted peer session now])
  | .encryptResponse peer session _ =>
    some (m.continueWith [] [.encryptedResponse peer session now])

/-! ### Nodes -/

/-- A node. -/
structure Node (z : Sizes) where
  manager : SessionManager
  /-- The handlers that are under way. -/
  tasks : List (Task z)
  clock : ℕ
  nextChannel : ℕ

/-- What can happen to a node. -/
inductive Event (z : Sizes)
  | pass (duration : ℕ)
  | send (peer : PeerId) (contact : Option ContactId)
  /-- A request of a handshake has arrived, and the brain has answered. -/
  | request (peer : PeerId) (request : AuthWireRequest z) (maybeKeys : Option ContactPublicKeys)
      (seed : Bytes)
  | response (peer : PeerId)
      (response : Except ResponderSessionEstablishmentError (KeyExchangeResponse z))
  | failure (peer : PeerId)
  | clearSession (peer : PeerId)
  /-- The four parts of `update_identity`. -/
  | setSelfContactId (contactId : ContactId)
  | setKeys (keys : ContactKeys)
  | clearBuildStore
  | clearSessionStore
  /-- A builder is dropped, because it was replaced, or because the build store was cleared. -/
  | dropped (channel : ℕ)
  /-- A request or a response arrives that was encrypted under one of the recent sessions. -/
  | receive (peer : PeerId) (isRequest : Bool) (index : ℕ)
  /-- A handler takes its next step. -/
  | resume (index : ℕ) (seed : Bytes) (maybeKeys : Option ContactPublicKeys)
  /-- A handler gives up: it has waited for too long, or has nothing to respond. -/
  | abandon (index : ℕ)
  deriving DecidableEq

/-- The identity of the session manager is written. -/
def Event.writes : Event z → Bool
  | .setSelfContactId _ | .setKeys _ => true
  | _ => false

/-- How long an event takes. -/
def Event.duration : Event z → ℕ
  | .pass duration => duration
  | _ => 0

namespace Node

/-- A node that has just been started. -/
def new (removesStale : Bool) (now : ℕ) (contactId : ContactId) (keys : ContactKeys) : Node z :=
  ⟨.new removesStale now contactId keys, [], now, 0⟩

variable (S : Suite z)

/-- What an event does, and the handlers that are not concerned. -/
def outcome (n : Node z) : Event z → Option (List (Task z) × Outcome z)
  | .pass _ => some (n.tasks, n.manager.continueWith [] [])
  | .send peer contact => some (n.tasks, n.manager.continueWith [.lookUp peer contact 0] [])
  | .request peer request maybeKeys seed =>
    some (n.tasks,
      n.manager.handleSessionEstablishmentRequest S n.clock seed peer request maybeKeys)
  | .response peer response =>
    some (n.tasks, n.manager.handleSessionEstablishmentResponse n.clock peer response)
  | .failure peer => some (n.tasks, n.manager.handleSessionEstablishmentFailure n.clock peer)
  | .clearSession peer => some (n.tasks, (n.manager.clearSession n.clock peer).continueWith [] [])
  | .setSelfContactId contactId =>
    some (n.tasks, { n.manager with selfContactId := contactId }.continueWith [] [])
  | .setKeys keys => some (n.tasks, { n.manager with keys := keys }.continueWith [] [])
  | .clearBuildStore =>
    some (n.tasks,
      { n.manager with sessionBuildStore := n.manager.sessionBuildStore.clear }.continueWith [] [])
  | .clearSessionStore =>
    some (n.tasks,
      { n.manager with sessionStore := n.manager.sessionStore.clear }.continueWith [] [])
  | .dropped channel =>
    some (n.tasks, ⟨n.manager, [], [], some (channel, .error .droppedWithoutResponse)⟩)
  | .receive peer isRequest index =>
    some (n.tasks, n.manager.receive n.clock peer isRequest index)
  | .resume index seed maybeKeys =>
    n.tasks[index]?.bind fun task =>
      (task.run S n.manager n.clock n.nextChannel seed maybeKeys).map fun o =>
        (n.tasks.eraseIdx index, o)
  | .abandon index => some (n.tasks.eraseIdx index, n.manager.continueWith [] [])

/-- The node after an event, and what has happened. -/
def step (n : Node z) (e : Event z) : Option (Node z × List (Act z)) :=
  (n.outcome S e).map fun r =>
    (⟨r.2.manager, r.2.delivered r.1 ++ r.2.tasks, n.clock + e.duration, n.nextChannel + 1⟩,
      r.2.acts)

end Node

/-! ### Where tasks come from -/

section

variable (S : Suite z) (n : Node z)

/-- The tasks that an event begins. -/
inductive Begun : Event z → Task z → Prop
  | send {peer contact} : Begun (.send peer contact) (.lookUp peer contact 0)
  | retry {e peer contact attempt lookedUp channel} :
      .join peer contact attempt lookedUp channel ∈ n.tasks →
      Begun e (.lookUp peer contact (attempt + 1))
  | found {i seed keys peer contact attempt session} :
      n.tasks[i]? = some (.lookUp peer contact attempt) →
      n.manager.getEstablishedSession n.clock peer true = some session →
      Begun (.resume i seed keys) (.encryptRequest peer session n.clock false)
  | missed {i seed keys peer contact attempt} : n.tasks[i]? = some (.lookUp peer contact attempt) →
      Begun (.resume i seed keys) (.build peer contact attempt n.clock)
  | join {i seed keys peer contact attempt lookedUp channel} :
      n.tasks[i]? = some (.build peer contact attempt lookedUp) →
      Begun (.resume i seed keys) (.join peer contact attempt lookedUp channel)
  | await {i seed keys peer contact attempt lookedUp} :
      n.tasks[i]? = some (.build peer contact attempt lookedUp) →
      Begun (.resume i seed keys) (.await peer lookedUp n.nextChannel)
  | joined {i seed keys peer peer' builder response contact attempt lookedUp channel session} :
      n.tasks[i]? = some (.finish peer' builder response) →
      .join peer contact attempt lookedUp channel ∈ n.tasks →
      (builder.toSession S n.clock response keys).2 = .ok session →
      Begun (.resume i seed keys) (.encryptRequest peer session lookedUp true)
  | awaited {i seed keys peer peer' builder response lookedUp channel session} :
      n.tasks[i]? = some (.finish peer' builder response) → .await peer lookedUp channel ∈ n.tasks →
      (builder.toSession S n.clock response keys).2 = .ok session →
      Begun (.resume i seed keys) (.encryptRequest peer session lookedUp true)
  | sign {peer request keys seed session message} :
      request.toSessionAndResponse S n.clock seed (keys.map fun k => (request.sender, k)) =
        .ok (session, message) →
      Begun (.request peer request keys seed)
        (.sign peer request session message n.manager.selfContactId keys.isSome)
  | answer {i seed keys peer request session message contactId isAuthenticated response} :
      n.tasks[i]? = some (.sign peer request session message contactId isAuthenticated) →
      message.sign S seed n.manager.keys.privateKeys contactId isAuthenticated = some response →
      Begun (.resume i seed keys) (.answer peer request n.manager.keys.publicKeys response session)
  | finish {peer response builder} :
      (n.manager.sessionBuildStore.remove n.clock peer).2 = some builder →
      Begun (.response peer (.ok response)) (.finish peer builder response)
  | store {i seed keys peer builder response session} :
      n.tasks[i]? = some (.finish peer builder response) →
      (builder.toSession S n.clock response keys).1 = .ok session →
      Begun (.resume i seed keys) (.store peer builder session)
  | receive {peer isRequest index session} :
      (n.manager.getRecentReceiveSessions n.clock peer).1[index]? = some session →
      Begun (.receive peer isRequest index) (.decrypt peer session isRequest n.clock)
  | respond {i seed keys peer session readAt} :
      n.tasks[i]? = some (.decrypt peer session true readAt) →
      Begun (.resume i seed keys) (.encryptResponse peer session n.clock)

/-- What an event makes happen. -/
inductive Did : Event z → Act z → Prop
  | receivedRequest {peer request keys seed} :
      Did (.request peer request keys seed) (.receivedRequest peer request)
  | receivedResponse {peer response} :
      Did (.response peer (.ok response)) (.receivedResponse peer response)
  | brainReturned {e contactId keys} : Did e (.brainReturned contactId keys)
  | sentRequest {i seed keys peer contact attempt lookedUp secrets request} :
      n.tasks[i]? = some (.build peer contact attempt lookedUp) →
      SessionInitiatorSecrets.new S seed = some secrets →
      (SessionInitiationRequest.new secrets.publicKeys contact).sign S seed
        n.manager.keys.privateKeys n.manager.selfContactId = some request →
      Did (.resume i seed keys) (.sentRequest peer n.manager.keys.publicKeys
        ⟨secrets.privateKeys, n.nextChannel⟩ request)
  | refused {e peer error} : Did e (.refused peer error)
  | answered {i seed keys peer request signer response session} :
      n.tasks[i]? = some (.answer peer request signer response session) →
      Did (.resume i seed keys) (.answered peer request signer response session)
  | stored {i seed keys peer builder session} : n.tasks[i]? = some (.store peer builder session) →
      Did (.resume i seed keys) (.stored peer builder session)
  | lookedUp {i seed keys peer contact attempt} :
      n.tasks[i]? = some (.lookUp peer contact attempt) →
      Did (.resume i seed keys) (.lookedUp peer n.clock
        ((n.manager.sessionStore.map peer).map Prod.fst)
        (n.manager.getEstablishedSession n.clock peer true))
  | accepted {i seed keys peer session isRequest readAt} :
      n.tasks[i]? = some (.decrypt peer session isRequest readAt) →
      Did (.resume i seed keys) (.accepted peer session n.clock)
  | encryptedRequest {i seed keys peer session lookedUp established} :
      n.tasks[i]? = some (.encryptRequest peer session lookedUp established) →
      Did (.resume i seed keys) (.encryptedRequest peer session lookedUp n.clock established)
  | encryptedResponse {i seed keys peer session acceptedAt} :
      n.tasks[i]? = some (.encryptResponse peer session acceptedAt) →
      Did (.resume i seed keys) (.encryptedResponse peer session n.clock)

/-- An event stores a session for a peer. -/
def Stores (e : Event z) (peer : PeerId) (session : Session) : Prop :=
  ∃ i seed keys, e = .resume i seed keys ∧
    ((∃ request signer response,
        n.tasks[i]? = some (.answer peer request signer response session)) ∨
      ∃ builder, n.tasks[i]? = some (.store peer builder session))

/-- An event replaces or removes the session of a peer. -/
def Displaces (e : Event z) (peer : PeerId) (session : Session) : Prop :=
  (e = .clearSession peer ∧ (n.manager.sessionStore.remove n.clock peer).2 = some session) ∨
    ((∃ session', Stores n e peer session') ∧
      n.manager.sessionStore.get n.clock peer = some session)

/-- What an event does to the stores. -/
inductive Manages : Event z → List (Act z) → SessionManager → Prop
  | idle {e acts} : Manages e acts n.manager
  | identify {e acts contactId keys} : e.writes = true →
      Manages e acts { n.manager with selfContactId := contactId, keys := keys }
  | insertSession {e acts peer session} :
      Stores n e peer session → Manages e acts (n.manager.insertSession n.clock peer session)
  | clearSession {acts peer} :
      Manages (.clearSession peer) acts (n.manager.clearSession n.clock peer)
  | clearSessionStore {e acts} :
      Manages e acts { n.manager with sessionStore := n.manager.sessionStore.clear }
  | build {e acts peer signer builder request} : .sentRequest peer signer builder request ∈ acts →
      Manages e acts { n.manager with
        sessionBuildStore := (n.manager.sessionBuildStore.insert n.clock peer builder).1 }
  | removeBuilder {e acts peer} :
      Manages e acts { n.manager with
        sessionBuildStore := (n.manager.sessionBuildStore.remove n.clock peer).1 }
  | clearBuildStore {e acts} :
      Manages e acts { n.manager with sessionBuildStore := n.manager.sessionBuildStore.clear }
  | getRecent {e acts peer} : Manages e acts (n.manager.getRecentReceiveSessions n.clock peer).2

end

/-! ### The stores after a step -/

namespace SessionManager

variable {m : SessionManager} {now expiry : ℕ} {peer peer' : PeerId} {session session' : Session}

theorem holds_retain {old} (h : (m.retain now peer old).Holds peer' session expiry) :
    m.expiredSessionCache.Holds peer' session expiry ∨
      (peer' = peer ∧ old = some session ∧
        expiry = now + m.expiredSessionCache.valueTtl) := by
  cases old with
  | none => exact .inl h
  | some s =>
    rcases ScopedExpiryMap.holds_push h with ⟨rfl, rfl, rfl⟩ | h
    · exact .inr ⟨rfl, rfl, rfl⟩
    · exact .inl h

@[simp] theorem valueTtl_retain {old} :
    (m.retain now peer old).valueTtl = m.expiredSessionCache.valueTtl := by
  cases old with
  | none => rfl
  | some s => exact ScopedExpiryMap.valueTtl_push

theorem holds_insertSession
    (h : (m.insertSession now peer session).expiredSessionCache.Holds peer' session' expiry) :
    m.expiredSessionCache.Holds peer' session' expiry ∨
      (peer' = peer ∧ m.sessionStore.get now peer = some session' ∧
        expiry = now + m.expiredSessionCache.valueTtl) :=
  holds_retain h

theorem holds_clearSession
    (h : (m.clearSession now peer).expiredSessionCache.Holds peer' session' expiry) :
    m.expiredSessionCache.Holds peer' session' expiry ∨
      (peer' = peer ∧ (m.sessionStore.remove now peer).2 = some session' ∧
        expiry = now + m.expiredSessionCache.valueTtl) :=
  holds_retain h

/-- The session that may be used is the one that the store has. -/
theorem map_of_getEstablishedSession {useForSend : Bool}
    (h : m.getEstablishedSession now peer useForSend = some session) :
    (∃ t, m.sessionStore.map peer = some (session, t)) ∧
      (now < session.useExpiry ∨ now < session.acceptExpiry) := by
  rw [getEstablishedSession] at h
  cases hget : m.sessionStore.get now peer with
  | none =>
    rw [hget] at h
    cases h
  | some s =>
    rw [hget] at h
    dsimp only at h
    obtain ⟨t, ht, -⟩ := TtlMap.get_eq_some.mp hget
    split at h
    · next huse =>
      obtain ⟨⟩ := h
      exact ⟨⟨t, ht⟩, .inl huse.2⟩
    · split at h
      · next haccept =>
        obtain ⟨⟩ := h
        exact ⟨⟨t, ht⟩, .inr haccept⟩
      · cases h

/-- A recent session is the current one or one that was retained, and its time is not over. -/
theorem mem_getRecentReceiveSessions
    (h : session ∈ (m.getRecentReceiveSessions now peer).1) :
    ∃ t, (m.sessionStore.map peer = some (session, t) ∨
      m.expiredSessionCache.Holds peer session t) ∧ now < t := by
  rcases List.mem_append.mp h with h | h
  · obtain ⟨t, ht, hlt⟩ := TtlMap.get_eq_some.mp (Option.mem_toList.mp h)
    exact ⟨t, .inl ht, hlt⟩
  · obtain ⟨t, ht, hlt⟩ := ScopedExpiryMap.holds_of_mem_get h
    exact ⟨t, .inr ht, hlt⟩

end SessionManager

/-! ### Steps -/

/-- What becomes of a task when a channel is told something. -/
theorem Task.deliver_cases {channel : ℕ} {result} {task task' : Task z}
    (h : task.deliver channel result = some task') : task' = task ∨
    (∃ peer contact attempt lookedUp channel', task = .join peer contact attempt lookedUp channel' ∧
      (task' = .lookUp peer contact (attempt + 1) ∨
        ∃ session, result = .ok session ∧ task' = .encryptRequest peer session lookedUp true)) ∨
    ∃ peer lookedUp channel', task = .await peer lookedUp channel' ∧
      ∃ session, result = .ok session ∧ task' = .encryptRequest peer session lookedUp true := by
  cases task with
  | join peer contact attempt lookedUp channel' =>
    simp only [deliver] at h
    split at h
    · refine .inr (.inl ⟨peer, contact, attempt, lookedUp, channel', rfl, ?_⟩)
      cases result with
      | ok session => exact .inr ⟨session, rfl, (Option.some.inj h).symm⟩
      | error e =>
        dsimp only at h
        split at h
        · exact .inl (Option.some.inj h).symm
        · cases h
    · exact .inl (Option.some.inj h).symm
  | await peer lookedUp channel' =>
    simp only [deliver] at h
    split at h
    · refine .inr (.inr ⟨peer, lookedUp, channel', rfl, ?_⟩)
      cases result with
      | ok session => exact ⟨session, rfl, (Option.some.inj h).symm⟩
      | error e => cases h
    · exact .inl (Option.some.inj h).symm
  | _ =>
    exact .inl (Option.some.inj h).symm

namespace Node

variable {S : Suite z} {n n' : Node z} {e : Event z} {acts : List (Act z)}
  {waiting : List (Task z)} {o : Outcome z}

theorem outcome_of_step (h : n.step S e = some (n', acts)) :
    ∃ waiting o, n.outcome S e = some (waiting, o) ∧ acts = o.acts ∧ n'.manager = o.manager ∧
      n'.tasks = o.delivered waiting ++ o.tasks ∧ n'.clock = n.clock + e.duration := by
  obtain ⟨⟨waiting, o⟩, ho, heq⟩ := Option.map_eq_some_iff.mp h
  obtain ⟨rfl, rfl⟩ := Prod.mk.inj heq
  exact ⟨waiting, o, ho, rfl, rfl, rfl, rfl⟩

variable {i : ℕ} {seed : Bytes} {keys : Option ContactPublicKeys}

theorem run_of_outcome (h : n.outcome S (.resume i seed keys) = some (waiting, o)) :
    ∃ task, n.tasks[i]? = some task ∧ waiting = n.tasks.eraseIdx i ∧
      task.run S n.manager n.clock n.nextChannel seed keys = some o := by
  obtain ⟨task, htask, h⟩ := Option.bind_eq_some_iff.mp h
  obtain ⟨o', ho', heq⟩ := Option.map_eq_some_iff.mp h
  obtain ⟨rfl, rfl⟩ := Prod.mk.inj heq
  exact ⟨task, htask, rfl, ho'⟩

theorem waiting_subset (h : n.outcome S e = some (waiting, o)) : waiting ⊆ n.tasks := by
  cases e with
  | resume i seed keys =>
    obtain ⟨task, -, rfl, -⟩ := run_of_outcome h
    exact List.eraseIdx_subset
  | abandon i =>
    obtain ⟨⟩ := h
    exact List.eraseIdx_subset
  | _ =>
    obtain ⟨⟩ := h
    exact fun _ ht => ht

variable (S n e o) in
/-- Why an event does what it does. -/
structure Explained : Prop where
  begun : ∀ task ∈ o.tasks, Begun S n e task
  did : ∀ act ∈ o.acts, Did S n e act
  manages : Manages n e o.acts o.manager
  /-- Those who wait get a session only from the handler of a response. -/
  broadcast : ∀ channel session, o.broadcast = some (channel, .ok session) →
    ∃ i seed keys peer builder response, e = .resume i seed keys ∧
      n.tasks[i]? = some (.finish peer builder response) ∧
      (builder.toSession S n.clock response keys).2 = .ok session

namespace Explained

variable {m : SessionManager} {task : Task z} {act : Act z}

theorem nothing (h : Manages n e [] m) : Explained S n e (m.continueWith [] []) :=
  ⟨List.forall_mem_nil _, List.forall_mem_nil _, h, nofun⟩

theorem acted (hact : Did S n e act) (h : Manages n e [act] m) :
    Explained S n e (m.continueWith [] [act]) :=
  ⟨List.forall_mem_nil _, List.forall_mem_singleton.mpr hact, h, nofun⟩

theorem begin (htask : Begun S n e task) : Explained S n e (n.manager.continueWith [task] []) :=
  ⟨List.forall_mem_singleton.mpr htask, List.forall_mem_nil _, .idle, nofun⟩

/-- A builder is removed, and those who wait are told of an error. -/
theorem removeBuilder {peer : PeerId} {error : SessionEstablishmentError} :
    Explained S n e ⟨{ n.manager with
        sessionBuildStore := (n.manager.sessionBuildStore.remove n.clock peer).1 }, [], [],
      (n.manager.sessionBuildStore.remove n.clock peer).2.map fun builder =>
        (builder.channel, .error error)⟩ := by
  refine ⟨List.forall_mem_nil _, List.forall_mem_nil _, .removeBuilder, fun _ _ hb => ?_⟩
  obtain ⟨builder, -, heq⟩ := Option.map_eq_some_iff.mp hb
  cases heq

end Explained

variable {task : Task z}

theorem explained_of_run (htask : n.tasks[i]? = some task)
    (h : task.run S n.manager n.clock n.nextChannel seed keys = some o) :
    Explained S n (.resume i seed keys) o := by
  cases task with
  | join | await => cases h
  | lookUp peer contact attempt =>
    obtain ⟨⟩ := h
    refine ⟨List.forall_mem_singleton.mpr ?_, List.forall_mem_singleton.mpr (.lookedUp htask),
      .idle, nofun⟩
    split
    · next session hfound => exact .found htask hfound
    · exact .missed htask
  | build peer contact attempt lookedUp =>
    obtain ⟨⟩ := h
    rw [SessionManager.build]
    split
    · exact .begin (.join htask)
    · split
      · exact .nothing .idle
      · next secrets hsecrets =>
        split
        · exact .nothing .idle
        · next request hrequest =>
          exact ⟨List.forall_mem_singleton.mpr (.await htask),
            List.forall_mem_singleton.mpr (.sentRequest htask hsecrets hrequest),
            .build (List.mem_singleton_self _), nofun⟩
  | encryptRequest peer session lookedUp established =>
    obtain ⟨⟩ := h
    exact .acted (.encryptedRequest htask) .idle
  | sign peer request session message contactId isAuthenticated =>
    obtain ⟨⟩ := h
    rw [SessionManager.sign]
    split
    · next response hsign => exact .begin (.answer htask hsign)
    · exact .acted .refused .idle
  | answer peer request signer response session =>
    obtain ⟨⟩ := h
    exact .acted (.answered htask)
      (.insertSession ⟨i, seed, keys, rfl, .inl ⟨request, signer, response, htask⟩⟩)
  | finish peer builder response =>
    obtain ⟨⟩ := h
    refine ⟨fun task ht => ?_, List.forall_mem_singleton.mpr .brainReturned, .idle,
      fun _ _ hb => ⟨i, seed, keys, peer, builder, response, rfl, htask,
        (Prod.mk.inj (Option.some.inj hb)).2⟩⟩
    rw [SessionManager.finish] at ht
    split at ht
    · next session hsession =>
      obtain rfl := List.mem_singleton.mp ht
      exact .store htask hsession
    · cases ht
  | store peer builder session =>
    obtain ⟨⟩ := h
    exact .acted (.stored htask) (.insertSession ⟨i, seed, keys, rfl, .inr ⟨builder, htask⟩⟩)
  | decrypt peer session isRequest readAt =>
    obtain ⟨⟩ := h
    cases isRequest with
    | false => exact .acted (.accepted htask) .idle
    | true =>
      exact ⟨List.forall_mem_singleton.mpr (.respond htask),
        List.forall_mem_singleton.mpr (.accepted htask), .idle, nofun⟩
  | encryptResponse peer session acceptedAt =>
    obtain ⟨⟩ := h
    exact .acted (.encryptedResponse htask) .idle

theorem explained_of_request {peer : PeerId} {request : AuthWireRequest z} :
    Explained S n (.request peer request keys seed)
      (n.manager.handleSessionEstablishmentRequest S n.clock seed peer request keys) := by
  have hacts : ∀ act ∈ [Act.receivedRequest peer request, .brainReturned request.sender keys],
      Did S n (.request peer request keys seed) act :=
    List.forall_mem_cons.mpr ⟨.receivedRequest, List.forall_mem_singleton.mpr .brainReturned⟩
  have hrefused : ∀ error, Explained S n (.request peer request keys seed)
      (n.manager.continueWith [] ([.receivedRequest peer request,
        .brainReturned request.sender keys] ++ [.refused peer error])) := fun error =>
    ⟨List.forall_mem_nil _, List.forall_mem_append.mpr
      ⟨hacts, List.forall_mem_singleton.mpr .refused⟩, .idle, nofun⟩
  rw [SessionManager.handleSessionEstablishmentRequest]
  split
  · exact hrefused _
  · exact hrefused _
  · next session message hsession =>
    exact ⟨List.forall_mem_singleton.mpr (.sign hsession), hacts, .idle, nofun⟩

/-- **Why an event does what it does.** -/
theorem explained (h : n.outcome S e = some (waiting, o)) : Explained S n e o := by
  cases e with
  | resume i seed keys =>
    obtain ⟨task, htask, -, hrun⟩ := run_of_outcome h
    exact explained_of_run htask hrun
  | request peer request keys seed =>
    obtain ⟨⟩ := h
    exact explained_of_request
  | response peer response =>
    obtain ⟨⟩ := h
    cases response with
    | error e => exact .removeBuilder
    | ok response =>
      refine ⟨fun task ht => ?_, List.forall_mem_singleton.mpr .receivedResponse, .removeBuilder,
        nofun⟩
      obtain ⟨builder, hbuilder, rfl⟩ := List.mem_map.mp ht
      exact .finish (Option.mem_toList.mp hbuilder)
  | failure peer =>
    obtain ⟨⟩ := h
    exact .removeBuilder
  | send peer contact =>
    obtain ⟨⟩ := h
    exact .begin .send
  | receive peer isRequest index =>
    obtain ⟨⟩ := h
    refine ⟨fun task ht => ?_, List.forall_mem_nil _, .getRecent, nofun⟩
    obtain ⟨session, hsession, rfl⟩ := List.mem_map.mp ht
    exact .receive (Option.mem_toList.mp hsession)
  | dropped channel =>
    obtain ⟨⟩ := h
    exact ⟨List.forall_mem_nil _, List.forall_mem_nil _, .idle, nofun⟩
  | pass | abandon =>
    obtain ⟨⟩ := h
    exact .nothing .idle
  | clearSession peer =>
    obtain ⟨⟩ := h
    exact .nothing .clearSession
  | setSelfContactId | setKeys =>
    obtain ⟨⟩ := h
    exact .nothing (.identify rfl)
  | clearBuildStore =>
    obtain ⟨⟩ := h
    exact .nothing .clearBuildStore
  | clearSessionStore =>
    obtain ⟨⟩ := h
    exact .nothing .clearSessionStore

/-- **Where a task comes from**: it was there before, or the event has begun it. -/
theorem begun_of_step (h : n.step S e = some (n', acts)) (ht : task ∈ n'.tasks) :
    task ∈ n.tasks ∨ Begun S n e task := by
  obtain ⟨waiting, o, ho, -, -, htasks, -⟩ := outcome_of_step h
  rw [htasks] at ht
  rcases List.mem_append.mp ht with ht | ht
  · rw [Outcome.delivered] at ht
    cases hb : o.broadcast with
    | none =>
      rw [hb] at ht
      exact .inl (waiting_subset ho ht)
    | some b =>
      obtain ⟨channel, result⟩ := b
      rw [hb] at ht
      obtain ⟨task', htask', hdeliver⟩ := List.mem_filterMap.mp ht
      have hmem := waiting_subset ho htask'
      rcases Task.deliver_cases hdeliver with rfl | ⟨peer, contact, attempt, lookedUp, channel',
        rfl, rfl | ⟨session, rfl, rfl⟩⟩ | ⟨peer, lookedUp, channel', rfl, session, rfl, rfl⟩
      · exact .inl hmem
      · exact .inr (.retry hmem)
      · obtain ⟨i, seed, keys, peer', builder, response, rfl, hfinish, hsession⟩ :=
          (explained ho).broadcast _ _ hb
        exact .inr (.joined hfinish hmem hsession)
      · obtain ⟨i, seed, keys, peer', builder, response, rfl, hfinish, hsession⟩ :=
          (explained ho).broadcast _ _ hb
        exact .inr (.awaited hfinish hmem hsession)
  · exact .inr ((explained ho).begun _ ht)

/-- **Why something happened.** -/
theorem did_of_step {act} (h : n.step S e = some (n', acts)) (ha : act ∈ acts) : Did S n e act := by
  obtain ⟨waiting, o, ho, rfl, -⟩ := outcome_of_step h
  exact (explained ho).did act ha

theorem manages_of_step (h : n.step S e = some (n', acts)) : Manages n e acts n'.manager := by
  obtain ⟨waiting, o, ho, rfl, hmanager, -⟩ := outcome_of_step h
  exact hmanager ▸ (explained ho).manages

variable {peer : PeerId} {session : Session} {builder : InitiatorSessionCreation} {expiry : ℕ}

/-- The session of a peer was there before, or the event has stored it. -/
theorem sessionStore_of_step (h : n.step S e = some (n', acts))
    (hs : n'.manager.sessionStore.map peer = some (session, expiry)) :
    n.manager.sessionStore.map peer = some (session, expiry) ∨
      (Stores n e peer session ∧ expiry = n.clock + n.manager.sessionStore.ttl) := by
  generalize hm : n'.manager = m' at hs
  cases hm ▸ manages_of_step h with
  | insertSession hstores =>
    rcases TtlMap.insert_cases hs with ⟨rfl, rfl, rfl⟩ | ⟨-, hs⟩
    · exact .inr ⟨hstores, rfl⟩
    · exact .inl hs
  | clearSession => exact .inl (TtlMap.map_of_map_remove n.clock hs).2
  | clearSessionStore => cases hs
  | _ => exact .inl hs

/-- A session that is retained was retained before, or the event has displaced it. -/
theorem expiredSessionCache_of_step (h : n.step S e = some (n', acts))
    (hs : n'.manager.expiredSessionCache.Holds peer session expiry) :
    n.manager.expiredSessionCache.Holds peer session expiry ∨
      (Displaces n e peer session ∧
        expiry = n.clock + n.manager.expiredSessionCache.valueTtl) := by
  generalize hm : n'.manager = m' at hs
  cases hm ▸ manages_of_step h with
  | insertSession hstores =>
    rcases SessionManager.holds_insertSession hs with hs | ⟨rfl, hold, rfl⟩
    · exact .inl hs
    · exact .inr ⟨.inr ⟨⟨_, hstores⟩, hold⟩, rfl⟩
  | clearSession =>
    rcases SessionManager.holds_clearSession hs with hs | ⟨rfl, hold, rfl⟩
    · exact .inl hs
    · exact .inr ⟨.inl ⟨rfl, hold⟩, rfl⟩
  | getRecent => exact .inl (ScopedExpiryMap.holds_get hs)
  | _ => exact .inl hs

/-- A builder was there before, or a request was sent with it. -/
theorem sessionBuildStore_of_step (h : n.step S e = some (n', acts))
    (hb : n'.manager.sessionBuildStore.map peer = some (builder, expiry)) :
    n.manager.sessionBuildStore.map peer = some (builder, expiry) ∨
      ∃ signer request, .sentRequest peer signer builder request ∈ acts := by
  generalize hm : n'.manager = m' at hb
  cases hm ▸ manages_of_step h with
  | build hsent =>
    rcases TtlMap.insert_cases hb with ⟨rfl, rfl, rfl⟩ | ⟨-, hb⟩
    · exact .inr ⟨_, _, hsent⟩
    · exact .inl hb
  | removeBuilder => exact .inl (TtlMap.map_of_map_remove n.clock hb).2
  | clearBuildStore => cases hb
  | _ => exact .inl hb

/-- When a request is sent, nothing else happens, and its builder is stored. -/
theorem sentRequest_of_step {signer request} (h : n.step S e = some (n', acts))
    (ha : .sentRequest peer signer builder request ∈ acts) :
    acts = [.sentRequest peer signer builder request] ∧
      n'.manager.sessionBuildStore =
        (n.manager.sessionBuildStore.insert n.clock peer builder).1 := by
  obtain ⟨i, seed, keys, contact, attempt, lookedUp, rfl, htask⟩ : ∃ i seed keys contact attempt
      lookedUp, e = .resume i seed keys ∧
        n.tasks[i]? = some (.build peer contact attempt lookedUp) := by
    cases did_of_step h ha with
    | sentRequest htask => exact ⟨_, _, _, _, _, _, rfl, htask⟩
  obtain ⟨waiting, o, ho, rfl, hmanager, -⟩ := outcome_of_step h
  obtain ⟨task, htask', -, hrun⟩ := run_of_outcome ho
  obtain rfl := Option.mem_unique htask htask'
  obtain ⟨⟩ := hrun
  rw [hmanager]
  rw [SessionManager.build] at ha ⊢
  split at ha
  · cases ha
  · split at ha
    · cases ha
    · split at ha
      · cases ha
      · obtain ⟨⟩ := List.mem_singleton.mp ha
        exact ⟨rfl, rfl⟩

theorem map_of_displaces (h : Displaces n e peer session) :
    ∃ t, n.manager.sessionStore.map peer = some (session, t) := by
  rcases h with ⟨-, h⟩ | ⟨-, h⟩
  · exact TtlMap.map_of_remove h
  · obtain ⟨t, ht, -⟩ := TtlMap.get_eq_some.mp h
    exact ⟨t, ht⟩

theorem ttl_of_step (h : n.step S e = some (n', acts)) :
    n'.manager.sessionStore.ttl = n.manager.sessionStore.ttl ∧
      n'.manager.expiredSessionCache.valueTtl = n.manager.expiredSessionCache.valueTtl := by
  generalize hm : n'.manager = m'
  cases hm ▸ manages_of_step h with
  | insertSession | clearSession => exact ⟨rfl, SessionManager.valueTtl_retain⟩
  | getRecent => exact ⟨rfl, ScopedExpiryMap.valueTtl_get⟩
  | _ =>
    exact ⟨rfl, rfl⟩

/-- A request that arrives is remembered, and so is what the brain says about its sender. -/
theorem acts_of_request {request}
    (h : n.step S (.request peer request keys seed) = some (n', acts)) :
    .receivedRequest peer request ∈ acts ∧ .brainReturned request.sender keys ∈ acts := by
  obtain ⟨waiting, o, ho, rfl, -⟩ := outcome_of_step h
  obtain ⟨⟩ := ho
  rw [SessionManager.handleSessionEstablishmentRequest]
  split <;> simp [SessionManager.continueWith]

theorem acts_of_response {response}
    (h : n.step S (.response peer (.ok response)) = some (n', acts)) :
    .receivedResponse peer response ∈ acts := by
  obtain ⟨waiting, o, ho, rfl, -⟩ := outcome_of_step h
  obtain ⟨⟩ := ho
  exact List.mem_singleton_self _

theorem run_of_resume {task} (h : n.step S (.resume i seed keys) = some (n', acts))
    (htask : n.tasks[i]? = some task) :
    ∃ o, task.run S n.manager n.clock n.nextChannel seed keys = some o ∧ acts = o.acts := by
  obtain ⟨waiting, o, ho, rfl, -⟩ := outcome_of_step h
  obtain ⟨task, htask', -, hrun⟩ := run_of_outcome ho
  obtain rfl := Option.mem_unique htask htask'
  exact ⟨o, hrun, rfl⟩

/-- What the brain says about the sender of a response is remembered. -/
theorem acts_of_finish {response} (h : n.step S (.resume i seed keys) = some (n', acts))
    (htask : n.tasks[i]? = some (.finish peer builder response)) :
    .brainReturned response.sender keys ∈ acts := by
  obtain ⟨o, hrun, rfl⟩ := run_of_resume h htask
  obtain ⟨⟩ := hrun
  exact List.mem_singleton_self _

theorem acts_of_lookUp {contact} {attempt : ℕ}
    (h : n.step S (.resume i seed keys) = some (n', acts))
    (htask : n.tasks[i]? = some (.lookUp peer contact attempt)) :
    .lookedUp peer n.clock ((n.manager.sessionStore.map peer).map Prod.fst)
      (n.manager.getEstablishedSession n.clock peer true) ∈ acts := by
  obtain ⟨o, hrun, rfl⟩ := run_of_resume h htask
  obtain ⟨⟩ := hrun
  exact List.mem_singleton_self _

/-! ### Sessions -/

/-- A node has a session: it is stored or retained, or a handler has it. -/
def Has (n : Node z) (session : Session) : Prop :=
  (∃ peer t, n.manager.sessionStore.map peer = some (session, t)) ∨
  (∃ peer t, n.manager.expiredSessionCache.Holds peer session t) ∨
  ∃ task ∈ n.tasks, task.session = some session

/-- An event creates a session. -/
inductive Creates (S : Suite z) (n : Node z) : Event z → Session → Prop
  | responder {peer request keys seed session message} :
      request.toSessionAndResponse S n.clock seed (keys.map fun k => (request.sender, k)) =
        .ok (session, message) → Creates S n (.request peer request keys seed) session
  | initiator {i seed keys peer builder response session} :
      n.tasks[i]? = some (.finish peer builder response) →
      (builder.toSession S n.clock response keys).1 = .ok session →
      Creates S n (.resume i seed keys) session

theorem has_of_mem (ht : task ∈ n.tasks) (hs : task.session = some session) :
    n.Has session := .inr (.inr ⟨task, ht, hs⟩)

/-- The session of a task that was begun is not new, or was created just now. -/
theorem has_of_begun (h : Begun S n e task) (hs : task.session = some session) :
    n.Has session ∨ Creates S n e session := by
  cases h with
  | found htask hfound =>
    obtain ⟨⟩ := hs
    obtain ⟨⟨t, ht⟩, -⟩ := SessionManager.map_of_getEstablishedSession hfound
    exact .inl (.inl ⟨_, t, ht⟩)
  | joined hfinish _ hsession | awaited hfinish _ hsession =>
    obtain ⟨⟩ := hs
    exact .inr (.initiator hfinish (InitiatorSessionCreation.toSession_fst_of_snd hsession))
  | sign hsession =>
    obtain ⟨⟩ := hs
    exact .inr (.responder hsession)
  | answer hsign =>
    obtain ⟨⟩ := hs
    exact .inl (has_of_mem (List.mem_of_getElem? hsign) rfl)
  | store hfinish hsession =>
    obtain ⟨⟩ := hs
    exact .inr (.initiator hfinish hsession)
  | respond hdecrypt =>
    obtain ⟨⟩ := hs
    exact .inl (has_of_mem (List.mem_of_getElem? hdecrypt) rfl)
  | receive hrecent =>
    obtain ⟨⟩ := hs
    obtain ⟨t, ht | ht, -⟩ :=
      SessionManager.mem_getRecentReceiveSessions (List.mem_of_getElem? hrecent)
    · exact .inl (.inl ⟨_, t, ht⟩)
    · exact .inl (.inr (.inl ⟨_, t, ht⟩))
  | _ => cases hs

/-- **Where a session comes from**: the node had it before, or the event has created it. -/
theorem has_of_step (h : n.step S e = some (n', acts)) (hs : n'.Has session) :
    n.Has session ∨ Creates S n e session := by
  rcases hs with ⟨peer, t, hs⟩ | ⟨peer, t, hs⟩ | ⟨task, htask, hs⟩
  · rcases sessionStore_of_step h hs with hs | ⟨⟨i, seed, keys, rfl, htask⟩, -⟩
    · exact .inl (.inl ⟨peer, t, hs⟩)
    · rcases htask with ⟨request, signer, response, htask⟩ | ⟨builder, htask⟩ <;>
        exact .inl (has_of_mem (List.mem_of_getElem? htask) rfl)
  · rcases expiredSessionCache_of_step h hs with hs | ⟨hdisplaces, -⟩
    · exact .inl (.inr (.inl ⟨peer, t, hs⟩))
    · exact .inl (.inl ⟨peer, map_of_displaces hdisplaces⟩)
  · rcases begun_of_step h htask with htask | hbegun
    · exact .inl (has_of_mem htask hs)
    · exact has_of_begun hbegun hs

end Node

/-! ### Histories -/

/-- A node, and what it has done. -/
structure World (z : Sizes) where
  node : Node z
  acts : List (Act z)

namespace World

/-- A node that has just been started. -/
def new (removesStale : Bool) (now : ℕ) (contactId : ContactId) (keys : ContactKeys) : World z :=
  ⟨.new removesStale now contactId keys, []⟩

/-- One event. -/
def step (S : Suite z) (w : World z) (e : Event z) : Option (World z) :=
  (w.node.step S e).map fun r => ⟨r.1, w.acts ++ r.2⟩

theorem step_eq_some {S} {w w' : World z} {e} (h : w.step S e = some w') :
    ∃ acts, w.node.step S e = some (w'.node, acts) ∧ w'.acts = w.acts ++ acts := by
  obtain ⟨⟨node, acts⟩, hstep, rfl⟩ := Option.map_eq_some_iff.mp h
  exact ⟨acts, hstep, rfl⟩

theorem not_has_new {removesStale : Bool} {now : ℕ} {contactId keys session} :
    ¬ (new removesStale now contactId keys : World z).node.Has session := by
  rintro (⟨peer, t, h⟩ | ⟨peer, t, h⟩ | ⟨task, h, -⟩)
  · cases h
  · exact ScopedExpiryMap.not_holds_new h
  · cases h

end World

end Fyles.Handshake
