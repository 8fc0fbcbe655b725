import Fyles.ContactAttribution
import Fyles.Internal.Run
import Fyles.SessionManager

/-!
# Do both ends agree?

Any number of nodes, and a network that belongs to an attacker. The attacker can record, replay,
redirect and relay the messages of handshakes, and make up others: a message that arrives at a node
is any message, from any peer. What it cannot do is in `Ideal`.

A node that has authenticated the other end of a session would like to know that the other end has
answered the very request that it has sent, has derived the same secret, and has stored the session
for it (`Agreed`). The signatures do not tell. A signature of a response covers the response and
nothing else, so a response can be relayed through a peer of the attacker, replayed to another
request, or have been obtained with a request that carries the public keys of someone else. No
message names a peer.

If the network is one on which the messages of honest nodes are not diverted (`Undiverted`), then
both ends agree. A request that arrives as a message of an honest node was sent by it to the node
where it arrives. An answer arrives at an honest node only if it was made for this node, as a
message of the node that has made it, and before another request was sent there. The builder of the
last request is then the one that the answer finds.

## Idealisations

* Signatures cannot be forged: a response that verifies under the keys of an honest contact has a
  payload that these keys have signed, and that was sent.
* The brain is right about honest contacts.

## Main results

* `Agreeing.building` — the builder that is stored for a peer is that of the last request to it
* `Agreeing.step` — the invariant
* `agreed_of_undiverted` — both ends agree if no message is diverted
* `diverted_disagrees` — and the ways in which they do not
-/

namespace Fyles.Handshake

variable {z : Sizes}

/-! ### The network -/

/-- The nodes under their peer ids, and what they have done. -/
structure Network (z : Sizes) where
  nodes : PeerId → Node z
  acts : List (PeerId × Act z)

namespace Network

/-- All nodes have just been started. -/
def new (removesStale : Bool) (identity : PeerId → ContactId × ContactKeys) : Network z :=
  ⟨fun peer => .new removesStale 0 (identity peer).1 (identity peer).2, []⟩

/-- Something happens to a node. -/
def step (S : Suite z) (net : Network z) (e : PeerId × Event z) : Option (Network z) :=
  ((net.nodes e.1).step S e.2).map fun r =>
    ⟨Function.update net.nodes e.1 r.1, net.acts ++ r.2.map fun act => (e.1, act)⟩

theorem step_eq_some {S} {net net' : Network z} {x e} (h : net.step S (x, e) = some net') :
    ∃ n' acts, (net.nodes x).step S e = some (n', acts) ∧
      net'.nodes = Function.update net.nodes x n' ∧
      net'.acts = net.acts ++ acts.map fun act => (x, act) := by
  obtain ⟨⟨n', acts⟩, hstep, rfl⟩ := Option.map_eq_some_iff.mp h
  exact ⟨n', acts, hstep, rfl, rfl⟩

end Network

/-! ### The attacker -/

/-- The keys of an honest contact have signed a payload, which was sent. -/
def Act.Signs (keys : ContactPublicKeys) (bytes : Bytes) : Act z → Prop
  | .sentRequest _ signer _ request => signer = keys ∧ request.message.getVec = bytes
  | .answered _ _ signer response _ => signer = keys ∧ response.message.getVec = bytes
  | _ => False

instance (keys : ContactPublicKeys) (bytes : Bytes) (act : Act z) :
    Decidable (act.Signs keys bytes) := by
  rw [Act.Signs.eq_def]
  split <;> infer_instance

variable (S : Suite z)

/-- The signatures of a response verify. -/
def KeyExchangeResponse.Verifies (response : KeyExchangeResponse z)
    (keys : ContactPublicKeys) : Prop :=
  S.verifySignatures response.message.getVec response.dilithiumSignature
    response.ed25519Signature keys = .ok ()

instance (S : Suite z) (response : KeyExchangeResponse z) (keys : ContactPublicKeys) :
    Decidable (response.Verifies S keys) := inferInstanceAs (Decidable (_ = _))

variable (directory : ContactId → Option ContactPublicKeys)

/-- What holds when a handler takes its next step: the brain is right about honest contacts. -/
def IdealStep (maybeKeys : Option ContactPublicKeys) : Option (Task z) → Prop
  | some (.finish _ _ response) =>
    ∀ keys ∈ directory response.sender, maybeKeys = none ∨ maybeKeys = some keys
  | _ => True

instance (directory : ContactId → Option ContactPublicKeys) (maybeKeys : Option ContactPublicKeys)
    (task : Option (Task z)) : Decidable (IdealStep directory maybeKeys task) := by
  rw [IdealStep.eq_def]
  split <;> infer_instance

/-- **What no attacker can do.** The directory has the keys of the honest contacts. -/
def Ideal (net : Network z) : PeerId × Event z → Prop
  | (_, .response _ (.ok response)) =>
    ∀ keys ∈ directory response.sender, response.Verifies S keys →
      ∃ act ∈ net.acts, act.2.Signs keys response.message.getVec
  | (x, .resume i _ maybeKeys) => IdealStep directory maybeKeys (net.nodes x).tasks[i]?
  | _ => True

instance (S : Suite z) (directory : ContactId → Option ContactPublicKeys) (net : Network z) (e) :
    Decidable (Ideal S directory net e) := by
  rw [Ideal.eq_def]
  split <;> infer_instance

/-- A request that was sent to a peer, and its builder. -/
def Act.sentTo (peer : PeerId) : Act z → Option (InitiatorSessionCreation × AuthWireRequest z)
  | .sentRequest peer' _ builder request => if peer' = peer then some (builder, request) else none
  | _ => none

/-- The peer and the request that were answered with a payload. -/
def Act.answeredWith (message : KeyExchangeResponseMessage z) :
    Act z → Option (PeerId × AuthWireRequest z)
  | .answered peer request _ response _ =>
    if response.message = message then some (peer, request) else none
  | _ => none

/-- The requests that a node has sent to a peer. -/
def Network.sentTo (net : Network z) (x peer : PeerId) :
    List (InitiatorSessionCreation × AuthWireRequest z) :=
  net.acts.filterMap fun act => if act.1 = x then act.2.sentTo peer else none

variable (honest : PeerId → Bool) (net : Network z)

/-- **The messages of honest nodes are not diverted.** -/
def Undiverted : PeerId × Event z → Prop
  -- what comes from an honest node was sent by it, to this node
  | (y, .request peer request _ _) =>
    honest peer = true → ∃ sent ∈ net.sentTo peer y, sent.2 = request
  -- an answer comes from where it was made to where it belongs, before another request is sent
  | (x, .response peer (.ok response)) => honest x = true →
    ∀ act ∈ net.acts, ∀ answer ∈ act.2.answeredWith response.message,
      act.1 = peer ∧ answer.1 = x ∧ ∀ sent ∈ net.sentTo x peer, sent.2 = answer.2 →
        ∀ last ∈ (net.sentTo x peer).getLast?, last.2 = answer.2
  | _ => True

instance (honest : PeerId → Bool) (net : Network z) (e) :
    Decidable (Undiverted honest net e) := by
  rw [Undiverted.eq_def]
  split <;> infer_instance

/-! ### Agreement -/

/-- **Both ends agree** about a session that a node has stored for a peer: the node has sent a
request to this peer, a node that has signed with the keys of the contact has answered this very
request, the secret of the session that it has stored is the same, and it has stored it for the peer
id of the first node. -/
def Agreed (x peer : PeerId) (builder : InitiatorSessionCreation)
    (keys : ContactPublicKeys) (session : Session) : Prop :=
  ∃ signer request, (x, .sentRequest peer signer builder request) ∈ net.acts ∧
    ∃ y response session', (y, .answered x request keys response session') ∈ net.acts ∧
      session'.secret = session.secret

/-- The response that a handler has in its hands answers the request of its builder. -/
def Matched (x peer : PeerId) (builder : InitiatorSessionCreation)
    (keys : ContactPublicKeys) (message : KeyExchangeResponseMessage z) : Prop :=
  ∃ signer request, (x, .sentRequest peer signer builder request) ∈ net.acts ∧
    ∃ y response session, (y, .answered x request keys response session) ∈ net.acts ∧
      response.message = message

/-- A node has received a request, and has made a response and a session of it. -/
def Responded (y peer : PeerId) (request : AuthWireRequest z)
    (message : KeyExchangeResponseMessage z) (session : Session) : Prop :=
  (y, .receivedRequest peer request) ∈ net.acts ∧
  ∃ seed secrets,
    request.message.sessionInitiatorPublicKeys.toSharedSecretsAndResponse S seed =
      some (secrets, message) ∧ session.secret = secrets.bytes

section Mono

variable {S : Suite z} {net net' : Network z} (hsub : net.acts ⊆ net'.acts) {x y peer : PeerId}
  {builder : InitiatorSessionCreation} {keys : ContactPublicKeys} {session : Session}
  {message : KeyExchangeResponseMessage z} {request : AuthWireRequest z}

include hsub

theorem Agreed.mono (h : Agreed net x peer builder keys session) :
    Agreed net' x peer builder keys session := by
  obtain ⟨signer, request, hsent, y, response, session', hanswered, hsecret⟩ := h
  exact ⟨signer, request, hsub hsent, y, response, session', hsub hanswered, hsecret⟩

theorem Matched.mono (h : Matched net x peer builder keys message) :
    Matched net' x peer builder keys message := by
  obtain ⟨signer, request, hsent, y, response, session, hanswered, hmessage⟩ := h
  exact ⟨signer, request, hsub hsent, y, response, session, hsub hanswered, hmessage⟩

theorem Responded.mono (h : Responded S net y peer request message session) :
    Responded S net' y peer request message session :=
  ⟨hsub h.1, h.2⟩

end Mono

/-! ### The invariant -/

/-- **The invariant.** Whatever waits in a node is what its acts say, and agrees with the other end
once it matters. -/
structure Agreeing (S : Suite z) (directory : ContactId → Option ContactPublicKeys)
    (honest : PeerId → Bool) (net : Network z) : Prop where
  /-- A request is sent with the private keys of its builder. -/
  sent : ∀ x peer signer builder request,
    (x, .sentRequest peer signer builder request) ∈ net.acts →
    ∃ seed secrets, SessionInitiatorSecrets.new S seed = some secrets ∧
      builder.initiatorSecrets = secrets.privateKeys ∧
      request.message.sessionInitiatorPublicKeys = secrets.publicKeys
  /-- A request that was received from an honest node was sent by it. -/
  received : ∀ y peer request, (y, .receivedRequest peer request) ∈ net.acts →
    honest peer = true → ∃ sent ∈ net.sentTo peer y, sent.2 = request
  /-- A builder that waits for a response is that of the last request. -/
  building : ∀ x peer builder t,
    (net.nodes x).manager.sessionBuildStore.map peer = some (builder, t) →
    ∃ request, (net.sentTo x peer).getLast? = some (builder, request)
  /-- What waits to be signed is a response to a request. -/
  signing : ∀ y peer request session message contactId isAuthenticated,
    .sign peer request session message contactId isAuthenticated ∈ (net.nodes y).tasks →
    Responded S net y peer request message session
  /-- So is what waits to be sent. -/
  answering : ∀ y peer request signer response session,
    .answer peer request signer response session ∈ (net.nodes y).tasks →
    Responded S net y peer request response.message session
  /-- So is what was sent. -/
  answered : ∀ y peer request signer response session,
    (y, .answered peer request signer response session) ∈ net.acts →
    Responded S net y peer request response.message session
  /-- A response that verifies has found the builder of its request. -/
  finishing : ∀ x peer builder response, honest x = true →
    .finish peer builder response ∈ (net.nodes x).tasks →
    ∀ keys ∈ directory response.sender, response.Verifies S keys →
      Matched net x peer builder keys response.message
  /-- Both ends agree about a session that is about to be stored. -/
  storing : ∀ x peer builder session, honest x = true →
    .store peer builder session ∈ (net.nodes x).tasks →
    ∀ contactId, session.getContactId = some contactId → ∀ keys ∈ directory contactId,
      Agreed net x peer builder keys session
  /-- Both ends agree about a session that was stored. -/
  stored : ∀ x peer builder session, honest x = true →
    (x, .stored peer builder session) ∈ net.acts →
    ∀ contactId, session.getContactId = some contactId → ∀ keys ∈ directory contactId,
      Agreed net x peer builder keys session

theorem Act.exists_sentRequest {peer : PeerId} {act : Act z} {sent}
    (h : act.sentTo peer = some sent) :
    ∃ signer, act = .sentRequest peer signer sent.1 sent.2 := by
  cases act with
  | sentRequest peer' signer builder request =>
    obtain ⟨rfl, heq⟩ := Option.ite_none_right_eq_some.mp h
    obtain ⟨⟩ := heq
    exact ⟨signer, rfl⟩
  | _ => cases h

namespace Network

variable {net net' : Network z} {x y peer : PeerId} {acts : List (Act z)}

theorem mem_sentTo {builder request} (h : (builder, request) ∈ net.sentTo x peer) :
    ∃ signer, (x, .sentRequest peer signer builder request) ∈ net.acts := by
  obtain ⟨⟨x', act⟩, hact, hsent⟩ := List.mem_filterMap.mp h
  obtain ⟨hx, hsent⟩ := Option.ite_none_right_eq_some.mp hsent
  obtain ⟨signer, rfl⟩ := Act.exists_sentRequest hsent
  exact ⟨signer, hx ▸ hact⟩

theorem sentTo_of_acts (h : net'.acts = net.acts ++ acts.map fun act => (x, act)) :
    net'.sentTo y peer =
      net.sentTo y peer ++ if x = y then acts.filterMap (Act.sentTo peer) else [] := by
  rw [sentTo, h, List.filterMap_append, List.filterMap_map]
  split <;> next hx => simp [sentTo, hx]

end Network

namespace Agreeing

variable {S : Suite z} {directory : ContactId → Option ContactPublicKeys} {honest : PeerId → Bool}
  {net net' : Network z}

theorem new (removesStale : Bool) (identity : PeerId → ContactId × ContactKeys) :
    Agreeing S directory honest (.new removesStale identity) where
  sent _ _ _ _ _ h := by cases h
  received _ _ _ h := by cases h
  building _ _ _ _ h := by cases h
  signing _ _ _ _ _ _ _ h := by cases h
  answering _ _ _ _ _ _ h := by cases h
  answered _ _ _ _ _ _ h := by cases h
  finishing _ _ _ _ _ h := by cases h
  storing _ _ _ _ _ h := by cases h
  stored _ _ _ _ _ h := by cases h

variable {response : KeyExchangeResponse z}

/-- A response that arrives and verifies was answered by the holder of the keys, to the request of
the builder that it finds. -/
theorem matched (h : Agreeing S directory honest net) (hS : S.Lawful) {x peer builder keys}
    (hx : honest x = true) (hideal : Ideal S directory net (x, .response peer (.ok response)))
    (hundiverted : Undiverted honest net (x, .response peer (.ok response)))
    (hbuilder : ((net.nodes x).manager.sessionBuildStore.remove (net.nodes x).clock peer).2 =
      some builder) (hkeys : keys ∈ directory response.sender)
    (hverifies : response.Verifies S keys) : Matched net x peer builder keys response.message := by
  obtain ⟨⟨y, act⟩, hact, hsigns⟩ := hideal keys hkeys hverifies
  cases act with
  | sentRequest peer' signer builder' request =>
    -- a signature of a request is none of a response
    exact absurd hsigns.2 (hS.getVec_ne_getVec _ _)
  | answered peer' request signer response' session =>
    obtain ⟨rfl, hbytes⟩ := hsigns
    have hmessage := KeyExchangeResponseMessage.getVec_injective hbytes
    obtain ⟨hy, hpeer, hlast⟩ := hundiverted hx _ hact (peer', request)
      (by simp [Act.answeredWith, hmessage])
    obtain rfl : peer = y := hy.symm
    obtain rfl : x = peer' := hpeer.symm
    -- the request that was answered was sent by this node, and is the last one
    obtain ⟨sent, hsent, hrequest⟩ :=
      h.received peer x request (h.answered _ _ _ _ _ _ hact).1 hx
    obtain ⟨t, ht⟩ := TtlMap.map_of_remove hbuilder
    obtain ⟨request', hbuilding⟩ := h.building x peer builder t ht
    obtain rfl : request' = request := hlast sent hsent hrequest _ hbuilding
    obtain ⟨signer', hsent'⟩ := Network.mem_sentTo (List.mem_of_getLast? hbuilding)
    exact ⟨signer', request', hsent', peer, response', session, hact, hmessage⟩
  | _ => cases hsigns

/-- A session that is made of such a response has the secret of the other end. -/
theorem agreed (h : Agreeing S directory honest net) (hS : S.Lawful) {x peer} {now : ℕ}
    {builder maybeKeys session keys} (hmatched : Matched net x peer builder keys response.message)
    (hsession : (builder.toSession S now response maybeKeys).1 = .ok session) :
    Agreed net x peer builder keys session := by
  obtain ⟨signer, request, hsent, y, response', session', hanswered, hmessage⟩ := hmatched
  refine ⟨signer, request, hsent, y, response', session', hanswered, ?_⟩
  obtain ⟨seed, secrets, hnew, hprivate, hpublic⟩ := h.sent _ _ _ _ _ hsent
  obtain ⟨-, seed', shared, hresponse, hsecret⟩ := h.answered _ _ _ _ _ _ hanswered
  obtain ⟨-, shared', hshared, rfl⟩ := InitiatorSessionCreation.toSession_ok hsession
  rw [hmessage, hpublic] at hresponse
  rw [hprivate] at hshared
  obtain rfl := hS.secrets_eq hnew hresponse hshared
  exact hsecret

/-- A session carries the sender of its response, and only if the response was verified. -/
theorem contact_of_toSession {now : ℕ} {builder : InitiatorSessionCreation}
    {maybeKeys session contactId}
    (hsession : (builder.toSession S now response maybeKeys).1 = .ok session)
    (hid : session.getContactId = some contactId) :
    response.sender = contactId ∧ ∃ keys, maybeKeys = some keys ∧ response.Verifies S keys := by
  obtain ⟨hverified, shared, -, rfl⟩ := InitiatorSessionCreation.toSession_ok hsession
  have hcontact := (KeyExchangeResponse.getContactId_authentication response _).symm.trans hid
  cases maybeKeys with
  | none => cases hcontact
  | some keys => exact ⟨Option.some.inj hcontact, keys, rfl, hverified keys rfl⟩

/-- The builder that is stored for a peer is that of the last request, also after a step. -/
theorem building_step (h : Agreeing S directory honest net) {x : PeerId} {e : Event z} {n' acts}
    (hnode : (net.nodes x).step S e = some (n', acts))
    (hnodes : net'.nodes = Function.update net.nodes x n')
    (hacts : net'.acts = net.acts ++ acts.map fun act => (x, act)) (y peer : PeerId)
    (builder : InitiatorSessionCreation) (t : ℕ)
    (hb : (net'.nodes y).manager.sessionBuildStore.map peer = some (builder, t)) :
    ∃ request, (net'.sentTo y peer).getLast? = some (builder, request) := by
  rw [Network.sentTo_of_acts hacts]
  rw [hnodes] at hb
  by_cases hy : y = x
  · subst hy
    rw [Function.update_self] at hb
    rw [if_pos rfl]
    by_cases hnone : acts.filterMap (Act.sentTo peer) = []
    · rw [hnone, List.append_nil]
      rcases Node.sessionBuildStore_of_step hnode hb with hb | ⟨signer, request, hsent⟩
      · exact h.building y peer builder t hb
      · refine absurd (List.mem_filterMap.mpr ⟨_, hsent, ?_⟩ : (builder, request) ∈ _)
          (hnone ▸ List.not_mem_nil)
        exact if_pos rfl
    · -- a request was sent to this peer, and its builder is there now
      obtain ⟨sent, hsent⟩ := List.exists_mem_of_ne_nil _ hnone
      obtain ⟨act, hact, hsent⟩ := List.mem_filterMap.mp hsent
      obtain ⟨signer, rfl⟩ := Act.exists_sentRequest hsent
      obtain ⟨rfl, hstore⟩ := Node.sentRequest_of_step hnode hact
      rw [hstore] at hb
      rcases TtlMap.insert_cases hb with ⟨-, rfl, -⟩ | ⟨hne, -⟩
      · exact ⟨sent.2, by simp [Act.sentTo]⟩
      · exact absurd rfl hne
  · rw [Function.update_of_ne hy] at hb
    rw [if_neg (Ne.symm hy), List.append_nil]
    exact h.building y peer builder t hb

/-- **One step.** -/
theorem step (h : Agreeing S directory honest net) (hS : S.Lawful) {x : PeerId} {e : Event z}
    (hideal : Ideal S directory net (x, e)) (hundiverted : Undiverted honest net (x, e))
    (hstep : net.step S (x, e) = some net') : Agreeing S directory honest net' := by
  obtain ⟨n', acts, hnode, hnodes, hacts⟩ := Network.step_eq_some hstep
  have hsub : net.acts ⊆ net'.acts := by
    rw [hacts]
    exact List.subset_append_left _ _
  -- an act is an old one, or one of the node that has taken the step
  have hact : ∀ {y act}, (y, act) ∈ net'.acts →
      (y, act) ∈ net.acts ∨ (y = x ∧ Did S (net.nodes x) e act) := by
    intro y act hmem
    rw [hacts] at hmem
    rcases List.mem_append.mp hmem with hmem | hmem
    · exact .inl hmem
    · obtain ⟨act', hact', heq⟩ := List.mem_map.mp hmem
      obtain ⟨rfl, rfl⟩ := Prod.mk.inj heq
      exact .inr ⟨rfl, Node.did_of_step hnode hact'⟩
  -- and so is a task
  have htask : ∀ {y task}, task ∈ (net'.nodes y).tasks →
      task ∈ (net.nodes y).tasks ∨ (y = x ∧ Begun S (net.nodes x) e task) := by
    intro y task hmem
    rw [hnodes] at hmem
    by_cases hy : y = x
    · subst hy
      rw [Function.update_self] at hmem
      exact (Node.begun_of_step hnode hmem).imp id fun hbegun => ⟨rfl, hbegun⟩
    · rw [Function.update_of_ne hy] at hmem
      exact .inl hmem
  refine ⟨fun y peer signer builder request hmem => ?_, fun y peer request hmem hpeer => ?_,
    h.building_step hnode hnodes hacts,
    fun y peer request session message contactId isAuthenticated hmem => ?_,
    fun y peer request signer response session hmem => ?_,
    fun y peer request signer response session hmem => ?_,
    fun y peer builder response hy hmem => ?_, fun y peer builder session hy hmem => ?_,
    fun y peer builder session hy hmem => ?_⟩
  · rcases hact hmem with hmem | ⟨rfl, hdid⟩
    · exact h.sent _ _ _ _ _ hmem
    · cases hdid with
      | sentRequest _ hnew hsign =>
        obtain ⟨signatures, -, rfl⟩ := Option.map_eq_some_iff.mp hsign
        exact ⟨_, _, hnew, rfl, rfl⟩
  · have hsent : ∃ sent ∈ net.sentTo peer y, sent.2 = request := by
      rcases hact hmem with hmem | ⟨rfl, hdid⟩
      · exact h.received y peer request hmem hpeer
      · cases hdid with
        | receivedRequest => exact hundiverted hpeer
    obtain ⟨sent, hsent, rfl⟩ := hsent
    exact ⟨sent, by rw [Network.sentTo_of_acts hacts]; exact List.mem_append_left _ hsent, rfl⟩
  · rcases htask hmem with hmem | ⟨rfl, hbegun⟩
    · exact (h.signing _ _ _ _ _ _ _ hmem).mono hsub
    · cases hbegun with
      | sign hsession =>
        obtain ⟨-, secrets, hsecrets, rfl⟩ := AuthWireRequest.toSessionAndResponse_ok hsession
        refine ⟨?_, _, secrets, hsecrets, rfl⟩
        rw [hacts]
        exact List.mem_append_right _ (List.mem_map_of_mem (Node.acts_of_request hnode).1)
  · rcases htask hmem with hmem | ⟨rfl, hbegun⟩
    · exact (h.answering _ _ _ _ _ _ hmem).mono hsub
    · cases hbegun with
      | answer hsign hsigned =>
        obtain ⟨signatures, -, rfl⟩ := Option.map_eq_some_iff.mp hsigned
        exact (h.signing _ _ _ _ _ _ _ (List.mem_of_getElem? hsign)).mono hsub
  · rcases hact hmem with hmem | ⟨rfl, hdid⟩
    · exact (h.answered _ _ _ _ _ _ hmem).mono hsub
    · cases hdid with
      | answered hanswer =>
        exact (h.answering _ _ _ _ _ _ (List.mem_of_getElem? hanswer)).mono hsub
  · intro keys hkeys hverifies
    rcases htask hmem with hmem | ⟨rfl, hbegun⟩
    · exact (h.finishing _ _ _ _ hy hmem keys hkeys hverifies).mono hsub
    · cases hbegun with
      | finish hbuilder =>
        exact (h.matched hS hy hideal hundiverted hbuilder hkeys hverifies).mono hsub
  · intro contactId hid keys hkeys
    rcases htask hmem with hmem | ⟨rfl, hbegun⟩
    · exact (h.storing _ _ _ _ hy hmem contactId hid keys hkeys).mono hsub
    · cases hbegun with
      | store hfinish hsession =>
        obtain ⟨rfl, keys', rfl, hverifies⟩ := contact_of_toSession hsession hid
        simp only [Ideal, hfinish, IdealStep] at hideal
        obtain rfl : keys = keys' := by simpa [eq_comm] using hideal keys hkeys
        have hmatched := h.finishing _ _ _ _ hy (List.mem_of_getElem? hfinish) keys hkeys hverifies
        exact (h.agreed hS hmatched hsession).mono hsub
  · intro contactId hid keys hkeys
    rcases hact hmem with hmem | ⟨rfl, hdid⟩
    · exact (h.stored _ _ _ _ hy hmem contactId hid keys hkeys).mono hsub
    · cases hdid with
      | stored hstore =>
        have htask := List.mem_of_getElem? hstore
        exact (h.storing _ _ _ _ hy htask contactId hid keys hkeys).mono hsub

end Agreeing

/-- **Authenticated agreement.** If no message is diverted, then both ends agree about every session
that an honest initiator has stored and that carries an honest contact. -/
theorem agreed_of_undiverted {S : Suite z} (hS : S.Lawful)
    {directory : ContactId → Option ContactPublicKeys} {honest : PeerId → Bool}
    {removesStale : Bool} {identity : PeerId → ContactId × ContactKeys}
    {es : List (PeerId × Event z)} {net : Network z}
    (hrun : Run (Network.step S) (fun net e => Ideal S directory net e ∧ Undiverted honest net e)
      (.new removesStale identity) es net)
    {x peer : PeerId} {builder : InitiatorSessionCreation} {session : Session}
    (hx : honest x = true) (hstored : (x, .stored peer builder session) ∈ net.acts)
    {contactId : ContactId} (hid : session.getContactId = some contactId) {keys : ContactPublicKeys}
    (hhonest : directory contactId = some keys) : Agreed net x peer builder keys session :=
  (hrun.invariant (I := Agreeing S directory honest) (.new removesStale identity)
    fun h hok hstep => h.step hS hok.1 hok.2 hstep).stored x peer builder session hx hstored
      contactId hid keys hhonest

/-! ### Runs -/

variable (peer : PeerId)

/-- Alice, Bob, and everybody else. -/
def sampleIdentity : ContactId × ContactKeys :=
  if peer = ⟨"a"⟩ then (⟨"alice"⟩, sampleKeys 1)
  else if peer = ⟨"b"⟩ then (⟨"bob"⟩, sampleKeys 2)
  else (⟨"mallory"⟩, sampleKeys 3)

/-- Alice and Bob are honest. -/
def sampleDirectory (contactId : ContactId) : Option ContactPublicKeys :=
  if contactId = ⟨"alice"⟩ then some (sampleKeys 1).publicKeys
  else if contactId = ⟨"bob"⟩ then some (sampleKeys 2).publicKeys
  else none

/-- So are their nodes. -/
def sampleHonest (peer : PeerId) : Bool := peer == ⟨"a"⟩ || peer == ⟨"b"⟩

/-- What Bob answers to a request that was made of the seed `3`. -/
def sampleResponse : KeyExchangeResponse .sample :=
  let message := ⟨.replicate 1 8, .replicate 32 5⟩
  ⟨⟨"bob"⟩, message, true, 2 :: message.getVec, 2 :: message.getVec⟩

/-- Alice begins to establish a session with a peer. -/
def sampleBegin (seed : UInt8) : List (PeerId × Event .sample) :=
  [(⟨"a"⟩, .send peer (some ⟨"bob"⟩)), (⟨"a"⟩, .resume 0 [] none), (⟨"a"⟩, .resume 0 [seed] none)]

/-- Bob answers a request. -/
def sampleAnswer (request : AuthWireRequest .sample)
    (maybeKeys : Option ContactPublicKeys) : List (PeerId × Event .sample) :=
  [(⟨"b"⟩, .request peer request maybeKeys [5]), (⟨"b"⟩, .resume 0 [] none),
    (⟨"b"⟩, .resume 0 [] none)]

/-- Alice stores the session of Bob's response. -/
def sampleFinish : List (PeerId × Event .sample) :=
  [(⟨"a"⟩, .response peer (.ok sampleResponse)),
    (⟨"a"⟩, .resume 1 [] (some (sampleKeys 2).publicKeys)), (⟨"a"⟩, .resume 1 [] none)]

/-- Alice and Bob establish a session. -/
def direct : List (PeerId × Event .sample) :=
  sampleBegin ⟨"b"⟩ 3 ++
  sampleAnswer ⟨"a"⟩ (sampleRequest ⟨"alice"⟩ 1 3) (some (sampleKeys 1).publicKeys) ++
  sampleFinish ⟨"b"⟩

/-- The builder of Alice's request. -/
def sampleBuilder (seed : UInt8) (channel : ℕ) : InitiatorSessionCreation :=
  ⟨⟨[seed], [seed]⟩, channel⟩

/-- A session that Alice has with Bob, as she thinks. -/
def sampleSession (kyber x25519 : UInt8) : Session :=
  Session.new .sample 0 (.weKnowEachOther ⟨"bob"⟩) ⟨.replicate 32 kyber, .replicate 32 x25519⟩ true

theorem agreed_of_undiverted_direct : ∃ net,
    Run (Network.step .sample)
      (fun net e => Ideal .sample sampleDirectory net e ∧ Undiverted sampleHonest net e)
      (.new false sampleIdentity) direct net ∧
    (⟨"a"⟩, .stored ⟨"b"⟩ (sampleBuilder 3 2) (sampleSession 5 15)) ∈ net.acts ∧
    Agreed net ⟨"a"⟩ ⟨"b"⟩ (sampleBuilder 3 2) (sampleKeys 2).publicKeys (sampleSession 5 15) := by
  refine Run.exists_and Run.get_runFrom fun hrun => ⟨by decide, ?_⟩
  exact agreed_of_undiverted Suite.sample_lawful hrun (by decide) (by decide) rfl rfl

/-- Mallory relays Alice's request to Bob, and Bob's response to Alice. -/
def relayed : List (PeerId × Event .sample) :=
  sampleBegin ⟨"m"⟩ 3 ++
  sampleAnswer ⟨"m"⟩ (sampleRequest ⟨"alice"⟩ 1 3) (some (sampleKeys 1).publicKeys) ++
  sampleFinish ⟨"m"⟩

/-- Mallory signs Alice's ephemeral keys, and Bob has a session with Mallory then. -/
def misbound : List (PeerId × Event .sample) :=
  sampleBegin ⟨"m"⟩ 3 ++
  sampleAnswer ⟨"m"⟩ (sampleRequest ⟨"mallory"⟩ 3 3) (some (sampleKeys 3).publicKeys) ++
  sampleFinish ⟨"m"⟩

/-- Mallory answers Alice's second request with Bob's response to the first one. -/
def replayed : List (PeerId × Event .sample) :=
  sampleBegin ⟨"m"⟩ 3 ++
  sampleAnswer ⟨"m"⟩ (sampleRequest ⟨"alice"⟩ 1 3) (some (sampleKeys 1).publicKeys) ++
  [(⟨"a"⟩, .failure ⟨"m"⟩)] ++ sampleBegin ⟨"m"⟩ 4 ++ sampleFinish ⟨"m"⟩

/-- The session of a request that was answered, and the peer that it was stored for. -/
def Act.answeredSession : Act z → Option (PeerId × Session)
  | .answered peer _ _ _ session => some (peer, session)
  | _ => none

theorem not_agreed {net : Network z} {x peer builder keys session}
    (h : ∀ act ∈ net.acts, ∀ answered ∈ act.2.answeredSession, answered.1 ≠ x) :
    ¬ Agreed net x peer builder keys session := by
  rintro ⟨signer, request, -, y, response, session', hanswered, -⟩
  exact h _ hanswered (x, session') rfl rfl

/-- **Diverted handshakes.** Alice has a session with Mallory's peer and takes it for one with Bob.
Bob has stored it for Mallory's peer; or he takes it for one with Mallory; or nobody has one with
this secret. -/
theorem diverted_disagrees :
    (∃ net, Run (Network.step .sample) (Ideal .sample sampleDirectory) (.new false sampleIdentity)
        relayed net ∧
      (⟨"a"⟩, .stored ⟨"m"⟩ (sampleBuilder 3 2) (sampleSession 5 15)) ∈ net.acts ∧
      ¬ Agreed net ⟨"a"⟩ ⟨"m"⟩ (sampleBuilder 3 2) (sampleKeys 2).publicKeys
        (sampleSession 5 15)) ∧
    (∃ net, Run (Network.step .sample) (Ideal .sample sampleDirectory) (.new false sampleIdentity)
        misbound net ∧
      (⟨"a"⟩, .stored ⟨"m"⟩ (sampleBuilder 3 2) (sampleSession 5 15)) ∈ net.acts ∧
      (∃ act ∈ net.acts, ∃ answered ∈ act.2.answeredSession,
        answered.2.secret = (sampleSession 5 15).secret ∧
        answered.2.getContactId = some ⟨"mallory"⟩) ∧
      ¬ Agreed net ⟨"a"⟩ ⟨"m"⟩ (sampleBuilder 3 2) (sampleKeys 2).publicKeys
        (sampleSession 5 15)) ∧
    ∃ net, Run (Network.step .sample) (Ideal .sample sampleDirectory) (.new false sampleIdentity)
        replayed net ∧
      (⟨"a"⟩, .stored ⟨"m"⟩ (sampleBuilder 4 6) (sampleSession 4 20)) ∈ net.acts ∧
      (∀ act ∈ net.acts, ∀ answered ∈ act.2.answeredSession,
        answered.2.secret ≠ (sampleSession 4 20).secret) ∧
      ¬ Agreed net ⟨"a"⟩ ⟨"m"⟩ (sampleBuilder 4 6) (sampleKeys 2).publicKeys
        (sampleSession 4 20) := by
  refine ⟨⟨_, Run.get_runFrom, by decide, not_agreed (by decide)⟩,
    ⟨_, Run.get_runFrom, by decide, by decide, not_agreed (by decide)⟩,
    ⟨_, Run.get_runFrom, by decide, by decide, not_agreed (by decide)⟩⟩

end Fyles.Handshake
