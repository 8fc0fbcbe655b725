import Fyles.Internal.Run
import Fyles.SessionManager

/-!
# Whose session it is

A session can carry a contact, and what a peer may do depends on it. Both ends of a handshake
authenticate the other one only if the brain knows the keys of the contact that it claims to be, and
make a session without a contact otherwise. So a session may come to carry a contact on four paths
through two handlers, and it reaches its users through the store, through the cache of replaced
sessions and through the channel of those who wait for it.

## Main results

* `Attributed.step` — no event attributes a session to a contact without them
* `contacts_authenticated` — so none ever does
-/

namespace Fyles.Handshake

variable {z : Sizes} {S : Suite z}

/-- **How a session came to carry a contact.** A message was received that names the contact as its
sender, the brain has returned keys for this contact, both signatures of the payload verify under
these keys, and this message and these keys are what the session was made of. -/
inductive Authenticated (S : Suite z) (acts : List (Act z)) (session : Session)
    (contactId : ContactId) : Prop
  | responder {peer request keys now seed message}
      (received : .receivedRequest peer request ∈ acts) (sender : request.sender = contactId)
      (returned : .brainReturned contactId (some keys) ∈ acts)
      (dilithium : S.verifyDetachedSignature request.dilithiumSignature request.message.getVec
        keys.dilithium = true)
      (ed25519 : S.verifyStrict keys.ed25519 request.message.getVec request.ed25519Signature = true)
      (created : request.toSessionAndResponse S now seed (some (contactId, keys)) =
        .ok (session, message))
  | initiator {peer : PeerId} {response : KeyExchangeResponse z} {keys : ContactPublicKeys}
      {now : ℕ} {builder : InitiatorSessionCreation}
      (received : .receivedResponse peer response ∈ acts) (sender : response.sender = contactId)
      (returned : .brainReturned contactId (some keys) ∈ acts)
      (dilithium : S.verifyDetachedSignature response.dilithiumSignature response.message.getVec
        keys.dilithium = true)
      (ed25519 : S.verifyStrict keys.ed25519 response.message.getVec response.ed25519Signature =
        true)
      (created : (builder.toSession S now response (some keys)).1 = .ok session)

theorem Authenticated.mono {acts acts' session contactId}
    (h : Authenticated S acts session contactId) (hsub : acts ⊆ acts') :
    Authenticated S acts' session contactId := by
  cases h with
  | responder received sender returned dilithium ed25519 created =>
    exact .responder (hsub received) sender (hsub returned) dilithium ed25519 created
  | initiator received sender returned dilithium ed25519 created =>
    exact .initiator (hsub received) sender (hsub returned) dilithium ed25519 created

/-- **The invariant.** -/
structure Attributed (S : Suite z) (w : World z) : Prop where
  /-- Sessions carry contacts that were authenticated. -/
  sessions : ∀ session, w.node.Has session → ∀ contactId,
    session.getContactId = some contactId → Authenticated S w.acts session contactId
  /-- A response that waits for the answer of the brain was received. -/
  finishing : ∀ peer builder response, .finish peer builder response ∈ w.node.tasks →
    .receivedResponse peer response ∈ w.acts

namespace Attributed

theorem new (removesStale : Bool) (now : ℕ) (contactId : ContactId) (keys : ContactKeys) :
    Attributed S (.new removesStale now contactId keys) where
  sessions _ h := absurd h World.not_has_new
  finishing _ _ _ h := by cases h

variable {w w' : World z} {e : Event z}

/-- A session that is created carries a contact only if it was authenticated. -/
theorem created {acts n' session contactId} (h : Attributed S w)
    (hstep : w.node.step S e = some (n', acts)) (hcreates : Node.Creates S w.node e session)
    (hid : session.getContactId = some contactId) :
    Authenticated S (w.acts ++ acts) session contactId := by
  cases hcreates with
  | @responder peer request keys seed _ message hcreated =>
    obtain ⟨hreceived, hreturned⟩ := Node.acts_of_request hstep
    obtain ⟨hverified, secrets, -, rfl⟩ := AuthWireRequest.toSessionAndResponse_ok hcreated
    have hcontact := (AuthWireRequest.getContactId_authentication request _).symm.trans hid
    cases keys with
    | none => cases hcontact
    | some keys =>
      obtain ⟨⟩ := hcontact
      obtain ⟨hdilithium, hed25519⟩ := Suite.verifySignatures_ok.mp hverified
      exact .responder (List.mem_append_right _ hreceived) rfl (List.mem_append_right _ hreturned)
        hdilithium hed25519 hcreated
  | @initiator i seed keys peer builder response _ htask hcreated =>
    have hreceived := h.finishing peer builder response (List.mem_of_getElem? htask)
    have hreturned := Node.acts_of_finish hstep htask
    obtain ⟨hverified, secrets, -, rfl⟩ := InitiatorSessionCreation.toSession_ok hcreated
    have hcontact := (KeyExchangeResponse.getContactId_authentication response _).symm.trans hid
    cases keys with
    | none => cases hcontact
    | some keys =>
      obtain ⟨⟩ := hcontact
      obtain ⟨hdilithium, hed25519⟩ := Suite.verifySignatures_ok.mp (hverified keys rfl)
      exact .initiator (List.mem_append_left _ hreceived) rfl (List.mem_append_right _ hreturned)
        hdilithium hed25519 hcreated

/-- **One step.** A session that is not created in this step was authenticated before. -/
theorem step (h : Attributed S w) (hstep : w.step S e = some w') : Attributed S w' := by
  obtain ⟨acts, hnode, hacts⟩ := World.step_eq_some hstep
  constructor
  · intro session hhas contactId hid
    rw [hacts]
    rcases Node.has_of_step hnode hhas with hhas | hcreates
    · exact (h.sessions session hhas contactId hid).mono (List.subset_append_left _ _)
    · exact h.created hnode hcreates hid
  · intro peer builder response htask
    rw [hacts]
    rcases Node.begun_of_step hnode htask with htask | hbegun
    · exact List.mem_append_left _ (h.finishing peer builder response htask)
    · cases hbegun with
      | finish => exact List.mem_append_right _ (Node.acts_of_response hnode)

end Attributed

/-- **Contact attribution.** Whatever a node is sent and whatever it does, every session that it has
and that carries a contact was made of a message that names the contact as its sender, and whose two
signatures verify over the payload that was received, under keys that the brain has returned for the
contact. -/
theorem contacts_authenticated {removesStale : Bool} {now : ℕ} {selfContactId : ContactId}
    {keys : ContactKeys} {es : List (Event z)} {w : World z}
    (hrun : Run (World.step S) (fun _ _ => True) (.new removesStale now selfContactId keys) es w)
    {session : Session} (hhas : w.node.Has session) {contactId : ContactId}
    (hid : session.getContactId = some contactId) : Authenticated S w.acts session contactId :=
  (hrun.invariant (I := Attributed S) (.new removesStale now selfContactId keys)
    fun h _ hstep => h.step hstep).sessions session hhas contactId hid

/-! ### A run -/

/-- Sample keys. -/
def sampleKeys (b : UInt8) : ContactKeys := ⟨⟨[b], [b]⟩, ⟨[b], [b]⟩⟩

/-- A request whose private keys are made of a seed. -/
def sampleRequest (contactId : ContactId) (b seed : UInt8) : AuthWireRequest .sample :=
  let message := ⟨⟨.replicate 32 seed, .replicate 1 seed⟩, true⟩
  ⟨contactId, message, b :: message.getVec, b :: message.getVec⟩

/-- A request is received, and its session is stored. -/
def requestStored : List (Event .sample) :=
  [.request ⟨"peer"⟩ (sampleRequest ⟨"alice"⟩ 1 3) (some (sampleKeys 1).publicKeys) [5],
    .resume 0 [6] none, .resume 0 [7] none]

theorem contacts_authenticated_request : ∃ w session,
    Run (World.step .sample) (fun _ _ => True) (.new false 0 ⟨"bob"⟩ (sampleKeys 2))
      requestStored w ∧
    w.node.Has session ∧ session.getContactId = some ⟨"alice"⟩ ∧
    Authenticated .sample w.acts session ⟨"alice"⟩ := by
  have hrun : Run (World.step .sample) (fun _ _ => True) (.new false 0 ⟨"bob"⟩ (sampleKeys 2))
      requestStored _ := Run.get_runFrom
  refine ⟨_, _, hrun, .inl ⟨⟨"peer"⟩, _, rfl⟩, rfl, ?_⟩
  exact contacts_authenticated hrun (.inl ⟨⟨"peer"⟩, _, rfl⟩) rfl

end Fyles.Handshake
