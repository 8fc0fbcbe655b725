import Fyles.DomainModels
import Fyles.SelfIdentity
import Fyles.SessionNonces
import Mathlib.Data.Vector.Basic

/-!
# The handshake

`p2p/src/crypto.rs`. The initiator sends two ephemeral public keys, one for a Diffie-Hellman
exchange and one for a key encapsulation, with a flag. The responder answers with an ephemeral
public key and a ciphertext. Either message carries the contact id of its sender and two signatures
of its payload. Who knows the public keys of the contact that the other end claims to be verifies
both signatures, and the session then carries that contact; who does not gets a session that carries
none.

## The primitives

Keys, signatures and ciphertexts are bytes, and the algorithms are the fields of a `Suite`. The
sizes of the arrays of the key encapsulation are parameters: they are constants of a crate. What the
random number generator yields in one handler is a seed. `Suite.Lawful` is what the two ends of a
session rely on.

## What is signed

A signature covers the payload of its own message and nothing else: not the sender's contact id, not
the peers, and in a response neither the request nor the flag `isAuthenticated`. The payloads of
requests and of responses have different lengths, so no signature of one is a signature of the other
(`getVec_ne_getVec`).

## Main results

* `AuthWireRequest.toSessionAndResponse_ok`, `InitiatorSessionCreation.toSession_ok` — how a session
  was made
* `AuthWireRequest.getContactId_authentication`, `KeyExchangeResponse.getContactId_authentication` —
  which contact a session carries
* `Suite.Lawful.secrets_eq` — both ends derive the same secrets
-/

namespace Fyles.Handshake

/-! ### Primitives -/

/-- A sequence of bytes. -/
abbrev Bytes := List UInt8

/-- The sizes of the arrays of the key encapsulation. -/
structure Sizes where
  kyberPublicKeyBytes : ℕ
  kyberCiphertextBytes : ℕ
  deriving DecidableEq, Repr

/-- An array of bytes. -/
abbrev Array (n : ℕ) := List.Vector UInt8 n

/-- The algorithms. Those that draw random numbers get them as a seed. -/
structure Suite (z : Sizes) where
  detachedSign : (seed bytes secretKey : Bytes) → Bytes
  verifyDetachedSignature : (signature bytes publicKey : Bytes) → Bool
  /-- Signing with `ed25519` can fail. -/
  trySign : (secretKey bytes : Bytes) → Option Bytes
  verifyStrict : (publicKey bytes signature : Bytes) → Bool
  /-- `EphemeralSecret::random_from_rng`. -/
  ephemeralSecret : (seed : Bytes) → Bytes
  /-- `PublicKey::from`. -/
  publicKey : (secret : Bytes) → Array 32
  diffieHellman : (secret : Bytes) → (publicKey : Array 32) → Array 32
  /-- The public and the secret key of a key encapsulation. -/
  keypair : (seed : Bytes) → Option (Array z.kyberPublicKeyBytes × Bytes)
  encapsulate : (publicKey : Array z.kyberPublicKeyBytes) → (seed : Bytes) →
    Option (Array z.kyberCiphertextBytes × Array 32)
  decapsulate : (ciphertext : Array z.kyberCiphertextBytes) → (secretKey : Bytes) →
    Option (Array 32)
  /-- The key derivation of `to_cipher`. -/
  deriveKey : (secret : Bytes) → Bytes

/-- `ContactPublicKeys`. -/
structure ContactPublicKeys where
  dilithium : Bytes
  ed25519 : Bytes
  deriving DecidableEq, Repr

/-- `ContactPrivateKeys`. -/
structure ContactPrivateKeys where
  dilithium : Bytes
  ed25519 : Bytes
  deriving DecidableEq, Repr

/-- `ContactKeys`. -/
structure ContactKeys where
  privateKeys : ContactPrivateKeys
  publicKeys : ContactPublicKeys
  deriving DecidableEq, Repr

/-- `SignatureVerificationError`. -/
inductive SignatureVerificationError
  | dilithium
  | ed25519
  deriving DecidableEq, Repr

variable {z : Sizes} (S : Suite z)

/-- What both messages do to be signed. -/
def Suite.signBytes (seed bytes : Bytes) (keys : ContactPrivateKeys) : Option (Bytes × Bytes) :=
  (S.trySign keys.ed25519 bytes).map fun ed25519 =>
    (S.detachedSign seed bytes keys.dilithium, ed25519)

/-- What both messages do to be verified: both signatures have to verify for the same bytes. -/
def Suite.verifySignatures (bytes dilithiumSignature ed25519Signature : Bytes)
    (contactPublic : ContactPublicKeys) : Except SignatureVerificationError Unit :=
  if S.verifyDetachedSignature dilithiumSignature bytes contactPublic.dilithium then
    if S.verifyStrict contactPublic.ed25519 bytes ed25519Signature then .ok ()
    else .error .ed25519
  else .error .dilithium

variable {S}

theorem Suite.verifySignatures_ok {bytes dilithium ed25519 keys} :
    S.verifySignatures bytes dilithium ed25519 keys = .ok () ↔
      S.verifyDetachedSignature dilithium bytes keys.dilithium = true ∧
        S.verifyStrict keys.ed25519 bytes ed25519 = true := by
  rw [Suite.verifySignatures]
  by_cases hd : S.verifyDetachedSignature dilithium bytes keys.dilithium = true
  · by_cases he : S.verifyStrict keys.ed25519 bytes ed25519 = true <;> simp [hd, he]
  · simp [hd]

/-! ### Sessions -/

/-- Times are in nanoseconds. -/
def seconds (n : ℕ) : ℕ := n * 10 ^ 9

/-- `SESSION_VALIDITY_DURATION`. -/
def sessionValidityDuration : ℕ := seconds (30 * 60)

/-- `ACCEPT_SESSION_PAST_VALID_DURATION`. -/
def acceptSessionPastValidDuration : ℕ := seconds 60

/-- `SESSION_CONSTRUCTION_TIMEOUT`. -/
def sessionConstructionTimeout : ℕ := seconds 60

/-- `SessionSecrets`. -/
structure SessionSecrets where
  kyber : Array 32
  x25519 : Array 32
  deriving DecidableEq

/-- The bytes of both secrets. -/
def SessionSecrets.bytes (secrets : SessionSecrets) : Bytes :=
  secrets.kyber.toList ++ secrets.x25519.toList

/-- `Session`. The dencryptor is the one that the session starts with. -/
structure Session where
  useExpiry : ℕ
  acceptExpiry : ℕ
  authenticationType : EstablishedSessionAuthentication
  secret : Bytes
  dencryptor : Dencryptor Bytes
  deriving DecidableEq

/-- `get_contact_id`. -/
def Session.getContactId (session : Session) : Option ContactId :=
  session.authenticationType.getContactId

variable (S)

/-- `Session::new`. -/
def Session.new (now : ℕ) (establishedAuthentication : EstablishedSessionAuthentication)
    (sessionSecrets : SessionSecrets) (forInitiator : Bool) : Session where
  useExpiry := now + sessionValidityDuration
  acceptExpiry := now + sessionValidityDuration + acceptSessionPastValidDuration
  authenticationType := establishedAuthentication
  secret := sessionSecrets.bytes
  dencryptor := toCipher S.deriveKey sessionSecrets.bytes forInitiator

/-! ### The request -/

/-- `SessionInitiatorPublicKeys`. -/
structure SessionInitiatorPublicKeys (z : Sizes) where
  x25519 : Array 32
  kyber : Array z.kyberPublicKeyBytes
  deriving DecidableEq

/-- `SessionInitiatorPublicKeys::get_vec`. -/
def SessionInitiatorPublicKeys.getVec (keys : SessionInitiatorPublicKeys z) : Bytes :=
  keys.x25519.toList ++ keys.kyber.toList

/-- `SessionInitiatorPrivateKeys`. -/
structure SessionInitiatorPrivateKeys where
  x25519 : Bytes
  kyber : Bytes
  deriving DecidableEq

/-- `SessionInitiatorSecrets`. -/
structure SessionInitiatorSecrets (z : Sizes) where
  privateKeys : SessionInitiatorPrivateKeys
  publicKeys : SessionInitiatorPublicKeys z
  deriving DecidableEq

/-- `SessionInitiatorSecrets::new`, unless the generation of the keys fails. -/
def SessionInitiatorSecrets.new (seed : Bytes) : Option (SessionInitiatorSecrets z) :=
  (S.keypair seed).map fun kyber =>
    let x25519 := S.ephemeralSecret seed
    ⟨⟨x25519, kyber.2⟩, ⟨S.publicKey x25519, kyber.1⟩⟩

/-- `SessionInitiationRequest`. -/
structure SessionInitiationRequest (z : Sizes) where
  sessionInitiatorPublicKeys : SessionInitiatorPublicKeys z
  willAuthenticateResponder : Bool
  deriving DecidableEq

namespace SessionInitiationRequest

/-- `SessionInitiationRequest::new`. -/
def new (keys : SessionInitiatorPublicKeys z) (otherContactId : Option ContactId) :
    SessionInitiationRequest z := ⟨keys, otherContactId.isSome⟩

/-- `SessionInitiationRequest::get_vec`: what is signed. -/
def getVec (request : SessionInitiationRequest z) : Bytes :=
  request.sessionInitiatorPublicKeys.getVec ++
    [if request.willAuthenticateResponder then 1 else 0]

end SessionInitiationRequest

/-- `AuthWireRequest`, for the request of a handshake. -/
structure AuthWireRequest (z : Sizes) where
  sender : ContactId
  message : SessionInitiationRequest z
  dilithiumSignature : Bytes
  ed25519Signature : Bytes
  deriving DecidableEq

/-- `SessionInitiationRequest::sign`, unless signing fails. -/
def SessionInitiationRequest.sign (request : SessionInitiationRequest z) (seed : Bytes)
    (signingKeys : ContactPrivateKeys) (selfContactId : ContactId) : Option (AuthWireRequest z) :=
  (S.signBytes seed request.getVec signingKeys).map fun signatures =>
    ⟨selfContactId, request, signatures.1, signatures.2⟩

/-! ### The response -/

/-- `KeyExchangeResponseMessage`. -/
structure KeyExchangeResponseMessage (z : Sizes) where
  kyberCiphertext : Array z.kyberCiphertextBytes
  x25519Public : Array 32
  deriving DecidableEq

/-- `KeyExchangeResponseMessage::get_vec`: what is signed. -/
def KeyExchangeResponseMessage.getVec (message : KeyExchangeResponseMessage z) : Bytes :=
  message.x25519Public.toList ++ message.kyberCiphertext.toList

/-- `KeyExchangeResponse`. -/
structure KeyExchangeResponse (z : Sizes) where
  sender : ContactId
  message : KeyExchangeResponseMessage z
  /-- Whether the request could be authenticated. This is not signed. -/
  isAuthenticated : Bool
  dilithiumSignature : Bytes
  ed25519Signature : Bytes
  deriving DecidableEq

/-- `KeyExchangeResponseMessage::sign`, unless signing fails. -/
def KeyExchangeResponseMessage.sign (message : KeyExchangeResponseMessage z) (seed : Bytes)
    (contactSecrets : ContactPrivateKeys) (selfContactId : ContactId)
    (requestAuthenticated : Bool) : Option (KeyExchangeResponse z) :=
  (S.signBytes seed message.getVec contactSecrets).map fun signatures =>
    ⟨selfContactId, message, requestAuthenticated, signatures.1, signatures.2⟩

/-- `to_shared_secrets`, unless the decapsulation fails. -/
def KeyExchangeResponseMessage.toSharedSecrets (message : KeyExchangeResponseMessage z)
    (privateKeys : SessionInitiatorPrivateKeys) : Option SessionSecrets :=
  (S.decapsulate message.kyberCiphertext privateKeys.kyber).map fun kyber =>
    ⟨kyber, S.diffieHellman privateKeys.x25519 message.x25519Public⟩

namespace KeyExchangeResponse

variable (response : KeyExchangeResponse z)

/-- `unpack_verified`. -/
def unpackVerified (contactPublic : ContactPublicKeys) :
    Except SignatureVerificationError (KeyExchangeResponseMessage z) :=
  (S.verifySignatures response.message.getVec response.dilithiumSignature
    response.ed25519Signature contactPublic).map fun _ => response.message

/-- `unpack_unverified`. -/
def unpackUnverified : KeyExchangeResponseMessage z :=
  response.message

/-- The beginning of `to_session`: the response is verified only if there are keys. -/
def unpack :
    Option ContactPublicKeys → Except SignatureVerificationError (KeyExchangeResponseMessage z)
  | none => .ok response.unpackUnverified
  | some otherPublicKeys => response.unpackVerified S otherPublicKeys

end KeyExchangeResponse

/-! ### The responder -/

/-- `to_shared_secrets_and_response`, unless the encapsulation fails. -/
def SessionInitiatorPublicKeys.toSharedSecretsAndResponse (keys : SessionInitiatorPublicKeys z)
    (seed : Bytes) : Option (SessionSecrets × KeyExchangeResponseMessage z) :=
  let responderX25519Secret := S.ephemeralSecret seed
  (S.encapsulate keys.kyber seed).map fun kyber =>
    (⟨kyber.2, S.diffieHellman responderX25519Secret keys.x25519⟩,
      ⟨kyber.1, S.publicKey responderX25519Secret⟩)

/-- `SessionFromRequestError`. -/
inductive SessionFromRequestError
  | kyber
  | signatureVerification (e : SignatureVerificationError)
  deriving DecidableEq, Repr

namespace AuthWireRequest

variable (request : AuthWireRequest z)

/-- `verify_initiator_signature`. -/
def verifyInitiatorSignature (contactPublic : ContactPublicKeys) :
    Except SignatureVerificationError Unit :=
  S.verifySignatures request.message.getVec request.dilithiumSignature request.ed25519Signature
    contactPublic

/-- The verification at the beginning of `to_session_and_response`: only if there are keys. -/
def verifyInitiator :
    Option (ContactId × ContactPublicKeys) → Except SignatureVerificationError Unit
  | some (_, contactPublic) => request.verifyInitiatorSignature S contactPublic
  | none => .ok ()

/-- The contact of a session of the responder, if its keys are known. -/
def authentication : Option (ContactId × ContactPublicKeys) → EstablishedSessionAuthentication
  | none => if request.message.willAuthenticateResponder then .otherKnowsMe else .unauthenticated
  | some (contactId, _) =>
    if request.message.willAuthenticateResponder then .weKnowEachOther contactId
    else .iKnowOther contactId

/-- `to_session_and_response`. -/
def toSessionAndResponse (now : ℕ) (seed : Bytes)
    (contactDataForVerification : Option (ContactId × ContactPublicKeys)) :
    Except SessionFromRequestError (Session × KeyExchangeResponseMessage z) :=
  match request.verifyInitiator S contactDataForVerification with
  | .error e => .error (.signatureVerification e)
  | .ok () =>
    match request.message.sessionInitiatorPublicKeys.toSharedSecretsAndResponse S seed with
    | none => .error .kyber
    | some (sharedSecret, response) =>
      .ok (Session.new S now (request.authentication contactDataForVerification) sharedSecret false,
        response)

end AuthWireRequest

/-! ### The initiator -/

/-- `InitiatorSessionCreation`: the private keys of a request, and the channel on which those who
wait for the session are told. Channels are numbered here. -/
structure InitiatorSessionCreation where
  initiatorSecrets : SessionInitiatorPrivateKeys
  channel : ℕ
  deriving DecidableEq

/-- `SessionCreationError`. -/
inductive SessionCreationError
  | crypto
  | authentication
  deriving DecidableEq, Repr

/-- `ResponderSessionEstablishmentError`, as far as the responder makes one. -/
inductive ResponderSessionEstablishmentError
  | contactVerificationFailed (contactId : ContactId)
  | sharedSecretGenerationFailed
  deriving DecidableEq, Repr

/-- `SessionEstablishmentError`, as far as one is sent to those who wait. -/
inductive SessionEstablishmentError
  | noResponse
  | droppedWithoutResponse
  | sharedSecretGenerationFailed
  | responder (e : ResponderSessionEstablishmentError)
  deriving DecidableEq, Repr

/-- The contact of a session of the initiator: the sender of the response, if its keys are known. -/
def KeyExchangeResponse.authentication (response : KeyExchangeResponse z)
    (otherIsAuthenticated : Bool) : EstablishedSessionAuthentication :=
  if otherIsAuthenticated then
    if response.isAuthenticated then .weKnowEachOther response.sender
    else .iKnowOther response.sender
  else if response.isAuthenticated then .otherKnowsMe
  else .unauthenticated

/-- What `to_session` returns, and what those who wait are told: an error if the builder is dropped
because the response could not be verified. -/
def InitiatorSessionCreation.toSession (builder : InitiatorSessionCreation) (now : ℕ)
    (response : KeyExchangeResponse z) (otherPublicKeys : Option ContactPublicKeys) :
    Except SessionCreationError Session × Except SessionEstablishmentError Session :=
  match response.unpack S otherPublicKeys with
  | .error _ => (.error .authentication, .error .droppedWithoutResponse)
  | .ok message =>
    match message.toSharedSecrets S builder.initiatorSecrets with
    | none => (.error .crypto, .error .sharedSecretGenerationFailed)
    | some secrets =>
      let session := Session.new S now (response.authentication otherPublicKeys.isSome) secrets true
      (.ok session, .ok session)

/-! ### How a session was made -/

variable {response : KeyExchangeResponse z} {keys : Option ContactPublicKeys} {now : ℕ}
  {session : Session}

variable {S}

theorem AuthWireRequest.getContactId_authentication (request : AuthWireRequest z)
    (contact : Option (ContactId × ContactPublicKeys)) :
    (request.authentication contact).getContactId = contact.map Prod.fst := by
  cases contact <;> rw [authentication] <;> split <;> rfl

theorem KeyExchangeResponse.getContactId_authentication (response : KeyExchangeResponse z)
    (otherIsAuthenticated : Bool) :
    (response.authentication otherIsAuthenticated).getContactId =
      if otherIsAuthenticated then some response.sender else none := by
  cases hflag : response.isAuthenticated <;> cases otherIsAuthenticated <;>
    simp [authentication, hflag, EstablishedSessionAuthentication.getContactId]

/-- What is unpacked is the message, and if there are keys then it is verified. -/
theorem KeyExchangeResponse.unpack_ok {message} (h : response.unpack S keys = .ok message) :
    message = response.message ∧ ∀ k ∈ keys, S.verifySignatures response.message.getVec
      response.dilithiumSignature response.ed25519Signature k = .ok () := by
  cases keys with
  | none =>
    obtain rfl := Except.ok.inj h
    exact ⟨rfl, nofun⟩
  | some k =>
    rw [unpack, unpackVerified] at h
    cases hv : S.verifySignatures response.message.getVec response.dilithiumSignature
        response.ed25519Signature k with
    | error e =>
      rw [hv] at h
      cases h
    | ok u =>
      rw [hv] at h
      obtain rfl := Except.ok.inj h
      refine ⟨rfl, ?_⟩
      rintro k' hk'
      obtain ⟨⟩ := hk'
      exact hv

/-- How the responder has made a session. -/
theorem AuthWireRequest.toSessionAndResponse_ok {request : AuthWireRequest z}
    {seed contact response}
    (h : request.toSessionAndResponse S now seed contact = .ok (session, response)) :
    request.verifyInitiator S contact = .ok () ∧
    ∃ secrets, request.message.sessionInitiatorPublicKeys.toSharedSecretsAndResponse S seed =
        some (secrets, response) ∧
      session = Session.new S now (request.authentication contact) secrets false := by
  rw [toSessionAndResponse.eq_def] at h
  cases hv : request.verifyInitiator S contact with
  | error e =>
    rw [hv] at h
    cases h
  | ok u =>
    rw [hv] at h
    cases hs : request.message.sessionInitiatorPublicKeys.toSharedSecretsAndResponse S seed with
    | none =>
      rw [hs] at h
      cases h
    | some r =>
      rw [hs] at h
      obtain ⟨rfl, rfl⟩ := Prod.mk.inj (Except.ok.inj h)
      exact ⟨rfl, r.1, rfl, rfl⟩

/-- How the initiator has made a session. -/
theorem InitiatorSessionCreation.toSession_ok {builder : InitiatorSessionCreation}
    (h : (builder.toSession S now response keys).1 = .ok session) :
    (∀ k ∈ keys, S.verifySignatures response.message.getVec response.dilithiumSignature
      response.ed25519Signature k = .ok ()) ∧
    ∃ secrets, response.message.toSharedSecrets S builder.initiatorSecrets = some secrets ∧
      session = Session.new S now (response.authentication keys.isSome) secrets true := by
  rw [toSession.eq_def] at h
  cases hm : response.unpack S keys with
  | error e =>
    rw [hm] at h
    cases h
  | ok message =>
    rw [hm] at h
    dsimp only at h
    obtain ⟨rfl, hverified⟩ := KeyExchangeResponse.unpack_ok hm
    cases hs : response.message.toSharedSecrets S builder.initiatorSecrets with
    | none =>
      rw [hs] at h
      cases h
    | some secrets =>
      rw [hs] at h
      exact ⟨hverified, secrets, rfl, (Except.ok.inj h).symm⟩

/-- Those who wait are told of the session that is stored. -/
theorem InitiatorSessionCreation.toSession_fst_of_snd {builder : InitiatorSessionCreation}
    (h : (builder.toSession S now response keys).2 = .ok session) :
    (builder.toSession S now response keys).1 = .ok session := by
  rw [toSession.eq_def] at h ⊢
  cases hm : response.unpack S keys with
  | error e =>
    rw [hm] at h
    cases h
  | ok message =>
    rw [hm] at h
    dsimp only at h ⊢
    cases hs : message.toSharedSecrets S builder.initiatorSecrets with
    | none =>
      rw [hs] at h
      cases h
    | some secrets =>
      rw [hs] at h
      obtain rfl := Except.ok.inj h
      rfl

/-! ### Payloads -/

theorem KeyExchangeResponseMessage.getVec_injective {m m' : KeyExchangeResponseMessage z}
    (h : m.getVec = m'.getVec) : m = m' := by
  obtain ⟨hx, hk⟩ := List.append_inj h (by simp)
  cases m
  cases m'
  rw [KeyExchangeResponseMessage.mk.injEq]
  exact ⟨List.Vector.toList_injective hk, List.Vector.toList_injective hx⟩

/-- What the two ends of a session rely on. -/
structure Suite.Lawful (S : Suite z) : Prop where
  /-- The key exchange. -/
  diffieHellman_comm : ∀ a b,
    S.diffieHellman a (S.publicKey b) = S.diffieHellman b (S.publicKey a)
  /-- The key encapsulation. -/
  decapsulate_encapsulate : ∀ {seed seed' publicKey secretKey ciphertext sharedSecret},
    S.keypair seed = some (publicKey, secretKey) →
    S.encapsulate publicKey seed' = some (ciphertext, sharedSecret) →
    S.decapsulate ciphertext secretKey = some sharedSecret
  /-- A request has a byte more than a response, or at least not the same length. -/
  sizes : z.kyberCiphertextBytes ≠ z.kyberPublicKeyBytes + 1

namespace Suite.Lawful

/-- **Domains.** No payload of a request is one of a response. -/
theorem getVec_ne_getVec (hS : S.Lawful) (request : SessionInitiationRequest z)
    (response : KeyExchangeResponseMessage z) : request.getVec ≠ response.getVec := by
  intro h
  apply hS.sizes
  have hlength := congrArg List.length h
  simp only [SessionInitiationRequest.getVec, SessionInitiatorPublicKeys.getVec,
    KeyExchangeResponseMessage.getVec, List.length_append, List.Vector.toList_length,
    List.length_singleton] at hlength
  omega

/-- **Both ends derive the same secrets** if the response was made for the request. -/
theorem secrets_eq (hS : S.Lawful) {seed seed' initiator secrets secrets' response}
    (hinitiator : SessionInitiatorSecrets.new S seed = some initiator)
    (hresponder : initiator.publicKeys.toSharedSecretsAndResponse S seed' =
      some (secrets, response))
    (hshared : response.toSharedSecrets S initiator.privateKeys = some secrets') :
    secrets' = secrets := by
  obtain ⟨⟨publicKey, secretKey⟩, hkeypair, rfl⟩ := Option.map_eq_some_iff.mp hinitiator
  obtain ⟨⟨ciphertext, sharedSecret⟩, hencapsulate, heq⟩ := Option.map_eq_some_iff.mp hresponder
  obtain ⟨rfl, rfl⟩ := Prod.mk.inj heq
  rw [KeyExchangeResponseMessage.toSharedSecrets,
    hS.decapsulate_encapsulate hkeypair hencapsulate] at hshared
  obtain ⟨⟩ := hshared
  rw [hS.diffieHellman_comm]

end Suite.Lawful

/-! ### An instance

The laws can be met. Nothing of this is secret: a signature is the key and the payload. -/

/-- The smallest arrays that keep requests and responses apart. -/
def Sizes.sample : Sizes := ⟨1, 1⟩

/-- Primitives for which the laws hold. -/
def Suite.sample : Suite .sample where
  detachedSign _ bytes secretKey := secretKey ++ bytes
  verifyDetachedSignature signature bytes publicKey := signature = publicKey ++ bytes
  trySign secretKey bytes := some (secretKey ++ bytes)
  verifyStrict publicKey bytes signature := signature = publicKey ++ bytes
  ephemeralSecret seed := seed
  publicKey secret := .replicate 32 (secret.headD 0)
  diffieHellman secret publicKey := .replicate 32 (secret.headD 0 * publicKey.head)
  keypair seed := some (.replicate 1 (seed.headD 0), seed)
  encapsulate publicKey seed :=
    some (.replicate 1 (seed.headD 0 + publicKey.head), .replicate 32 (seed.headD 0))
  decapsulate ciphertext secretKey := some (.replicate 32 (ciphertext.head - secretKey.headD 0))
  deriveKey secret := secret

theorem Suite.sample_lawful : Suite.sample.Lawful where
  diffieHellman_comm a b := congrArg (List.Vector.replicate 32) (UInt8.mul_comm _ _)
  decapsulate_encapsulate hkeypair hencapsulate := by
    obtain ⟨⟩ := hkeypair
    obtain ⟨⟩ := hencapsulate
    exact congrArg (fun x => some (List.Vector.replicate 32 x)) (UInt8.add_sub_cancel _ _)
  sizes := by decide

/-! ### The identity of the other end

`SelfIdentity` follows sessions with what the handshake makes of them, and takes one signature for
the two of them and their payload. -/

section

/-- What is verified of a message: the payload and its signatures. -/
abbrev Evidence := Bytes × Bytes × Bytes

/-- Whether it verifies. -/
def Suite.verify (S : Suite z) (evidence : Evidence) (keys : ContactPublicKeys) : Bool :=
  (S.verifySignatures evidence.1 evidence.2.1 evidence.2.2 keys).isOk

/-- The request as `SelfIdentity` sees it. -/
def AuthWireRequest.abstract (request : AuthWireRequest z) :
    SelfIdentity.SessionInitiationRequest Evidence :=
  ⟨request.sender, (request.message.getVec, request.dilithiumSignature, request.ed25519Signature),
    request.message.willAuthenticateResponder⟩

/-- The response as `SelfIdentity` sees it. -/
def KeyExchangeResponse.abstract (response : KeyExchangeResponse z) :
    SelfIdentity.KeyExchangeResponse Evidence :=
  ⟨response.sender,
    (response.message.getVec, response.dilithiumSignature, response.ed25519Signature),
    response.isAuthenticated⟩

/-- A session of the responder carries what `SelfIdentity` says. -/
theorem AuthWireRequest.authenticationType_toSession {request : AuthWireRequest z} {now : ℕ}
    {seed keys session response}
    (h : request.toSessionAndResponse S now seed (keys.map fun k => (request.sender, k)) =
      .ok (session, response)) :
    request.abstract.toSession S.verify keys = some ⟨session.authenticationType, keys⟩ := by
  obtain ⟨hverified, secrets, -, rfl⟩ := toSessionAndResponse_ok h
  cases keys with
  | none => rfl
  | some k =>
    have hverify : S.verify request.abstract.signature k = true := congrArg Except.isOk hverified
    rw [SelfIdentity.SessionInitiationRequest.toSession, SelfIdentity.authenticate,
      if_pos hverify]
    rfl

/-- So does a session of the initiator. -/
theorem InitiatorSessionCreation.authenticationType_toSession {builder : InitiatorSessionCreation}
    {now : ℕ} {response keys session}
    (h : (builder.toSession S now response keys).1 = .ok session) :
    response.abstract.toSession S.verify keys = some ⟨session.authenticationType, keys⟩ := by
  obtain ⟨hverified, secrets, -, rfl⟩ := toSession_ok h
  cases keys with
  | none => rfl
  | some k =>
    have hverify : S.verify response.abstract.signature k = true :=
      congrArg Except.isOk (hverified k rfl)
    rw [SelfIdentity.KeyExchangeResponse.toSession, SelfIdentity.authenticate, if_pos hverify]
    rfl

end

end Fyles.Handshake
