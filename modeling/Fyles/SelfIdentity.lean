import Fyles.ContactStore
import Fyles.Internal.Run

/-!
# The user's own identity

A session is authenticated with the keys that the brain has for the contact that the other end
claims to be, and carries that contact from then on. A file may be dropped through a session that
carries the user's own contact. This module follows the keys through contacts, identities,
handshakes and sessions, up to that decision.

A contact with the user's own id shadows the user's own keys, and with them the other end's private
keys let it in. If no contact with the own id is stored with other keys, and the identity is changed
only when nothing is left that was authenticated for the new id with other keys, then the own id is
answered with the own keys, and who is let in as the user has proved to have them:
`self_not_shadowed`.

## Sessions

Keys and signatures are of arbitrary types, and which signature verifies with which keys is a
parameter. A session records the keys that it was authenticated with; the program does not, and
nothing depends on it. Between the brain's answer and the moment in which the session is stored
anything can happen, as it can between decrypting a request and deciding about it, so both wait in
the world. A session that was replaced or cleared can still decrypt requests while it is in the
cache. Changing the identity empties the store of the sessions, not the cache; when it does so is an
event of its own. Whether a response of a handshake was waited for is not asked: it decides whether
there is a session, not whom it belongs to.

## Main results

* `OwnKeys.step` — what every such event keeps
* `self_not_shadowed` — the own id stands for the own keys
* `self_shadowed` — the ways in which it does not
-/

namespace Fyles.SelfIdentity

section

variable {Keys Signature : Type}

/-! ### Sessions -/

/-- A session, with the keys that the other end has proved to have. -/
structure Session (Keys : Type) where
  authenticationType : EstablishedSessionAuthentication
  /-- The keys that the signature of the other end was verified with. -/
  verifiedWith : Option Keys
  deriving DecidableEq, Repr

/-- The contact of a session. -/
def Session.getContactId (session : Session Keys) : Option ContactId :=
  session.authenticationType.getContactId

/-- What both ends of a handshake do with the signature of the other end: with the keys of the
sender, the signature has to verify. The flag says whether the other end knows this one. `none` is
an error. -/
def authenticate (verify : Signature → Keys → Bool) (sender : ContactId) (signature : Signature)
    (otherKnowsMe : Bool) : Option Keys → Option (Session Keys)
  | some keys =>
    if verify signature keys then
      some ⟨if otherKnowsMe then .weKnowEachOther sender else .iKnowOther sender, some keys⟩
    else none
  | none => some ⟨if otherKnowsMe then .otherKnowsMe else .unauthenticated, none⟩

/-- The request of a handshake, as far as the session depends on it. -/
structure SessionInitiationRequest (Signature : Type) where
  sender : ContactId
  signature : Signature
  willAuthenticateResponder : Bool
  deriving DecidableEq, Repr

/-- `to_session_and_response`, unless the secrets cannot be derived. -/
def SessionInitiationRequest.toSession (verify : Signature → Keys → Bool)
    (request : SessionInitiationRequest Signature) : Option Keys → Option (Session Keys) :=
  authenticate verify request.sender request.signature request.willAuthenticateResponder

/-- The response of a handshake, as far as the session depends on it. -/
structure KeyExchangeResponse (Signature : Type) where
  sender : ContactId
  signature : Signature
  isAuthenticated : Bool
  deriving DecidableEq, Repr

/-- `to_session`, unless the secrets cannot be derived. -/
def KeyExchangeResponse.toSession (verify : Signature → Keys → Bool)
    (response : KeyExchangeResponse Signature) : Option Keys → Option (Session Keys) :=
  authenticate verify response.sender response.signature response.isAuthenticated

/-- A session carries a contact only if the other end has proved to have the keys that were found
for it. -/
theorem authenticate_contact {verify : Signature → Keys → Bool} {sender signature}
    {otherKnowsMe : Bool} {keys session}
    (h : authenticate verify sender signature otherKnowsMe keys = some session) {id}
    (hid : session.getContactId = some id) :
    id = sender ∧ keys.isSome ∧ session.verifiedWith = keys := by
  cases keys with
  | none =>
    obtain ⟨⟩ := h
    cases otherKnowsMe <;> cases hid
  | some keys =>
    rw [authenticate] at h
    split at h
    · obtain ⟨⟩ := h
      refine ⟨?_, rfl, rfl⟩
      cases otherKnowsMe <;> exact (Option.some.inj hid).symm
    · cases h

/-! ### The world -/

/-- A file that may be dropped because the contact is the user. -/
structure SelfAccess (Keys : Type) where
  /-- The session through which the request came. -/
  session : Session Keys
  /-- The user's own keys at that time. -/
  ownKeys : Keys
  deriving DecidableEq, Repr

/-- The database, the sessions and what waits. -/
structure World (Keys : Type) where
  db : Db Keys
  /-- Sessions that have been authenticated and are about to be stored. -/
  handshakes : List (PeerId × Session Keys)
  sessionStore : AList fun _ : PeerId => Session Keys
  expiredSessionCache : List (PeerId × Session Keys)
  /-- The sessions of the requests to drop a file that have not been decided. -/
  fileDrops : List (Session Keys)
  /-- All files that could be dropped because the contact was the user. -/
  selfAccesses : List (SelfAccess Keys)

/-- What can happen. -/
inductive Event (Keys Signature : Type)
  | registerContact (contact : Contact Keys)
  | createContact (contact : Contact Keys)
  | deleteContact (id : ContactId)
  | updateIdentity (selfContact : SelfContact Keys)
  /-- The session manager is told that the identity was changed. -/
  | clearSessionStore
  | sessionEstablishmentRequest (peer : PeerId) (request : SessionInitiationRequest Signature)
      (reads : DbReads)
  | sessionEstablishmentResponse (peer : PeerId) (response : KeyExchangeResponse Signature)
      (reads : DbReads)
  /-- A session that has been authenticated is stored. -/
  | storeSession (index : ℕ)
  | clearSession (peer : PeerId)
  | expireSession (index : ℕ)
  /-- A request to drop a file is decrypted with one of the recent sessions. -/
  | receiveFileDrop (peer : PeerId) (index : ℕ)
  /-- The brain decides about such a request. -/
  | requestFileDrop (index : ℕ) (filerequest : Option Filerequest) (reads : DbReads)
  deriving DecidableEq, Repr

namespace World

/-- Nobody has talked to the user yet, and all contacts are from before contacts had keys. -/
def new (selfContact : SelfContact Keys) (contacts : List ContactId) : World Keys :=
  ⟨.migrated selfContact contacts, [], ∅, [], [], []⟩

variable (w : World Keys) (peer : PeerId)

/-- All sessions that can still matter. -/
def sessions : List (Session Keys) :=
  w.handshakes.map Prod.snd ++ w.sessionStore.entries.map Sigma.snd ++
    w.expiredSessionCache.map Prod.snd ++ w.fileDrops

/-- `register_contact`. If it fails nothing changes. -/
def registerContact (contact : Contact Keys) : World Keys :=
  { w with db := (w.db.registerContact contact).getD w.db }

/-- The first half of `handle_session_establishment_request` and of
`handle_session_establishment_response`: the session, if the other end could be authenticated, waits
to be stored. -/
def handshake (session : Option (Session Keys)) : World Keys :=
  { w with handshakes := w.handshakes ++ session.toList.map fun s => (peer, s) }

/-- The second half of both. The session that is replaced goes to the cache. -/
def storeSession (session : Session Keys) : World Keys :=
  { w with
    sessionStore := w.sessionStore.insert peer session
    expiredSessionCache := w.expiredSessionCache ++
      (w.sessionStore.lookup peer).toList.map fun s => (peer, s) }

/-- `clear_session`. -/
def clearSession : World Keys :=
  { w with
    sessionStore := w.sessionStore.erase peer
    expiredSessionCache := w.expiredSessionCache ++
      (w.sessionStore.lookup peer).toList.map fun s => (peer, s) }

/-- `get_recent_receive_sessions`. -/
def getRecentReceiveSessions : List (Session Keys) :=
  (w.sessionStore.lookup peer).toList ++
    (w.expiredSessionCache.filter fun e => e.1 = peer).map Prod.snd

/-- The brain's decision about a request that came through a session. -/
def decideFileDrop (session : Session Keys) (filerequest : Option Filerequest)
    (reads : DbReads) : World Keys :=
  if w.db.requestFileDrop reads filerequest session.getContactId = some .bySelf then
    { w with selfAccesses := w.selfAccesses ++ [⟨session, w.db.selfContact.publicKeys⟩] }
  else w

/-- The world after an event, unless what it speaks of does not exist. -/
def step (verify : Signature → Keys → Bool) (w : World Keys) :
    Event Keys Signature → Option (World Keys)
  | .registerContact contact | .createContact contact => some (w.registerContact contact)
  | .deleteContact id => some { w with db := w.db.deleteContact id }
  | .updateIdentity selfContact => some { w with db := w.db.updateIdentity selfContact }
  | .clearSessionStore => some { w with sessionStore := ∅ }
  | .sessionEstablishmentRequest peer request reads =>
    some (w.handshake peer
      (request.toSession verify (w.db.getContactPublicKeys reads request.sender)))
  | .sessionEstablishmentResponse peer response reads =>
    some (w.handshake peer
      (response.toSession verify (w.db.getContactPublicKeys reads response.sender)))
  | .storeSession index =>
    w.handshakes[index]?.map fun h =>
      { w with handshakes := w.handshakes.eraseIdx index }.storeSession h.1 h.2
  | .clearSession peer => some (w.clearSession peer)
  | .expireSession index =>
    some { w with expiredSessionCache := w.expiredSessionCache.eraseIdx index }
  | .receiveFileDrop peer index =>
    (w.getRecentReceiveSessions peer)[index]?.map fun session =>
      { w with fileDrops := w.fileDrops ++ [session] }
  | .requestFileDrop index filerequest reads =>
    w.fileDrops[index]?.map fun session =>
      { w with fileDrops := w.fileDrops.eraseIdx index }.decideFileDrop session filerequest reads

end World

/-! ### When the own id is unambiguous -/

/-- The events that keep the own id unambiguous: a contact with the own id has the own keys, and a
new identity is not that of a contact with other keys, nor of a session that was authenticated with
other keys. -/
def Unambiguous (w : World Keys) : Event Keys Signature → Prop
  | .registerContact contact | .createContact contact =>
    contact.id = w.db.selfContact.id → contact.id ∉ w.db.contacts →
      contact.publicKeys = w.db.selfContact.publicKeys
  | .updateIdentity selfContact =>
    (∀ keys ∈ w.db.handleGetContactPublicKeys selfContact.id, keys = selfContact.publicKeys) ∧
    ∀ s ∈ w.sessions, s.getContactId = some selfContact.id →
      s.verifiedWith = some selfContact.publicKeys
  | _ => True

instance [DecidableEq Keys] (w : World Keys) (e : Event Keys Signature) :
    Decidable (Unambiguous w e) := by
  rw [Unambiguous.eq_def]
  split <;> infer_instance

/-! ### The invariant -/

/-- The own id stands for the own keys: in the contacts, in the sessions, and in the decisions. -/
structure OwnKeys (w : World Keys) : Prop where
  contacts : ∀ keys ∈ w.db.handleGetContactPublicKeys w.db.selfContact.id,
    keys = w.db.selfContact.publicKeys
  sessions : ∀ s ∈ w.sessions, s.getContactId = some w.db.selfContact.id →
    s.verifiedWith = some w.db.selfContact.publicKeys
  selfAccesses : ∀ a ∈ w.selfAccesses, a.session.verifiedWith = some a.ownKeys

namespace World

variable {w : World Keys} {s : Session Keys} {peer : PeerId}

theorem mem_sessions : s ∈ w.sessions ↔ (∃ p, (p, s) ∈ w.handshakes) ∨
    (∃ p, w.sessionStore.lookup p = some s) ∨ (∃ p, (p, s) ∈ w.expiredSessionCache) ∨
    s ∈ w.fileDrops := by
  simp only [sessions, List.mem_append, List.mem_map, Prod.exists, Sigma.exists, or_assoc,
    exists_eq_right, AList.mem_lookup_iff.symm, Option.mem_def]

/-- The session that the store has for a peer goes to the cache. -/
theorem mem_sessions_of_cached {p} (h : (p, s) ∈ w.expiredSessionCache ++
      (w.sessionStore.lookup peer).toList.map fun s => (peer, s)) : s ∈ w.sessions := by
  rw [mem_sessions]
  rcases List.mem_append.mp h with hold | hnew
  · exact .inr (.inr (.inl ⟨p, hold⟩))
  · obtain ⟨s', hs', heq⟩ := List.mem_map.mp hnew
    obtain rfl := (Prod.mk.inj heq).2
    exact .inr (.inl ⟨peer, Option.mem_toList.mp hs'⟩)

theorem mem_sessions_of_recent (h : s ∈ w.getRecentReceiveSessions peer) : s ∈ w.sessions := by
  rw [mem_sessions]
  rcases List.mem_append.mp h with hstore | hcache
  · exact .inr (.inl ⟨peer, Option.mem_toList.mp hstore⟩)
  · obtain ⟨e, he, rfl⟩ := List.mem_map.mp hcache
    exact .inr (.inr (.inl ⟨e.1, (List.mem_filter.mp he).1⟩))

end World

namespace OwnKeys

open World (mem_sessions mem_sessions_of_cached mem_sessions_of_recent)

variable {verify : Signature → Keys → Bool} {w w' : World Keys} {session : Session Keys}
  {peer : PeerId}

theorem of_sessions (h : OwnKeys w) (hdb : w'.db = w.db)
    (haccesses : w'.selfAccesses = w.selfAccesses) (hsessions : ∀ s ∈ w'.sessions, s ∈ w.sessions) :
    OwnKeys w' := by
  refine ⟨?_, ?_, ?_⟩
  · rw [hdb]
    exact h.contacts
  · rw [hdb]
    exact fun s hs => h.sessions s (hsessions s hs)
  · rw [haccesses]
    exact h.selfAccesses

theorem registerContact (h : OwnKeys w) {contact}
    (hcontact : contact.id = w.db.selfContact.id → contact.id ∉ w.db.contacts →
      contact.publicKeys = w.db.selfContact.publicKeys) : OwnKeys (w.registerContact contact) := by
  rw [World.registerContact]
  cases hdb : w.db.registerContact contact with
  | none => exact h
  | some db =>
    have hself : db.selfContact = w.db.selfContact := by
      rw [Db.registerContact] at hdb
      split at hdb
      · cases hdb
      · exact (congrArg Db.selfContact (Option.some.inj hdb)).symm
    refine ⟨fun keys hkeys => ?_, fun s hs => ?_, h.selfAccesses⟩
    · show keys = db.selfContact.publicKeys
      change db.handleGetContactPublicKeys db.selfContact.id = some keys at hkeys
      rw [hself] at hkeys ⊢
      rcases Db.handleGetContactPublicKeys_registerContact hdb hkeys with hold | ⟨hnew, hid, rfl⟩
      · exact h.contacts keys hold
      · exact hcontact hid.symm hnew
    · show s.getContactId = some db.selfContact.id → _ = some db.selfContact.publicKeys
      rw [hself]
      exact h.sessions s hs

/-- A session that carries the own id was authenticated with the own keys. -/
theorem authenticated (h : OwnKeys w) {reads sender signature} {otherKnowsMe : Bool}
    (hsession : authenticate verify sender signature otherKnowsMe
      (w.db.getContactPublicKeys reads sender) = some session)
    (hid : session.getContactId = some w.db.selfContact.id) :
    session.verifiedWith = some w.db.selfContact.publicKeys := by
  obtain ⟨hsender, hsome, hwith⟩ := authenticate_contact hsession hid
  obtain ⟨keys, hkeys⟩ := Option.isSome_iff_exists.mp hsome
  rw [hwith, hkeys]
  rcases Db.getContactPublicKeys_cases hkeys with hcontact | ⟨-, rfl⟩
  · rw [h.contacts keys (hsender ▸ hcontact)]
  · rfl

theorem handshake (h : OwnKeys w) {maybeSession}
    (hsession : ∀ s, maybeSession = some s → s.getContactId = some w.db.selfContact.id →
      s.verifiedWith = some w.db.selfContact.publicKeys) :
    OwnKeys (w.handshake peer maybeSession) := by
  refine ⟨h.contacts, fun s hs => ?_, h.selfAccesses⟩
  rcases mem_sessions.mp hs with ⟨p, hmem⟩ | hrest
  · rcases List.mem_append.mp hmem with hold | hnew
    · exact h.sessions s (mem_sessions.mpr (.inl ⟨p, hold⟩))
    · obtain ⟨s', hs', heq⟩ := List.mem_map.mp hnew
      obtain rfl := (Prod.mk.inj heq).2
      exact hsession s' (Option.mem_toList.mp hs')
  · exact h.sessions s (mem_sessions.mpr (.inr hrest))

theorem storeSession (h : OwnKeys w) {index : ℕ}
    (hindex : w.handshakes[index]? = some (peer, session)) :
    OwnKeys ({ w with handshakes := w.handshakes.eraseIdx index }.storeSession peer session) := by
  refine h.of_sessions rfl rfl fun s hs => ?_
  rcases mem_sessions.mp hs with ⟨p, hs⟩ | ⟨p, hs⟩ | ⟨p, hs⟩ | hs
  · exact mem_sessions.mpr (.inl ⟨p, List.mem_of_mem_eraseIdx hs⟩)
  · change AList.lookup p (w.sessionStore.insert peer session) = some s at hs
    by_cases hpeer : p = peer
    · rw [hpeer, AList.lookup_insert] at hs
      obtain ⟨⟩ := hs
      exact mem_sessions.mpr (.inl ⟨peer, List.mem_of_getElem? hindex⟩)
    · rw [AList.lookup_insert_ne hpeer] at hs
      exact mem_sessions.mpr (.inr (.inl ⟨p, hs⟩))
  · exact mem_sessions_of_cached hs
  · exact mem_sessions.mpr (.inr (.inr (.inr hs)))

theorem clearSession (h : OwnKeys w) : OwnKeys (w.clearSession peer) := by
  refine h.of_sessions rfl rfl fun s hs => ?_
  rcases mem_sessions.mp hs with hs | ⟨p, hs⟩ | ⟨p, hs⟩ | hs
  · exact mem_sessions.mpr (.inl hs)
  · change AList.lookup p (w.sessionStore.erase peer) = some s at hs
    by_cases hpeer : p = peer
    · rw [hpeer, AList.lookup_erase] at hs
      cases hs
    · rw [AList.lookup_erase_ne hpeer] at hs
      exact mem_sessions.mpr (.inr (.inl ⟨p, hs⟩))
  · exact mem_sessions_of_cached hs
  · exact mem_sessions.mpr (.inr (.inr (.inr hs)))

theorem receiveFileDrop (h : OwnKeys w) (hsession : session ∈ w.getRecentReceiveSessions peer) :
    OwnKeys { w with fileDrops := w.fileDrops ++ [session] } := by
  refine h.of_sessions rfl rfl fun s hs => ?_
  rcases List.mem_append.mp hs with hold | hdrop
  · exact List.mem_append_left _ hold
  · rcases List.mem_append.mp hdrop with hold | hnew
    · exact List.mem_append_right _ hold
    · rw [List.mem_singleton.mp hnew]
      exact mem_sessions_of_recent hsession

/-- Who is let in as the user has proved to have the user's keys. -/
theorem decideFileDrop (h : OwnKeys w) (hsession : session.getContactId = some w.db.selfContact.id →
      session.verifiedWith = some w.db.selfContact.publicKeys)
    (filerequest : Option Filerequest) (reads : DbReads) :
    OwnKeys (w.decideFileDrop session filerequest reads) := by
  rw [World.decideFileDrop]
  split
  · next hself =>
    refine ⟨h.contacts, h.sessions, fun a ha => ?_⟩
    rcases List.mem_append.mp ha with hold | hnew
    · exact h.selfAccesses a hold
    · obtain rfl := List.mem_singleton.mp hnew
      exact hsession (Db.requestFileDrop_bySelf hself)
  · exact h

/-- **What every unambiguous event keeps.** -/
theorem step (h : OwnKeys w) {e} (he : Unambiguous w e) (hstep : w.step verify e = some w') :
    OwnKeys w' := by
  cases e with
  | registerContact contact | createContact contact =>
    obtain ⟨⟩ := hstep
    exact h.registerContact he
  | deleteContact id =>
    obtain ⟨⟩ := hstep
    refine ⟨fun keys hkeys => h.contacts keys ?_, h.sessions, h.selfAccesses⟩
    exact Db.handleGetContactPublicKeys_deleteContact hkeys
  | updateIdentity selfContact =>
    obtain ⟨⟩ := hstep
    exact ⟨he.1, he.2, h.selfAccesses⟩
  | clearSessionStore =>
    obtain ⟨⟩ := hstep
    refine h.of_sessions rfl rfl fun s hs => mem_sessions.mpr ?_
    exact (mem_sessions.mp hs).imp_right (Or.imp_left (by rintro ⟨p, ⟨⟩⟩))
  | sessionEstablishmentRequest peer request reads =>
    obtain ⟨⟩ := hstep
    exact h.handshake fun s hs hid => h.authenticated hs hid
  | sessionEstablishmentResponse peer response reads =>
    obtain ⟨⟩ := hstep
    exact h.handshake fun s hs hid => h.authenticated hs hid
  | storeSession index =>
    obtain ⟨⟨peer, session⟩, hindex, rfl⟩ := Option.map_eq_some_iff.mp hstep
    exact h.storeSession hindex
  | clearSession peer =>
    obtain ⟨⟩ := hstep
    exact h.clearSession
  | expireSession index =>
    obtain ⟨⟩ := hstep
    refine h.of_sessions rfl rfl fun s hs => mem_sessions.mpr ?_
    refine (mem_sessions.mp hs).imp_right (Or.imp_right (Or.imp_left ?_))
    exact fun ⟨p, hp⟩ => ⟨p, List.mem_of_mem_eraseIdx hp⟩
  | receiveFileDrop peer index =>
    obtain ⟨session, hsession, rfl⟩ := Option.map_eq_some_iff.mp hstep
    exact h.receiveFileDrop (List.mem_of_getElem? hsession)
  | requestFileDrop index filerequest reads =>
    obtain ⟨session, hsession, rfl⟩ := Option.map_eq_some_iff.mp hstep
    have hmem := List.mem_of_getElem? hsession
    have hremoved : OwnKeys { w with fileDrops := w.fileDrops.eraseIdx index } :=
      h.of_sessions rfl rfl fun s hs => List.mem_append.mpr
        ((List.mem_append.mp hs).imp_right List.mem_of_mem_eraseIdx)
    exact hremoved.decideFileDrop (h.sessions session (List.mem_append_right _ hmem))
      filerequest reads

end OwnKeys

/-! ### Runs -/

/-- **The own id stands for the own keys**, in every run whose events are all unambiguous: it is
answered with the own keys, whether or not the contacts can be read, and whoever is let in as the
user has proved to have the keys that the user had at that time. -/
theorem self_not_shadowed {verify : Signature → Keys → Bool} {selfContact : SelfContact Keys}
    {contacts : List ContactId} {events : List (Event Keys Signature)} {w : World Keys}
    (hrun : Run (World.step verify) Unambiguous (.new selfContact contacts) events w) :
    (∀ reads : DbReads, reads.selfContact = true →
      w.db.getContactPublicKeys reads w.db.selfContact.id = some w.db.selfContact.publicKeys) ∧
    ∀ a ∈ w.selfAccesses, a.session.verifiedWith = some a.ownKeys := by
  have hinv : OwnKeys w := by
    refine hrun.invariant ⟨?_, ?_, List.forall_mem_nil _⟩ fun h he hstep => h.step he hstep
    · intro keys hkeys
      rw [World.new, Db.handleGetContactPublicKeys_migrated] at hkeys
      cases hkeys
    · intro s hs
      cases hs
  exact ⟨fun reads hreads => Db.getContactPublicKeys_self hreads hinv.contacts, hinv.selfAccesses⟩

end

/-- Keys and signatures as numbers: a signature verifies with the keys of the same number. -/
def verifyNumber (signature keys : ℕ) : Bool := signature = keys

/-- Someone who has the keys `keys` claims to be `sender`, and the session is stored. -/
def handshakeAs (sender : ContactId) (keys : ℕ) : List (Event ℕ ℕ) :=
  [.sessionEstablishmentRequest ⟨"peer"⟩ ⟨sender, keys, true⟩ ⟨true, true⟩, .storeSession 0]

/-- A request for a file request that is open to nobody comes through the latest session of the
peer, and is decided. -/
def dropFile : List (Event ℕ ℕ) :=
  [.receiveFileDrop ⟨"peer"⟩ 0, .requestFileDrop 0 (some ⟨.audience [], true⟩) ⟨true, true⟩]

/-- Another device of the user is let in, before and after the identity was changed. -/
theorem self_not_shadowed_two_identities : ∃ w,
    Run (World.step verifyNumber) Unambiguous (.new ⟨⟨"self"⟩, 1⟩ [⟨"old"⟩])
      (.createContact ⟨⟨"contact"⟩, 5⟩ :: .registerContact ⟨⟨"self"⟩, 1⟩ ::
        (handshakeAs ⟨"self"⟩ 1 ++ dropFile ++ .updateIdentity ⟨⟨"old"⟩, 2⟩ :: .clearSessionStore ::
          (handshakeAs ⟨"old"⟩ 2 ++ dropFile))) w ∧
    w.selfAccesses.length = 2 ∧
    w.db.getContactPublicKeys ⟨true, true⟩ w.db.selfContact.id = some w.db.selfContact.publicKeys ∧
    ∀ a ∈ w.selfAccesses, a.session.verifiedWith = some a.ownKeys := by
  exact Run.exists_and Run.get_runFrom fun hrun =>
    ⟨by decide, (self_not_shadowed hrun).1 ⟨true, true⟩ rfl, (self_not_shadowed hrun).2⟩

/-- Some run after which the own id is answered with other keys. -/
def AnsweredWithOtherKeys (events : List (Event ℕ ℕ)) : Prop := ∃ w,
  Run (World.step verifyNumber) (fun _ _ => True) (.new ⟨⟨"self"⟩, 1⟩ []) events w ∧
  w.db.getContactPublicKeys ⟨true, true⟩ w.db.selfContact.id ≠ some w.db.selfContact.publicKeys

/-- Some run in which someone is let in as the user who has not proved to have the user's keys. -/
def LetInWithOtherKeys (events : List (Event ℕ ℕ)) : Prop := ∃ w,
  Run (World.step verifyNumber) (fun _ _ => True) (.new ⟨⟨"self"⟩, 1⟩ []) events w ∧
  ∃ a ∈ w.selfAccesses, a.session.verifiedWith ≠ some a.ownKeys

/-- **How the own id is shadowed.** A peer shares a contact with the user's id and its own keys, and
is let in with them; the user takes the id of a contact; the user keeps the id and changes the keys,
while a session of the old keys is in the cache. -/
theorem self_shadowed : AnsweredWithOtherKeys [.createContact ⟨⟨"self"⟩, 7⟩] ∧
    LetInWithOtherKeys (.createContact ⟨⟨"self"⟩, 7⟩ :: (handshakeAs ⟨"self"⟩ 7 ++ dropFile)) ∧
    AnsweredWithOtherKeys [.registerContact ⟨⟨"contact"⟩, 5⟩, .updateIdentity ⟨⟨"contact"⟩, 2⟩] ∧
    LetInWithOtherKeys (handshakeAs ⟨"self"⟩ 1 ++ .clearSession ⟨"peer"⟩ ::
      .updateIdentity ⟨⟨"self"⟩, 2⟩ :: .clearSessionStore :: dropFile) := by
  refine ⟨?_, ?_, ?_, ?_⟩ <;> exact ⟨_, Run.get_runFrom, by decide⟩

end Fyles.SelfIdentity
