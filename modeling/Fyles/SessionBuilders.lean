import Fyles.Internal.Broadcast
import Fyles.SessionManager

/-!
# What those who wait for a session are told

`SessionManager` tells those who wait on a channel at once, and lets a builder be dropped at any
time. Here the channel is that of the source (`OneshotBroadcastSender` in `p2p/src/crypto.rs`): a
broadcast channel with one slot, a sender that is consumed by sending, and whose destructor sends an
error if nothing was sent. Who waits has subscribed while the build store was locked, and looks at
the channel later, when anything may have happened to the builder.

## The life of a builder

A builder is made by the first who needs a session. It is in the build store, then perhaps in the
hands of the handler of a response, which asks the brain for the keys of the sender. It ends

* with the error response of the peer or a failure of the transport (`cancel`),
* with the session, or with the error that no secret could be derived (`to_session`), or
* in its destructor: the response could not be verified, the handler does not get an answer of the
  brain, the build store is cleared because the identity changes, another builder takes its place,
  or its time is over and the map that it is in removes it.

Which sessions are in the session store, and which entries the crate below the map removes, is up to
the events.

## Main results

* `InitiatorSessionCreation.broadcast_new` — what `to_session` sends on the channel
* `Kept` — a channel is empty as long as its builder exists, and has one value after that
* `builder_outcomes` — everyone is told exactly one thing, and nobody panics
-/

namespace Fyles.Handshake

open Function (update update_of_ne update_self)

variable {z : Sizes}

/-! ### The sender -/

/-- What those who wait are told. -/
abbrev Told := Except SessionEstablishmentError Session

/-- `SessionEstablishmentSender`. -/
structure SessionEstablishmentSender where
  hasSent : Bool
  sender : Broadcast Told

namespace SessionEstablishmentSender

/-- `new`. -/
def new : SessionEstablishmentSender := ⟨false, .new 1⟩

variable (s : SessionEstablishmentSender) (value : Told)

/-- `non_destructive_send`. -/
def nonDestructiveSend : SessionEstablishmentSender :=
  ⟨true, s.sender.send value⟩

/-- The destructor. -/
def drop : SessionEstablishmentSender :=
  if s.hasSent then { s with sender := s.sender.close }
  else { s with sender := (s.sender.send (.error .droppedWithoutResponse)).close }

/-- `send`, which consumes the sender. -/
def send : SessionEstablishmentSender :=
  (s.nonDestructiveSend value).drop

/-- `subscribe`. -/
def subscribe : ℕ := s.sender.subscribe

/-- The sender is gone, and has sent one value. -/
def HasTold : Prop :=
  s.sender = ⟨1, [value], true⟩

theorem hasTold_send : (new.send value).HasTold value := rfl

theorem hasTold_drop : new.drop.HasTold (.error .droppedWithoutResponse) := rfl

/-- As long as nothing was sent, who has subscribed waits. -/
theorem recv_new : new.sender.recv new.subscribe = .pending :=
  Broadcast.recv_of_length_eq rfl rfl

/-- Who has subscribed before the value was sent receives it. -/
theorem HasTold.recv {s value} (h : HasTold s value) :
    s.sender.recv new.subscribe = .value value := by
  have hsent : s.sender.sent = [] ++ value :: [] := by rw [h]; rfl
  exact Broadcast.recv_of_append hsent (by rw [h]; exact Nat.one_pos)

end SessionEstablishmentSender

/-! ### What builders send -/

namespace InitiatorSessionCreation

variable (S : Suite z) (builder : InitiatorSessionCreation)

/-- `cancel`. -/
def cancel (cause : SessionEstablishmentError) (s : SessionEstablishmentSender) :
    SessionEstablishmentSender :=
  s.send (.error cause)

/-- `to_session`, as far as the sender is concerned. If the response cannot be verified then the
function returns early, and the sender is dropped. -/
def broadcast (now : ℕ) (response : KeyExchangeResponse z)
    (otherPublicKeys : Option ContactPublicKeys) (s : SessionEstablishmentSender) :
    SessionEstablishmentSender :=
  match response.unpack S otherPublicKeys with
  | .error _ => s.drop
  | .ok message =>
    match message.toSharedSecrets S builder.initiatorSecrets with
    | none => s.send (.error .sharedSecretGenerationFailed)
    | some secrets =>
      s.send (.ok (Session.new S now (response.authentication otherPublicKeys.isSome) secrets true))

/-- The session was built from the secrets of the builder. -/
def Built (session : Session) : Prop :=
  ∃ now, ∃ response : KeyExchangeResponse z, ∃ keys : Option ContactPublicKeys, ∃ secrets,
    response.message.toSharedSecrets S builder.initiatorSecrets = some secrets ∧
      session = Session.new S now (response.authentication keys.isSome) secrets true

variable {S}

/-- What `to_session` sends is what `SessionManager.finish` tells those who wait. -/
theorem broadcast_new (now : ℕ)
    (response : KeyExchangeResponse z) (keys : Option ContactPublicKeys) :
    (builder.broadcast S now response keys .new).HasTold
      (builder.toSession S now response keys).2 := by
  rw [broadcast, toSession.eq_def]
  cases response.unpack S keys with
  | error e => exact SessionEstablishmentSender.hasTold_drop
  | ok message =>
    dsimp only
    cases message.toSharedSecrets S builder.initiatorSecrets with
    | none => exact SessionEstablishmentSender.hasTold_send _
    | some secrets => exact SessionEstablishmentSender.hasTold_send _

end InitiatorSessionCreation

/-- **An error, or a session that was built from the builder's own secrets.** -/
def Fits (S : Suite z) (builder : InitiatorSessionCreation) : Told → Prop
  | .ok session => builder.Built S session
  | .error _ => True

theorem fits_toSession (S : Suite z) (builder : InitiatorSessionCreation) (now : ℕ)
    (response : KeyExchangeResponse z) (keys : Option ContactPublicKeys) :
    Fits S builder (builder.toSession S now response keys).2 := by
  cases h : (builder.toSession S now response keys).2 with
  | error e => trivial
  | ok session =>
    obtain ⟨-, secrets, hsecrets, hsession⟩ :=
      InitiatorSessionCreation.toSession_ok (InitiatorSessionCreation.toSession_fst_of_snd h)
    exact ⟨now, response, keys, secrets, hsecrets, hsession⟩

/-! ### The calls, the builders and the channels -/

namespace Building

/-- Why `get_or_establish_session` returns no session. -/
inductive GetSessionError
  | establishment (error : SessionEstablishmentError)
  | ephemeralSecretGenerationError
  | signingError
  | internal (message : String)
  deriving DecidableEq

/-- A call of `get_or_establish_session`. -/
inductive Task
  | lookUp (peer : PeerId) (contact : Option ContactId) (attempt : ℕ)
  /-- There is none: look for a builder, or make one. -/
  | build (peer : PeerId) (contact : Option ContactId) (attempt : ℕ)
  | join (peer : PeerId) (contact : Option ContactId) (attempt channel receiver : ℕ)
  /-- Wait for the builder of this call, until the time is over. -/
  | await (channel receiver deadline : ℕ)
  | returned (result : Except GetSessionError Session)
  /-- The `expect` was reached with an error. -/
  | panicked
  /-- The caller has lost its interest. -/
  | cancelled
  deriving DecidableEq

/-- The channel that a call waits on, and its receiver. -/
def Task.waitsOn : Task → Option (ℕ × ℕ)
  | .join _ _ _ channel receiver | .await channel receiver _ => some (channel, receiver)
  | .lookUp .. | .build .. | .returned _ | .panicked | .cancelled => none

/-- The call is over. -/
def Task.isOver : Task → Bool
  | .returned _ | .panicked | .cancelled => true
  | .lookUp .. | .build .. | .join .. | .await .. => false

/-- The next attempt, if there is one. -/
def Task.retry (peer : PeerId) (contact : Option ContactId) (attempt : ℕ) : Task :=
  if attempt + 1 < 2 then .lookUp peer contact (attempt + 1)
  else .returned (.error
    (.internal "Did not obtain a session in two loops which should be impossible"))

/-- `SESSION_ESTABLISHMENT_TIMEOUT`. -/
def sessionEstablishmentTimeout : ℕ := seconds 10

/-- The state. -/
structure World (z : Sizes) where
  manager : SessionManager
  clock : ℕ
  senders : ℕ → SessionEstablishmentSender
  /-- The builder that was made for each channel, and its peer. -/
  built : ℕ → Option (PeerId × InitiatorSessionCreation)
  nextChannel : ℕ
  /-- The handlers of responses that ask the brain. -/
  handlers : List (InitiatorSessionCreation × KeyExchangeResponse z)
  tasks : ℕ → Option Task
  /-- Which calls have begun to wait on which channel. -/
  subscribed : List (ℕ × ℕ)
  /-- What they were told. -/
  received : List (ℕ × ℕ × Told)

/-- What can happen. -/
inductive Event (z : Sizes)
  | pass (duration : ℕ)
  /-- `get_or_establish_session` is called. -/
  | call (id : ℕ) (peer : PeerId) (contact : Option ContactId)
  | lookUp (id : ℕ)
  /-- The call gets the lock of the build store. If it makes a builder then inserting it may remove
  others whose time is over. -/
  | build (id : ℕ) (seed : Bytes) (vacuumed : List PeerId)
  /-- The call looks at the channel that it waits on. -/
  | poll (id : ℕ)
  | cancel (id : ℕ)
  /-- A response, or an error response, has arrived. -/
  | response (peer : PeerId)
      (response : Except ResponderSessionEstablishmentError (KeyExchangeResponse z))
  /-- The brain has answered the handler of a response. -/
  | finish (index : ℕ) (maybeKeys : Option ContactPublicKeys)
  /-- The handler of a response ends without an answer of the brain. -/
  | abort (index : ℕ)
  | failure (peer : PeerId)
  /-- The four parts of `update_identity`. -/
  | setSelfContactId (contactId : ContactId)
  | setKeys (keys : ContactKeys)
  | clearBuildStore
  | clearSessionStore
  | store (peer : PeerId) (session : Session)
  | clearSession (peer : PeerId)

namespace World

/-- A node that has just been started. -/
def new (removesStale : Bool) (now : ℕ) (contactId : ContactId) (keys : ContactKeys) : World z where
  manager := .new removesStale now contactId keys
  clock := now
  senders := fun _ => .new
  built := fun _ => none
  nextChannel := 0
  handlers := []
  tasks := fun _ => none
  subscribed := []
  received := []

variable (w : World z)

/-- What a call does next. -/
def setTask (id : ℕ) (task : Task) : World z :=
  { w with tasks := update w.tasks id (some task) }

/-- A call begins to wait. -/
def wait (id channel : ℕ) (task : Task) : World z :=
  { w with
    tasks := update w.tasks id (some task)
    subscribed := w.subscribed ++ [(id, channel)] }

/-- A call is told something. -/
def receive (id channel : ℕ) (told : Told) (task : Task) : World z :=
  { w with
    tasks := update w.tasks id (some task)
    received := w.received ++ [(id, channel, told)] }

/-- The builder of a channel is one of those that are removed from the store. -/
def isDiscarded (p : PeerId → ℕ → Bool) (channel : ℕ) : Bool :=
  match w.built channel with
  | some (peer, _) =>
    (w.manager.sessionBuildStore.map peer).any fun e => e.1.channel = channel && p peer e.2
  | none => false

/-- Builders are removed from the store, and dropped. -/
def dropBuilders (p : PeerId → ℕ → Bool) : World z :=
  { w with
    manager := { w.manager with sessionBuildStore := w.manager.sessionBuildStore.discard p }
    senders := fun channel =>
      if w.isDiscarded p channel then (w.senders channel).drop else w.senders channel }

/-- A builder is made and stored. The one that it replaces is dropped. -/
def insertBuilder (vacuumed : List PeerId) (peer : PeerId)
    (secrets : SessionInitiatorPrivateKeys) : World z :=
  let w := w.dropBuilders fun p expiry => p = peer || p ∈ vacuumed && expiry ≤ w.clock
  let builder := ⟨secrets, w.nextChannel⟩
  { w with
    manager := { w.manager with
      sessionBuildStore := (w.manager.sessionBuildStore.insert w.clock peer builder).1 }
    senders := update w.senders w.nextChannel .new
    built := update w.built w.nextChannel (some (peer, builder))
    nextChannel := w.nextChannel + 1 }

/-- `get_or_establish_session`, with the lock of the build store. -/
def build (S : Suite z) (w : World z) (id : ℕ) (seed : Bytes) (vacuumed : List PeerId)
    (peer : PeerId) (contact : Option ContactId) (attempt : ℕ) : World z :=
  match w.manager.sessionBuildStore.get w.clock peer with
  | some sessionBuild =>
    w.wait id sessionBuild.channel
      (.join peer contact attempt sessionBuild.channel (w.senders sessionBuild.channel).subscribe)
  | none =>
    match SessionInitiatorSecrets.new S seed with
    | none => w.setTask id (.returned (.error .ephemeralSecretGenerationError))
    | some sessionInitiatorSecrets =>
      match (SessionInitiationRequest.new sessionInitiatorSecrets.publicKeys contact).sign S seed
          w.manager.keys.privateKeys w.manager.selfContactId with
      | none => w.setTask id (.returned (.error .signingError))
      | some _ =>
        (w.insertBuilder vacuumed peer sessionInitiatorSecrets.privateKeys).wait id w.nextChannel
          (.await w.nextChannel SessionEstablishmentSender.new.subscribe
            (w.clock + sessionEstablishmentTimeout))

/-- A call looks at the channel. Who has made the builder waits for a limited time, and does not
expect that there is nothing to be received. -/
def poll (id : ℕ) : Task → Option (World z)
  | .join peer contact attempt channel receiver =>
    match (w.senders channel).sender.recv receiver with
    | .pending => none
    | .lagged | .closed => some (w.setTask id (.retry peer contact attempt))
    | .value (.error e) => some (w.receive id channel (.error e) (.retry peer contact attempt))
    | .value (.ok session) =>
      some (w.receive id channel (.ok session) (.returned (.ok session)))
  | .await channel receiver deadline =>
    match (w.senders channel).sender.recv receiver with
    | .pending =>
      if deadline ≤ w.clock then
        some (w.receive id channel (.error .noResponse)
          (.returned (.error (.establishment .noResponse))))
      else none
    | .lagged | .closed => some (w.setTask id .panicked)
    | .value told => some (w.receive id channel told (.returned (told.mapError .establishment)))
  | .lookUp .. | .build .. | .returned _ | .panicked | .cancelled => none

/-- The build store without the builder of a peer. -/
def removeBuilder (peer : PeerId) : World z :=
  { w with
    manager := { w.manager with
      sessionBuildStore := (w.manager.sessionBuildStore.remove w.clock peer).1 } }

/-- A handler removes the builder of a peer. A builder whose time is over may be dropped by that. -/
def takeBuilder (peer : PeerId) : Option InitiatorSessionCreation × World z :=
  match (w.manager.sessionBuildStore.remove w.clock peer).2 with
  | some builder => (some builder, w.removeBuilder peer)
  | none => (none, w.dropBuilders fun p _ => p = peer)

/-- The sender of a channel is consumed. -/
def tell (channel : ℕ)
    (f : SessionEstablishmentSender → SessionEstablishmentSender) : World z :=
  { w with senders := update w.senders channel (f (w.senders channel)) }

/-- A handler removes the builder of a peer and cancels it. -/
def cancelBuilder (peer : PeerId) (cause : SessionEstablishmentError) : World z :=
  match w.takeBuilder peer with
  | (some builder, w) => w.tell builder.channel (InitiatorSessionCreation.cancel cause)
  | (none, w) => w

/-- One step. -/
def step (S : Suite z) (w : World z) : Event z → Option (World z)
  | .pass duration => some { w with clock := w.clock + duration }
  | .call id peer contact =>
    match w.tasks id with
    | none => some (w.setTask id (.lookUp peer contact 0))
    | some _ => none
  | .lookUp id =>
    match w.tasks id with
    | some (.lookUp peer contact attempt) =>
      some (w.setTask id (match w.manager.getEstablishedSession w.clock peer true with
        | some session => .returned (.ok session)
        | none => .build peer contact attempt))
    | _ => none
  | .build id seed vacuumed =>
    match w.tasks id with
    | some (.build peer contact attempt) => some (w.build S id seed vacuumed peer contact attempt)
    | _ => none
  | .poll id => (w.tasks id).bind (w.poll id)
  | .cancel id =>
    match w.tasks id with
    | some task => if task.isOver then none else some (w.setTask id .cancelled)
    | none => none
  | .response peer response =>
    match response with
    | .error e => some (w.cancelBuilder peer (.responder e))
    | .ok response =>
      match w.takeBuilder peer with
      | (some builder, w) => some { w with handlers := w.handlers ++ [(builder, response)] }
      | (none, w) => some w
  | .finish index maybeKeys =>
    w.handlers[index]?.map fun h =>
      { w with handlers := w.handlers.eraseIdx index }.tell h.1.channel
        (h.1.broadcast S w.clock h.2 maybeKeys)
  | .abort index =>
    w.handlers[index]?.map fun h =>
      { w with handlers := w.handlers.eraseIdx index }.tell h.1.channel
        SessionEstablishmentSender.drop
  | .failure peer => some (w.cancelBuilder peer .noResponse)
  | .setSelfContactId contactId =>
    some { w with manager := { w.manager with selfContactId := contactId } }
  | .setKeys keys => some { w with manager := { w.manager with keys := keys } }
  | .clearBuildStore => some (w.dropBuilders fun _ _ => true)
  | .clearSessionStore =>
    some { w with manager := { w.manager with sessionStore := w.manager.sessionStore.clear } }
  | .store peer session =>
    some { w with manager := w.manager.insertSession w.clock peer session }
  | .clearSession peer => some { w with manager := w.manager.clearSession w.clock peer }

end World

/-! ### Exactly one outcome -/

/-- The builder is in the store, or in the hands of a handler. -/
def Alive (store : PeerId → Option (InitiatorSessionCreation × ℕ))
    (hands : List InitiatorSessionCreation) (builder : InitiatorSessionCreation) : Prop :=
  (∃ peer expiry, store peer = some (builder, expiry)) ∨ builder ∈ hands

namespace World

/-- The builder exists. -/
def Holds (w : World z) (builder : InitiatorSessionCreation) : Prop :=
  Alive w.manager.sessionBuildStore.map (w.handlers.map Prod.fst) builder

/-- What a call was told on a channel. -/
def outcomes (w : World z) (id channel : ℕ) : List Told :=
  (w.received.filter fun r => r.1 = id && r.2.1 = channel).map fun r => r.2.2

/-- The call waits on the channel, and was told nothing. It still waits when it looks at the channel
as long as the builder exists; after that it receives something. -/
def Waits (S : Suite z) (w : World z) (id channel : ℕ) (builder : InitiatorSessionCreation) :
    Prop :=
  w.outcomes id channel = [] ∧
    ∃ task receiver, w.tasks id = some task ∧ task.waitsOn = some (channel, receiver) ∧
      (w.Holds builder ∧ (w.senders channel).sender.recv receiver = .pending ∨
        ¬ w.Holds builder ∧ ∃ told, (w.senders channel).sender.recv receiver = .value told ∧
          Fits S builder told)

/-- **Exactly one outcome.** Who has begun to wait on a builder still waits, was told exactly one
thing, an error or a session of that builder, which is then what the call returns, or was cancelled
before. -/
def Served (S : Suite z) (w : World z) (id channel : ℕ) : Prop :=
  ∃ peer builder, w.built channel = some (peer, builder) ∧
    (w.Waits S id channel builder ∨
      (∃ told, w.outcomes id channel = [told] ∧ Fits S builder told ∧
        ∀ session, told = .ok session → w.tasks id = some (.returned (.ok session))) ∨
      (w.tasks id = some .cancelled ∧ w.outcomes id channel = []))

/-- The call has not panicked, and if it returns the error of a builder then it was told that. -/
def Justified (w : World z) (id : ℕ) : Task → Prop
  | .panicked => False
  | .returned (.error (.establishment e)) => ∃ channel, w.outcomes id channel = [.error e]
  | _ => True

end World

/-! ### Channels and builders -/

/-- A channel is empty as long as its builder exists, and has one value after that. -/
structure Kept (S : Suite z) (built : ℕ → Option (PeerId × InitiatorSessionCreation))
    (store : PeerId → Option (InitiatorSessionCreation × ℕ)) (hands : List InitiatorSessionCreation)
    (senders : ℕ → SessionEstablishmentSender) (nextChannel : ℕ) : Prop where
  fresh : ∀ channel, nextChannel ≤ channel → built channel = none
  stored : ∀ peer builder expiry, store peer = some (builder, expiry) →
    built builder.channel = some (peer, builder)
  held : ∀ builder ∈ hands, (∃ peer, built builder.channel = some (peer, builder)) ∧
    ∀ peer expiry, store peer ≠ some (builder, expiry)
  nodup : hands.Nodup
  told : ∀ channel peer builder, built channel = some (peer, builder) →
    builder.channel = channel ∧
      (Alive store hands builder ∧ senders channel = .new ∨
        ¬ Alive store hands builder ∧ ∃ told, (senders channel).HasTold told ∧ Fits S builder told)

section Keeping

variable {S : Suite z} {peer : PeerId} {builder : InitiatorSessionCreation} {channel expiry : ℕ}

namespace Kept

variable {built : ℕ → Option (PeerId × InitiatorSessionCreation)}
  {store : PeerId → Option (InitiatorSessionCreation × ℕ)}
  {hands hands' : List InitiatorSessionCreation} {senders : ℕ → SessionEstablishmentSender}
  {nextChannel : ℕ}

theorem new : Kept S (fun _ => none) (fun _ => none) [] (fun _ => .new) 0 where
  fresh _ _ := rfl
  stored _ _ _ h := nomatch h
  held _ h := nomatch h
  nodup := List.nodup_nil
  told _ _ _ h := nomatch h

variable (h : Kept S built store hands senders nextChannel)
include h

/-- The channel of a builder that exists is empty. -/
theorem silent (hbuilt : built channel = some (peer, builder))
    (halive : Alive store hands builder) : senders channel = .new :=
  ((h.told channel peer builder hbuilt).2.resolve_right fun hgone => hgone.1 halive).2

theorem ne_nextChannel (hbuilt : built channel = some (peer, builder)) : channel ≠ nextChannel := by
  rintro rfl
  cases (h.fresh channel (Nat.le_refl _)).symm.trans hbuilt

theorem perm (hperm : hands.Perm hands') : Kept S built store hands' senders nextChannel where
  __ := h
  held b hb := h.held b (hperm.mem_iff.mpr hb)
  nodup := hperm.nodup h.nodup
  told c p b hb := by
    have halive : Alive store hands' b ↔ Alive store hands b := or_congr_right hperm.mem_iff.symm
    rw [halive]
    exact h.told c p b hb

theorem take (hstore : store peer = some (builder, expiry)) :
    Kept S built (update store peer none) (builder :: hands) senders nextChannel := by
  have halive : ∀ b, Alive (update store peer none) (builder :: hands) b ↔
      Alive store hands b := by
    refine fun b => ⟨?_, ?_⟩
    · rintro (⟨p, t, ht⟩ | hmem)
      · exact .inl ⟨p, t, (of_update_eq ht nofun).2⟩
      · rcases List.mem_cons.mp hmem with rfl | hmem
        · exact .inl ⟨peer, expiry, hstore⟩
        · exact .inr hmem
    · rintro (⟨p, t, ht⟩ | hmem)
      · by_cases hp : p = peer
        · subst hp
          obtain ⟨rfl, -⟩ := Prod.mk.inj (Option.mem_unique ht hstore)
          exact .inr List.mem_cons_self
        · exact .inl ⟨p, t, (update_of_ne hp _ _).trans ht⟩
      · exact .inr (List.mem_cons_of_mem _ hmem)
  constructor
  case fresh => exact h.fresh
  case stored => exact fun p b t hp => h.stored p b t (of_update_eq hp nofun).2
  case held =>
    intro b hb
    rcases List.mem_cons.mp hb with rfl | hb
    · refine ⟨⟨peer, h.stored peer b expiry hstore⟩, fun p t ht => ?_⟩
      obtain ⟨hp, ht⟩ := of_update_eq ht nofun
      have hother := (h.stored p b t ht).symm.trans (h.stored peer b expiry hstore)
      exact hp (Prod.mk.inj (Option.some.inj hother)).1
    · obtain ⟨hbuilt, hne⟩ := h.held b hb
      exact ⟨hbuilt, fun p t ht => hne p t (of_update_eq ht nofun).2⟩
  case nodup =>
    exact List.nodup_cons.mpr ⟨fun hmem => (h.held builder hmem).2 peer expiry hstore, h.nodup⟩
  case told =>
    intro c p b hb
    rw [halive]
    exact h.told c p b hb

/-- A handler consumes the sender of the builder that it has. -/
theorem tell (hmem : builder ∈ hands) (hnodup : hands'.Nodup)
    (hhands : ∀ b, b ∈ hands' ↔ b ≠ builder ∧ b ∈ hands) {s value}
    (hs : s.HasTold value) (hfits : Fits S builder value) :
    Kept S built store hands' (update senders builder.channel s) nextChannel := by
  obtain ⟨⟨peer, hbuilt⟩, hne⟩ := h.held builder hmem
  constructor
  case fresh => exact h.fresh
  case stored => exact h.stored
  case held => exact fun b hb => h.held b ((hhands b).mp hb).2
  case nodup => exact hnodup
  case told =>
    intro c p b hb
    obtain ⟨rfl, hor⟩ := h.told c p b hb
    refine ⟨rfl, ?_⟩
    by_cases hbne : b = builder
    · subst hbne
      rw [update_self]
      refine .inr ⟨?_, value, hs, hfits⟩
      rintro (⟨p', t, ht⟩ | hb')
      · exact hne p' t ht
      · exact ((hhands b).mp hb').1 rfl
    · -- another builder has another channel
      have hchannel : b.channel ≠ builder.channel := by
        intro hc
        rw [hc] at hb
        exact hbne (Prod.mk.inj (Option.mem_unique hb hbuilt)).2
      have halive : Alive store hands' b ↔ Alive store hands b :=
        or_congr_right ((hhands b).trans (and_iff_right hbne))
      rwa [update_of_ne hchannel, halive]

theorem insert (hnone : store peer = none) (hchannel : builder.channel = nextChannel) :
    Kept S (update built nextChannel (some (peer, builder)))
      (update store peer (some (builder, expiry))) hands
      (update senders nextChannel .new) (nextChannel + 1) := by
  constructor
  case fresh =>
    intro c hc
    rw [update_of_ne (by omega)]
    exact h.fresh c (by omega)
  case stored =>
    intro p b t hp
    rcases update_eq_cases hp with ⟨rfl, hnew⟩ | ⟨-, hp⟩
    · obtain ⟨rfl, -⟩ := Prod.mk.inj (Option.some.inj hnew)
      rw [hchannel, update_self]
    · have hb := h.stored p b t hp
      exact (update_of_ne (h.ne_nextChannel hb) _ _).trans hb
  case held =>
    intro b hb
    obtain ⟨⟨p, hp⟩, hnot⟩ := h.held b hb
    refine ⟨⟨p, (update_of_ne (h.ne_nextChannel hp) _ _).trans hp⟩, fun p' t ht => ?_⟩
    rcases update_eq_cases ht with ⟨-, hnew⟩ | ⟨-, ht⟩
    · obtain ⟨rfl, -⟩ := Prod.mk.inj (Option.some.inj hnew)
      exact h.ne_nextChannel hp hchannel
    · exact hnot p' t ht
  case nodup => exact h.nodup
  case told =>
    intro c p b hb
    rcases update_eq_cases hb with ⟨rfl, hnew⟩ | ⟨hc, hb⟩
    · obtain ⟨⟩ := hnew
      exact ⟨hchannel, .inl ⟨.inl ⟨peer, expiry, update_self _ _ _⟩, update_self _ _ _⟩⟩
    · -- an older builder is where it was
      have halive : Alive (update store peer (some (builder, expiry))) hands b ↔
          Alive store hands b := by
        refine or_congr_left ⟨fun ⟨p', t, ht⟩ => ?_, fun ⟨p', t, ht⟩ => ⟨p', t, ?_⟩⟩
        · rcases update_eq_cases ht with ⟨-, hnew⟩ | ⟨-, ht⟩
          · have hsame := (Prod.mk.inj (Option.some.inj hnew)).1
            exact absurd ((h.told c p b hb).1.symm.trans (hsame ▸ hchannel)) hc
          · exact ⟨p', t, ht⟩
        · have hp : p' ≠ peer := by
            rintro rfl
            cases hnone.symm.trans ht
          exact (update_of_ne hp _ _).trans ht
      rw [update_of_ne hc, halive]
      exact h.told c p b hb

end Kept

/-! ### What happens to the builders -/

namespace World

variable {w w' : World z} {p : PeerId → ℕ → Bool}

/-- `Kept`, of a state. -/
def Keeps (S : Suite z) (w : World z) : Prop :=
  Kept S w.built w.manager.sessionBuildStore.map (w.handlers.map Prod.fst) w.senders w.nextChannel

/-- **What a receiver gets**: nothing as long as the builder exists, and after that one value. -/
theorem Keeps.recv (h : w.Keeps S) (hbuilt : w.built channel = some (peer, builder)) :
    w.Holds builder ∧
        (w.senders channel).sender.recv SessionEstablishmentSender.new.subscribe = .pending ∨
      ¬ w.Holds builder ∧ ∃ told,
        (w.senders channel).sender.recv SessionEstablishmentSender.new.subscribe = .value told ∧
          Fits S builder told := by
  obtain ⟨-, ⟨hholds, hnew⟩ | ⟨hgone, told, htold, hfits⟩⟩ := h.told channel peer builder hbuilt
  · refine .inl ⟨hholds, ?_⟩
    rw [hnew]
    exact SessionEstablishmentSender.recv_new
  · exact .inr ⟨hgone, told, htold.recv, hfits⟩

theorem map_dropBuilders :
    (w.dropBuilders p).manager.sessionBuildStore.map peer = some (builder, expiry) ↔
      w.manager.sessionBuildStore.map peer = some (builder, expiry) ∧ p peer expiry = false :=
  TtlMap.discard_eq_some

/-- A builder that was in the store is dropped exactly if its entry is removed. -/
theorem Keeps.isDiscarded_iff (h : w.Keeps S)
    (hbuilt : w.built channel = some (peer, builder)) : w.isDiscarded p channel = true ↔
      ∃ expiry, w.manager.sessionBuildStore.map peer = some (builder, expiry) ∧
        p peer expiry = true := by
  rw [isDiscarded, hbuilt]
  rw [Option.any_eq_true]
  constructor
  · rintro ⟨⟨builder', expiry⟩, hstore, hp⟩
    rw [Bool.and_eq_true, decide_eq_true_eq] at hp
    have hstored := h.stored peer builder' expiry hstore
    rw [hp.1, hbuilt] at hstored
    obtain ⟨-, rfl⟩ := Prod.mk.inj (Option.some.inj hstored)
    exact ⟨expiry, hstore, hp.2⟩
  · rintro ⟨expiry, hstore, hp⟩
    refine ⟨(builder, expiry), hstore, ?_⟩
    rw [Bool.and_eq_true, decide_eq_true_eq]
    exact ⟨(h.told channel peer builder hbuilt).1, hp⟩

/-- A builder exists after others were dropped if it has existed before, and is not one of them. -/
theorem Keeps.holds_dropBuilders (h : w.Keeps S)
    (hbuilt : w.built channel = some (peer, builder)) : (w.dropBuilders p).Holds builder ↔
      w.Holds builder ∧ ¬ w.isDiscarded p channel = true := by
  have hpeer : ∀ {peer' expiry}, w.manager.sessionBuildStore.map peer' = some (builder, expiry) →
      peer' = peer := by
    intro peer' expiry hstore
    have hstored := h.stored peer' builder expiry hstore
    rw [(h.told channel peer builder hbuilt).1, hbuilt] at hstored
    exact (Prod.mk.inj (Option.some.inj hstored)).1.symm
  rw [h.isDiscarded_iff hbuilt]
  constructor
  · rintro (⟨peer', expiry, hstore⟩ | hmem)
    · obtain ⟨hstore, hp⟩ := map_dropBuilders.mp hstore
      obtain rfl := hpeer hstore
      refine ⟨.inl ⟨peer', expiry, hstore⟩, fun ⟨expiry', hstore', hp'⟩ => ?_⟩
      obtain ⟨-, rfl⟩ := Prod.mk.inj (Option.mem_unique hstore hstore')
      cases hp.symm.trans hp'
    · exact ⟨.inr hmem, fun ⟨expiry, hstore, _⟩ => (h.held builder hmem).2 peer expiry hstore⟩
  · rintro ⟨⟨peer', expiry, hstore⟩ | hmem, hkeep⟩
    · obtain rfl := hpeer hstore
      refine .inl ⟨peer', expiry, map_dropBuilders.mpr ⟨hstore, ?_⟩⟩
      exact Bool.eq_false_iff.mpr fun hp => hkeep ⟨expiry, hstore, hp⟩
    · exact .inr hmem

theorem Keeps.dropBuilders (h : w.Keeps S) : (w.dropBuilders p).Keeps S := by
  constructor
  case fresh => exact h.fresh
  case stored =>
    exact fun peer b t hstore => h.stored peer b t (map_dropBuilders.mp hstore).1
  case held =>
    intro b hb
    obtain ⟨hbuilt, hne⟩ := h.held b hb
    exact ⟨hbuilt, fun peer t ht => hne peer t (map_dropBuilders.mp ht).1⟩
  case nodup => exact h.nodup
  case told =>
    intro c peer b hbuilt
    obtain ⟨hc, hor⟩ := h.told c peer b hbuilt
    have halive := h.holds_dropBuilders (p := p) hbuilt
    rw [Holds] at halive
    refine ⟨hc, ?_⟩
    rw [halive]
    show _ ∧ (if w.isDiscarded p c then _ else _) = _ ∨
      _ ∧ ∃ told, SessionEstablishmentSender.HasTold (if w.isDiscarded p c then _ else _) told ∧ _
    by_cases hdiscarded : w.isDiscarded p c = true
    · obtain ⟨t, ht, -⟩ := (h.isDiscarded_iff hbuilt).mp hdiscarded
      rw [if_pos hdiscarded, h.silent hbuilt (.inl ⟨peer, t, ht⟩)]
      exact .inr ⟨fun hkept => hkept.2 hdiscarded, _, SessionEstablishmentSender.hasTold_drop,
        trivial⟩
    · rw [if_neg hdiscarded, and_iff_left hdiscarded]
      exact hor

theorem Keeps.insertBuilder (h : w.Keeps S) {vacuumed : List PeerId}
    {secrets : SessionInitiatorPrivateKeys} : (w.insertBuilder vacuumed peer secrets).Keeps S := by
  have hdrop := h.dropBuilders (p := fun p expiry => p = peer || p ∈ vacuumed && expiry ≤ w.clock)
  refine Kept.insert hdrop (Option.eq_none_iff_forall_ne_some.mpr fun (b, t) hstore => ?_) rfl
  have hkept := (map_dropBuilders.mp hstore).2
  simp at hkept

theorem takeBuilder_cases (w : World z) (peer : PeerId) :
    (∃ builder expiry, w.manager.sessionBuildStore.map peer = some (builder, expiry) ∧
      w.takeBuilder peer = (some builder, w.removeBuilder peer)) ∨
    w.takeBuilder peer = (none, w.dropBuilders fun p _ => p = peer) := by
  rw [takeBuilder]
  cases hr : (w.manager.sessionBuildStore.remove w.clock peer).2 with
  | some builder =>
    obtain ⟨expiry, hstore⟩ := TtlMap.map_of_remove hr
    exact .inl ⟨builder, expiry, hstore, rfl⟩
  | none => exact .inr rfl

theorem Keeps.cancelBuilder (h : w.Keeps S) {cause : SessionEstablishmentError} :
    (w.cancelBuilder peer cause).Keeps S := by
  rw [World.cancelBuilder]
  rcases w.takeBuilder_cases peer with ⟨builder, expiry, hstore, htake⟩ | htake
  · rw [htake]
    have hkept := Kept.take h hstore
    have htold : (InitiatorSessionCreation.cancel cause (w.senders builder.channel)).HasTold
        (.error cause) := by
      rw [h.silent (h.stored peer builder expiry hstore) (.inl ⟨peer, expiry, hstore⟩)]
      exact SessionEstablishmentSender.hasTold_send _
    have hnot := (List.nodup_cons.mp hkept.nodup).1
    refine hkept.tell List.mem_cons_self h.nodup (fun b => ?_) htold trivial
    rw [List.mem_cons]
    exact ⟨fun hb => ⟨fun heq => hnot (heq ▸ hb), .inr hb⟩, fun hb => hb.2.resolve_left hb.1⟩
  · rw [htake]
    exact h.dropBuilders

theorem Keeps.handler (h : w.Keeps S)
    (hstore : w.manager.sessionBuildStore.map peer = some (builder, expiry))
    (response : KeyExchangeResponse z) :
    Keeps S { w.removeBuilder peer with handlers := w.handlers ++ [(builder, response)] } := by
  have hkept := Kept.take h hstore
  have hperm : List.Perm (builder :: w.handlers.map Prod.fst)
      ((w.handlers ++ [(builder, response)]).map Prod.fst) := by
    rw [List.map_append]
    exact (List.perm_append_singleton builder _).symm
  exact hkept.perm hperm

/-- The handler of a response consumes the builder that it has. -/
theorem Keeps.endHandler (h : w.Keeps S) {index : ℕ} {response}
    (hhandler : w.handlers[index]? = some (builder, response))
    {f : SessionEstablishmentSender → SessionEstablishmentSender} {value}
    (hf : (f .new).HasTold value) (hfits : Fits S builder value) :
    ({ w with handlers := w.handlers.eraseIdx index }.tell builder.channel f).Keeps S := by
  have hget : (w.handlers.map Prod.fst)[index]? = some builder := by
    rw [List.getElem?_map, hhandler]
    rfl
  have hmem : builder ∈ w.handlers.map Prod.fst := List.mem_of_getElem? hget
  obtain ⟨⟨peer, hbuilt⟩, -⟩ := h.held builder hmem
  have htold : (f (w.senders builder.channel)).HasTold value := by
    rwa [h.silent hbuilt (.inr hmem)]
  have herase : (w.handlers.eraseIdx index).map Prod.fst =
      (w.handlers.map Prod.fst).erase builder := by
    obtain ⟨hlt, hget⟩ := List.getElem?_eq_some_iff.mp hget
    rw [← hget, h.nodup.erase_getElem, List.eraseIdx_map]
  show Kept S w.built w.manager.sessionBuildStore.map ((w.handlers.eraseIdx index).map Prod.fst) _ _
  rw [herase]
  exact Kept.tell h hmem (h.nodup.erase builder) (fun b => h.nodup.mem_erase_iff) htold hfits

end World

end Keeping

/-! ### What happens to the calls -/

/-- **The invariant.** -/
structure Sound (S : Suite z) (w : World z) : Prop where
  keeps : w.Keeps S
  justified : ∀ id task, w.tasks id = some task → w.Justified id task
  /-- Who waits has subscribed to an empty channel, and was told nothing. -/
  waiting : ∀ id task channel receiver, w.tasks id = some task →
    task.waitsOn = some (channel, receiver) →
    receiver = SessionEstablishmentSender.new.subscribe ∧ (id, channel) ∈ w.subscribed ∧
      w.outcomes id channel = []
  /-- Who does not wait any more was told something or was cancelled. It can have been told
  something by a builder that still exists only if its time was over. -/
  subscribed : ∀ id channel, (id, channel) ∈ w.subscribed →
    ∃ peer builder, w.built channel = some (peer, builder) ∧
      ((∃ task receiver, w.tasks id = some task ∧ task.waitsOn = some (channel, receiver)) ∨
        (∃ told, w.outcomes id channel = [told] ∧ Fits S builder told ∧
          (∀ session, told = .ok session → w.tasks id = some (.returned (.ok session))) ∧
          (w.Holds builder → ∃ task, w.tasks id = some task ∧ task.isOver = true)) ∨
        (w.tasks id = some .cancelled ∧ w.outcomes id channel = []))
  received : ∀ r ∈ w.received, (r.1, r.2.1) ∈ w.subscribed

namespace Sound

variable {S : Suite z} {w w' : World z} {id channel : ℕ} {task task' : Task} {peer : PeerId}
  {builder : InitiatorSessionCreation}

theorem new {removesStale : Bool} {now : ℕ} {contactId : ContactId} {keys : ContactKeys} :
    Sound S (.new removesStale now contactId keys) where
  keeps := Kept.new
  justified _ _ h := nomatch h
  waiting _ _ _ _ h := nomatch h
  subscribed _ _ h := nomatch h
  received _ h := nomatch h

/-- What a call returns is justified by what it was told. -/
theorem justified_of_outcomes (houtcomes : ∀ c, w'.outcomes id c = w.outcomes id c)
    (h : w.Justified id task) : w'.Justified id task := by
  unfold World.Justified at h ⊢
  simpa only [houtcomes] using h

theorem builders (h : Sound S w) (hkeeps : w'.Keeps S) (htasks : w'.tasks = w.tasks)
    (hsubscribed : w'.subscribed = w.subscribed) (hreceived : w'.received = w.received)
    (hbuilt : ∀ c p b, w.built c = some (p, b) →
      w'.built c = some (p, b) ∧ (w'.Holds b → w.Holds b)) : Sound S w' := by
  have houtcomes : ∀ id c, w'.outcomes id c = w.outcomes id c := fun id c => by
    rw [World.outcomes, hreceived, World.outcomes]
  constructor
  case keeps => exact hkeeps
  case justified =>
    intro id task htask
    rw [htasks] at htask
    exact justified_of_outcomes (houtcomes id) (h.justified id task htask)
  case waiting =>
    intro id task c receiver htask hwaits
    rw [htasks] at htask
    rw [hsubscribed, houtcomes]
    exact h.waiting id task c receiver htask hwaits
  case subscribed =>
    intro id c hmem
    rw [hsubscribed] at hmem
    obtain ⟨peer, b, hb, hor⟩ := h.subscribed id c hmem
    obtain ⟨hb', hholds⟩ := hbuilt c peer b hb
    rw [htasks, houtcomes]
    refine ⟨peer, b, hb', hor.imp_right (Or.imp_left ?_)⟩
    rintro ⟨told, htold, hfits, hsession, hover⟩
    exact ⟨told, htold, hfits, hsession, fun hh => hover (hholds hh)⟩
  case received =>
    rw [hsubscribed, hreceived]
    exact h.received

/-- A call that goes on, and does not wait on the channel, was told an error on it before, by a
builder that does not exist any more. -/
theorem told_before (h : Sound S w) (hmem : (id, channel) ∈ w.subscribed)
    (hold : ∀ t, w.tasks id = some t →
      (∀ receiver, t.waitsOn ≠ some (channel, receiver)) ∧ t.isOver = false) :
    ∃ peer builder, w.built channel = some (peer, builder) ∧ ¬ w.Holds builder ∧
      ∃ e, w.outcomes id channel = [.error e] := by
  obtain ⟨peer, b, hb, ⟨t, r, ht, hw⟩ | ⟨told, htold, -, hsession, hend⟩ | ⟨hcancelled, -⟩⟩ :=
    h.subscribed id channel hmem
  · exact absurd hw ((hold t ht).1 r)
  · refine ⟨peer, b, hb, fun hholds => ?_, ?_⟩
    · obtain ⟨t, ht, htrue⟩ := hend hholds
      cases (hold t ht).2.symm.trans htrue
    · cases told with
      | error e => exact ⟨e, htold⟩
      | ok session => cases (hold _ (hsession session rfl)).2
  · cases (hold _ hcancelled).2

theorem ofCall (h : Sound S w) (hkeeps : w'.Keeps S) (hbuilt : w'.built = w.built)
    (hholds : ∀ b, w'.Holds b → w.Holds b)
    (htasks : w'.tasks = update w.tasks id (some task'))
    (hothers : ∀ id' c, id' ≠ id → ((id', c) ∈ w'.subscribed ↔ (id', c) ∈ w.subscribed) ∧
      w'.outcomes id' c = w.outcomes id' c)
    (hjustified : w'.Justified id task')
    (hwaiting : ∀ c receiver, task'.waitsOn = some (c, receiver) →
      receiver = SessionEstablishmentSender.new.subscribe ∧ (id, c) ∈ w'.subscribed ∧
        w'.outcomes id c = [])
    (hsubscribed : ∀ c, (id, c) ∈ w'.subscribed →
      ∃ peer builder, w.built c = some (peer, builder) ∧
        ((∃ receiver, task'.waitsOn = some (c, receiver)) ∨
          (∃ told, w'.outcomes id c = [told] ∧ Fits S builder told ∧
            (∀ session, told = .ok session → task' = .returned (.ok session)) ∧
            (w.Holds builder → task'.isOver = true)) ∨
          (task' = .cancelled ∧ w'.outcomes id c = [])))
    (hreceived : ∀ r ∈ w'.received, (r.1, r.2.1) ∈ w'.subscribed) : Sound S w' := by
  have hself : w'.tasks id = some task' := by rw [htasks, update_self]
  constructor
  case keeps => exact hkeeps
  case justified =>
    intro id' t ht
    rw [htasks] at ht
    rcases update_eq_cases ht with ⟨rfl, hsame⟩ | ⟨hid, ht⟩
    · obtain ⟨⟩ := hsame
      exact hjustified
    · exact justified_of_outcomes (fun c => (hothers id' c hid).2) (h.justified id' t ht)
  case waiting =>
    intro id' t c receiver ht hwaits
    rw [htasks] at ht
    rcases update_eq_cases ht with ⟨rfl, hsame⟩ | ⟨hid, ht⟩
    · obtain ⟨⟩ := hsame
      exact hwaiting c receiver hwaits
    · rw [(hothers id' c hid).1, (hothers id' c hid).2]
      exact h.waiting id' t c receiver ht hwaits
  case subscribed =>
    intro id' c hmem
    rw [hbuilt]
    by_cases hid : id' = id
    · subst hid
      obtain ⟨peer, b, hb, hor⟩ := hsubscribed c hmem
      refine ⟨peer, b, hb, ?_⟩
      rcases hor with ⟨r, hwaits⟩ | ⟨told, htold, hfits, hsession, hover⟩ | ⟨rfl, hempty⟩
      · exact .inl ⟨task', r, hself, hwaits⟩
      · exact .inr (.inl ⟨told, htold, hfits, fun s hs => hself.trans (congrArg _ (hsession s hs)),
          fun hb => ⟨task', hself, hover (hholds b hb)⟩⟩)
      · exact .inr (.inr ⟨hself, hempty⟩)
    · obtain ⟨peer, b, hb, hor⟩ := h.subscribed id' c ((hothers id' c hid).1.mp hmem)
      rw [(hothers id' c hid).2, htasks, update_of_ne hid]
      refine ⟨peer, b, hb, hor.imp_right (Or.imp_left ?_)⟩
      rintro ⟨told, htold, hfits, hsession, hover⟩
      exact ⟨told, htold, hfits, hsession, fun hh => hover (hholds b hh)⟩
  case received => exact hreceived

theorem setTask (h : Sound S w)
    (hold : ∀ t, w.tasks id = some t → t.waitsOn = none ∧ t.isOver = false)
    (hnew : task'.waitsOn = none) (hjustified : w.Justified id task') :
    Sound S (w.setTask id task') := by
  refine h.ofCall h.keeps rfl (fun _ hb => hb) rfl (fun _ _ _ => ⟨.rfl, rfl⟩) hjustified
    (fun c r hwaits => nomatch hnew.symm.trans hwaits) (fun c hmem => ?_) h.received
  obtain ⟨peer, b, hb, hgone, e, he⟩ := h.told_before hmem fun t ht =>
    ⟨fun r hwaits => (nomatch (hold t ht).1.symm.trans hwaits), (hold t ht).2⟩
  exact ⟨peer, b, hb, .inr (.inl ⟨_, he, trivial, nofun, fun hholds => absurd hholds hgone⟩)⟩

theorem cancel (h : Sound S w) (htask : w.tasks id = some task) (hover : task.isOver = false) :
    Sound S (w.setTask id .cancelled) := by
  refine h.ofCall h.keeps rfl (fun _ hb => hb) rfl (fun _ _ _ => ⟨.rfl, rfl⟩) trivial nofun
    (fun c hmem => ?_) h.received
  obtain ⟨peer, b, hb, ⟨t, r, ht, hwaits⟩ | ⟨told, htold, hfits, hsession, -⟩ | ⟨hcancelled, -⟩⟩ :=
    h.subscribed id c hmem
  · exact ⟨peer, b, hb, .inr (.inr ⟨rfl, (h.waiting id t c r ht hwaits).2.2⟩)⟩
  · refine ⟨peer, b, hb, .inr (.inl ⟨told, htold, hfits, fun s hs => ?_, fun _ => rfl⟩)⟩
    -- who was told a session is not cancelled any more
    obtain rfl := Option.mem_unique htask (hsession s hs)
    cases hover
  · obtain rfl := Option.mem_unique htask hcancelled
    cases hover

/-- A call begins to wait on a builder that exists. -/
theorem wait (h : Sound S w) (htask : w.tasks id = some task) (hold : task.waitsOn = none)
    (hover : task.isOver = false)
    (hbuilt : w.built channel = some (peer, builder)) (hholds : w.Holds builder)
    (hnew : task'.waitsOn = some (channel, SessionEstablishmentSender.new.subscribe)) :
    Sound S (w.wait id channel task') := by
  have hbefore : ∀ {c}, (id, c) ∈ w.subscribed → _ := fun hmem =>
    h.told_before hmem fun t ht => by
      obtain rfl := Option.mem_unique htask ht
      exact ⟨fun r hwaits => (nomatch hold.symm.trans hwaits), hover⟩
  -- it has not waited on this channel before
  have hnot : (id, channel) ∉ w.subscribed := by
    intro hmem
    obtain ⟨peer', b, hb, hgone, -⟩ := hbefore hmem
    obtain ⟨-, rfl⟩ := Prod.mk.inj (Option.mem_unique hbuilt hb)
    exact hgone hholds
  have hempty : w.outcomes id channel = [] := by
    rw [World.outcomes, List.map_eq_nil_iff, List.filter_eq_nil_iff]
    intro r hr hc
    rw [Bool.and_eq_true, decide_eq_true_eq, decide_eq_true_eq] at hc
    exact hnot (hc.1 ▸ hc.2 ▸ h.received r hr)
  refine h.ofCall h.keeps rfl (fun _ hb => hb) rfl ?_ ?_ ?_ ?_ fun r hr =>
    List.mem_append_left _ (h.received r hr)
  · intro id' c hid
    refine ⟨⟨fun hmem => ?_, List.mem_append_left _⟩, rfl⟩
    refine (List.mem_append.mp hmem).resolve_right fun hc => ?_
    exact hid (Prod.mk.inj (List.mem_singleton.mp hc)).1
  · cases task' with
    | join | await => trivial
    | _ => cases hnew
  · intro c receiver hwaits
    obtain ⟨rfl, rfl⟩ := Prod.mk.inj (Option.mem_unique hnew hwaits)
    exact ⟨rfl, List.mem_append_right _ List.mem_cons_self, hempty⟩
  · intro c hmem
    rcases List.mem_append.mp hmem with hmem | hmem
    · obtain ⟨peer', b, hb, hgone, e, he⟩ := hbefore hmem
      exact ⟨peer', b, hb, .inr (.inl ⟨_, he, trivial, nofun, fun hb => absurd hb hgone⟩)⟩
    · obtain ⟨-, rfl⟩ := Prod.mk.inj (List.mem_singleton.mp hmem)
      exact ⟨peer, builder, hbuilt, .inl ⟨_, hnew⟩⟩

theorem outcomes_receive (told : Told) (id' c : ℕ) :
    (w.receive id channel told task').outcomes id' c =
      w.outcomes id' c ++ if id' = id ∧ c = channel then [told] else [] := by
  rw [World.outcomes, World.receive, List.filter_append, List.map_append]
  refine congrArg (w.outcomes id' c ++ ·) ?_
  by_cases hc : id' = id ∧ c = channel
  · obtain ⟨rfl, rfl⟩ := hc
    simp
  · rw [if_neg hc, List.filter_eq_nil_iff.mpr]
    · rfl
    · intro r hr
      rw [List.mem_singleton.mp hr, Bool.and_eq_true, decide_eq_true_eq, decide_eq_true_eq]
      exact fun hand => hc ⟨hand.1.symm, hand.2.symm⟩

theorem receive (h : Sound S w) (htask : w.tasks id = some task) {receiver : ℕ}
    (hwaits : task.waitsOn = some (channel, receiver))
    (hbuilt : w.built channel = some (peer, builder)) {told} (hfits : Fits S builder told)
    (hnew : task'.waitsOn = none)
    (hjustified : (w.receive id channel told task').outcomes id channel = [told] →
      (w.receive id channel told task').Justified id task')
    (hsession : ∀ session, told = .ok session → task' = .returned (.ok session))
    (hover : w.Holds builder → task'.isOver = true) :
    Sound S (w.receive id channel told task') := by
  obtain ⟨-, hmem, hempty⟩ := h.waiting id task channel receiver htask hwaits
  have htold : (w.receive id channel told task').outcomes id channel = [told] := by
    rw [outcomes_receive, if_pos ⟨rfl, rfl⟩, hempty]
    rfl
  refine h.ofCall h.keeps rfl (fun _ hb => hb) rfl ?_ (hjustified htold)
    (fun c r hw => nomatch hnew.symm.trans hw) ?_ ?_
  · intro id' c hid
    refine ⟨.rfl, ?_⟩
    rw [outcomes_receive, if_neg fun hc => hid hc.1, List.append_nil]
  · intro c hmem'
    by_cases hc : c = channel
    · subst hc
      exact ⟨peer, builder, hbuilt, .inr (.inl ⟨told, htold, hfits, hsession, hover⟩)⟩
    · -- it waited on one channel only, and was told an error on the other one before
      obtain ⟨peer', b, hb, hgone, e, he⟩ := h.told_before hmem' fun t ht => by
        obtain rfl := Option.mem_unique htask ht
        refine ⟨fun r hw => hc (Prod.mk.inj (Option.mem_unique hw hwaits)).1, ?_⟩
        cases task <;> first | rfl | cases hwaits
      refine ⟨peer', b, hb,
        .inr (.inl ⟨.error e, ?_, trivial, nofun, fun hh => absurd hh hgone⟩)⟩
      rw [outcomes_receive, if_neg fun hand => hc hand.2, he]
      rfl
  · intro r hr
    rcases List.mem_append.mp hr with hr | hr
    · exact h.received r hr
    · obtain rfl := List.mem_singleton.mp hr
      exact hmem

/-! ### Steps -/

/-- The builders are those that were there before, and some of them do not exist any more. -/
theorem fewer (h : Sound S w) (hkeeps : w'.Keeps S) (htasks : w'.tasks = w.tasks)
    (hsubscribed : w'.subscribed = w.subscribed) (hreceived : w'.received = w.received)
    (hbuilt : w'.built = w.built) (hholds : ∀ b, w'.Holds b → w.Holds b) : Sound S w' :=
  h.builders hkeeps htasks hsubscribed hreceived fun _ _ b hb => ⟨hbuilt ▸ hb, hholds b⟩

theorem map_of_map_removeBuilder {p} {expiry : ℕ}
    (h : (w.removeBuilder peer).manager.sessionBuildStore.map p = some (builder, expiry)) :
    w.manager.sessionBuildStore.map p = some (builder, expiry) :=
  (TtlMap.map_of_map_remove w.clock h).2

theorem dropBuilders (h : Sound S w) {p : PeerId → ℕ → Bool} : Sound S (w.dropBuilders p) :=
  h.fewer h.keeps.dropBuilders rfl rfl rfl rfl fun _ => Or.imp_left fun ⟨peer, expiry, hstore⟩ =>
    ⟨peer, expiry, (World.map_dropBuilders.mp hstore).1⟩

theorem cancelBuilder (h : Sound S w) {cause : SessionEstablishmentError} :
    Sound S (w.cancelBuilder peer cause) := by
  have hkeeps : (w.cancelBuilder peer cause).Keeps S := h.keeps.cancelBuilder
  rw [World.cancelBuilder] at hkeeps ⊢
  rcases w.takeBuilder_cases peer with ⟨builder, expiry, hstore, htake⟩ | htake
  · rw [htake] at hkeeps ⊢
    refine h.fewer hkeeps rfl rfl rfl rfl fun b hb => hb.imp_left ?_
    rintro ⟨p, t, ht⟩
    exact ⟨p, t, map_of_map_removeBuilder ht⟩
  · rw [htake]
    exact h.dropBuilders

theorem response (h : Sound S w) {response}
    (hstep : w.step S (.response peer (.ok response)) = some w') : Sound S w' := by
  rw [World.step] at hstep
  rcases w.takeBuilder_cases peer with ⟨builder, expiry, hstore, htake⟩ | htake
  · rw [htake] at hstep
    obtain ⟨⟩ := hstep
    refine h.fewer (h.keeps.handler hstore response) rfl rfl rfl rfl fun b hb => ?_
    rcases hb with ⟨p, t, ht⟩ | hb
    · exact .inl ⟨p, t, map_of_map_removeBuilder ht⟩
    · rw [List.map_append] at hb
      rcases List.mem_append.mp hb with hb | hb
      · exact .inr hb
      · obtain rfl := List.mem_singleton.mp hb
        exact .inl ⟨peer, expiry, hstore⟩
  · rw [htake] at hstep
    obtain ⟨⟩ := hstep
    exact h.dropBuilders

theorem endHandler (h : Sound S w) {index : ℕ} {response}
    (hhandler : w.handlers[index]? = some (builder, response))
    {f : SessionEstablishmentSender → SessionEstablishmentSender} {value}
    (hf : (f .new).HasTold value) (hfits : Fits S builder value) :
    Sound S ({ w with handlers := w.handlers.eraseIdx index }.tell builder.channel f) := by
  refine h.fewer (h.keeps.endHandler hhandler hf hfits) rfl rfl rfl rfl fun b hb => ?_
  refine hb.imp_right fun hb => ?_
  obtain ⟨x, hx, rfl⟩ := List.mem_map.mp hb
  exact List.mem_map_of_mem (List.mem_of_mem_eraseIdx hx)

theorem insertBuilder (h : Sound S w) {vacuumed : List PeerId}
    {secrets : SessionInitiatorPrivateKeys} : Sound S (w.insertBuilder vacuumed peer secrets) := by
  refine h.builders h.keeps.insertBuilder rfl rfl rfl fun c p b hb => ?_
  have hne := h.keeps.ne_nextChannel hb
  refine ⟨(update_of_ne hne _ _).trans hb, ?_⟩
  rintro (⟨p', t, ht⟩ | hmem)
  · rcases TtlMap.insert_cases ht with ⟨-, rfl, -⟩ | ⟨-, ht⟩
    · -- the new builder is not one of the old ones
      exact absurd (h.keeps.told c p _ hb).1.symm hne
    · exact .inl ⟨p', t, (World.map_dropBuilders.mp ht).1⟩
  · exact .inr hmem

theorem build (h : Sound S w) {seed vacuumed contact} {attempt : ℕ}
    (htask : w.tasks id = some (.build peer contact attempt)) :
    Sound S (w.build S id seed vacuumed peer contact attempt) := by
  have hold : ∀ t, w.tasks id = some t → t.waitsOn = none ∧ t.isOver = false := by
    intro t ht
    obtain rfl := Option.mem_unique htask ht
    exact ⟨rfl, rfl⟩
  rw [World.build]
  cases hget : w.manager.sessionBuildStore.get w.clock peer with
  | some sessionBuild =>
    obtain ⟨expiry, hstore, -⟩ := TtlMap.get_eq_some.mp hget
    have hbuilt := h.keeps.stored peer sessionBuild expiry hstore
    refine h.wait htask rfl rfl hbuilt (.inl ⟨peer, expiry, hstore⟩) ?_
    rw [h.keeps.silent hbuilt (.inl ⟨peer, expiry, hstore⟩)]
    rfl
  | none =>
    dsimp only
    split
    · exact h.setTask hold rfl trivial
    · split
      · exact h.setTask hold rfl trivial
      · exact h.insertBuilder.wait htask rfl rfl (update_self _ _ _)
          (.inl ⟨peer, _, update_self _ _ _⟩) rfl

theorem poll (h : Sound S w) (htask : w.tasks id = some task) (hstep : w.poll id task = some w') :
    Sound S w' := by
  have hserved : ∀ {channel receiver}, task.waitsOn = some (channel, receiver) →
      ∃ peer builder, w.built channel = some (peer, builder) ∧
        (w.Holds builder ∧ (w.senders channel).sender.recv receiver = .pending ∨
          ¬ w.Holds builder ∧ ∃ told, (w.senders channel).sender.recv receiver = .value told ∧
            Fits S builder told) := by
    intro channel receiver hwaits
    obtain ⟨rfl, hmem, -⟩ := h.waiting id task channel receiver htask hwaits
    obtain ⟨peer, builder, hbuilt, -⟩ := h.subscribed id channel hmem
    exact ⟨peer, builder, hbuilt, h.keeps.recv hbuilt⟩
  cases task with
  | join peer contact attempt channel receiver =>
    obtain ⟨peer', builder, hbuilt, ⟨-, hrecv⟩ | ⟨hnot, told, hrecv, hfits⟩⟩ := hserved rfl
    · rw [World.poll, hrecv] at hstep
      cases hstep
    · rw [World.poll, hrecv] at hstep
      cases told with
      | error e =>
        obtain ⟨⟩ := hstep
        refine h.receive htask rfl hbuilt hfits ?_ (fun _ => ?_) nofun fun hc => absurd hc hnot
        · rw [Task.retry]
          split <;> rfl
        · rw [Task.retry]
          split <;> trivial
      | ok session =>
        obtain ⟨⟩ := hstep
        exact h.receive htask rfl hbuilt hfits rfl (fun _ => trivial) (by rintro _ ⟨⟩; rfl)
          fun _ => rfl
  | await channel receiver deadline =>
    obtain ⟨peer, builder, hbuilt, ⟨-, hrecv⟩ | ⟨-, told, hrecv, hfits⟩⟩ := hserved rfl
    · rw [World.poll, hrecv] at hstep
      dsimp only at hstep
      split at hstep
      · obtain ⟨⟩ := hstep
        exact h.receive htask rfl hbuilt trivial rfl (fun htold => ⟨channel, htold⟩) nofun
          fun _ => rfl
      · cases hstep
    · rw [World.poll, hrecv] at hstep
      obtain ⟨⟩ := hstep
      refine h.receive htask rfl hbuilt hfits rfl (fun htold => ?_) (by rintro _ rfl; rfl)
        fun _ => rfl
      cases told with
      | ok session => trivial
      | error e => exact ⟨channel, htold⟩
  | _ => cases hstep

/-- **One step.** -/
theorem step (h : Sound S w) {event} (hstep : w.step S event = some w') : Sound S w' := by
  cases event with
  | call id peer contact =>
    rw [World.step] at hstep
    split at hstep
    · next hnone =>
      obtain ⟨⟩ := hstep
      exact h.setTask (fun t ht => nomatch hnone.symm.trans ht) rfl trivial
    · cases hstep
  | lookUp id =>
    rw [World.step] at hstep
    split at hstep
    · next peer contact attempt htask =>
      obtain ⟨⟩ := hstep
      refine h.setTask (fun t ht => ?_) ?_ ?_
      · obtain rfl := Option.mem_unique htask ht
        exact ⟨rfl, rfl⟩
      · split <;> rfl
      · split <;> trivial
    · cases hstep
  | build id seed vacuumed =>
    rw [World.step] at hstep
    split at hstep
    · next peer contact attempt htask =>
      obtain ⟨⟩ := hstep
      exact h.build htask
    · cases hstep
  | poll id =>
    obtain ⟨task, htask, hpoll⟩ := Option.bind_eq_some_iff.mp hstep
    exact h.poll htask hpoll
  | cancel id =>
    rw [World.step] at hstep
    split at hstep
    · next task htask =>
      split at hstep
      · cases hstep
      · next hover =>
        obtain ⟨⟩ := hstep
        exact h.cancel htask (Bool.eq_false_iff.mpr hover)
    · cases hstep
  | response peer response =>
    cases response with
    | error e =>
      obtain ⟨⟩ := hstep
      exact h.cancelBuilder
    | ok response => exact h.response hstep
  | finish index maybeKeys =>
    obtain ⟨⟨builder, response⟩, hhandler, rfl⟩ := Option.map_eq_some_iff.mp hstep
    exact h.endHandler hhandler (builder.broadcast_new w.clock response maybeKeys)
      (fits_toSession S builder w.clock response maybeKeys)
  | abort index =>
    obtain ⟨⟨builder, response⟩, hhandler, rfl⟩ := Option.map_eq_some_iff.mp hstep
    exact h.endHandler hhandler SessionEstablishmentSender.hasTold_drop trivial
  | failure peer =>
    obtain ⟨⟩ := hstep
    exact h.cancelBuilder
  | clearBuildStore =>
    obtain ⟨⟩ := hstep
    exact h.dropBuilders
  | _ =>
    obtain ⟨⟩ := hstep
    exact h.fewer h.keeps rfl rfl rfl rfl fun _ hb => hb

/-- What the invariant says about who has begun to wait. -/
theorem served (h : Sound S w) (hmem : (id, channel) ∈ w.subscribed) : w.Served S id channel := by
  obtain ⟨peer, builder, hbuilt, ⟨task, receiver, htask, hwaits⟩ |
    ⟨told, htold, hfits, hsession, -⟩ | hcancelled⟩ := h.subscribed id channel hmem
  · obtain ⟨rfl, -, hempty⟩ := h.waiting id task channel receiver htask hwaits
    exact ⟨peer, builder, hbuilt,
      .inl ⟨hempty, task, _, htask, hwaits, h.keeps.recv hbuilt⟩⟩
  · exact ⟨peer, builder, hbuilt, .inr (.inl ⟨told, htold, hfits, hsession⟩)⟩
  · exact ⟨peer, builder, hbuilt, .inr (.inr hcancelled)⟩

end Sound

/-! ### Outcomes -/

/-- **Everyone is told exactly one thing.** Whatever happens to a builder, and in whatever order:
who has begun to wait on it still waits while it exists, and receives an error or the session that
was built from its secrets as soon as it does not. Nobody is told a second thing by the same
builder, a call that returns the error of a builder was told that error, and the `expect` of the
call that has made the builder is never reached with an error. -/
theorem builder_outcomes {S : Suite z} {removesStale : Bool} {now : ℕ} {contactId : ContactId}
    {keys : ContactKeys} {events : List (Event z)} {w : World z}
    (hrun : Run (World.step S) (fun _ _ => True) (.new removesStale now contactId keys) events w) :
    (∀ id channel, (id, channel) ∈ w.subscribed → w.Served S id channel) ∧
      (∀ id e, w.tasks id = some (.returned (.error (.establishment e))) →
        ∃ channel, w.outcomes id channel = [.error e]) ∧
      ∀ id, w.tasks id ≠ some .panicked := by
  have hsound : Sound S w := hrun.invariant .new fun h _ hstep => h.step hstep
  exact ⟨fun _ _ hmem => hsound.served hmem, fun id _ => hsound.justified id _,
    fun id => hsound.justified id _⟩

/-- Bob's answer to a request that was made of the seed `3`. -/
def answer : KeyExchangeResponse .sample :=
  ⟨⟨"bob"⟩, ⟨.replicate 1 8, .replicate 32 5⟩, true, [], []⟩

/-- The session that is built from it. -/
def answered : Session :=
  Session.new .sample 0 .otherKnowsMe ⟨.replicate 32 5, .replicate 32 15⟩ true

/-- Two calls wait for one builder, and are told of its session. -/
theorem builder_outcomes_joined : ∃ w : World .sample, Run (World.step .sample) (fun _ _ => True)
        (.new false 0 ⟨"alice"⟩ ⟨⟨[1], [1]⟩, ⟨[1], [1]⟩⟩)
        [.call 0 ⟨"b"⟩ none, .lookUp 0, .build 0 [3] [], .call 1 ⟨"b"⟩ none, .lookUp 1,
          .build 1 [] [], .response ⟨"b"⟩ (.ok answer), .finish 0 none, .clearBuildStore, .poll 1,
          .poll 0] w ∧
      w.subscribed = [(0, 0), (1, 0)] ∧ w.outcomes 0 0 = [.ok answered] ∧
      w.outcomes 1 0 = [.ok answered] ∧ w.Served .sample 0 0 ∧ w.Served .sample 1 0 := by
  exact Run.exists_and Run.get_runFrom fun hrun =>
    ⟨by decide, by decide, by decide, (builder_outcomes hrun).1 0 0 (by decide),
      (builder_outcomes hrun).1 1 0 (by decide)⟩

end Building

end Fyles.Handshake
