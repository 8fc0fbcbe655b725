import Fyles.ContactAttribution
import Fyles.Internal.Run
import Fyles.SessionManager

/-!
# Sessions that have expired

A session has two expiries: messages are to be encrypted under it for half an hour, and accepted for
a minute more. Only one function compares them with the time, and it answers two questions at once:
if a session may no longer be used to send, it is still returned if it may be used to receive. The
recent sessions are returned without a comparison. What keeps them from being used forever is that
the maps forget them: the store half an hour and a minute after the session was stored, the cache
fifteen seconds after it was replaced or cleared. A response is encrypted under the session that the
request was decrypted with.

If the times are right (`Timely`), then the expiries are respected. Handlers take their time, but no
handler has a session in its hands for longer than some delay, and

* no request is sent in the last minute of the session that the store has, or just before it;
* no request arrives under a session that may soon no longer be used to send;
* no message arrives under a session that the store is about to forget;
* a session is replaced or cleared fifteen seconds and the delay before it is not to be accepted any
  more, or earlier.

## Main results

* `InTime.step` — the invariant
* `expiry_respected` — expiries are respected if the times are right
* `expiry_ignored` — and the ways in which they are not
-/

namespace Fyles.Handshake

variable {z : Sizes}

/-- **Expiries are respected.** -/
structure RespectsExpiry (acts : List (Act z)) : Prop where
  /-- No request is encrypted under a session that may no longer be used. -/
  requests : ∀ peer session lookedUp now established,
    .encryptedRequest peer session lookedUp now established ∈ acts → now < session.useExpiry
  /-- No response is. -/
  responses : ∀ peer session now, .encryptedResponse peer session now ∈ acts →
    now < session.useExpiry
  /-- No message is accepted under a session that may no longer be accepted. -/
  accepted : ∀ peer session now, .accepted peer session now ∈ acts → now < session.acceptExpiry
  /-- A session that may no longer be used is not found, when a request is to be sent. -/
  renewed : ∀ peer now stored found, .lookedUp peer now (some stored) found ∈ acts →
    stored.useExpiry ≤ now → found = none
  /-- A request is encrypted under the session that was found, -/
  found : ∀ peer session lookedUp now,
    .encryptedRequest peer session lookedUp now false ∈ acts →
    .lookedUp peer lookedUp (some session) (some session) ∈ acts
  /-- or under one that was created after the store was asked. -/
  established : ∀ peer session lookedUp now,
    .encryptedRequest peer session lookedUp now true ∈ acts →
    lookedUp + sessionValidityDuration ≤ session.useExpiry

/-! ### The right times -/

/-- When a session was created. -/
def Session.createdAt (session : Session) : ℕ := session.useExpiry - sessionValidityDuration

/-- When a handler got the session that it has in its hands. -/
def Task.since : Task z → Option ℕ
  | .encryptRequest _ session lookedUp established =>
    some (bif established then session.createdAt else lookedUp)
  | .sign _ _ session _ _ _ | .answer _ _ _ _ session | .store _ _ session => some session.createdAt
  | .decrypt _ _ _ readAt => some readAt
  | .encryptResponse _ _ acceptedAt => some acceptedAt
  | .lookUp .. | .build .. | .join .. | .await .. | .finish .. => none

/-- The session that a handler will store. -/
def Task.unstored : Task z → Option Session
  | .sign _ _ session _ _ _ | .answer _ _ _ _ session | .store _ _ session => some session
  | .lookUp .. | .build .. | .join .. | .await .. | .encryptRequest .. | .finish .. |
    .decrypt .. | .encryptResponse .. => none

/-- When a handler that waits for a session has asked the store. -/
def Task.waitsSince : Task z → Option ℕ
  | .build _ _ _ lookedUp | .join _ _ _ lookedUp _ | .await _ lookedUp _ => some lookedUp
  | .lookUp .. | .encryptRequest .. | .sign .. | .answer .. | .finish .. | .store .. |
    .decrypt .. | .encryptResponse .. => none

/-- How long a session is retained that was replaced or cleared. -/
def retention : ℕ := seconds 15

variable (delay : ℕ)

/-- When a handler may take its next step: a session is not looked up in its last minute, and is not
replaced too late. -/
def TimelyStep (n : Node z) : Option (Task z) → Prop
  | some (.lookUp peer _ _) => ∀ session ∈ n.manager.sessionStore.get n.clock peer,
      n.clock + delay < session.useExpiry ∨
        (session.useExpiry ≤ n.clock ∧ session.acceptExpiry ≤ n.clock)
  | some (.answer peer _ _ _ _) | some (.store peer _ _) =>
    ∀ session ∈ n.manager.sessionStore.get n.clock peer,
      n.clock + retention + delay ≤ session.acceptExpiry
  | _ => True

instance (n : Node z) : ∀ task, Decidable (TimelyStep delay n task)
  | some (.lookUp ..) | some (.answer ..) | some (.store ..) =>
    inferInstanceAs (Decidable (∀ session ∈ _, _))
  | none | some (.build ..) | some (.join ..) | some (.await ..) | some (.encryptRequest ..) |
    some (.sign ..) | some (.finish ..) | some (.decrypt ..) | some (.encryptResponse ..) =>
    inferInstanceAs (Decidable True)

/-- **The right times.** No handler has a session in its hands for longer than the delay. -/
def Timely (w : World z) : Event z → Prop
  | .pass duration => ∀ task ∈ w.node.tasks, ∀ t ∈ task.since, w.node.clock + duration ≤ t + delay
  | .resume i _ _ => TimelyStep delay w.node w.node.tasks[i]?
  | .clearSession peer =>
    ∀ session ∈ (w.node.manager.sessionStore.remove w.node.clock peer).2,
      w.node.clock + retention + delay ≤ session.acceptExpiry
  | .receive peer isRequest index =>
    ∀ session ∈ (w.node.manager.getRecentReceiveSessions w.node.clock peer).1[index]?,
      (∀ entry ∈ w.node.manager.sessionStore.map peer, entry.1 = session →
        w.node.clock + 2 * delay < entry.2) ∧
      (isRequest = true → w.node.clock + 2 * delay < session.useExpiry)
  | _ => True

instance (w : World z) (e) : Decidable (Timely delay w e) := by
  rw [Timely.eq_def]
  split <;> infer_instance

/-! ### The invariant -/

/-- **The invariant.** -/
structure InTime (w : World z) : Prop where
  /-- The store forgets a session when it expires. -/
  ttl : w.node.manager.sessionStore.ttl =
    sessionValidityDuration + acceptSessionPastValidDuration
  /-- So does the cache. -/
  valueTtl : w.node.manager.expiredSessionCache.valueTtl = retention
  /-- No handler takes too long. -/
  prompt : ∀ task ∈ w.node.tasks, ∀ t ∈ task.since, w.node.clock ≤ t + delay
  /-- A session that is to be stored has the expiries that it was created with. -/
  unstored : ∀ task ∈ w.node.tasks, ∀ session ∈ task.unstored, session.acceptExpiry =
    session.createdAt + sessionValidityDuration + acceptSessionPastValidDuration
  /-- The store forgets a session almost in time. -/
  stored : ∀ peer session t, w.node.manager.sessionStore.map peer = some (session, t) →
    t ≤ session.acceptExpiry + delay
  /-- The cache forgets a session in time. -/
  retained : ∀ peer session t, w.node.manager.expiredSessionCache.Holds peer session t →
    t + delay ≤ session.acceptExpiry
  /-- A message can be decrypted in time, and a request answered. -/
  decrypting : ∀ peer session isRequest readAt,
    .decrypt peer session isRequest readAt ∈ w.node.tasks → readAt + delay < session.acceptExpiry ∧
      (isRequest = true → readAt + 2 * delay < session.useExpiry)
  /-- A request that was accepted can be answered in time. -/
  responding : ∀ peer session acceptedAt,
    .encryptResponse peer session acceptedAt ∈ w.node.tasks → acceptedAt + delay < session.useExpiry
  /-- Nobody has asked the store in the future. -/
  waiting : ∀ task ∈ w.node.tasks, ∀ lookedUp ∈ task.waitsSince, lookedUp ≤ w.node.clock
  /-- A session that was found was found, and can be used in time. -/
  found : ∀ peer session lookedUp, .encryptRequest peer session lookedUp false ∈ w.node.tasks →
    .lookedUp peer lookedUp (some session) (some session) ∈ w.acts ∧
      lookedUp + delay < session.useExpiry
  /-- A session that was waited for is new. -/
  established : ∀ peer session lookedUp,
    .encryptRequest peer session lookedUp true ∈ w.node.tasks →
    lookedUp + sessionValidityDuration ≤ session.useExpiry
  /-- Everything went well up to now. -/
  acts : RespectsExpiry w.acts

namespace InTime

theorem new (removesStale : Bool) (now : ℕ) (contactId : ContactId) (keys : ContactKeys) :
    InTime delay (.new removesStale now contactId keys : World z) where
  ttl := rfl
  valueTtl := rfl
  prompt _ h := by cases h
  unstored _ h := by cases h
  stored _ _ _ h := by cases h
  retained _ _ _ h := absurd h ScopedExpiryMap.not_holds_new
  decrypting _ _ _ _ h := by cases h
  responding _ _ _ h := by cases h
  waiting _ h := by cases h
  found _ _ _ h := by cases h
  established _ _ _ h := by cases h
  acts := by constructor <;> nofun

variable {delay} {S : Suite z} {w : World z} {e : Event z} {n' : Node z} {acts : List (Act z)}
  {session : Session}

theorem expiries_of_toSession {now : ℕ} {builder : InitiatorSessionCreation} {response keys}
    (h : (builder.toSession S now response keys).1 = .ok session) :
    session.useExpiry = now + sessionValidityDuration ∧
      session.acceptExpiry = now + sessionValidityDuration + acceptSessionPastValidDuration := by
  obtain ⟨-, secrets, -, rfl⟩ := InitiatorSessionCreation.toSession_ok h
  exact ⟨rfl, rfl⟩

/-- So are those of a session that is made of a request. -/
theorem expiries_of_toSessionAndResponse {now : ℕ} {request : AuthWireRequest z} {seed keys message}
    (h : request.toSessionAndResponse S now seed keys = .ok (session, message)) :
    session.useExpiry = now + sessionValidityDuration ∧
      session.acceptExpiry = now + sessionValidityDuration + acceptSessionPastValidDuration := by
  obtain ⟨-, secrets, -, rfl⟩ := AuthWireRequest.toSessionAndResponse_ok h
  exact ⟨rfl, rfl⟩

theorem createdAt_eq {now : ℕ} (h : session.useExpiry = now + sessionValidityDuration) :
    session.createdAt = now := by
  rw [Session.createdAt, h, Nat.add_sub_cancel]

/-- A session that is found can be used for the delay, unless it is in its last minute. -/
theorem lt_useExpiry_of_found {peer contact} {attempt : ℕ}
    (hok : TimelyStep delay w.node (some (.lookUp peer contact attempt)))
    (h : w.node.manager.getEstablishedSession w.node.clock peer true = some session) :
    w.node.clock + delay < session.useExpiry := by
  rw [SessionManager.getEstablishedSession] at h
  cases hget : w.node.manager.sessionStore.get w.node.clock peer with
  | none =>
    rw [hget] at h
    cases h
  | some s =>
    rw [hget] at h
    dsimp only at h
    rcases hok s hget with huse | ⟨hused, hexpired⟩
    · split at h
      · exact Option.some.inj h ▸ huse
      · split at h
        · exact Option.some.inj h ▸ huse
        · cases h
    · rw [if_neg (by omega), if_neg (by omega)] at h
      cases h

/-- A step takes no time unless it is one that lets time pass. -/
theorem clock_of_step (h : w.node.step S e = some (n', acts)) :
    n'.clock = w.node.clock + e.duration := by
  obtain ⟨-, -, -, -, -, -, hclock⟩ := Node.outcome_of_step h
  exact hclock

/-- A handler that goes on, or has just been begun, has not taken too long. -/
theorem prompt_step (h : InTime delay w) (hok : Timely delay w e)
    (hstep : w.node.step S e = some (n', acts)) :
    ∀ task ∈ n'.tasks, ∀ t ∈ task.since, n'.clock ≤ t + delay := by
  intro task htask t ht
  rw [clock_of_step hstep]
  rcases Node.begun_of_step hstep htask with htask | hbegun
  · cases e with
    | pass duration => exact hok task htask t ht
    | _ => exact h.prompt task htask t ht
  · -- a session that is created or looked up is in the hands of its handler from now on
    cases hbegun with
    | found | receive | respond =>
      obtain rfl := Option.some.inj ht
      exact Nat.le_add_right _ _
    | joined _ _ hcreated | awaited _ _ hcreated =>
      obtain rfl := Option.some.inj ht
      have hcreated := InitiatorSessionCreation.toSession_fst_of_snd hcreated
      rw [cond_true, createdAt_eq (expiries_of_toSession hcreated).1]
      exact Nat.le_add_right _ _
    | sign hcreated =>
      obtain rfl := Option.some.inj ht
      rw [createdAt_eq (expiries_of_toSessionAndResponse hcreated).1]
      exact Nat.le_add_right _ _
    | answer hsign =>
      obtain rfl := Option.some.inj ht
      exact h.prompt _ (List.mem_of_getElem? hsign) _ rfl
    | store _ hcreated =>
      obtain rfl := Option.some.inj ht
      rw [createdAt_eq (expiries_of_toSession hcreated).1]
      exact Nat.le_add_right _ _
    | _ =>
      cases ht

/-- A session that is to be stored has the expiries that it was created with, also after a step. -/
theorem unstored_step (h : InTime delay w) (hstep : w.node.step S e = some (n', acts)) :
    ∀ task ∈ n'.tasks, ∀ session ∈ task.unstored, session.acceptExpiry =
      session.createdAt + sessionValidityDuration + acceptSessionPastValidDuration := by
  intro task htask session hsession
  rcases Node.begun_of_step hstep htask with htask | hbegun
  · exact h.unstored task htask session hsession
  · cases hbegun with
    | sign hcreated =>
      obtain ⟨⟩ := hsession
      obtain ⟨huse, haccept⟩ := expiries_of_toSessionAndResponse hcreated
      rw [createdAt_eq huse, haccept]
    | answer hsign =>
      obtain ⟨⟩ := hsession
      exact h.unstored _ (List.mem_of_getElem? hsign) _ rfl
    | store _ hcreated =>
      obtain ⟨⟩ := hsession
      obtain ⟨huse, haccept⟩ := expiries_of_toSession hcreated
      rw [createdAt_eq huse, haccept]
    | _ =>
      cases hsession

/-- Nobody has asked the store in the future, also after a step. -/
theorem waiting_step (h : InTime delay w) (hstep : w.node.step S e = some (n', acts)) :
    ∀ task ∈ n'.tasks, ∀ lookedUp ∈ task.waitsSince, lookedUp ≤ n'.clock := by
  intro task htask lookedUp hlookedUp
  rw [clock_of_step hstep]
  refine le_trans ?_ (Nat.le_add_right _ _)
  rcases Node.begun_of_step hstep htask with htask | hbegun
  · exact h.waiting task htask lookedUp hlookedUp
  · cases hbegun with
    | missed =>
      obtain ⟨⟩ := hlookedUp
      exact le_rfl
    | join hbuild | await hbuild =>
      obtain ⟨⟩ := hlookedUp
      exact h.waiting _ (List.mem_of_getElem? hbuild) _ rfl
    | _ =>
      cases hlookedUp

/-- A session is stored at most the delay after it was created, so that the store forgets it at most
the delay too late. -/
theorem stored_step (h : InTime delay w) (hstep : w.node.step S e = some (n', acts)) (peer : PeerId)
    (session : Session) (t : ℕ) (hs : n'.manager.sessionStore.map peer = some (session, t)) :
    t ≤ session.acceptExpiry + delay := by
  have hnew : ∀ task ∈ w.node.tasks, task.unstored = some session →
      task.since = some session.createdAt →
      w.node.clock + w.node.manager.sessionStore.ttl ≤ session.acceptExpiry + delay := by
    intro task htask hunstored hsince
    have hprompt := h.prompt task htask _ hsince
    rw [h.ttl, h.unstored task htask session hunstored]
    omega
  rcases Node.sessionStore_of_step hstep hs with hs | ⟨⟨i, seed, keys, rfl, htask⟩, rfl⟩
  · exact h.stored peer session t hs
  · rcases htask with ⟨request, signer, response, htask⟩ | ⟨builder, htask⟩
    · exact hnew _ (List.mem_of_getElem? htask) rfl rfl
    · exact hnew _ (List.mem_of_getElem? htask) rfl rfl

/-- The cache forgets a session in time, also after a step. -/
theorem retained_step (h : InTime delay w) (hok : Timely delay w e)
    (hstep : w.node.step S e = some (n', acts)) (peer : PeerId) (session : Session) (t : ℕ)
    (hs : n'.manager.expiredSessionCache.Holds peer session t) :
    t + delay ≤ session.acceptExpiry := by
  rcases Node.expiredSessionCache_of_step hstep hs with hs | ⟨hdisplaces, rfl⟩
  · exact h.retained peer session t hs
  · rw [h.valueTtl]
    rcases hdisplaces with ⟨rfl, hold⟩ | ⟨⟨session', i, seed, keys, rfl, htask⟩, hold⟩
    · exact hok session hold
    · rcases htask with ⟨request, signer, response, htask⟩ | ⟨builder, htask⟩
      · rw [Timely, htask] at hok
        exact hok session hold
      · rw [Timely, htask] at hok
        exact hok session hold

/-- A message that has just arrived can be decrypted in time. -/
theorem lt_acceptExpiry_of_recent (h : InTime delay w) {peer} {isRequest : Bool} {index : ℕ}
    (hok : Timely delay w (.receive peer isRequest index))
    (hrecent : (w.node.manager.getRecentReceiveSessions w.node.clock peer).1[index]? =
      some session) : w.node.clock + delay < session.acceptExpiry := by
  obtain ⟨t, ht | ht, hlt⟩ :=
    SessionManager.mem_getRecentReceiveSessions (List.mem_of_getElem? hrecent)
  · have hforgotten := (hok session hrecent).1 _ ht rfl
    have hstored := h.stored _ _ _ ht
    dsimp only at hforgotten
    omega
  · have hretained := h.retained _ _ _ ht
    omega

/-- Messages are decrypted in time, also after a step. -/
theorem decrypting_step (h : InTime delay w) (hok : Timely delay w e)
    (hstep : w.node.step S e = some (n', acts)) (peer : PeerId) (session : Session)
    (isRequest : Bool) (readAt : ℕ) (htask : .decrypt peer session isRequest readAt ∈ n'.tasks) :
    readAt + delay < session.acceptExpiry ∧
      (isRequest = true → readAt + 2 * delay < session.useExpiry) := by
  rcases Node.begun_of_step hstep htask with htask | hbegun
  · exact h.decrypting _ _ _ _ htask
  · cases hbegun with
    | receive hrecent => exact ⟨h.lt_acceptExpiry_of_recent hok hrecent, (hok _ hrecent).2⟩

/-- Requests are answered in time, also after a step. -/
theorem responding_step (h : InTime delay w) (hstep : w.node.step S e = some (n', acts))
    (peer : PeerId) (session : Session) (acceptedAt : ℕ)
    (htask : .encryptResponse peer session acceptedAt ∈ n'.tasks) :
    acceptedAt + delay < session.useExpiry := by
  rcases Node.begun_of_step hstep htask with htask | hbegun
  · exact h.responding _ _ _ htask
  · cases hbegun with
    | respond hdecrypt =>
      have hread := (h.decrypting _ _ _ _ (List.mem_of_getElem? hdecrypt)).2 rfl
      have hprompt := h.prompt _ (List.mem_of_getElem? hdecrypt) _ rfl
      omega

/-- A session that is found can be used in time, also after a step. -/
theorem found_step {acts'} (h : InTime delay w) (hok : Timely delay w e)
    (hstep : w.node.step S e = some (n', acts)) (hacts : acts' = w.acts ++ acts) (peer : PeerId)
    (session : Session) (lookedUp : ℕ)
    (htask : .encryptRequest peer session lookedUp false ∈ n'.tasks) :
    .lookedUp peer lookedUp (some session) (some session) ∈ acts' ∧
      lookedUp + delay < session.useExpiry := by
  rw [hacts]
  rcases Node.begun_of_step hstep htask with htask | hbegun
  · exact (h.found peer session lookedUp htask).imp_left (List.mem_append_left _)
  · cases hbegun with
    | found hlookUp hfound =>
      obtain ⟨⟨t, ht⟩, -⟩ := SessionManager.map_of_getEstablishedSession hfound
      have hact := Node.acts_of_lookUp hstep hlookUp
      rw [ht, hfound] at hact
      rw [Timely, hlookUp] at hok
      exact ⟨List.mem_append_right _ hact, lt_useExpiry_of_found hok hfound⟩

/-- A session that was waited for is new, also after a step. -/
theorem established_step (h : InTime delay w) (hstep : w.node.step S e = some (n', acts))
    (peer : PeerId) (session : Session) (lookedUp : ℕ)
    (htask : .encryptRequest peer session lookedUp true ∈ n'.tasks) :
    lookedUp + sessionValidityDuration ≤ session.useExpiry := by
  rcases Node.begun_of_step hstep htask with htask | hbegun
  · exact h.established peer session lookedUp htask
  · cases hbegun with
    | joined _ hwaits hcreated | awaited _ hwaits hcreated =>
      rw [(expiries_of_toSession (InitiatorSessionCreation.toSession_fst_of_snd hcreated)).1]
      exact Nat.add_le_add_right (h.waiting _ hwaits _ rfl) _

/-- A request is encrypted in time. -/
theorem lt_useExpiry (h : InTime delay w) (hdelay : delay < sessionValidityDuration) {peer}
    {lookedUp : ℕ} {established : Bool}
    (htask : .encryptRequest peer session lookedUp established ∈ w.node.tasks) :
    w.node.clock < session.useExpiry := by
  have hprompt := h.prompt _ htask _ rfl
  cases established with
  | false =>
    have hfound := (h.found _ _ _ htask).2
    exact hprompt.trans_lt hfound
  | true =>
    have hestablished := h.established _ _ _ htask
    rw [cond_true, Session.createdAt] at hprompt
    omega

theorem acts_step (h : InTime delay w) (hdelay : delay < sessionValidityDuration)
    (hok : Timely delay w e) (hstep : w.node.step S e = some (n', acts)) :
    RespectsExpiry (w.acts ++ acts) := by
  have hdid : ∀ {act}, act ∈ w.acts ++ acts → act ∈ w.acts ∨ Did S w.node e act := fun hmem =>
    (List.mem_append.mp hmem).imp id (Node.did_of_step hstep)
  refine ⟨fun peer session lookedUp now established hmem => ?_, fun peer session now hmem => ?_,
    fun peer session now hmem => ?_, fun peer now stored found hmem hexpired => ?_,
    fun peer session lookedUp now hmem => ?_, fun peer session lookedUp now hmem => ?_⟩
  · rcases hdid hmem with hmem | hdid
    · exact h.acts.requests _ _ _ _ _ hmem
    · cases hdid with
      | encryptedRequest htask => exact h.lt_useExpiry hdelay (List.mem_of_getElem? htask)
  · rcases hdid hmem with hmem | hdid
    · exact h.acts.responses _ _ _ hmem
    · cases hdid with
      | encryptedResponse htask =>
        have htask := List.mem_of_getElem? htask
        exact (h.prompt _ htask _ rfl).trans_lt (h.responding _ _ _ htask)
  · rcases hdid hmem with hmem | hdid
    · exact h.acts.accepted _ _ _ hmem
    · cases hdid with
      | accepted htask =>
        have htask := List.mem_of_getElem? htask
        exact (h.prompt _ htask _ rfl).trans_lt (h.decrypting _ _ _ _ htask).1
  · rcases hdid hmem with hmem | hdid
    · exact h.acts.renewed _ _ _ _ hmem hexpired
    · generalize hstored : some stored = stored' at hdid
      cases hdid with
      | lookedUp htask =>
        cases hfound : w.node.manager.getEstablishedSession w.node.clock peer true with
        | none => rfl
        | some session =>
          obtain ⟨⟨t, ht⟩, -⟩ := SessionManager.map_of_getEstablishedSession hfound
          rw [ht] at hstored
          obtain ⟨⟩ := hstored
          rw [Timely, htask] at hok
          have hlt := lt_useExpiry_of_found hok hfound
          exact absurd (Nat.lt_of_add_right_lt hlt) (Nat.not_lt_of_le hexpired)
  · rcases hdid hmem with hmem | hdid
    · exact List.mem_append_left _ (h.acts.found _ _ _ _ hmem)
    · cases hdid with
      | encryptedRequest htask =>
        exact List.mem_append_left _ (h.found _ _ _ (List.mem_of_getElem? htask)).1
  · rcases hdid hmem with hmem | hdid
    · exact h.acts.established _ _ _ _ hmem
    · cases hdid with
      | encryptedRequest htask => exact h.established _ _ _ (List.mem_of_getElem? htask)

/-- **One step.** -/
theorem step {w' : World z} (h : InTime delay w) (hdelay : delay < sessionValidityDuration)
    (hok : Timely delay w e) (hstep : w.step S e = some w') : InTime delay w' := by
  obtain ⟨acts, hnode, hacts⟩ := World.step_eq_some hstep
  exact
    { ttl := (Node.ttl_of_step hnode).1.trans h.ttl
      valueTtl := (Node.ttl_of_step hnode).2.trans h.valueTtl
      prompt := h.prompt_step hok hnode
      unstored := h.unstored_step hnode
      stored := h.stored_step hnode
      retained := h.retained_step hok hnode
      decrypting := h.decrypting_step hok hnode
      responding := h.responding_step hnode
      waiting := h.waiting_step hnode
      found := h.found_step hok hnode hacts
      established := h.established_step hnode
      acts := hacts ▸ h.acts_step hdelay hok hnode }

end InTime

/-- **Session expiry.** In every run in which the times are right, no message is encrypted or
accepted under a session that has expired, and a session that may no longer be used is not found
when a request is to be sent. -/
theorem expiry_respected {S : Suite z} {delay : ℕ} (hdelay : delay < sessionValidityDuration)
    {removesStale : Bool} {now : ℕ} {contactId : ContactId} {keys : ContactKeys}
    {es : List (Event z)} {w : World z}
    (hrun : Run (World.step S) (Timely delay) (.new removesStale now contactId keys) es w) :
    RespectsExpiry w.acts :=
  (hrun.invariant (I := InTime delay) (.new delay removesStale now contactId keys)
    fun h hok hstep => h.step hdelay hok hstep).acts

/-! ### Runs -/

/-- A request is to be sent, and is encrypted under a session that is found. -/
def sampleSend : List (Event .sample) :=
  [.send ⟨"peer"⟩ none, .resume 0 [] none, .resume 0 [] none]

/-- A request is decrypted, and the response is encrypted. -/
def sampleRespond (index : ℕ) : List (Event .sample) :=
  [.receive ⟨"peer"⟩ true index, .resume 0 [] none, .resume 0 [] none]

/-- A second passes before each event. -/
def slowly (es : List (Event .sample)) : List (Event .sample) :=
  es.flatMap fun e => [.pass (seconds 1), e]

theorem expiry_respected_sample : ∃ w,
    Run (World.step .sample) (Timely (seconds 2)) (.new false 0 ⟨"bob"⟩ (sampleKeys 2))
      (slowly (requestStored ++ [.pass (seconds 60)] ++ sampleSend ++ sampleRespond 0)) w ∧
    RespectsExpiry w.acts := by
  exact Run.exists_and Run.get_runFrom (expiry_respected (by decide))

/-- The session of the request that is stored at the beginning, for half an hour and a minute. -/
def sampleStored : Session :=
  Session.new .sample 0 (.weKnowEachOther ⟨"alice"⟩) ⟨.replicate 32 5, .replicate 32 15⟩ false

/-- **Expiries that are ignored.** After half an hour a request is encrypted under the old session,
which was found although it may no longer be used; so is a response; and a session that was
replaced five seconds before it expired accepts a message five seconds after that. -/
theorem expiry_ignored :
    (∃ w, Run (World.step .sample) (fun _ _ => True) (.new false 0 ⟨"bob"⟩ (sampleKeys 2))
        (requestStored ++ [.pass (seconds 1800)] ++ sampleSend) w ∧
      sampleStored.useExpiry = seconds 1800 ∧
      .lookedUp ⟨"peer"⟩ (seconds 1800) (some sampleStored) (some sampleStored) ∈ w.acts ∧
      .encryptedRequest ⟨"peer"⟩ sampleStored (seconds 1800) (seconds 1800) false ∈ w.acts) ∧
    (∃ w, Run (World.step .sample) (fun _ _ => True) (.new false 0 ⟨"bob"⟩ (sampleKeys 2))
        (requestStored ++ [.pass (seconds 1800)] ++ sampleRespond 0) w ∧
      .encryptedResponse ⟨"peer"⟩ sampleStored (seconds 1800) ∈ w.acts) ∧
    ∃ w, Run (World.step .sample) (fun _ _ => True) (.new false 0 ⟨"bob"⟩ (sampleKeys 2))
        (requestStored ++ [.pass (seconds 1855)] ++ requestStored ++ [.pass (seconds 10)] ++
          sampleRespond 1) w ∧
      sampleStored.acceptExpiry = seconds 1860 ∧
      .accepted ⟨"peer"⟩ sampleStored (seconds 1865) ∈ w.acts := by
  refine ⟨⟨_, Run.get_runFrom, by decide, by decide, by decide⟩,
    ⟨_, Run.get_runFrom, by decide⟩,
    ⟨_, Run.get_runFrom, by decide, by decide⟩⟩

end Fyles.Handshake
