import Fyles.DomainModels
import Fyles.Internal.Run
import Fyles.Internal.Update
import Mathlib.Data.List.Perm.Basic
import Mathlib.Logic.Function.Basic

/-!
# Establishing a session

`p2p/src/send_receive_traits/get_session.rs` and `event_loop/handle_session_establishment_event.rs`,
for two honest peers. A peer that has no session with the other one stores the private keys of a
request under the name of the other peer (the *builder*) and sends the public keys. Whoever gets a
request makes a session of it at once, stores it, and sends back what the initiator needs. Whoever
gets a response takes the builder out of the store, asks the brain for the keys of the contact,
and then stores the session.

## Interleavings

Handlers are tasks that run side by side; between two uses of a store anything can happen. The
handler of a response uses two stores: the builder is gone when the session is not there yet, and
`finishing` holds the sessions that are on their way. The handler of a request and the beginning of
an establishment use one store each. Messages can be delivered in any order or lost, and a failure
that is reported for any request removes the builder.

## Secrets

Requests and responses are numbered, which the messages are not. The secret of a session is made
of the private keys of one request, and of a response that was made for some request. The
responder uses one request for both; the initiator uses whatever builder it finds. That is the one
of the request which was answered if no establishment begins while an earlier request can still be
answered, and no failure is reported for a request that is on its way.

## Main results

* `Current.step` — responses find the builders of the requests that they answer
* `sessions_agree` — then the stored sessions are made of one request each, and two current sessions
  have the same secret
* `handshakes_disagree` — what happens otherwise
-/

namespace Fyles.SessionEstablishment

open Function (comp_update update update_of_ne update_self)

/-! ### The stores -/

/-- The secret of a session. -/
structure SessionSecrets where
  /-- The request whose private keys were used. -/
  builder : ℕ
  /-- The request that the response was made for. -/
  request : ℕ
  response : ℕ
  deriving DecidableEq, Repr

/-- The secret of the peer that made the response. -/
def SessionSecrets.ofRequest (request response : ℕ) : SessionSecrets := ⟨request, request, response⟩

/-- Why a request was refused. -/
inductive ResponderSessionEstablishmentError
  | contactVerificationFailed
  | sharedSecretGenerationFailed
  deriving DecidableEq, Repr

/-- The stores of a peer, as far as the other one is concerned. -/
structure SessionManager where
  /-- `session_build_store`: the request that is waiting for a response. -/
  builder : Option ℕ
  /-- `session_store`: the current session. -/
  session : Option SessionSecrets
  /-- `expired_session_cache`: sessions that were replaced or cleared. -/
  expired : List SessionSecrets
  deriving DecidableEq, Repr

namespace SessionManager

/-- Nothing is stored. -/
def new : SessionManager := ⟨none, none, []⟩

variable (m : SessionManager)

/-- Store a session, and retain the one that it replaces. -/
def storeSession (s : SessionSecrets) : SessionManager :=
  { m with session := some s, expired := m.expired ++ m.session.toList }

/-- `get_or_establish_session`, from the lock of the build store on: if no establishment is under
way, begin one. -/
def beginEstablishment (request : ℕ) : Option SessionManager :=
  match m.builder with
  | some _ => none
  | none => some { m with builder := some request }

/-- `handle_session_establishment_request`. Whether the request is accepted depends on the keys of
the contact and on the cipher. -/
def handleSessionEstablishmentRequest (request response : ℕ)
    (check : Except ResponderSessionEstablishmentError Unit) :
    Except ResponderSessionEstablishmentError ℕ × SessionManager :=
  match check with
  | .error e => (.error e, m)
  | .ok _ => (.ok response, m.storeSession (.ofRequest request response))

/-- `handle_session_establishment_response`, up to the request for the keys of the contact: the
builder is removed, whichever request it was made for. The session is stored later. -/
def handleSessionEstablishmentResponse (request : ℕ)
    (response : Except ResponderSessionEstablishmentError ℕ) :
    Option SessionSecrets × SessionManager :=
  match response with
  | .error _ => (none, { m with builder := none })
  | .ok response =>
    (m.builder.map fun builder => ⟨builder, request, response⟩, { m with builder := none })

/-- `handle_session_establishment_failure`. -/
def handleSessionEstablishmentFailure : SessionManager :=
  { m with builder := none }

/-- `clear_session`. -/
def clearSession : SessionManager :=
  { m with session := none, expired := m.expired ++ m.session.toList }

end SessionManager

/-! ### Two peers -/

/-- The two peers. -/
inductive Side
  | a
  | b
  deriving DecidableEq, Repr

/-- The other peer. -/
def Side.other : Side → Side
  | .a => .b
  | .b => .a

@[simp] theorem Side.other_other (x : Side) : x.other.other = x := by cases x <;> rfl

@[simp] theorem Side.other_ne (x : Side) : x.other ≠ x := by cases x <;> decide

variable {x : Side}

theorem Side.eq_other_of_ne {y} (h : y ≠ x) : y = x.other := by
  cases x <;> cases y <;> first | rfl | exact absurd rfl h

/-- A response on its way to the peer that sent the request. -/
structure Response where
  initiator : Side
  request : ℕ
  result : Except ResponderSessionEstablishmentError ℕ

/-- Both peers, and what is on its way between them. -/
structure World where
  managers : Side → SessionManager
  /-- Sessions whose builder was removed and that are not stored yet. -/
  finishing : Side → List SessionSecrets
  /-- Requests on their way, with the peers that sent them. -/
  requests : List (Side × ℕ)
  responses : List Response
  /-- The sessions that were stored by an initiator. -/
  stored : List SessionSecrets
  /-- The number of the next request or response. -/
  nextId : ℕ

/-- What can happen. -/
inductive Event
  | initiate (x : Side)
  | handleRequest (k : ℕ) (check : Except ResponderSessionEstablishmentError Unit)
  /-- A response is handled, up to the request for the keys of the contact. -/
  | handleResponse (k : ℕ)
  /-- The keys have arrived, and the session is stored unless it cannot be verified. -/
  | finish (x : Side) (k : ℕ) (succeeds : Bool)
  /-- A failure is reported, or the builder was stored for too long. -/
  | failure (x : Side)
  | loseRequest (k : ℕ)
  | loseResponse (k : ℕ)
  /-- The current session is cleared, or was stored for too long. -/
  | clear (x : Side)

namespace World

/-- Nothing has happened. -/
def new : World := ⟨fun _ => .new, fun _ => [], [], [], [], 0⟩

variable (w : World)

/-- The builder of a peer. -/
def builder (x : Side) : Option ℕ := (w.managers x).builder

/-- The current session of a peer. -/
def session (x : Side) : Option SessionSecrets := (w.managers x).session

/-- One step. -/
def step : Event → Option World
  | .initiate x =>
    ((w.managers x).beginEstablishment w.nextId).map fun m => { w with
      managers := update w.managers x m
      requests := w.requests ++ [(x, w.nextId)]
      nextId := w.nextId + 1 }
  | .handleRequest k check =>
    w.requests[k]?.map fun p =>
      let r := (w.managers p.1.other).handleSessionEstablishmentRequest p.2 w.nextId check
      { w with
        managers := update w.managers p.1.other r.2
        requests := w.requests.eraseIdx k
        responses := w.responses ++ [⟨p.1, p.2, r.1⟩]
        nextId := w.nextId + 1 }
  | .handleResponse k =>
    w.responses[k]?.map fun p =>
      let r := (w.managers p.initiator).handleSessionEstablishmentResponse p.request p.result
      { w with
        managers := update w.managers p.initiator r.2
        finishing := update w.finishing p.initiator
          (w.finishing p.initiator ++ r.1.toList)
        responses := w.responses.eraseIdx k }
  | .finish x k succeeds =>
    (w.finishing x)[k]?.map fun s =>
      let w' := { w with finishing := update w.finishing x ((w.finishing x).eraseIdx k) }
      if succeeds then { w' with
        managers := update w.managers x ((w.managers x).storeSession s)
        stored := w.stored ++ [s] }
      else w'
  | .failure x =>
    some { w with
      managers := update w.managers x
        (w.managers x).handleSessionEstablishmentFailure }
  | .loseRequest k => some { w with requests := w.requests.eraseIdx k }
  | .loseResponse k => some { w with responses := w.responses.eraseIdx k }
  | .clear x =>
    some { w with managers := update w.managers x (w.managers x).clearSession }

/-- All messages are delivered, and no establishment is under way. -/
def Quiet : Prop :=
  w.requests = [] ∧ w.responses.length = 0 ∧ ∀ x, w.builder x = none ∧ w.finishing x = []

end World

/-- An earlier request of a peer can still be answered: it is on its way, or a response is. -/
def World.Answerable (w : World) (x : Side) : Prop :=
  (∃ p ∈ w.requests, p.1 = x) ∨ ∃ p ∈ w.responses, p.initiator = x

instance (w : World) (x : Side) : Decidable (w.Answerable x) :=
  inferInstanceAs (Decidable (_ ∨ _))

/-- **The handshakes do not cross.** A peer begins to establish a session only if it has none, none
is about to be stored, and no earlier request of it can still be answered. A failure is reported
only when no request of the peer is on its way. A request is accepted only by a peer that neither
waits for a response nor is about to store a session. -/
def Orderly (w : World) : Event → Prop
  | .initiate x => w.session x = none ∧ w.finishing x = [] ∧ ¬ w.Answerable x
  | .failure x => ∀ p ∈ w.requests, p.1 ≠ x
  | .handleRequest k check => check.isOk → ∀ p ∈ w.requests[k]?,
      w.builder p.1.other = none ∧ w.finishing p.1.other = []
  | _ => True

instance (w : World) (e) : Decidable (Orderly w e) := by
  rw [Orderly.eq_def]
  split <;> infer_instance

/-! ### What a step changes -/

section Changes

variable (m : SessionManager)

theorem handleSessionEstablishmentRequest_builder (request response : ℕ)
    (check : Except ResponderSessionEstablishmentError Unit) :
    (m.handleSessionEstablishmentRequest request response check).2.builder = m.builder := by
  cases check <;> rfl

theorem handleSessionEstablishmentResponse_builder (request : ℕ)
    (response : Except ResponderSessionEstablishmentError ℕ) :
    (m.handleSessionEstablishmentResponse request response).2.builder = none := by
  cases response <;> rfl

variable {m}

theorem beginEstablishment_eq_some {m' : SessionManager} {request : ℕ}
    (h : m.beginEstablishment request = some m') :
    m' = { m with builder := some request } := by
  rw [SessionManager.beginEstablishment] at h
  split at h
  · cases h
  · exact (Option.some.inj h).symm

end Changes

/-! ### Builders -/

/-- The peers that have begun the handshakes of the messages on their way. -/
def World.messages (w : World) : List Side :=
  w.requests.map Prod.fst ++ w.responses.map Response.initiator

theorem World.mem_messages {w : World} : x ∈ w.messages ↔ w.Answerable x := by
  simp only [messages, Answerable, List.mem_append, List.mem_map]

/-- The builder of a peer is that of its last request. -/
structure Current (w : World) : Prop where
  /-- Whoever has sent a request that is on its way waits for the response. -/
  request : ∀ p ∈ w.requests, w.builder p.1 = some p.2
  /-- A response finds the builder of the request that it answers, or none. -/
  response : ∀ p ∈ w.responses,
    w.builder p.initiator = none ∨ w.builder p.initiator = some p.request
  /-- Of the handshakes that a peer has begun, one message is on its way. -/
  once : w.messages.Nodup

namespace Current

variable {w w' : World} {e : Event}

theorem new : Current .new where
  request _ h := by cases h
  response _ h := by cases h
  once := List.nodup_nil

/-- A request that is on its way has not been answered, and neither has an earlier one. -/
theorem unanswered (h : Current w) {p q} (hp : p ∈ w.requests) (hq : q ∈ w.responses) :
    p.1 ≠ q.initiator :=
  (List.nodup_append.mp h.once).2.2 _ (List.mem_map_of_mem hp) _ (List.mem_map_of_mem hq)

/-- A step that sends nothing new, and keeps the builders of those who have sent something. -/
theorem shrink (h : Current w) (hrequests : w'.requests.Sublist w.requests)
    (hresponses : w'.responses.Sublist w.responses)
    (hbuilder : ∀ x, w'.builder x = w.builder x ∨
      w'.builder x = none ∧ ∀ p ∈ w.requests, p.1 ≠ x) : Current w' where
  request p hp := by
    have hp := hrequests.subset hp
    exact ((hbuilder p.1).resolve_right fun hnot => hnot.2 p hp rfl).trans (h.request p hp)
  response p hp := by
    rcases hbuilder p.initiator with heq | ⟨hnone, -⟩
    · rw [heq]
      exact h.response p (hresponses.subset hp)
    · exact .inl hnone
  once := h.once.sublist ((hrequests.map _).append (hresponses.map _))

/-- A step that forgets the builder of a peer that has no request on its way. -/
theorem forget (h : Current w) (hidle : ∀ p ∈ w.requests, p.1 ≠ x)
    (hbuilder : w'.builder = update w.builder x none)
    (hrequests : w'.requests = w.requests) (hresponses : w'.responses.Sublist w.responses) :
    Current w' := by
  refine h.shrink (hrequests ▸ .refl _) hresponses fun y => ?_
  rw [hbuilder]
  by_cases hy : y = x
  · subst hy
    exact .inr ⟨update_self _ _ _, hidle⟩
  · exact .inl (update_of_ne hy _ _)

/-- **One step.** -/
theorem step (h : Current w) (hok : Orderly w e) (hstep : w.step e = some w') : Current w' := by
  cases e with
  | initiate x =>
    obtain ⟨m, hm, rfl⟩ := Option.map_eq_some_iff.mp hstep
    obtain rfl := beginEstablishment_eq_some hm
    have hnew : x ∉ w.messages := World.mem_messages.not.mpr hok.2.2
    have hbuilder := congrFun (comp_update SessionManager.builder w.managers x
      { w.managers x with builder := some w.nextId })
    -- the messages from before are of the other peer
    have hkeeps : ∀ y ∈ w.messages, _ = w.builder y := fun y hy =>
      (hbuilder y).trans (update_of_ne (ne_of_mem_of_not_mem hy hnew) _ _)
    refine ⟨fun p hp => ?_, fun p hp => ?_, ?_⟩
    · rcases List.mem_append.mp hp with hp | hp
      · exact (hkeeps p.1 (List.mem_append_left _ (List.mem_map_of_mem hp))).trans (h.request p hp)
      · obtain rfl := List.mem_singleton.mp hp
        exact (hbuilder x).trans (update_self _ _ _)
    · have hkeep := hkeeps p.initiator (List.mem_append_right _ (List.mem_map_of_mem hp))
      exact (h.response p hp).imp hkeep.trans hkeep.trans
    · rw [World.messages, List.map_append, List.append_assoc]
      exact List.perm_middle.nodup_iff.mpr (List.nodup_cons.mpr ⟨hnew, h.once⟩)
  | handleRequest k check =>
    obtain ⟨p, hp, rfl⟩ := Option.map_eq_some_iff.mp hstep
    have hkeeps := congrFun (comp_update_eq_self (a := p.1.other) (f := w.managers)
      (handleSessionEstablishmentRequest_builder _ p.2 w.nextId check))
    refine ⟨fun q hq => ?_, fun q hq => ?_, ?_⟩
    · exact (hkeeps q.1).trans (h.request q (List.mem_of_mem_eraseIdx hq))
    · rcases List.mem_append.mp hq with hq | hq
      · exact (h.response q hq).imp (hkeeps _).trans (hkeeps _).trans
      · obtain rfl := List.mem_singleton.mp hq
        exact .inr ((hkeeps _).trans (h.request p (List.mem_of_getElem? hp)))
    · -- the response takes the place of the request
      obtain ⟨hk, rfl⟩ := List.getElem?_eq_some_iff.mp hp
      have hperm := (List.getElem_cons_eraseIdx_perm hk).map Prod.fst
      rw [World.messages, List.map_append, ← List.append_assoc]
      exact ((List.perm_append_singleton _ _).trans
        (hperm.append_right (w.responses.map Response.initiator))).nodup_iff.mpr h.once
  | handleResponse k =>
    obtain ⟨p, hp, rfl⟩ := Option.map_eq_some_iff.mp hstep
    refine h.forget (fun q hq => h.unanswered hq (List.mem_of_getElem? hp))
      ((comp_update SessionManager.builder _ _ _).trans ?_) rfl (List.eraseIdx_sublist _ _)
    rw [handleSessionEstablishmentResponse_builder]
    rfl
  | finish x k succeeds =>
    obtain ⟨s, hs, rfl⟩ := Option.map_eq_some_iff.mp hstep
    cases succeeds with
    | false => exact h.shrink (.refl _) (.refl _) fun _ => .inl rfl
    | true =>
      have hbuilder := comp_update_eq_self (g := SessionManager.builder) (f := w.managers) (a := x)
        (b := (w.managers x).storeSession s) rfl
      exact h.shrink (.refl _) (.refl _) fun y => .inl (congrFun hbuilder y)
  | failure x =>
    obtain ⟨⟩ := hstep
    exact h.forget hok (comp_update SessionManager.builder _ _ _) rfl (.refl _)
  | loseRequest k =>
    obtain ⟨⟩ := hstep
    exact h.shrink (List.eraseIdx_sublist _ _) (.refl _) fun _ => .inl rfl
  | loseResponse k =>
    obtain ⟨⟩ := hstep
    exact h.shrink (.refl _) (List.eraseIdx_sublist _ _) fun _ => .inl rfl
  | clear x =>
    obtain ⟨⟩ := hstep
    have hbuilder := comp_update_eq_self (g := SessionManager.builder) (f := w.managers) (a := x)
      (b := (w.managers x).clearSession) rfl
    exact h.shrink (.refl _) (.refl _) fun y => .inl (congrFun hbuilder y)

end Current

/-! ### Agreement -/

/-- Where a peer stands: its builder, its session, and the sessions that are about to be stored. -/
inductive Tidy : Option ℕ → Option SessionSecrets → List SessionSecrets → Prop
  | idle {session} : Tidy none session []
  | waits {r} : Tidy (some r) none []
  | finishes {r t} : Tidy none none [.ofRequest r t]

namespace Tidy

variable {builder : Option ℕ} {session : Option SessionSecrets} {finishing : List SessionSecrets}

theorem forget (h : Tidy builder session finishing) : Tidy none session finishing := by
  cases h <;> constructor

theorem clear (h : Tidy builder session finishing) : Tidy builder none finishing := by
  cases h <;> constructor

/-- A peer that is about to store a session does nothing else. -/
theorem of_mem {s} (h : Tidy builder session finishing) (hs : s ∈ finishing) :
    builder = none ∧ s.builder = s.request ∧ finishing = [s] := by
  cases h with
  | finishes =>
    obtain rfl := List.mem_singleton.mp hs
    exact ⟨rfl, rfl, rfl⟩
  | _ => cases hs

theorem of_some {r} (h : Tidy (some r) session finishing) : session = none ∧ finishing = [] := by
  cases h
  exact ⟨rfl, rfl⟩

end Tidy

/-- The session `s` will be stored by `x` if nothing goes wrong: its response is on its way and the
builder is waiting for it, or the builder was removed already. -/
def Promised (w : World) (x : Side) (s : SessionSecrets) : Prop :=
  (∃ r t, w.builder x = some r ∧ ⟨x, r, .ok t⟩ ∈ w.responses ∧ s = .ofRequest r t) ∨
    s ∈ w.finishing x

/-- The session `s` is the current one of `x`, or will be. -/
def Has (w : World) (x : Side) (s : SessionSecrets) : Prop := w.session x = some s ∨ Promised w x s

/-- **The invariant.** The two peers have or are promised the same session, and at most one of them
is promised one. -/
structure Agrees (w : World) : Prop where
  tidy : ∀ x, Tidy (w.builder x) (w.session x) (w.finishing x)
  /-- The sessions that were stored are made of one request each. -/
  stored : ∀ s ∈ w.stored, s.builder = s.request
  exclusive : ∀ x s s', Promised w x s → ¬ Promised w x.other s'
  same : ∀ x s s', Has w x s → Has w x.other s' → s = s'

namespace Agrees

variable {w w' : World} {e : Event} {s : SessionSecrets} {k : ℕ}

theorem new : Agrees .new := by
  have hpromised : ∀ x s, ¬ Promised .new x s := by
    rintro x s (⟨r, t, hr, -⟩ | h)
    · cases hr
    · cases h
  refine ⟨fun _ => .idle, fun _ h => (nomatch h), fun x s _ h => absurd h (hpromised x s), ?_⟩
  rintro x s s' (h | h)
  · cases h
  · exact absurd h (hpromised x s)

/-- A step that concerns one peer, and neither promises nor stores a session that this peer did not
have before. -/
theorem change (h : Agrees w) {m : SessionManager} {finishing : List SessionSecrets}
    (hmanagers : w'.managers = update w.managers x m)
    (hfinishing : w'.finishing = update w.finishing x finishing)
    (htidy : Tidy m.builder m.session finishing)
    (hresponses : ∀ y r t, ⟨y, r, .ok t⟩ ∈ w'.responses → ⟨y, r, .ok t⟩ ∈ w.responses)
    (hpromised : ∀ s, (∃ r t, m.builder = some r ∧ ⟨x, r, .ok t⟩ ∈ w.responses ∧
      s = .ofRequest r t) ∨ s ∈ finishing → Promised w x s)
    (hsession : ∀ s, m.session = some s → Has w x s)
    (hstored : ∀ s ∈ w'.stored, s ∈ w.stored ∨ s.builder = s.request) : Agrees w' := by
  have hself : w'.managers x = m ∧ w'.finishing x = finishing := by
    rw [hmanagers, hfinishing, update_self, update_self]
    exact ⟨rfl, rfl⟩
  have hother : ∀ y ≠ x, w'.managers y = w.managers y ∧ w'.finishing y = w.finishing y := by
    intro y hy
    rw [hmanagers, hfinishing, update_of_ne hy, update_of_ne hy]
    exact ⟨rfl, rfl⟩
  have hpromises : ∀ y s, Promised w' y s → Promised w y s := by
    intro y s hs
    by_cases hy : y = x
    · subst hy
      refine hpromised s (hs.imp ?_ fun hmem => hself.2 ▸ hmem)
      rintro ⟨r, t, hr, hmem, rfl⟩
      exact ⟨r, t, hself.1 ▸ hr, hresponses y r t hmem, rfl⟩
    · refine hs.imp ?_ fun hmem => (hother y hy).2 ▸ hmem
      rintro ⟨r, t, hr, hmem, rfl⟩
      exact ⟨r, t, (congrArg _ (hother y hy).1).symm.trans hr, hresponses y r t hmem, rfl⟩
  have hhas : ∀ y s, Has w' y s → Has w y s := by
    rintro y s (hs | hs)
    · by_cases hy : y = x
      · subst hy
        exact hsession s (hself.1 ▸ hs)
      · exact .inl ((congrArg _ (hother y hy).1).symm.trans hs)
    · exact .inr (hpromises y s hs)
  refine ⟨fun y => ?_, fun s hs => (hstored s hs).elim (h.stored s) id,
    fun y s s' hs hs' => h.exclusive y s s' (hpromises y s hs) (hpromises y.other s' hs'),
    fun y s s' hs hs' => h.same y s s' (hhas y s hs) (hhas y.other s' hs')⟩
  rw [World.builder, World.session]
  by_cases hy : y = x
  · subst hy
    rw [hself.1, hself.2]
    exact htidy
  · rw [(hother y hy).1, (hother y hy).2]
    exact h.tidy y

theorem lose (h : Agrees w) (hmanagers : w'.managers = w.managers)
    (hfinishing : w'.finishing = w.finishing)
    (hresponses : ∀ y r t, ⟨y, r, .ok t⟩ ∈ w'.responses → ⟨y, r, .ok t⟩ ∈ w.responses)
    (hstored : w'.stored = w.stored) : Agrees w' :=
  h.change (x := .a) (hmanagers.trans (Function.update_eq_self _ _).symm)
    (hfinishing.trans (Function.update_eq_self _ _).symm) (h.tidy .a) hresponses (fun _ hs => hs)
    (fun _ hs => .inl hs) fun _ hs => .inl (hstored ▸ hs)

/-- **A request is accepted.** Its sender is promised the session, and has none. -/
theorem handleRequest {r t : ℕ} (h : Agrees w) (hwait : w.builder x = some r)
    (hanswered : ∀ p ∈ w.responses, x ≠ p.initiator) (hidle : w.builder x.other = none)
    (hclear : w.finishing x.other = []) (hbuilder : w'.builder = w.builder)
    (hsession : w'.session = update w.session x.other (some (.ofRequest r t)))
    (hfinishing : w'.finishing = w.finishing)
    (hresponses : w'.responses = w.responses ++ [⟨x, r, .ok t⟩])
    (hstored : w'.stored = w.stored) : Agrees w' := by
  have htidy := h.tidy x
  rw [hwait] at htidy
  obtain ⟨hnone, hfx⟩ := htidy.of_some
  have hnone' : w'.session x = none := by
    rw [hsession, update_of_ne (Side.other_ne x).symm, hnone]
  -- Only the sender of the request is promised a session, and it is the new one.
  have hpromised : ∀ y s, Promised w' y s → y = x ∧ s = .ofRequest r t := by
    rintro y s (⟨r', t', hr', hmem, rfl⟩ | hmem)
    · rw [hbuilder] at hr'
      obtain rfl : y = x := by
        by_contra hy
        rw [Side.eq_other_of_ne hy, hidle] at hr'
        cases hr'
      obtain rfl := Option.mem_unique hwait hr'
      rw [hresponses] at hmem
      rcases List.mem_append.mp hmem with hmem | hmem
      · exact absurd rfl (hanswered _ hmem)
      · obtain ⟨-, -, ht⟩ := Response.mk.inj (List.mem_singleton.mp hmem)
        exact ⟨rfl, by rw [Except.ok.inj ht]⟩
    · rw [hfinishing] at hmem
      by_cases hy : y = x
      · rw [hy, hfx] at hmem
        cases hmem
      · rw [Side.eq_other_of_ne hy, hclear] at hmem
        cases hmem
  have hhas : ∀ y s, Has w' y s → s = .ofRequest r t := by
    rintro y s (hs | hs)
    · rw [hsession] at hs
      rcases update_eq_cases hs with ⟨-, heq⟩ | ⟨hy, hs⟩
      · exact (Option.some.inj heq).symm
      · rw [Side.eq_other_of_ne hy, Side.other_other, hnone] at hs
        cases hs
    · exact (hpromised y s hs).2
  refine ⟨fun y => ?_, hstored ▸ h.stored, fun y s s' hs hs' => ?_,
    fun y s s' hs hs' => (hhas y s hs).trans (hhas y.other s' hs').symm⟩
  · rw [hbuilder, hfinishing]
    by_cases hy : y = x
    · rw [hy, hwait, hnone', hfx]
      exact .waits
    · rw [Side.eq_other_of_ne hy, hidle, hclear]
      exact .idle
  · obtain ⟨rfl, -⟩ := hpromised y s hs
    exact absurd (hpromised _ _ hs').1 (Side.other_ne y)

/-- **A response is handled.** What was promised while the response was on its way is promised while
the session is about to be stored. -/
theorem handleResponse {r : ℕ} {result} (h : Agrees w) (hp : ⟨x, r, result⟩ ∈ w.responses)
    (hcurrent : w.builder x = none ∨ w.builder x = some r) {reply}
    (hreply : (w.managers x).handleSessionEstablishmentResponse r result = reply)
    (hmanagers : w'.managers = update w.managers x reply.2)
    (hfinishing : w'.finishing = update w.finishing x (w.finishing x ++ reply.1.toList))
    (hresponses : w'.responses.Sublist w.responses) (hstored : w'.stored = w.stored) :
    Agrees w' := by
  have hold : ∀ s ∈ w'.stored, s ∈ w.stored ∨ s.builder = s.request :=
    fun s hs => .inl (hstored ▸ hs)
  have htidy := h.tidy x
  -- Nothing is promised any more without a builder.
  have hkept : reply = (none, { w.managers x with builder := none }) → Agrees w' := by
    rintro rfl
    rw [Option.toList_none, List.append_nil] at hfinishing
    refine h.change hmanagers hfinishing htidy.forget (fun _ _ _ => (hresponses.subset ·)) ?_
      (fun _ hs => .inl hs) hold
    rintro s (⟨r', t, hr, -⟩ | hs)
    · cases hr
    · exact .inr hs
  cases result with
  | error e => exact hkept hreply.symm
  | ok t =>
    rw [SessionManager.handleSessionEstablishmentResponse] at hreply
    rcases hcurrent with hnone | hwait
    · rw [show (w.managers x).builder = none from hnone] at hreply
      exact hkept hreply.symm
    · rw [hwait] at htidy
      obtain ⟨hsession, hf⟩ := htidy.of_some
      rw [show (w.managers x).builder = some r from hwait] at hreply
      subst hreply
      rw [hf] at hfinishing
      have hafter : Tidy none (w.session x) [.ofRequest r t] := hsession ▸ .finishes
      refine h.change hmanagers hfinishing hafter (fun _ _ _ => (hresponses.subset ·)) ?_
        (fun _ hs => .inl hs) hold
      rintro s (⟨r', t', hr, -⟩ | hs)
      · cases hr
      · exact .inl ⟨r, t, hwait, hp, List.mem_singleton.mp hs⟩

/-- **A session is stored**, or cannot be verified. It was promised. -/
theorem finish (h : Agrees w) (hs : (w.finishing x)[k]? = some s) {m : SessionManager}
    (hbuilder : m.builder = w.builder x) (hsession : m.session = w.session x ∨ m.session = some s)
    (hmanagers : w'.managers = update w.managers x m)
    (hfinishing : w'.finishing = update w.finishing x ((w.finishing x).eraseIdx k))
    (hresponses : w'.responses = w.responses)
    (hstored : w'.stored = w.stored ∨ w'.stored = w.stored ++ [s]) : Agrees w' := by
  have hmem := List.mem_of_getElem? hs
  obtain ⟨hnone, hpure, hf⟩ := (h.tidy x).of_mem hmem
  rw [hnone] at hbuilder
  have herase : (w.finishing x).eraseIdx k = [] := by
    rw [hf] at hs ⊢
    cases k with
    | zero => rfl
    | succ k => cases hs
  rw [herase] at hfinishing
  refine h.change hmanagers hfinishing (hbuilder ▸ .idle) (hresponses ▸ fun _ _ _ => id) ?_ ?_ ?_
  · rintro s' (⟨r, t, hr, -⟩ | hs')
    · cases hbuilder.symm.trans hr
    · cases hs'
  · intro s' hs'
    rcases hsession with heq | heq
    · exact .inl (heq.symm.trans hs')
    · obtain rfl := Option.some.inj (heq.symm.trans hs')
      exact .inr (.inr hmem)
  · intro s' hs'
    rcases hstored with heq | heq
    · exact .inl (heq ▸ hs')
    · rw [heq] at hs'
      refine (List.mem_append.mp hs').imp_right fun hs' => ?_
      obtain rfl := List.mem_singleton.mp hs'
      exact hpure

/-- **One step.** -/
theorem step (h : Agrees w) (hc : Current w) (hok : Orderly w e) (hstep : w.step e = some w') :
    Agrees w' := by
  have hsame : ∀ x, w.finishing = update w.finishing x (w.finishing x) :=
    fun x => (Function.update_eq_self _ _).symm
  cases e with
  | initiate x =>
    obtain ⟨m, hm, rfl⟩ := Option.map_eq_some_iff.mp hstep
    obtain rfl := beginEstablishment_eq_some hm
    obtain ⟨hnone, hidle, hanswerable⟩ := hok
    have htidy : Tidy (some w.nextId) (w.session x) (w.finishing x) := by
      rw [hnone, hidle]
      exact .waits
    refine h.change rfl (hsame x) htidy (fun _ _ _ => id) ?_ (fun _ hs => .inl hs) fun _ => .inl
    -- nobody has answered the new request yet
    rintro s (⟨r, t, -, hmem, -⟩ | hs)
    · exact absurd (.inr ⟨_, hmem, rfl⟩) hanswerable
    · exact .inr hs
  | handleRequest k check =>
    obtain ⟨p, hp, rfl⟩ := Option.map_eq_some_iff.mp hstep
    cases check with
    | ok u =>
      obtain ⟨hidle, hclear⟩ := hok rfl p hp
      have hp := List.mem_of_getElem? hp
      exact h.handleRequest (hc.request p hp) (fun _ => hc.unanswered hp) hidle hclear
        (comp_update_eq_self rfl) (comp_update SessionManager.session _ _ _) rfl rfl rfl
    | error err =>
      refine h.lose (Function.update_eq_self _ _) rfl (fun y r t hmem => ?_) rfl
      rcases List.mem_append.mp hmem with hmem | hmem
      · exact hmem
      · cases List.mem_singleton.mp hmem
  | handleResponse k =>
    obtain ⟨⟨x, r, result⟩, hp, rfl⟩ := Option.map_eq_some_iff.mp hstep
    have hp := List.mem_of_getElem? hp
    exact h.handleResponse hp (hc.response _ hp) rfl rfl rfl (List.eraseIdx_sublist _ _) rfl
  | finish x k succeeds =>
    obtain ⟨s, hs, rfl⟩ := Option.map_eq_some_iff.mp hstep
    cases succeeds with
    | false =>
      exact h.finish hs rfl (.inl rfl) (Function.update_eq_self _ _).symm rfl rfl (.inl rfl)
    | true =>
      exact h.finish (m := (w.managers x).storeSession s) hs rfl (.inr rfl) rfl rfl rfl (.inr rfl)
  | failure x =>
    obtain ⟨⟩ := hstep
    refine h.change rfl (hsame x) (h.tidy x).forget (fun _ _ _ => id) ?_ (fun _ hs => .inl hs)
      fun _ => .inl
    rintro s (⟨r, t, hr, -⟩ | hs)
    · cases hr
    · exact .inr hs
  | loseRequest k =>
    obtain ⟨⟩ := hstep
    exact h.lose rfl rfl (fun _ _ _ => id) rfl
  | loseResponse k =>
    obtain ⟨⟩ := hstep
    exact h.lose rfl rfl (fun _ _ _ => List.mem_of_mem_eraseIdx) rfl
  | clear x =>
    obtain ⟨⟩ := hstep
    exact h.change rfl (hsame x) (h.tidy x).clear (fun _ _ _ => id) (fun _ hs => hs) nofun
      fun _ => .inl

end Agrees

/-! ### Runs -/

/-- **Sessions agree.** In every run in which the handshakes do not cross, every session that an
initiator has stored is made of the private keys of the request that its response answers, and if
both peers have a current session then these have the same secret. -/
theorem sessions_agree {es : List Event} {w : World} (h : Run World.step Orderly .new es w) :
    (∀ s ∈ w.stored, s.builder = s.request) ∧
      (w.session .a = none ∨ w.session .b = none ∨ w.session .a = w.session .b) := by
  have hinv : Current w ∧ Agrees w :=
    h.invariant (I := fun w => Current w ∧ Agrees w) ⟨.new, .new⟩
      fun ⟨hc, ha⟩ hok hstep => ⟨hc.step hok hstep, ha.step hc hok hstep⟩
  refine ⟨hinv.2.stored, ?_⟩
  cases ha : w.session .a with
  | none => exact .inl rfl
  | some s =>
    cases hb : w.session .b with
    | none => exact .inr (.inl rfl)
    | some s' => exact .inr (.inr (by rw [hinv.2.same .a s s' (.inl ha) (.inl hb)]))

/-- A handshake, after which `a` clears its session and `b` does not; then another one. -/
def twoHandshakes : List Event :=
  [.initiate .a, .handleRequest 0 (.ok ()), .handleResponse 0, .finish .a 0 true, .clear .a,
    .initiate .a, .handleRequest 0 (.ok ()), .handleResponse 0, .finish .a 0 true]

theorem sessions_agree_twoHandshakes : ∃ w, Run World.step Orderly .new twoHandshakes w ∧
    w.session .a = some (.ofRequest 2 3) ∧
    (w.session .a = none ∨ w.session .b = none ∨ w.session .a = w.session .b) := by
  exact Run.exists_and Run.get_runFrom fun hrun => ⟨by decide, (sessions_agree hrun).2⟩

/-- **Crossing handshakes, and a late response.** Both peers begin to establish a session, and each
handles the request of the other before the response to its own: when everything has been delivered,
each has the session that it has initiated. And if the builder of a request is removed because of a
failure that concerns another one, and the peer begins anew, then the response to the first request
is combined with the private keys of the second. -/
theorem handshakes_disagree : (∃ w, Run World.step (fun _ _ => True) .new
        [.initiate .a, .initiate .b, .handleRequest 0 (.ok ()), .handleRequest 0 (.ok ()),
          .handleResponse 0, .handleResponse 0, .finish .a 0 true, .finish .b 0 true] w ∧
      w.Quiet ∧ w.session .a = some (.ofRequest 0 2) ∧ w.session .b = some (.ofRequest 1 3)) ∧
    (∃ w, Run World.step (fun _ _ => True) .new
        [.initiate .a, .handleRequest 0 (.ok ()), .failure .a, .initiate .a, .handleResponse 0,
          .finish .a 0 true] w ∧
      w.stored = [⟨2, 0, 1⟩] ∧ w.session .b = some (.ofRequest 0 1)) :=
  ⟨⟨_, Run.get_runFrom,
    ⟨by decide, by decide, fun x => by cases x <;> decide⟩, by decide, by decide⟩,
    ⟨_, Run.get_runFrom, by decide, by decide⟩⟩

end Fyles.SessionEstablishment
