import Fyles.Dencryptor
import Fyles.DomainModels

/-!
# Trying sessions

A message does not say to which session it belongs. Requests (`session_responder.rs`) and responses
(`session_send_receive.rs`) are therefore tried with all recent sessions of the peer, the current
one first, until one of them can decrypt the message. Each attempt validates the nonce in the
window of the session, and that uses the nonce up whether the message can be decrypted or not.

## Main results

* `tryDecrypt_returns` — the loop returns, and changes windows only
* `tryDecrypt_ok` — a message that the window of its session admits is taken by its session
* `tryDecrypt_accepted` — what the loop does to the window of one session
-/

namespace Fyles

open RollingNonceWindow ReplayWindow

variable {K P : Type}

/-! ### Attempts -/

/-- Our end of a session with a peer. -/
structure Session (K : Type) where
  dencryptor : Dencryptor K
  /-- The contact that was verified when the session was established. -/
  contactId : Option ContactId
  deriving DecidableEq, Repr

namespace Session

variable (s : Session K)

/-- The window for the nonces of the other end. -/
def validator : RollingNonceWindow (List Bool) :=
  s.dencryptor.nonceGeneratorValidator.validator

/-- The index of a message in that window. -/
def windowIndex (msg : Encrypted K P) : ℕ :=
  s.dencryptor.nonceGeneratorValidator.windowIndex msg.nonce

variable (v : RollingNonceWindow (List Bool))

/-- The session with another window. -/
def withValidator : Session K :=
  { s with
    dencryptor := { s.dencryptor with
      nonceGeneratorValidator := { s.dencryptor.nonceGeneratorValidator with validator := v } } }

@[simp] theorem windowIndex_withValidator (msg : Encrypted K P) :
    (s.withValidator v).windowIndex msg = s.windowIndex msg := rfl

/-- The session with another counter. -/
def withCounter (n : ℕ) : Session K :=
  { s with
    dencryptor := { s.dencryptor with
      nonceGeneratorValidator :=
        { s.dencryptor.nonceGeneratorValidator with usedNonceCounter := n } } }

/-- Encrypting a message changes the counter and nothing else. -/
theorem encrypt_eq (seals : Bool) (plaintext : P) :
    ∃ n, { s with dencryptor := (s.dencryptor.encrypt seals plaintext).2 } = s.withCounter n := by
  rw [Dencryptor.encrypt, NonceGeneratorValidator.getNextSendNonce]
  by_cases hend : s.dencryptor.nonceGeneratorValidator.usedNonceCounter = u64Half
  · rw [if_pos hend]
    exact ⟨_, rfl⟩
  · rw [if_neg hend]
    by_cases hside : s.dencryptor.nonceGeneratorValidator.isInitiatorSession = true
    · rw [if_pos hside]
      exact ⟨_, rfl⟩
    · rw [if_neg hside]
      exact ⟨_, rfl⟩

variable [DecidableEq K]

/-- `decrypt`. -/
def decrypt (s : Session K) (msg : Encrypted K P) : Option (Except DecryptionError P × Session K) :=
  (s.dencryptor.decrypt msg).map fun r => (r.1, { s with dencryptor := r.2 })

/-- What becomes of a message after its nonce was validated. -/
def opened (s : Session K) (msg : Encrypted K P) :
    Except BitStoreError Unit → Except DecryptionError P
  | .error e => .error (.nonceValidationError e)
  | .ok _ =>
    match msg.message.unseal s.dencryptor.cipher msg.nonce with
    | none => .error .decryptionFailure
    | some plaintext => .ok plaintext

/-- An attempt changes the window and nothing else. -/
theorem decrypt_eq (s : Session K) (msg : Encrypted K P) :
    s.decrypt msg = (s.validator.isValid (s.windowIndex msg)).map fun r =>
      (s.opened msg r.1, s.withValidator r.2) := by
  rw [decrypt, Dencryptor.decrypt, NonceGeneratorValidator.validate, Option.map_map, Option.map_map]
  refine Option.map_congr fun r _ => ?_
  obtain ⟨verdict, w⟩ := r
  cases verdict with
  | error e => rfl
  | ok u =>
    simp only [Function.comp_apply, opened]
    cases msg.message.unseal s.dencryptor.cipher msg.nonce <;> rfl

end Session

/-! ### Windows -/

/-- A window of a hundred nonces that stands for some set of accepted ones. -/
def Steady (w : RollingNonceWindow (List Bool)) : Prop :=
  (∃ A, Represents A w) ∧ w.window.length = 100

/-- All windows are steady. -/
def AllSteady (sessions : List (Session K)) : Prop :=
  ∀ (j : ℕ) (d : Session K), sessions[j]? = some d → Steady d.validator

/-- The sessions are the same up to their windows. -/
structure Tried (before after : List (Session K)) : Prop where
  length : after.length = before.length
  /-- Each is the same up to its window. -/
  windows : ∀ (j : ℕ) (d : Session K), before[j]? = some d →
    ∃ v, after[j]? = some (d.withValidator v) ∧ Steady v

namespace Tried

variable {before middle after : List (Session K)}

theorem refl (h : AllSteady before) : Tried before before :=
  ⟨rfl, fun j d hd => ⟨d.validator, hd, h j d hd⟩⟩

theorem trans (h : Tried before middle) (h' : Tried middle after) : Tried before after := by
  refine ⟨h'.length.trans h.length, fun j d hd => ?_⟩
  obtain ⟨v, hv, -⟩ := h.windows j d hd
  obtain ⟨v', hv', hs⟩ := h'.windows j _ hv
  exact ⟨v', hv', hs⟩

theorem back (h : Tried before after) {j : ℕ} {d'} (hd' : after[j]? = some d') :
    ∃ d v, before[j]? = some d ∧ d' = d.withValidator v ∧ Steady v := by
  have hj : j < before.length := h.length ▸ (List.getElem?_eq_some_iff.mp hd').1
  obtain ⟨v, hv, hs⟩ := h.windows j before[j] (List.getElem?_eq_getElem hj)
  exact ⟨before[j], v, List.getElem?_eq_getElem hj, Option.mem_unique hd' hv, hs⟩

theorem steady (h : Tried before after) : AllSteady after := by
  intro j d' hd'
  obtain ⟨d, v, -, rfl, hs⟩ := h.back hd'
  exact hs

/-- One window is replaced. -/
theorem set {s : ℕ} {d v} (h : AllSteady before) (hd : before[s]? = some d) (hv : Steady v) :
    Tried before (before.set s (d.withValidator v)) := by
  refine ⟨List.length_set, fun j d' hd' => ?_⟩
  by_cases hj : s = j
  · subst hj
    obtain rfl : d = d' := Option.mem_unique hd hd'
    refine ⟨v, ?_, hv⟩
    rw [List.getElem?_set_self (List.getElem?_eq_some_iff.mp hd).1]
  · rw [List.getElem?_set_ne hj]
    exact ⟨d'.validator, hd', h j d' hd'⟩

end Tried

/-- A session that has accepted the messages with the indices `A`, all of them of the other end. -/
structure Accepted (A : Finset ℕ) (d : Session K) : Prop where
  /-- The window stands for them. -/
  represents : Represents A d.validator
  /-- It has a hundred nonces. -/
  length : d.validator.window.length = 100
  /-- The other end does not use other indices. -/
  genuine : ∀ n ∈ A, n < u64Half

/-- The session that took the message. -/
def takenBy : Except (List DecryptionError) (ℕ × Option ContactId × P) → Option ℕ
  | .ok (s, _, _) => some s
  | .error _ => none

@[simp] theorem takenBy_mapError (r : Except (List DecryptionError) (ℕ × Option ContactId × P))
    (f : List DecryptionError → List DecryptionError) : takenBy (r.mapError f) = takenBy r := by
  cases r <;> rfl

/-! ### Trying the recent sessions -/

variable [DecidableEq K]

/-- The loop over the recent sessions. The result is the session that could decrypt the message, its
contact and the plaintext, or the errors of all of them. -/
def tryDecrypt (msg : Encrypted K P) : List ℕ → List (Session K) →
    Option (Except (List DecryptionError) (ℕ × Option ContactId × P) × List (Session K))
  | [], sessions => some (.error [], sessions)
  | s :: rest, sessions =>
    match sessions[s]? with
    | none => tryDecrypt msg rest sessions
    | some session =>
      match session.decrypt msg with
      | none => none
      | some (.ok plaintext, session') =>
        some (.ok (s, session.contactId, plaintext), sessions.set s session')
      | some (.error e, session') =>
        (tryDecrypt msg rest (sessions.set s session')).map fun r =>
          (r.1.mapError (e :: ·), r.2)

/-- What `decrypt_respond` does with a request. -/
inductive RequestOutcome (P : Type)
  /-- The request is handed to `respond_to`. -/
  | respondTo (session : ℕ) (contactId : Option ContactId) (request : P)
  | missingSession
  | couldNotDecrypt
  deriving DecidableEq, Repr

/-- `decrypt_respond`, up to the call of `respond_to`. -/
def decryptRespond (recent : List ℕ) (request : Encrypted K P) (sessions : List (Session K)) :
    Option (RequestOutcome P × List (Session K)) :=
  (tryDecrypt request recent sessions).map fun r =>
    (match r.1 with
      | .ok (s, contactId, plaintext) => .respondTo s contactId plaintext
      | .error [] => .missingSession
      | .error (_ :: _) => .couldNotDecrypt, r.2)

/-- What `receive_encrypted_response` does with a response. -/
inductive ResponseOutcome (P : Type)
  /-- The response is handed to `receive_response`. -/
  | receiveResponse (session : ℕ) (contactId : Option ContactId) (response : P)
  | missingSession
  | decryptError (errors : List DecryptionError)
  deriving DecidableEq, Repr

/-- `receive_encrypted_response`, from the decryption on. -/
def receiveEncryptedResponse (recent : List ℕ) (response : Encrypted K P)
    (sessions : List (Session K)) : Option (ResponseOutcome P × List (Session K)) :=
  (tryDecrypt response recent sessions).map fun r =>
    (match r.1 with
      | .ok (s, contactId, plaintext) => .receiveResponse s contactId plaintext
      | .error [] => .missingSession
      | .error (e :: errors) => .decryptError (e :: errors), r.2)

/-! ### What an attempt does to a session -/

namespace Session

variable {s : Session K} {A : Finset ℕ}

/-- An attempt returns. -/
theorem decrypt_returns (h : Steady s.validator) (msg : Encrypted K P) :
    ∃ verdict v, s.decrypt msg = some (s.opened msg verdict, s.withValidator v) ∧ Steady v := by
  obtain ⟨⟨A, hA⟩, hlen⟩ := h
  obtain ⟨verdict, v, B, hvalid, hlen', hB⟩ :=
    hA.isValid_returns (hlen ▸ by decide) (s.windowIndex msg)
  exact ⟨verdict, v, by rw [decrypt_eq, hvalid]; rfl, ⟨B, hB⟩, hlen'.trans hlen⟩

/-- **One attempt**, with a window that has accepted messages of the other end only. -/
theorem decrypt_represents (h : Represents A s.validator) (hlen : s.validator.window.length = 100)
    (hA : ∀ n ∈ A, n < u64Half) (msg : Encrypted K P) :
    ∃ verdict v, s.decrypt msg = some (s.opened msg verdict, s.withValidator v) ∧
      v.window.length = 100 ∧ (verdict = .ok () ↔ Admits 100 A (s.windowIndex msg)) ∧
      Represents
        (if Admits 100 A (s.windowIndex msg) then insert (s.windowIndex msg) A else A) v := by
  have hlow : leastMissing A ≤ u64Half := leastMissing_le fun hmem => lt_irrefl _ (hA _ hmem)
  have hov : s.validator.lowerBound + s.validator.window.length < u64Size := by
    rw [h.lowerBound, hlen]
    exact lt_of_le_of_lt (Nat.add_le_add_right hlow 100) (by decide)
  obtain ⟨verdict, v, hvalid, hlen', hverdict, hrep⟩ := h.isValid hov (s.windowIndex msg)
  rw [hlen] at hlen' hverdict hrep
  exact ⟨verdict, v, by rw [decrypt_eq, hvalid]; rfl, hlen', hverdict, hrep⟩

theorem opened_error_of_unseal_none {msg : Encrypted K P} (verdict : Except BitStoreError Unit)
    (h : msg.message.unseal s.dencryptor.cipher msg.nonce = none) :
    ∃ e, s.opened msg verdict = .error e := by
  cases verdict with
  | error e => exact ⟨_, rfl⟩
  | ok u => exact ⟨.decryptionFailure, by rw [opened, h]⟩

theorem opened_ok_of_unseal {msg} {plaintext : P}
    (h : msg.message.unseal s.dencryptor.cipher msg.nonce = some plaintext) :
    s.opened msg (.ok ()) = .ok plaintext := by
  rw [opened, h]

theorem unseal_of_opened_ok {msg verdict} {plaintext : P}
    (h : s.opened msg verdict = .ok plaintext) : verdict = .ok () ∧
      msg.message.unseal s.dencryptor.cipher msg.nonce = some plaintext := by
  cases verdict with
  | error e => cases h
  | ok u =>
    rw [opened] at h
    split at h
    · cases h
    · next hu => exact ⟨rfl, by rw [hu, Except.ok.inj h]⟩

end Session

/-! ### What a loop does to the sessions -/

variable {sessions : List (Session K)}

/-- The loop returns. It changes windows only, and only a session that can decrypt the message
takes it. -/
theorem tryDecrypt_returns (msg : Encrypted K P) (recent : List ℕ) (h : AllSteady sessions) :
    ∃ r sessions', tryDecrypt msg recent sessions = some (r, sessions') ∧
      Tried sessions sessions' ∧
      (∀ j c p, r = .ok (j, c, p) → ∃ d, sessions[j]? = some d ∧
        msg.message.unseal d.dencryptor.cipher msg.nonce = some p) := by
  induction recent generalizing sessions with
  | nil => exact ⟨_, _, rfl, .refl h, nofun⟩
  | cons s rest ih =>
    rw [tryDecrypt]
    cases hs : sessions[s]? with
    | none => exact ih h
    | some d =>
      obtain ⟨verdict, v, hdec, hv⟩ := Session.decrypt_returns (h s d hs) msg
      have hset := Tried.set h hs hv
      simp only [hdec]
      cases hopen : d.opened msg verdict with
      | ok p =>
        refine ⟨_, _, rfl, hset, fun j c p' heq => ?_⟩
        cases heq
        exact ⟨d, hs, (Session.unseal_of_opened_ok hopen).2⟩
      | error e =>
        obtain ⟨r, sessions', hr, htried, hok⟩ := ih hset.steady
        refine ⟨r.mapError (e :: ·), sessions', by simp [hr], hset.trans htried,
          fun j c p hjp => ?_⟩
        cases r with
        | error es => cases hjp
        | ok x =>
          obtain ⟨d', hd', hu⟩ := hok j c p hjp
          obtain ⟨d₀, v', hd₀, rfl, -⟩ := hset.back hd'
          exact ⟨d₀, hd₀, hu⟩

/-- **A message finds its session.** If only the session `s` can decrypt a message, and its window
admits it, then the loop gets to `s` and stops there. -/
theorem tryDecrypt_ok {recent : List ℕ} {msg : Encrypted K P} {s : ℕ} {d A p}
    (h : AllSteady sessions) (hs : s ∈ recent) (hd : sessions[s]? = some d) (hA : Accepted A d)
    (hadm : Admits 100 A (d.windowIndex msg))
    (hopen : msg.message.unseal d.dencryptor.cipher msg.nonce = some p)
    (hother : ∀ (j : ℕ) (d' : Session K), sessions[j]? = some d' → j ≠ s →
      msg.message.unseal d'.dencryptor.cipher msg.nonce = none) :
    ∃ sessions', tryDecrypt msg recent sessions = some (.ok (s, d.contactId, p), sessions') := by
  induction recent generalizing sessions with
  | nil => cases hs
  | cons j rest ih =>
    rw [tryDecrypt]
    by_cases hj : j = s
    · subst hj
      obtain ⟨verdict, v, hdec, -, hverdict, -⟩ :=
        Session.decrypt_represents hA.represents hA.length hA.genuine msg
      obtain rfl := hverdict.mpr hadm
      rw [Session.opened_ok_of_unseal hopen] at hdec
      simp only [hd, hdec]
      exact ⟨_, rfl⟩
    · have hs' : s ∈ rest := (List.mem_cons.mp hs).resolve_left (Ne.symm hj)
      cases hdj : sessions[j]? with
      | none => exact ih h hs' hd hother
      | some d' =>
        obtain ⟨verdict, v, hdec, hv⟩ := Session.decrypt_returns (h j d' hdj) msg
        obtain ⟨e, he⟩ := Session.opened_error_of_unseal_none (s := d') verdict (hother j d' hdj hj)
        have hset := Tried.set h hdj hv
        obtain ⟨sessions', hr⟩ := ih hset.steady hs' (by rw [List.getElem?_set_ne hj, hd])
          fun i d'' hd'' hi => by
            obtain ⟨d₀, v', hd₀, rfl, -⟩ := hset.back hd''
            exact hother i d₀ hd₀ hi
        simp only [hdec, he, hr]
        exact ⟨sessions', rfl⟩

/-- **A loop, seen from one session.** If the session can decrypt the message, or its window does
not admit it, whenever the loop gets to the session, then the loop leaves the window as it was,
unless the session takes the message. The reason `Q` for which the session can decrypt the message
is passed on. -/
theorem tryDecrypt_accepted {recent} {msg : Encrypted K P} {s : ℕ} {d : Session K} {A} {Q : Prop}
    (h : AllSteady sessions) (hd : sessions[s]? = some d) (hA : Accepted A d)
    (hopen : Q → (msg.message.unseal d.dencryptor.cipher msg.nonce).isSome)
    (hreach : ∀ pre post, recent = pre ++ s :: post →
      (∃ errors sessions', tryDecrypt msg pre sessions = some (.error errors, sessions')) →
      Q ∨ ¬ Admits 100 A (d.windowIndex msg)) :
    ∃ r sessions' v, tryDecrypt msg recent sessions = some (r, sessions') ∧
      sessions'[s]? = some (d.withValidator v) ∧ v.window.length = 100 ∧
      (takenBy r = some s → Q) ∧
      Represents (if takenBy r = some s then insert (d.windowIndex msg) A else A) v := by
  induction recent generalizing sessions d with
  | nil => exact ⟨_, _, d.validator, rfl, hd, hA.length, nofun, hA.represents⟩
  | cons j rest ih =>
    rw [tryDecrypt]
    by_cases hj : j = s
    · subst hj
      obtain ⟨verdict, v, hdec, hlen, hverdict, hrep⟩ :=
        Session.decrypt_represents hA.represents hA.length hA.genuine msg
      have hself : (sessions.set j (d.withValidator v))[j]? = some (d.withValidator v) :=
        List.getElem?_set_self (List.getElem?_eq_some_iff.mp hd).1
      simp only [hd, hdec]
      by_cases hadm : Admits 100 A (d.windowIndex msg)
      · obtain hQ | hnot := hreach [] rest rfl ⟨_, _, rfl⟩
        · obtain ⟨p, hp⟩ := Option.isSome_iff_exists.mp (hopen hQ)
          obtain rfl := hverdict.mpr hadm
          rw [Session.opened_ok_of_unseal hp]
          rw [if_pos hadm] at hrep
          exact ⟨_, _, v, rfl, hself, hlen, fun _ => hQ, by rw [takenBy, if_pos rfl]; exact hrep⟩
        · exact absurd hadm hnot
      · rw [if_neg hadm] at hrep
        cases hopened : d.opened msg verdict with
        | ok p => exact absurd (hverdict.mp (Session.unseal_of_opened_ok hopened).1) hadm
        | error e =>
          have hset := Tried.set h hd ⟨⟨A, hrep⟩, hlen⟩
          obtain ⟨r, sessions', v', hr, hs', hlen', htaken, hrep'⟩ :=
            ih hset.steady hself ⟨hrep, hlen, hA.genuine⟩ hopen fun _ _ _ _ => .inr hadm
          exact ⟨r.mapError (e :: ·), sessions', v', by simp [hr], hs', hlen',
            by simpa using htaken, by simpa using hrep'⟩
    · cases hdj : sessions[j]? with
      | none =>
        refine ih h hd hA hopen fun pre post hpre herr =>
          hreach (j :: pre) post (by rw [hpre]; rfl) ?_
        rw [tryDecrypt, hdj]
        exact herr
      | some d' =>
        obtain ⟨verdict, v, hdec, hv⟩ := Session.decrypt_returns (h j d' hdj) msg
        have hset := Tried.set h hdj hv
        have hd' : (sessions.set j (d'.withValidator v))[s]? = some d := by
          rw [List.getElem?_set_ne hj, hd]
        simp only [hdec]
        cases hopened : d'.opened msg verdict with
        | ok p =>
          have hne : takenBy (Except.ok (j, d'.contactId, p)) ≠ some s := fun heq =>
            hj (Option.some.inj heq)
          exact ⟨_, _, d.validator, rfl, hd', hA.length, fun heq => absurd heq hne,
            by rw [if_neg hne]; exact hA.represents⟩
        | error e =>
          obtain ⟨r, sessions', v', hr, hs', hlen', htaken, hrep'⟩ := ih hset.steady hd' hA
            hopen fun pre post hpre ⟨errors, sessions'', herr⟩ =>
              hreach (j :: pre) post (by rw [hpre]; rfl)
                ⟨e :: errors, sessions'',
                  by simp [tryDecrypt, hdj, hdec, hopened, herr, Except.mapError]⟩
          exact ⟨r.mapError (e :: ·), sessions', v', by simp [hr], hs', hlen',
            by simpa using htaken, by simpa using hrep'⟩

end Fyles
