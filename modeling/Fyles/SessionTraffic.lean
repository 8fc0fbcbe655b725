import Fyles.SessionTrials
import Fyles.Internal.Run

/-!
# The traffic of a peer

Our end of all sessions with one peer, the other ends, and what was sent. A message that arrives is
tried with the recent sessions, as in `Fyles.SessionTrials`; which sessions are recent, and in
which order they are tried, is part of the event. A message that a session can decrypt was sent
by one of the two ends of the session. Apart from that messages are arbitrary.

## Failed attempts

A failed attempt uses up the nonce of the message in the window of the session. If that never
happens, the window of the session stands for the messages of the other end that were accepted, and
a message of the other end is accepted as soon as its nonce is in this window. If it does
happen, a message of the session can be refused although it is new and its nonce is in order. No
forgery is needed for that: messages of an older session have the same nonces, and are tried with
the current session first.

## Main results

* `genuine_message_accepted` — then a message of the session is accepted if its nonce is in the
  window of the messages accepted so far
* `message_of_other_session_blocks` — a message of another session makes a session refuse its own
-/

namespace Fyles

open RollingNonceWindow ReplayWindow

variable {K P : Type}

/-! ### Both ends -/

/-- The other end of a session, and what was sent in it. -/
structure Remote (K P : Type) where
  dencryptor : Dencryptor K
  sent : List (Encrypted K P)
  returned : List (Encrypted K P)
  /-- The messages of the other end that were accepted. -/
  accepted : List (Encrypted K P)

/-- All sessions with a peer. -/
structure Traffic (K P : Type) where
  /-- Our ends. -/
  sessions : List (Session K)
  /-- The other ends. -/
  remotes : List (Remote K P)

/-- Append what was encrypted, if it was. -/
def appendOk (sent : List (Encrypted K P)) :
    Except EncryptionError (Encrypted K P) → List (Encrypted K P)
  | .ok msg => sent ++ [msg]
  | .error _ => sent

/-- The indices of the messages of the other end that were accepted. -/
def Remote.indices (r : Remote K P) (d : Session K) : Finset ℕ :=
  (r.accepted.map d.windowIndex).toFinset

/-! ### Two ends of a session -/

/-- The two ends of a session. -/
structure Linked (d : Session K) (r : Remote K P) : Prop where
  /-- They share the key. -/
  cipher : r.dencryptor.cipher = d.dencryptor.cipher
  /-- One of them is the initiator. -/
  sides : r.dencryptor.nonceGeneratorValidator.isInitiatorSession =
    !d.dencryptor.nonceGeneratorValidator.isInitiatorSession
  /-- The counter of the other end is in its range. -/
  counter : r.dencryptor.nonceGeneratorValidator.usedNonceCounter ≤ u64Half
  /-- The messages of the other end are encrypted with the key and the nonces used so far. -/
  sent : ∀ m ∈ r.sent, ∃ k p, k < r.dencryptor.nonceGeneratorValidator.usedNonceCounter ∧
    d.windowIndex m = k ∧ m.message = .sealed d.dencryptor.cipher m.nonce p
  /-- No nonce is used twice. -/
  distinct : ∀ m ∈ r.sent, ∀ m' ∈ r.sent, d.windowIndex m = d.windowIndex m' → m = m'
  /-- What was accepted was sent. -/
  accepted : ∀ m ∈ r.accepted, m ∈ r.sent

namespace Linked

variable {d : Session K} {r : Remote K P}

theorem index_lt (h : Linked d r) {m} (hm : m ∈ r.sent) : d.windowIndex m < u64Half := by
  obtain ⟨k, p, hk, hidx, -⟩ := h.sent m hm
  rw [hidx]
  exact Nat.lt_of_lt_of_le hk h.counter

theorem indices_lt (h : Linked d r) : ∀ n ∈ r.indices d, n < u64Half := by
  intro n hn
  obtain ⟨m, hm, rfl⟩ := List.mem_map.mp (List.mem_toFinset.mp hn)
  exact h.index_lt (h.accepted m hm)

/-- A message that was not accepted has an index that was not accepted. -/
theorem index_notMem (h : Linked d r) {m} (hm : m ∈ r.sent) (hnew : m ∉ r.accepted) :
    d.windowIndex m ∉ r.indices d := by
  intro hmem
  obtain ⟨m', hm', heq⟩ := List.mem_map.mp (List.mem_toFinset.mp hmem)
  exact hnew (h.distinct m' (h.accepted m' hm') m hm heq ▸ hm')

theorem withValidator (h : Linked d r) (v : RollingNonceWindow (List Bool)) :
    Linked (d.withValidator v) r :=
  ⟨h.cipher, h.sides, h.counter, h.sent, h.distinct, h.accepted⟩

/-- The other end encrypts a message. -/
theorem theirs (h : Linked d r) (seals : Bool) (plaintext : P) : Linked d { r with
      dencryptor := (r.dencryptor.encrypt seals plaintext).2
      sent := appendOk r.sent (r.dencryptor.encrypt seals plaintext).1 } := by
  rw [Dencryptor.encrypt]
  split
  · next e g hg =>
    obtain rfl := NonceGeneratorValidator.getNextSendNonce_error hg
    exact ⟨h.cipher, h.sides, h.counter, h.sent, h.distinct, h.accepted⟩
  · next nonce g hg =>
    obtain ⟨hlt, rfl, rfl⟩ := NonceGeneratorValidator.getNextSendNonce_ok h.counter hg
    cases seals with
    | false =>
      refine ⟨h.cipher, h.sides, hlt, fun m hm => ?_, h.distinct, h.accepted⟩
      obtain ⟨k, p, hk, hm'⟩ := h.sent m hm
      exact ⟨k, p, Nat.lt_succ_of_lt hk, hm'⟩
    | true =>
      -- The index of the new message is the old counter, which is above all older indices.
      have hidx := NonceGeneratorValidator.windowIndex_wireNonce h.sides hlt
      have hne : ∀ m ∈ r.sent, d.windowIndex m ≠
          r.dencryptor.nonceGeneratorValidator.usedNonceCounter := by
        intro m hm
        obtain ⟨k, p, hk, hidx', -⟩ := h.sent m hm
        exact hidx' ▸ Nat.ne_of_lt hk
      refine ⟨h.cipher, h.sides, hlt, fun m hm => ?_, fun m hm m' hm' heq => ?_, fun m hm => ?_⟩
      · rcases List.mem_append.mp hm with hm | hm
        · obtain ⟨k, p, hk, hm'⟩ := h.sent m hm
          exact ⟨k, p, Nat.lt_succ_of_lt hk, hm'⟩
        · obtain rfl := List.mem_singleton.mp hm
          exact ⟨_, plaintext, Nat.lt_succ_self _, hidx, by rw [h.cipher]⟩
      · rcases List.mem_append.mp hm with hm | hm <;> rcases List.mem_append.mp hm' with hm' | hm'
        · exact h.distinct m hm m' hm' heq
        · obtain rfl := List.mem_singleton.mp hm'
          exact absurd (heq.trans hidx) (hne m hm)
        · obtain rfl := List.mem_singleton.mp hm
          exact absurd (heq.symm.trans hidx) (hne m' hm')
        · exact (List.mem_singleton.mp hm).trans (List.mem_singleton.mp hm').symm
      · exact List.mem_append_left _ (h.accepted m hm)

/-- Our end encrypts a message. -/
theorem ours (h : Linked d r) (n : ℕ) (returned : List (Encrypted K P)) :
    Linked (d.withCounter n) { r with returned := returned } :=
  ⟨h.cipher, h.sides, h.counter, h.sent, h.distinct, h.accepted⟩

end Linked

/-- Whether a message is a request or a response. -/
inductive Path
  | request
  | response
  deriving DecidableEq, Repr

namespace Traffic

/-- What can happen. -/
inductive Event (K P : Type)
  /-- A session is established, with a key that no other session has. -/
  | establish (key : K) (isInitiator : Bool) (contactId : Option ContactId)
  /-- The other end of a session encrypts a message. -/
  | theirs (s : ℕ) (seals : Bool) (plaintext : P)
  /-- Our end of a session encrypts a message. -/
  | ours (s : ℕ) (seals : Bool) (plaintext : P)
  /-- A message arrives and is tried with the recent sessions. -/
  | receive (path : Path) (recent : List ℕ) (msg : Encrypted K P)

/-- No session is established yet. -/
def new : Traffic K P := ⟨[], []⟩

end Traffic

/-! ### The invariant -/

/-- What holds of all sessions, and of the session `s` if failed attempts with it are harmless. -/
structure Kept (s : ℕ) (w : Traffic K P) : Prop where
  steady : AllSteady w.sessions
  /-- Every session has its own key. -/
  keys : ∀ (i j : ℕ) (d d' : Session K), w.sessions[i]? = some d → w.sessions[j]? = some d' →
    d.dencryptor.cipher = d'.dencryptor.cipher → i = j
  length : w.remotes.length = w.sessions.length
  /-- The ends fit together. -/
  linked : ∀ (j : ℕ) (d : Session K) (r : Remote K P), w.sessions[j]? = some d →
    w.remotes[j]? = some r → Linked d r
  /-- The window of `s` stands for the messages that were accepted. -/
  accepted : ∀ (d : Session K) (r : Remote K P), w.sessions[s]? = some d →
    w.remotes[s]? = some r → Represents (r.indices d) d.validator ∧ d.validator.window.length = 100

namespace Kept

variable {s : ℕ} {w : Traffic K P}

theorem new (s : ℕ) : Kept s (Traffic.new : Traffic K P) where
  steady _ _ h := by cases h
  keys _ _ _ _ h := by cases h
  length := rfl
  linked _ _ _ h := by cases h
  accepted _ _ h := by cases h

theorem accepted' (h : Kept s w) {d r} (hd : w.sessions[s]? = some d)
    (hr : w.remotes[s]? = some r) : Accepted (r.indices d) d :=
  ⟨(h.accepted d r hd hr).1, (h.accepted d r hd hr).2, (h.linked s d r hd hr).indices_lt⟩

theorem getElem?_concat_cases {α : Type} {l} {x y : α} {j : ℕ} (h : (l ++ [x])[j]? = some y) :
    l[j]? = some y ∨ j = l.length ∧ y = x := by
  rcases Nat.lt_or_ge j l.length with hj | hj
  · rw [List.getElem?_append_left hj] at h
    exact .inl h
  · obtain rfl : j = l.length := by
      have := (List.getElem?_eq_some_iff.mp h).1
      rw [List.length_append, List.length_singleton] at this
      omega
    rw [List.getElem?_concat_length] at h
    exact .inr ⟨rfl, (Option.some.inj h).symm⟩

/-- A new session. -/
theorem establish (h : Kept s w) {d} {r : Remote K P} (hlinked : Linked d r)
    (hfresh : ∀ (j : ℕ) (d' : Session K), w.sessions[j]? = some d' →
      d'.dencryptor.cipher ≠ d.dencryptor.cipher) (hwindow : d.validator = newRollingNonceWindow)
    (hnone : r.accepted = []) : Kept s ⟨w.sessions ++ [d], w.remotes ++ [r]⟩ := by
  have hlen : newRollingNonceWindow.window.length = 100 := by simp [newRollingNonceWindow]
  have hsame : ∀ {j : ℕ} {d' : Session K} {r' : Remote K P}, (w.sessions ++ [d])[j]? = some d' →
      (w.remotes ++ [r])[j]? = some r' →
      (w.sessions[j]? = some d' ∧ w.remotes[j]? = some r') ∨ (d' = d ∧ r' = r) := by
    intro j d' r' hd' hr'
    rcases getElem?_concat_cases hd' with hd' | ⟨rfl, rfl⟩
    · have hj : j < w.remotes.length := h.length ▸ (List.getElem?_eq_some_iff.mp hd').1
      rw [List.getElem?_append_left hj] at hr'
      exact .inl ⟨hd', hr'⟩
    · rw [← h.length, List.getElem?_concat_length] at hr'
      exact .inr ⟨rfl, (Option.some.inj hr').symm⟩
  refine ⟨fun j d' hd' => ?_, fun i j d' d'' hd' hd'' heq => ?_, ?_, fun j d' r' hd' hr' => ?_,
    fun d' r' hd' hr' => ?_⟩
  · rcases getElem?_concat_cases hd' with hd' | ⟨-, rfl⟩
    · exact h.steady j d' hd'
    · rw [hwindow]
      exact ⟨⟨∅, represents_new⟩, hlen⟩
  · rcases getElem?_concat_cases hd' with hi | ⟨hi, rfl⟩ <;>
      rcases getElem?_concat_cases hd'' with hj | ⟨hj, hd⟩
    · exact h.keys i j d' d'' hi hj heq
    · exact absurd (heq.trans (by rw [hd])) (hfresh i d' hi)
    · exact absurd heq.symm (hfresh j d'' hj)
    · exact hi.trans hj.symm
  · rw [List.length_append, List.length_append, h.length]
    rfl
  · rcases hsame hd' hr' with ⟨hd', hr'⟩ | ⟨rfl, rfl⟩
    · exact h.linked j d' r' hd' hr'
    · exact hlinked
  · rcases hsame hd' hr' with ⟨hd', hr'⟩ | ⟨rfl, rfl⟩
    · exact h.accepted d' r' hd' hr'
    · rw [hwindow, Remote.indices, hnone]
      exact ⟨represents_new, hlen⟩

theorem indices_accept (r : Remote K P) (d : Session K) (msg : Encrypted K P) :
    Remote.indices { r with accepted := r.accepted ++ [msg] } d =
      insert (d.windowIndex msg) (r.indices d) := by
  simp [Remote.indices]

theorem getElem?_modify_cases {α : Type} {l : List α} {f : α → α} {i j : ℕ} {y}
    (h : (l.modify i f)[j]? = some y) : ∃ x, l[j]? = some x ∧ y = if i = j then f x else x := by
  rw [List.getElem?_modify] at h
  obtain ⟨x, hx, rfl⟩ := Option.map_eq_some_iff.mp h
  exact ⟨x, hx, rfl⟩

/-- The other end of a session changes. -/
theorem modify {i : ℕ} {f : Remote K P → Remote K P} (h : Kept s w)
    (hlinked : ∀ d r, w.sessions[i]? = some d → Linked d r → Linked d (f r))
    (haccepted : ∀ r, (f r).accepted = r.accepted) :
    Kept s { w with remotes := w.remotes.modify i f } := by
  refine ⟨h.steady, h.keys, by rw [List.length_modify, h.length], fun j d r' hd hr' => ?_,
    fun d r' hd hr' => ?_⟩
  · obtain ⟨r, hr, rfl⟩ := getElem?_modify_cases hr'
    split
    · next hij =>
      subst hij
      exact hlinked d r hd (h.linked i d r hd hr)
    · exact h.linked j d r hd hr
  · obtain ⟨r, hr, rfl⟩ := getElem?_modify_cases hr'
    have hsame : (if i = s then f r else r).accepted = r.accepted := by
      split
      · exact haccepted r
      · rfl
    rw [Remote.indices, hsame]
    exact h.accepted d r hd hr

/-- Our end of a session encrypts a message. -/
theorem ours {i : ℕ} {d : Session K} (h : Kept s w) (hd : w.sessions[i]? = some d) (n : ℕ)
    (returned : Remote K P → List (Encrypted K P)) :
    Kept s ⟨w.sessions.set i (d.withCounter n),
      w.remotes.modify i fun r => { r with returned := returned r }⟩ := by
  have hi : i < w.sessions.length := (List.getElem?_eq_some_iff.mp hd).1
  -- A session of the new list is an old one, or the one that has encrypted the message.
  have hcases : ∀ {j : ℕ} {d' : Session K}, (w.sessions.set i (d.withCounter n))[j]? = some d' →
      (i ≠ j ∧ w.sessions[j]? = some d') ∨ (i = j ∧ d' = d.withCounter n) := by
    intro j d' hd'
    by_cases hij : i = j
    · subst hij
      rw [List.getElem?_set_self hi] at hd'
      exact .inr ⟨rfl, (Option.some.inj hd').symm⟩
    · rw [List.getElem?_set_ne hij] at hd'
      exact .inl ⟨hij, hd'⟩
  have hold : ∀ {j : ℕ} {d' : Session K}, (w.sessions.set i (d.withCounter n))[j]? = some d' →
      ∃ d₀, w.sessions[j]? = some d₀ ∧ d'.dencryptor.cipher = d₀.dencryptor.cipher ∧
        d'.validator = d₀.validator := by
    intro j d' hd'
    rcases hcases hd' with ⟨-, hd'⟩ | ⟨rfl, rfl⟩
    · exact ⟨d', hd', rfl, rfl⟩
    · exact ⟨d, hd, rfl, rfl⟩
  refine ⟨fun j d' hd' => ?_, fun j j' d' d'' hd' hd'' heq => ?_, ?_, fun j d' r' hd' hr' => ?_,
    fun d' r' hd' hr' => ?_⟩
  · obtain ⟨d₀, hd₀, -, hv⟩ := hold hd'
    exact hv ▸ h.steady j d₀ hd₀
  · obtain ⟨d₀, hd₀, hc, -⟩ := hold hd'
    obtain ⟨d₁, hd₁, hc', -⟩ := hold hd''
    exact h.keys j j' d₀ d₁ hd₀ hd₁ (hc.symm.trans (heq.trans hc'))
  · rw [List.length_modify, List.length_set, h.length]
  · obtain ⟨r₀, hr₀, rfl⟩ := getElem?_modify_cases hr'
    rcases hcases hd' with ⟨hij, hd'⟩ | ⟨rfl, rfl⟩
    · rw [if_neg hij]
      exact h.linked j d' r₀ hd' hr₀
    · rw [if_pos rfl]
      exact (h.linked i d r₀ hd hr₀).ours n _
  · obtain ⟨r₀, hr₀, rfl⟩ := getElem?_modify_cases hr'
    rcases hcases hd' with ⟨hij, hd'⟩ | ⟨rfl, rfl⟩
    · rw [if_neg hij]
      exact h.accepted d' r₀ hd' hr₀
    · rw [if_pos rfl]
      exact h.accepted d r₀ hd hr₀

end Kept

/-! ### Steps -/

variable [DecidableEq K]

namespace Traffic

/-- The session that a request or a response was taken by. -/
def receive (path : Path) (recent : List ℕ) (msg : Encrypted K P) (sessions : List (Session K)) :
    Option (Option ℕ × List (Session K)) :=
  match path with
  | .request => (decryptRespond recent msg sessions).map fun r =>
    (match r.1 with
      | .respondTo s _ _ => some s
      | .missingSession | .couldNotDecrypt => none, r.2)
  | .response => (receiveEncryptedResponse recent msg sessions).map fun r =>
    (match r.1 with
      | .receiveResponse s _ _ => some s
      | .missingSession | .decryptError _ => none, r.2)

theorem receive_eq (path : Path) (recent : List ℕ) (msg : Encrypted K P)
    (sessions : List (Session K)) :
    receive path recent msg sessions =
      (tryDecrypt msg recent sessions).map fun r => (takenBy r.1, r.2) := by
  cases path <;>
  · simp only [receive, decryptRespond, receiveEncryptedResponse, Option.map_map]
    refine Option.map_congr fun r _ => ?_
    obtain ⟨(_ | _) | ⟨s, c, p⟩, sessions'⟩ := r <;> rfl

variable [DecidableEq P]

/-- The message was sent by an end of every session that can decrypt it. -/
def unforged (w : Traffic K P) (msg : Encrypted K P) : Bool :=
  (w.sessions.zip w.remotes).all fun x =>
    (msg.message.unseal x.1.dencryptor.cipher msg.nonce).isNone || msg ∈ x.2.sent ||
      msg ∈ x.2.returned

/-- Note that a session took a message, if it is one of the other end. -/
def accept (taken : Option ℕ) (msg : Encrypted K P) (remotes : List (Remote K P)) :
    List (Remote K P) :=
  match taken with
  | none => remotes
  | some s => remotes.modify s fun r =>
    if msg ∈ r.sent then { r with accepted := r.accepted ++ [msg] } else r

/-- One step. -/
def step (w : Traffic K P) : Event K P → Option (Traffic K P)
  | .establish key isInitiator contactId =>
    if w.sessions.any fun d => d.dencryptor.cipher = key then none
    else
      let us := if isInitiator then newNonceGeneratorValidatorForSessionInitiator
        else newNonceGeneratorValidatorForSessionResponder
      let them := if isInitiator then newNonceGeneratorValidatorForSessionResponder
        else newNonceGeneratorValidatorForSessionInitiator
      some ⟨w.sessions ++ [⟨⟨key, us⟩, contactId⟩], w.remotes ++ [⟨⟨key, them⟩, [], [], []⟩]⟩
  | .theirs s seals plaintext =>
    some { w with remotes := w.remotes.modify s fun r =>
      { r with
        dencryptor := (r.dencryptor.encrypt seals plaintext).2
        sent := appendOk r.sent (r.dencryptor.encrypt seals plaintext).1 } }
  | .ours s seals plaintext =>
    match w.sessions[s]? with
    | none => none
    | some d => some
      { sessions := w.sessions.set s
          { d with dencryptor := (d.dencryptor.encrypt seals plaintext).2 }
        remotes := w.remotes.modify s fun r =>
          { r with returned := appendOk r.returned (d.dencryptor.encrypt seals plaintext).1 } }
  | .receive path recent msg =>
    if w.unforged msg then
      (receive path recent msg w.sessions).map fun r => ⟨r.2, accept r.1 msg w.remotes⟩
    else none

end Traffic

variable [DecidableEq P]

/-- **Failed attempts with the session `s` use up no nonce of its window.** If a message gets to the
session, because none of those before it could decrypt it, and is not one of the other end of the
session, then its nonce is outside the window of the messages accepted so far, or was used by one of
them. -/
def Harmless (s : ℕ) (w : Traffic K P) : Traffic.Event K P → Prop
  | .receive _ recent msg =>
    ∀ pre post, recent = pre ++ s :: post →
      (∃ errors sessions', tryDecrypt msg pre w.sessions = some (.error errors, sessions')) →
      ∀ d r, w.sessions[s]? = some d → w.remotes[s]? = some r → msg ∉ r.sent →
        ¬ Admits 100 (r.indices d) (d.windowIndex msg)
  | _ => True

namespace Kept

variable {s : ℕ} {w : Traffic K P}

/-- What is known about the other end of a session after a message was tried. -/
theorem accept_cases {taken : Option ℕ} {msg remotes} {j : ℕ} {r' : Remote K P}
    (h : (Traffic.accept taken msg remotes)[j]? = some r') :
    ∃ r, remotes[j]? = some r ∧ r' = if taken = some j ∧ msg ∈ r.sent then
      { r with accepted := r.accepted ++ [msg] } else r := by
  cases taken with
  | none => exact ⟨r', h, by simp⟩
  | some i =>
    obtain ⟨r, hr, rfl⟩ := getElem?_modify_cases h
    refine ⟨r, hr, ?_⟩
    by_cases hij : i = j <;> by_cases hm : msg ∈ r.sent <;> simp [hij, hm]

theorem length_accept (taken : Option ℕ) (msg : Encrypted K P) (remotes : List (Remote K P)) :
    (Traffic.accept taken msg remotes).length = remotes.length := by
  cases taken with
  | none => rfl
  | some i => exact List.length_modify _ _ _

/-- **A message arrives.** -/
theorem receive {path recent msg} {taken : Option ℕ} {sessions'} (h : Kept s w)
    (hok : Harmless s w (.receive path recent msg))
    (hreceive : Traffic.receive path recent msg w.sessions = some (taken, sessions')) :
    Kept s ⟨sessions', Traffic.accept taken msg w.remotes⟩ := by
  obtain ⟨r, sessions'', hr, htried, -⟩ := tryDecrypt_returns msg recent h.steady
  rw [Traffic.receive_eq, hr] at hreceive
  obtain ⟨⟩ := hreceive
  refine ⟨htried.steady, fun i j d d' hd hd' heq => ?_, ?_, fun j d' q' hd' hq' => ?_,
    fun d' q' hd' hq' => ?_⟩
  · obtain ⟨d₀, v, hd₀, rfl, -⟩ := htried.back hd
    obtain ⟨d₁, v', hd₁, rfl, -⟩ := htried.back hd'
    exact h.keys i j d₀ d₁ hd₀ hd₁ heq
  · rw [length_accept, h.length, htried.length]
  · obtain ⟨d, v, hd, rfl, -⟩ := htried.back hd'
    obtain ⟨q, hq, rfl⟩ := accept_cases hq'
    have hlinked := (h.linked j d q hd hq).withValidator v
    split
    · next hm =>
      refine ⟨hlinked.cipher, hlinked.sides, hlinked.counter, hlinked.sent, hlinked.distinct,
        fun m hmem => ?_⟩
      rcases List.mem_append.mp hmem with hmem | hmem
      · exact hlinked.accepted m hmem
      · exact List.mem_singleton.mp hmem ▸ hm.2
    · exact hlinked
  · obtain ⟨d, v, hd, rfl, -⟩ := htried.back hd'
    obtain ⟨q, hq, rfl⟩ := accept_cases hq'
    -- A message of the other end can be decrypted; any other is not admitted.
    have hopen : msg ∈ q.sent →
        (msg.message.unseal d.dencryptor.cipher msg.nonce).isSome := by
      intro hm
      obtain ⟨k, p, -, -, hp⟩ := (h.linked s d q hd hq).sent msg hm
      rw [Ciphertext.unseal_eq_some.mpr hp]
      rfl
    obtain ⟨r', sessions₁, v', hr', hs', hlen, hgenuine, hrep⟩ :=
      tryDecrypt_accepted (Q := msg ∈ q.sent) h.steady hd (h.accepted' hd hq) hopen
        fun pre post (hpre : recent = pre ++ s :: post) herr =>
          (em (msg ∈ q.sent)).imp_right (hok pre post hpre herr d q hd hq)
    obtain ⟨rfl, rfl⟩ := Prod.mk.inj (Option.mem_unique hr hr')
    obtain rfl : v = v' := by
      have := congrArg Session.validator (Option.mem_unique hd' hs')
      exact this
    refine ⟨?_, hlen⟩
    by_cases htaken : takenBy r = some s
    · rw [if_pos htaken] at hrep
      rw [if_pos ⟨htaken, hgenuine htaken⟩, indices_accept]
      exact hrep
    · rw [if_neg htaken] at hrep
      rw [if_neg fun hc => htaken hc.1]
      exact hrep

/-- **One step.** -/
theorem step {e w'} (h : Kept s w) (hok : Harmless s w e) (hstep : w.step e = some w') :
    Kept s w' := by
  cases e with
  | establish key isInitiator contactId =>
    simp only [Traffic.step] at hstep
    split at hstep
    · cases hstep
    · next hfresh =>
      obtain ⟨⟩ := hstep
      refine h.establish ⟨rfl, ?_, ?_, nofun, nofun, nofun⟩ ?_ ?_ rfl
      · cases isInitiator <;> rfl
      · cases isInitiator <;> exact Nat.zero_le _
      · intro j d' hd' heq
        refine hfresh (List.any_eq_true.mpr ⟨d', List.mem_of_getElem? hd', ?_⟩)
        exact decide_eq_true heq
      · cases isInitiator <;> rfl
  | theirs i seals plaintext =>
    obtain ⟨⟩ := hstep
    exact h.modify (fun d r _ hlinked => hlinked.theirs seals plaintext) fun r => rfl
  | ours i seals plaintext =>
    simp only [Traffic.step] at hstep
    split at hstep
    · cases hstep
    · next d hd =>
      obtain ⟨⟩ := hstep
      obtain ⟨n, hn⟩ := d.encrypt_eq seals plaintext
      rw [hn]
      exact h.ours hd n _
  | receive path recent msg =>
    simp only [Traffic.step] at hstep
    split at hstep
    · obtain ⟨⟨taken, sessions'⟩, hr, rfl⟩ := Option.map_eq_some_iff.mp hstep
      exact h.receive hok hr
    · cases hstep

end Kept

/-- **A message of the session is accepted.** In every run in which failed attempts with the
session `s` are harmless: a message of the other end of `s` that was not accepted before, and
whose nonce is in the window of the messages accepted so far, is handed to `respond_to` if it is a
request, and to `receive_response` if it is a response, whichever other sessions are tried before
`s`. -/
theorem genuine_message_accepted {s : ℕ} {es : List (Traffic.Event K P)} {w : Traffic K P}
    (h : Run Traffic.step (Harmless s) Traffic.new es w) {d : Session K} {r : Remote K P}
    (hd : w.sessions[s]? = some d) (hr : w.remotes[s]? = some r) {msg : Encrypted K P}
    (hgenuine : msg ∈ r.sent) (hnew : msg ∉ r.accepted)
    (hwindow : InWindow 100 (r.indices d) (d.windowIndex msg)) {recent : List ℕ} (hs : s ∈ recent) :
    ∃ p sessions', msg.message = .sealed d.dencryptor.cipher msg.nonce p ∧
      decryptRespond recent msg w.sessions = some (.respondTo s d.contactId p, sessions') ∧
      receiveEncryptedResponse recent msg w.sessions =
        some (.receiveResponse s d.contactId p, sessions') := by
  have hkept : Kept s w := h.invariant (.new s) fun hw hok hstep => hw.step hok hstep
  have hlinked := hkept.linked s d r hd hr
  obtain ⟨k, p, -, -, hp⟩ := hlinked.sent msg hgenuine
  have hopen := Ciphertext.unseal_eq_some.mpr hp
  have hother : ∀ (j : ℕ) (d' : Session K), w.sessions[j]? = some d' → j ≠ s →
      msg.message.unseal d'.dencryptor.cipher msg.nonce = none := by
    intro j d' hd' hj
    refine Option.eq_none_iff_forall_ne_some.mpr fun p' hp' => ?_
    have hsealed := Ciphertext.unseal_eq_some.mp hp'
    rw [hp] at hsealed
    exact hj (hkept.keys j s d' d hd' hd (Ciphertext.sealed.inj hsealed).1.symm)
  obtain ⟨sessions', htry⟩ := tryDecrypt_ok hkept.steady hs hd (hkept.accepted' hd hr)
    ⟨hlinked.index_notMem hgenuine hnew, hwindow⟩ hopen hother
  exact ⟨p, sessions', hp, by rw [decryptRespond, htry]; rfl,
    by rw [receiveEncryptedResponse, htry]; rfl⟩

/-! ### Two sessions -/

/-- A message that was encrypted with a number as the key. -/
def sampleMessage (key nonce plaintext : ℕ) : Encrypted ℕ ℕ :=
  ⟨nonce, .sealed key nonce plaintext⟩

/-- A session in which the other end has sent two messages. -/
def twoMessages : List (Traffic.Event ℕ ℕ) :=
  [.establish 0 false none, .theirs 0 true 10, .theirs 0 true 20]

/-- The second message arrives first, and then a message of somebody else with the same nonce. The
first message is still accepted. -/
theorem genuine_message_accepted_late : ∃ (w : Traffic ℕ ℕ) (sessions' : List (Session ℕ)),
    Run Traffic.step (Harmless 0) Traffic.new
      (twoMessages ++ [.receive .request [0] (sampleMessage 0 1 20)] ++
        [.receive .request [0] (sampleMessage 7 1 30)]) w ∧
    (∃ r, w.remotes[0]? = some r ∧ r.accepted = [sampleMessage 0 1 20]) ∧
    decryptRespond [0] (sampleMessage 0 0 10) w.sessions =
      some (.respondTo 0 none 10, sessions') := by
  have hsent : Run Traffic.step (Harmless 0) Traffic.new twoMessages
      ((runFrom Traffic.step Traffic.new twoMessages).get (by decide)) :=
    Run.get_runFrom (by decide)
      ⟨trivial, fun _ _ => ⟨trivial, fun _ _ => ⟨trivial, fun _ _ => trivial⟩⟩⟩
  have hharmless : Harmless 0 ((runFrom Traffic.step Traffic.new twoMessages).get (by decide))
      (.receive .request [0] (sampleMessage 0 1 20)) := by
    intro pre post _ _ d r _ hr hnot
    have hmem : ∀ r ∈ ((runFrom Traffic.step Traffic.new twoMessages).get (by decide)).remotes[0]?,
        sampleMessage 0 1 20 ∈ r.sent := by decide
    exact absurd (hmem r hr) hnot
  have hlate := hsent.snoc hharmless rfl
  have hrun := hlate.snoc (e := .receive .request [0] (sampleMessage 7 1 30)) (by
    rintro pre post _ _ d r ⟨⟩ ⟨⟩ _ hadmits
    exact hadmits.1 (by decide)) rfl
  have hlow : leastMissing {1} = 0 := leastMissing_eq_iff.mpr ⟨by decide, nofun⟩
  have hwindow : InWindow 100 {1} 0 := by
    rw [InWindow, hlow]
    decide
  obtain ⟨p, sessions', hp, hrespond, -⟩ := genuine_message_accepted hrun rfl rfl
    (show sampleMessage 0 0 10 ∈ _ by decide) (by decide) hwindow (List.mem_singleton.mpr rfl)
  cases hp
  exact ⟨_, sessions', hrun, ⟨_, rfl, rfl⟩, hrespond⟩

/-- **A message of another session blocks a nonce.** The session `0` is replaced by the session `1`.
A message of the session `0` that arrives late is tried with the session `1` first, and uses up the
nonce of the first message of the session `1`. That message is refused when it arrives. -/
theorem message_of_other_session_blocks : ∃ w d r,
    Run Traffic.step (fun _ _ => True) (Traffic.new : Traffic ℕ ℕ)
      [.establish 0 false none, .theirs 0 true 10, .establish 1 false none, .theirs 1 true 20,
        .receive .request [1, 0] (sampleMessage 0 0 10)] w ∧
    w.sessions[1]? = some d ∧ w.remotes[1]? = some r ∧
    sampleMessage 1 0 20 ∈ r.sent ∧ sampleMessage 1 0 20 ∉ r.accepted ∧
    InWindow 100 (r.indices d) (d.windowIndex (sampleMessage 1 0 20)) ∧
    (decryptRespond [1, 0] (sampleMessage 1 0 20) w.sessions).map Prod.fst =
      some .couldNotDecrypt ∧
    (receiveEncryptedResponse [1, 0] (sampleMessage 1 0 20) w.sessions).map Prod.fst =
      some (.decryptError [.nonceValidationError (.outOfBoundsAccess 0 1 101),
        .nonceValidationError (.outOfBoundsAccess 0 1 101)]) := by
  refine ⟨_, _, _, Run.get_runFrom, rfl, rfl, by decide, by decide, ?_,
    by decide, by decide⟩
  show InWindow 100 ∅ 0
  simp [InWindow]

end Fyles
