import Fyles.PartFiles

/-!
# Who acts on an incoming transfer

The brain authorises a transfer for a peer, a contact and a transfer id, when it begins and when it
is taken up from disk. Afterwards a message acts on the transfer in memory without asking the
brain, and the receiver itself has to see to it that the message is one of that transfer: that it
comes from the same peer, in a session with the same contact, and names the same transfer.

The map of transfers is keyed by the peer, so the peer is always right. A chunk is checked for
the transfer id and the contact. `Done` is checked for the transfer id only, and `AbortTransfer`
for the transfer id only if it has one; both look for the part file under the contact of the
session. So an abort that comes in a session with another contact, or without a contact, makes the
transfer a failed one, although no part file of that name is there. And a transfer is finished from
another session if the two contacts lead to the same file.

## Main results

* `Receivers.Known.step` — a transfer in memory was authorised by the brain
* `authorized_iff_not_misdirected` — in every run, the messages that act on a transfer without being
  one of it are the misdirected ones
* `acted_on_by_another_contact` — three of them
-/

namespace Fyles.PartFiles

open FilerequestReceiver

/-- What is done to a transfer or its part file, once the file is open. -/
def Access.Acts (a : Access) : Prop := a.operation ≠ .opened

/-- The brain has authorised the transfer, for the peer and the contact of the message and for
the transfer id in it. -/
structure Access.Authorized (authorized : List IncomingTransfer) (peer : PeerId) (a : Access) :
    Prop where
  /-- The brain knows the transfer. -/
  mem : a.transfer ∈ authorized
  /-- It comes from the peer. -/
  peerId_eq : a.transfer.peerId = peer
  /-- The message is in a session with its contact. -/
  contactId_eq : a.contactId = a.transfer.contactId
  /-- The message names it. -/
  named_eq : a.named = some a.transfer.transferId

/-! ### Transfers in memory -/

/-- Every transfer in memory was authorised. -/
def Receivers.Known (w : Receivers) : Prop :=
  ∀ peer m, w.receiving peer = some m → ⟨peer, m.contactId, m.transferId⟩ ∈ w.authorized

namespace Receivers.Known

variable {z : Sanitizer} {w w' : Receivers} {e : Event}

theorem new : Known .new := fun _ _ h => nomatch h

theorem leave {path env peer contactId request reply} (h : w.Known)
    (ha : Answered path env peer contactId (w.atPeer peer) request reply) :
    (w.leave peer reply).Known := by
  intro peer' m' hm'
  rw [Receivers.leave, List.mem_append]
  obtain ⟨rfl, hleft⟩ | hother := receiving_leave hm'
  · obtain ⟨m, hm, hheader⟩ | ⟨hauth, -⟩ := ha.receiving hleft
    · rw [ReceiveManager.transferId_of_header hheader, ReceiveManager.contactId_of_header hheader]
      exact .inl (h _ _ hm)
    · rw [hauth]
      exact .inr (Option.mem_toList.mpr rfl)
  · exact .inl (h _ _ hother)

theorem step (h : w.Known) (hstep : w.step z e = some w') : w'.Known := by
  cases e with
  | request peer contactId request env =>
    obtain ⟨⟩ := hstep
    exact h.leave (answered request)
  | expire peer =>
    obtain ⟨⟩ := hstep
    exact fun _ _ hm => h _ _ (of_update_eq hm nofun).2
  | structuredPartialCleanup startedAtMs transfer =>
    obtain ⟨⟩ := hstep
    rw [structuredPartialCleanup]
    split <;> exact h
  | sweepPartialCleanup name =>
    obtain ⟨⟩ := hstep
    exact h

end Receivers.Known

/-! ### Requests of another session -/

/-- The requests that act on a transfer without being one of it: an abort that names no transfer or
comes in a session with another contact, if the part file can be removed, that is, if its name is
one; and a `Done` in a session with another contact, if there is a part file where that contact
leads to. -/
def Misdirected (path : PathOf) (env : ReceiverEnv) (nodeId : PeerId)
    (contactId : Option ContactId) (r : FilerequestReceiver) : FileRequest → Prop
  | .abortTransfer transferUuid => ∃ m ∈ r.receiving,
      (transferUuid = none ∨ transferUuid = some m.transferId ∧ contactId ≠ m.contactId) ∧
      env.removesPartFile = true ∧ (path m.startedAtMs m.transferId nodeId contactId).isSome
  | .done transferUuid => ∃ m ∈ r.receiving,
      m.transferId = transferUuid ∧ contactId ≠ m.contactId ∧
      m.byteProgress = m.declaredFileSizeBytes ∧ env.finalizesPartFile.isSome ∧
      ∃ name ∈ path m.startedAtMs m.transferId nodeId contactId, (r.parts.lookup name).isSome
  | _ => False

section Misdirected

variable {path : PathOf} {env : ReceiverEnv} {nodeId : PeerId} {contactId : Option ContactId}
  {r : FilerequestReceiver} {request : FileRequest} {reply : Reply} {a : Access}

/-- A misdirected request leaves a record that shows it. -/
theorem exists_of_misdirected (h : Misdirected path env nodeId contactId r request) :
    ∃ a ∈ (respondTo path env nodeId contactId request r).accesses, a.Acts ∧
      ¬ (a.contactId = a.transfer.contactId ∧ a.named = some a.transfer.transferId) := by
  cases request with
  | abortTransfer transferUuid =>
    obtain ⟨m, hm, hwrong, hremoves, hsome⟩ := h
    obtain ⟨name, hname⟩ := Option.isSome_iff_exists.mp hsome
    have hid : transferUuid = none ∨ transferUuid = some m.transferId := hwrong.imp_right And.left
    refine ⟨accessFor nodeId contactId m .failed none transferUuid, ?_,
      by simp [accessFor, Access.Acts], ?_⟩
    · simp [respondTo, abortTransfer, Option.mem_def.mp hm, hid, removePartialFile, hremoves,
        hname]
    · rintro ⟨hcontact, hnamed⟩
      obtain rfl | ⟨-, hne⟩ := hwrong
      · cases hnamed
      · exact hne hcontact
  | done transferUuid =>
    obtain ⟨m, hm, rfl, hne, hprogress, hfinal, name, hname, hfile⟩ := h
    obtain ⟨final, hfinal⟩ := Option.isSome_iff_exists.mp hfinal
    obtain ⟨file, hfile⟩ := Option.isSome_iff_exists.mp hfile
    refine ⟨accessFor nodeId contactId m .finalized (some file) (some m.transferId), ?_,
      by simp [accessFor, Access.Acts], fun h => hne h.1⟩
    obtain ⟨r', hfinalize⟩ : ∃ r', finalizePartialFile path env nodeId contactId m.startedAtMs
        m.transferId r = some (final, file, r') := by
      rw [finalizePartialFile, hfinal, Option.bind_some, Option.mem_def.mp hname,
        Option.bind_some, hfile]
      exact ⟨_, rfl⟩
    simp only [respondTo, done, Option.mem_def.mp hm, hprogress, hfinalize, ne_eq,
      not_true_eq_false, if_false]
    cases env.unixEpochMillis <;> exact List.mem_cons_self
  | newTransfer _ _ _ _ | continueTransfer _ _ | chunk _ | protocolViolation _ => exact h.elim

/-- The other requests act on a transfer that they are one of. -/
theorem Answered.matches (hanswered : Answered path env nodeId contactId r request reply)
    (h : ¬ Misdirected path env nodeId contactId r request) (ha : a ∈ reply.accesses) :
    a.contactId = a.transfer.contactId ∧ a.named = some a.transfer.transferId := by
  cases hanswered with
  | plain response hreceiving => cases ha
  | opened | lost =>
    obtain rfl := List.mem_singleton.mp ha
    exact ⟨rfl, rfl⟩
  | stored response hm hid hcontact hreceiving hnotices hhandles hfailed =>
    obtain rfl | ha := List.mem_cons.mp ha
    · exact ⟨hcontact, congrArg some hid⟩
    · rw [hfailed a ha]
      exact ⟨hcontact, congrArg some hid⟩
  | aborted response hm hid hremoves hname =>
    next transferUuid m name =>
    have hright : contactId = m.contactId ∧ transferUuid = some m.transferId := by
      by_contra hwrong
      refine h ⟨m, hm, ?_, hremoves, Option.isSome_of_eq_some hname⟩
      refine hid.imp_right fun hid => ⟨hid, fun hcontact => hwrong ⟨hcontact, hid⟩⟩
    obtain ha | ha := List.mem_append.mp ha
    · obtain ⟨file, -, rfl⟩ := Option.map_eq_some_iff.mp (Option.mem_toList.mp ha)
      exact hright
    · obtain rfl := List.mem_singleton.mp ha
      exact hright
  | finalized response hm hid hprogress hfinal hname hfile hnotices hhandles hcompleted =>
    next transferUuid m name file notices completed =>
    subst hid
    have hcontact : contactId = m.contactId := by
      by_contra hne
      exact h ⟨m, hm, rfl, hne, hprogress, hfinal, name, hname, Option.isSome_of_eq_some hfile⟩
    obtain rfl | ha := List.mem_cons.mp ha
    · exact ⟨hcontact, rfl⟩
    · rw [hcompleted a ha]
      exact ⟨hcontact, rfl⟩

end Misdirected

/-- **Whose messages act on a transfer.** After any run, everything that a request does to a
transfer or its part file is done to a transfer that the brain has authorised for its peer, its
contact and its transfer id, unless the request is misdirected; and a misdirected request does
something to another one. -/
theorem authorized_iff_not_misdirected {z : Sanitizer} {events : List Event} {w : Receivers}
    (h : Run (Receivers.step z) (fun _ _ => True) .new events w) (env : ReceiverEnv)
    (peer : PeerId) (contactId : Option ContactId) (request : FileRequest) :
    (∀ a ∈ (respondTo z.partPath env peer contactId request (w.atPeer peer)).accesses, a.Acts →
      a.Authorized (w.leave peer
        (respondTo z.partPath env peer contactId request (w.atPeer peer))).authorized peer) ↔
    ¬ Misdirected z.partPath env peer contactId (w.atPeer peer) request := by
  have hknown : w.Known := h.invariant (I := Receivers.Known) .new fun hw _ hs => hw.step hs
  have hanswered : Answered z.partPath env peer contactId (w.atPeer peer) request _ :=
    answered request
  constructor
  · intro hall hwrong
    obtain ⟨a, ha, hacts, hno⟩ := exists_of_misdirected hwrong
    exact hno ⟨(hall a ha hacts).contactId_eq, (hall a ha hacts).named_eq⟩
  · intro hright a ha hacts
    obtain ⟨hcontact, hnamed⟩ := hanswered.matches hright ha
    have horigin := hanswered.origin ha
    refine ⟨?_, horigin.peerId_eq, hcontact, hnamed⟩
    rw [Receivers.leave]
    rw [List.mem_append]
    obtain ⟨m, hm, htransfer, -⟩ | ⟨-, hopened | hauth⟩ := horigin.known
    · rw [htransfer]
      exact .inl (hknown _ _ hm)
    · exact absurd hopened hacts
    · exact .inr (Option.mem_toList.mpr hauth)

/-- The second chunk is appended for the transfer that was offered. -/
theorem authorized_iff_not_misdirected_offered : ∃ w,
    Run (Receivers.step .sample) (fun _ _ => True) .new
      (offered ⟨"peer"⟩ (some ⟨"alice"⟩) ⟨"transfer"⟩) w ∧
    w.authorized = [⟨⟨"peer"⟩, some ⟨"alice"⟩, ⟨"transfer"⟩⟩] ∧
    (∀ a ∈ (respondTo Sanitizer.sample.partPath (readyAt 2) ⟨"peer"⟩ (some ⟨"alice"⟩)
        (.chunk ⟨⟨"transfer"⟩, [2], 1⟩) (w.atPeer ⟨"peer"⟩)).accesses, a.Acts →
      a.Authorized (w.leave ⟨"peer"⟩ (respondTo Sanitizer.sample.partPath (readyAt 2) ⟨"peer"⟩
        (some ⟨"alice"⟩) (.chunk ⟨⟨"transfer"⟩, [2], 1⟩) (w.atPeer ⟨"peer"⟩))).authorized
        ⟨"peer"⟩) := by
  exact Run.exists_and Run.get_runFrom fun hrun => ⟨by decide,
    (authorized_iff_not_misdirected hrun (readyAt 2) ⟨"peer"⟩ (some ⟨"alice"⟩)
      (.chunk ⟨⟨"transfer"⟩, [2], 1⟩)).mpr nofun⟩

/-- **Another session acts on a transfer.** Alice has sent a byte. An abort in a session without a
contact makes the transfer a failed one, whether it names the transfer or not, and the part file
stays. A contact whose id is the text that stands for no contact has sent all bytes, and a `Done`
in a session without a contact finishes the transfer. -/
theorem acted_on_by_another_contact : (∃ w, Run (Receivers.step .sample) (fun _ _ => True) .new
        (offered ⟨"peer"⟩ (some ⟨"alice"⟩) ⟨"transfer"⟩) w ∧
      ∀ named ∈ [none, some ⟨"transfer"⟩],
        (respondTo Sanitizer.sample.partPath (readyAt 2) ⟨"peer"⟩ none (.abortTransfer named)
          (w.atPeer ⟨"peer"⟩)).response = .confirmAbort ∧
        (respondTo Sanitizer.sample.partPath (readyAt 2) ⟨"peer"⟩ none (.abortTransfer named)
          (w.atPeer ⟨"peer"⟩)).accesses =
          [⟨.failed, none, 0, ⟨⟨"peer"⟩, some ⟨"alice"⟩, ⟨"transfer"⟩⟩, named, none⟩] ∧
        .updateReceivedFileStatus ⟨"transfer"⟩ .failed 1 ∈
          (respondTo Sanitizer.sample.partPath (readyAt 2) ⟨"peer"⟩ none (.abortTransfer named)
            (w.atPeer ⟨"peer"⟩)).receiver.notices) ∧
    ∃ w, Run (Receivers.step .sample) (fun _ _ => True) .new
        (offered ⟨"peer"⟩ (some ⟨"unknown-contact"⟩) ⟨"transfer"⟩ ++
          [.request ⟨"peer"⟩ (some ⟨"unknown-contact"⟩) (.chunk ⟨⟨"transfer"⟩, [2], 1⟩)
            (readyAt 2)]) w ∧
      (respondTo Sanitizer.sample.partPath (readyAt 3) ⟨"peer"⟩ none (.done ⟨"transfer"⟩)
        (w.atPeer ⟨"peer"⟩)).accesses =
        [⟨.finalized, some 0, 0, ⟨⟨"peer"⟩, some ⟨"unknown-contact"⟩, ⟨"transfer"⟩⟩,
            some ⟨"transfer"⟩, none⟩,
          ⟨.completed, none, 0, ⟨⟨"peer"⟩, some ⟨"unknown-contact"⟩, ⟨"transfer"⟩⟩,
            some ⟨"transfer"⟩, none⟩] :=
  ⟨⟨_, Run.get_runFrom, by decide⟩,
    ⟨_, Run.get_runFrom, by decide⟩⟩

end Fyles.PartFiles
