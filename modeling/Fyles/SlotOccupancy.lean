import Fyles.Internal.Trace
import Fyles.SendWindow
import Fyles.TrackerSteps

/-!
# What happens while a file is in the slot

From the offer of a file until it leaves the slot, the tracker reads it piece by piece, sends the
pieces, takes acknowledgements, and at last sends `Done`. What happened is not kept in the slot. So
runs of the tracker are watched here: for every peer a trace records the responses that the
handlers were called with, the results of the reads that they took, and the effects of their
sections. No section reads the trace.

The *occupancy* is the part of the trace since the last successful offer. `Move` lists what can
happen to a trace and an entry together, each with the conditions under which it happens, and
`Watched.step_path` says that every step of the tracker is a sequence of moves. What every move
preserves therefore holds in every run, for every interleaving of the handlers.

## Conditions

Two moves are the delicate ones. A response that accepts an offer starts the file in the slot,
whichever request it answers. A round of `send_chunks_loop` works on the file in the slot, whichever
file it was started for. `Manners` says what is asked of the two; with `Manners.any` nothing is
asked.

## Main results

* `Steps.path`, `Watched.step_path` — sections and steps are sequences of moves
* `Watched.invariant` — the rule for invariants of the traces and the entries
-/

namespace Fyles

namespace FileTracker

/-! ### Traces -/

variable {q : FileRequest}

/-- What is seen of the tracker. -/
inductive Observation
  | answered (requestId : Option ℕ) (response : FileResponse)
  /-- The reader of the file in the slot took the result of a read. -/
  | read (result : Except IoError (List UInt8))
  | effect (e : Effect)
  /-- A section ended with this file in the slot. -/
  | holds (fileId : Option FylesId)
  deriving DecidableEq

/-- The id of the request, if the effect is a successful offer. -/
def Effect.offerId : Effect → Option ℕ
  | .requested _ _ (.newTransfer ..) (some id) | .requested _ _ (.continueTransfer ..) (some id) =>
    some id
  | _ => none

/-- The id of the request, if a successful offer is seen. -/
def Observation.offerId : Observation → Option ℕ
  | .effect e => e.offerId
  | _ => none

/-- The part of a trace since the last successful offer, which it starts with. -/
def occupancy (tr : List Observation) : List Observation := since (fun o => o.offerId.isSome) tr

/-- Effects that do not concern the transfer in the slot. -/
def Effect.Neutral : Effect → Prop
  | .requested _ _ (.newTransfer ..) (some _) | .requested _ _ (.continueTransfer ..) (some _)
  | .requested _ _ (.chunk _) (some _) | .requested _ _ (.done _) (some _)
  | .acknowledged _ | .notified (.fileSent _) => False
  | _ => True

theorem Effect.Neutral.offerId {e : Effect} (h : e.Neutral) : e.offerId = none := by
  cases e with
  | requested idempotent contactId q result =>
    cases q <;> cases result
    all_goals first | rfl | exact h.elim
  | _ => rfl

theorem Effect.neutral_sideline (h : Sideline q) (idempotent : Bool)
    (contactId : Option ContactId) (result : Option ℕ) :
    (Effect.requested idempotent contactId q result).Neutral := by
  cases q with
  | abortTransfer | protocolViolation => trivial
  | _ => exact h.elim

theorem Effect.neutral_failed (q : FileRequest) (idempotent : Bool)
    (contactId : Option ContactId) : (Effect.requested idempotent contactId q none).Neutral := by
  cases q <;> trivial

/-! ### Moves -/

/-- The stage of a status. -/
def stageOf : SendStatus → Option InProgressSendStatus
  | .inProgress progress => some progress.status
  | _ => none

theorem stageOf_statusAfterDone {status} (h : stageOf status = some .sending) :
    stageOf (statusAfterDone status) = some .pendingSent := by
  cases status with
  | inProgress progress =>
    obtain ⟨stage, data⟩ := progress
    obtain rfl : stage = .sending := Option.some.inj h
    rfl
  | _ => cases h

/-- The trace and the entry of a peer. -/
structure View where
  trace : List Observation
  entry : Option PeerFiles

/-- What is asked of responses that start a file, and of rounds of `send_chunks_loop`. -/
structure Manners where
  /-- For the trace, the request that is answered, the answer, and the file in the slot. -/
  starts : List Observation → Option ℕ → FileResponse → LockedSendData ℕ → Prop
  /-- For the file in the slot. -/
  rounds : PendingFile → Prop

/-- Nothing is asked. -/
def Manners.any : Manners := ⟨fun _ _ _ _ => True, fun _ => True⟩

/-- The same file in the slot, at the same stage of the same transfer. -/
structure SameTransfer (s s' : LockedSendData ℕ) : Prop where
  sendManager : s'.sendManager = s.sendManager
  status : s'.pendingFile.status = s.pendingFile.status
  id : s'.pendingFile.id = s.pendingFile.id

theorem SameTransfer.refl (s : LockedSendData ℕ) : SameTransfer s s := ⟨rfl, rfl, rfl⟩

/-- The window before and after the file was started: the same, or read from an offset on. -/
def Started (m m' : SendManager ℕ) : Prop :=
  m' = m ∨ ∃ result seeks offset, m' = m.setProgress result seeks offset

/-- What can happen to the trace and the entry of a peer. -/
inductive Move (g : Manners) : View → View → Prop
  /-- Nothing that concerns the transfer in the slot, which may be emptied. -/
  | keeps {tr entry entry'} (es : List Effect) (hneutral : ∀ e ∈ es, e.Neutral)
      (hslot : ∀ s', slotOf entry' = some s' → ∃ s, slotOf entry = some s ∧ SameTransfer s s') :
      Move g ⟨tr, entry⟩ ⟨tr ++ es.map .effect, entry'⟩
  | answered {tr entry} (requestId : Option ℕ)
      (response : FileResponse) : Move g ⟨tr, entry⟩ ⟨tr ++ [.answered requestId response], entry⟩
  /-- A section ends. -/
  | holds {tr entry} :
      Move g ⟨tr, entry⟩
        ⟨tr ++ [.holds ((slotOf entry).map fun s => s.pendingFile.id)], entry⟩
  | offers {tr entry queue s idempotent contactId request requestId transferId size position data}
      (hentry : slotOf entry = none)
      (hoffer : (Effect.requested idempotent contactId request (some requestId)).offerId =
        some requestId) (htransfer : request.transfer = some transferId)
      (hm : s.sendManager = .new transferId size position)
      (hst : s.pendingFile.status = .inProgress ⟨.prepared, data⟩) :
      Move g ⟨tr, entry⟩
        ⟨tr ++ [.effect (.requested idempotent contactId request (some requestId))],
          some ⟨queue, some s⟩⟩
  | starts {tr queue s s' requestId response data data'}
      (hg : g.starts tr requestId response s) (ha : response.starts = true)
      (hst : s.pendingFile.status = .inProgress ⟨.prepared, data⟩)
      (hst' : s'.pendingFile.status = .inProgress ⟨.sending, data'⟩)
      (hid : s'.pendingFile.id = s.pendingFile.id) (hm : Started s.sendManager s'.sendManager) :
      Move g ⟨tr, some ⟨queue, some s⟩⟩
        ⟨tr ++ [.answered requestId response], some ⟨queue, some s'⟩⟩
  | acknowledges {tr queue s s' requestId data data'}
      (hst : s.pendingFile.status = .inProgress ⟨.sending, data⟩)
      (hst' : s'.pendingFile.status = .inProgress ⟨.sending, data'⟩)
      (hid : s'.pendingFile.id = s.pendingFile.id)
      (hm : s.sendManager.receiveAck requestId = some s'.sendManager) :
      Move g ⟨tr, some ⟨queue, some s⟩⟩
        ⟨tr ++ [.answered (some requestId) .confirmChunk] ++ [.effect (.acknowledged requestId)],
          some ⟨queue, some s'⟩⟩
  /-- The peer confirms that it has the file, which is reported as sent. -/
  | confirms {tr queue s requestId data}
      (hst : s.pendingFile.status = .inProgress ⟨.pendingSent, data⟩) :
      Move g ⟨tr, some ⟨queue, some s⟩⟩
        ⟨tr ++ [.answered requestId .confirmDone] ++
          [.effect (.notified (.fileSent s.pendingFile.id))], some ⟨queue, none⟩⟩
  /-- The reader is at the end of the file. -/
  | ends {tr reads queue s} (hg : g.rounds s.pendingFile)
      (hreads : (s.sendManager.file.pendingRead = none ∧ reads = []) ∨
        (s.sendManager.file.pendingRead.isSome ∧ reads = [.read (.ok [])])) :
      Move g ⟨tr, some ⟨queue, some s⟩⟩
        ⟨tr ++ reads, some ⟨queue, some { s with
          sendManager := { s.sendManager with file := ⟨none⟩ } }⟩⟩
  | finishes {tr queue s requestId} (hg : g.rounds s.pendingFile) (hf : Finished s.sendManager) :
      Move g ⟨tr, some ⟨queue, some s⟩⟩
        ⟨tr ++ [.effect (.requested false (some s.pendingFile.contactId)
          (.done s.sendManager.transferId) (some requestId))],
          some ⟨queue, some (s.withStatus (statusAfterDone s.pendingFile.status))⟩⟩
  /-- A piece of the file is read and sent. -/
  | sends {tr queue s piece position requestId} (hg : g.rounds s.pendingFile)
      (hready : s.sendManager.isReady = true)
      (hp : s.sendManager.file.pendingRead = some position) (hpiece : piece ≠ []) :
      Move g ⟨tr, some ⟨queue, some s⟩⟩
        ⟨tr ++ [.read (.ok piece)] ++ [.effect (.requested true (some s.pendingFile.contactId)
          (.chunk ⟨s.sendManager.transferId, piece, s.sendManager.nextSlot⟩) (some requestId))],
          some ⟨queue, some { s with
            sendManager := { s.sendManager with file := ⟨some (position + piece.length)⟩ }.register
              requestId piece.length }⟩⟩
  /-- Reading fails, or sending the piece that was read: the file leaves the slot. -/
  | fails {tr queue queue' s} (result : Except IoError (List UInt8)) :
      Move g ⟨tr, some ⟨queue, some s⟩⟩ ⟨tr ++ [.read result], some ⟨queue', none⟩⟩
  /-- Sending a piece fails while the file has a status that no file in a slot has. -/
  | stuck {tr queue s s'}
      (result : Except IoError (List UInt8)) (hst : s.pendingFile.status.transferData = none)
      (hst' : s'.pendingFile.status = s.pendingFile.status) :
      Move g ⟨tr, some ⟨queue, some s⟩⟩ ⟨tr ++ [.read result], some ⟨queue, some s'⟩⟩

/-- Sequences of moves. -/
def Path (g : Manners) : View → View → Prop := Relation.ReflTransGen (Move g)

variable {g : Manners} {env : Env} {sec sec' : Section}

theorem Path.refl (v : View) : Path g v v := Relation.ReflTransGen.refl

variable {u v : View}

theorem Path.trans {w} (h₁ : Path g u v) (h₂ : Path g v w) : Path g u w :=
  Relation.ReflTransGen.trans h₁ h₂

theorem Move.path (h : Move g u v) : Path g u v := Relation.ReflTransGen.single h

/-- **The rule for moves.** What every move preserves, sequences of moves preserve. -/
theorem Path.invariant {I : View → Prop} (hI : ∀ {u v}, I u → Move g u v → I v)
    (h : Path g u v) (hu : I u) : I v := by
  induction h with
  | refl => exact hu
  | tail _ hlast ih => exact hI ih hlast

/-! ### Sections that are told nothing about the transfer -/

/-- What is seen of a section that is under way, after a trace. -/
def Section.view (sec : Section) (tr : List Observation) : View :=
  ⟨tr ++ sec.effects.map .effect, sec.entry⟩

namespace Section

variable {tr : List Observation}

theorem view_of_nil (hsec : sec.effects = []) : sec.view tr = ⟨tr, sec.entry⟩ := by
  rw [view, hsec, List.map_nil, List.append_nil]

theorem view_emit_put (e : Effect) (files : PeerFiles) :
    ((sec.emit e).put files).view tr = ⟨(sec.view tr).trace ++ [.effect e], some files⟩ := by
  rw [view, put_effects, put_entry, emit, List.map_append, ← List.append_assoc]
  rfl

theorem view_send_put {idempotent : Bool} {contactId q} (hsend : env.sends q = true)
    (files : PeerFiles) :
    ((sec.send env idempotent contactId q).2.put files).view tr = ⟨(sec.view tr).trace ++
      [.effect (.requested idempotent contactId q (some sec.nextRequestId))], some files⟩ := by
  rw [send, if_pos hsend]
  exact view_emit_put _ files

end Section

/-- What a section is entered with that may take and lose files, but is told nothing about the
transfer in the slot. -/
def Occasion.bystander : Occasion :=
  ⟨fun _ => True, False, True⟩

/-- A section that goes on with neutral effects. -/
theorem keeps_path {tr} (es : List Effect) (heffects : sec'.effects = sec.effects ++ es)
    (hneutral : ∀ e ∈ es, e.Neutral) (hslot : ∀ s', slotOf sec'.entry = some s' →
      ∃ s, slotOf sec.entry = some s ∧ SameTransfer s s') :
    Path g (sec.view tr) (sec'.view tr) := by
  have hmove : Move g (sec.view tr) _ := .keeps es hneutral hslot
  rw [Section.view, List.append_assoc, ← List.map_append, ← heffects] at hmove
  exact hmove.path

theorem keeps_path_single {tr e} (heffects : sec'.effects = sec.effects ++ [e])
    (hneutral : e.Neutral) (hslot : ∀ s', slotOf sec'.entry = some s' →
      ∃ s, slotOf sec.entry = some s ∧ SameTransfer s s') : Path g (sec.view tr) (sec'.view tr) :=
  keeps_path [e] heffects (fun e' he' => by rw [List.mem_singleton.mp he']; exact hneutral) hslot

theorem slot_of_none {entry entry'} (h : slotOf entry' = none) :
    ∀ s', slotOf entry' = some s' → ∃ s, slotOf entry = some s ∧ SameTransfer s s' :=
  fun s' hs' => by cases h.symm.trans hs'

theorem slot_of_eq {entry entry'} (h : slotOf entry' = slotOf entry) :
    ∀ s', slotOf entry' = some s' → ∃ s, slotOf entry = some s ∧ SameTransfer s s' :=
  fun s' hs' => ⟨s', h.symm.trans hs', .refl s'⟩

theorem announce_path {tr} (file : PendingFile) (sec : Section) :
    Path g (sec.view tr) ((announce sec file).view tr) := by
  rw [announce]
  split
  · exact .refl _
  · exact keeps_path_single rfl trivial (slot_of_eq rfl)

variable {contactId : Option ContactId}

theorem send_path {tr} {idempotent : Bool} (h : (Effect.requested idempotent contactId q
      (sec.send env idempotent contactId q).1).Neutral) :
    Path g (sec.view tr) ((sec.send env idempotent contactId q).2.view tr) :=
  keeps_path_single Section.send_effects h (slot_of_eq (by rw [Section.send_entry]))

variable {data : TransferData}

theorem offer_path {tr queue s transferId} {size position : ℕ} (hentry : slotOf sec.entry = none)
    (hsend : env.sends q = true)
    (hoffer : ∀ id, (Effect.requested false contactId q (some id)).offerId = some id)
    (htransfer : q.transfer = some transferId) (hm : s.sendManager = .new transferId size position)
    (hst : s.pendingFile.status = .inProgress ⟨.prepared, data⟩) : Path g (sec.view tr)
      (((sec.send env false contactId q).2.put ⟨queue, some s⟩).view tr) := by
  rw [Section.view_send_put hsend]
  exact (Move.offers hentry (hoffer sec.nextRequestId) htransfer hm hst).path

/-- **What a section does that is told nothing about the transfer**: it offers files, empties the
slot, or leaves the transfer as it is. -/
theorem Micro.path {tr} (h : Micro env .bystander sec sec') :
    Path g (sec.view tr) (sec'.view tr) := by
  cases h with
  | request idempotent contactId hq => exact send_path (Effect.neutral_sideline hq _ _ _)
  | @failedRequest idempotent contactId q hq =>
    refine send_path ?_
    rw [Section.send, if_neg (by simp [hq])]
    exact Effect.neutral_failed q _ _
  | reportInterrupt id status reason => exact keeps_path_single rfl trivial (slot_of_eq rfl)
  | accept hid queue slot he hst =>
    exact keeps_path_single rfl trivial (slot_of_eq (slotOf_of_getD he).symm)
  | openFailed he => exact keeps_path_single rfl trivial (slot_of_eq rfl)
  | skip he ha =>
    rcases ha with rfl | rfl
    · exact keeps_path_single rfl trivial (slot_of_none rfl)
    · exact keeps_path_single rfl trivial (slot_of_none rfl)
  | removeEmpty he => exact keeps_path [] (List.append_nil _).symm (by simp) (slot_of_none rfl)
  | offerNew opened size he hst hsend =>
    rw [offerNew_sent hsend]
    exact offer_path (by rw [he]; rfl) hsend (fun _ => rfl) rfl rfl rfl
  | @offerContinue file queue data opened size he hst =>
    by_cases hsend :
        env.sends (.continueTransfer file.targetFilerequestId data.transferId) = true
    · rw [offerContinue_sent hsend]
      refine Path.trans ?_ (announce_path file _)
      exact offer_path (by rw [he]; rfl) hsend (fun _ => rfl) rfl rfl rfl
    · rw [FileTracker.offerContinue, Section.send, if_neg hsend]
      refine Path.trans ?_ (announce_path file _)
      exact keeps_path_single rfl (Effect.neutral_failed _ _ _) (slot_of_none rfl)
  | complete outcome he hsent =>
    cases outcome with
    | sent => exact (hsent rfl).elim
    | _ =>
      exact keeps_path_single rfl trivial (slot_of_none rfl)
  | reset reason he => exact keeps_path_single rfl trivial (slot_of_none rfl)
  | interrupt he hdata => exact keeps_path [] (List.append_nil _).symm (by simp) (slot_of_none rfl)
  | @failOnce queue s he =>
    refine keeps_path [] (List.append_nil _).symm (by simp) ?_
    rintro _ ⟨⟩
    exact ⟨s, slotOf_of_entry he, rfl, rfl, rfl⟩
  | drop hdrops he hst => exact keeps_path [] (List.append_nil _).symm (by simp) (slot_of_none rfl)
  | verify _ hp | start hp | continueAt _ hp | acknowledge hp | window hp | done hp => exact hp.elim
  | cancelSlot he => exact keeps_path_single rfl trivial (slot_of_none rfl)
  | @cancelQueue queue slot selected he =>
    refine keeps_path (((queue.filter selected).map PendingFile.id).map .cancelled) rfl ?_ ?_
    · intro e he'
      obtain ⟨id, -, rfl⟩ := List.mem_map.mp he'
      trivial
    · refine slot_of_eq ?_
      rw [he]
      rfl

theorem Steps.path {tr} (h : Steps env .bystander sec sec') : Path g (sec.view tr) (sec'.view tr) :=
  h.lift (R := fun a b => Path g (a.view tr) (b.view tr)) (fun _ => .refl _) Path.trans
    Micro.path

/-! ### Responses that start, acknowledge or confirm a transfer -/

variable {requestId : Option ℕ}

variable {tr : List Observation}

theorem ignored_path (hsec : sec.effects = []) (requestId : Option ℕ) (response : FileResponse) :
    Path g ⟨tr, sec.entry⟩ (sec.view (tr ++ [.answered requestId response])) := by
  rw [Section.view_of_nil hsec]
  exact (Move.answered requestId response).path

/-- A response that tells the section nothing about the transfer. -/
theorem answered_path (env : Env) (hsec : sec.effects = []) (requestId : Option ℕ)
    (response : FileResponse) (h : Steps env .bystander sec sec') :
    Path g ⟨tr, sec.entry⟩ (sec'.view (tr ++ [.answered requestId response])) :=
  (ignored_path hsec requestId response).trans h.path

/-- The offer was accepted, but the file is not started. -/
theorem refused_path {queue s} (hsec : sec.effects = []) (he : sec.entry = some ⟨queue, some s⟩)
    (requestId : Option ℕ) (response : FileResponse) (result : ContactVerificationResult) :
    Path g ⟨tr, sec.entry⟩ ((sec.put ⟨queue, some (noteVerification result s)⟩).view
      (tr ++ [.answered requestId response])) := by
  refine (ignored_path hsec requestId response).trans ?_
  refine keeps_path [] (List.append_nil _).symm nofun ?_
  rintro _ ⟨⟩
  exact ⟨s, slotOf_of_entry he, noteVerification_sendManager _ _,
    congrArg _ (noteVerification_pendingFile _ _), congrArg _ (noteVerification_pendingFile _ _)⟩

theorem starts_path {queue s s' response data'} (hsec : sec.effects = [])
    (he : sec.entry = some ⟨queue, some s⟩) (hg : g.starts tr requestId response s)
    (ha : response.starts = true) (hst : s.pendingFile.status = .inProgress ⟨.prepared, data⟩)
    (hst' : s'.pendingFile.status = .inProgress ⟨.sending, data'⟩)
    (hid : s'.pendingFile.id = s.pendingFile.id) (hm : Started s.sendManager s'.sendManager) :
    Path g ⟨tr, sec.entry⟩
      ((sec.put ⟨queue, some s'⟩).view (tr ++ [.answered requestId response])) := by
  have hput : (sec.put ⟨queue, some s'⟩).effects = [] := hsec
  rw [Section.view_of_nil hput, he]
  exact (Move.starts hg ha hst hst' hid hm).path

/-- A chunk is acknowledged, and the brain is told. -/
theorem acknowledged_path {queue s s'} {id : ℕ} {data'} (hsec : sec.effects = [])
    (he : sec.entry = some ⟨queue, some s⟩)
    (hst : s.pendingFile.status = .inProgress ⟨.sending, data⟩)
    (hs' : s'.pendingFile = { s.pendingFile with status := .inProgress ⟨.sending, data'⟩ })
    (hm : s.sendManager.receiveAck id = some s'.sendManager) :
    Path g ⟨tr, sec.entry⟩ ((((sec.emit (.acknowledged id)).put ⟨queue, some s'⟩).notify
      (.fileSending s.pendingFile.id (.inProgress ⟨.sending, data'⟩))).view
        (tr ++ [.answered (some id) .confirmChunk])) := by
  have hmove : Move g ⟨tr, some ⟨queue, some s⟩⟩
      (((sec.emit (.acknowledged id)).put ⟨queue, some s'⟩).view
        (tr ++ [.answered (some id) .confirmChunk])) := by
    have hst' : s'.pendingFile.status = .inProgress ⟨.sending, data'⟩ := by rw [hs']
    rw [Section.view_emit_put, Section.view_of_nil hsec]
    exact .acknowledges hst hst' (by rw [hs']) hm
  rw [he]
  exact hmove.path.trans (keeps_path_single rfl trivial (slot_of_eq rfl))

/-- The file is reported as sent, and then the next one is offered. -/
theorem confirmed_path {queue s} (hsec : sec.effects = []) (he : sec.entry = some ⟨queue, some s⟩)
    (hst : s.pendingFile.status = .inProgress ⟨.pendingSent, data⟩) :
    Path g ⟨tr, sec.entry⟩ ((completeFile env ⟨queue, none⟩ s.pendingFile.id .sent sec).view
      (tr ++ [.answered requestId .confirmDone])) := by
  have hmove : Move g ⟨tr, some ⟨queue, some s⟩⟩
      (((sec.notify (.fileSent s.pendingFile.id)).put ⟨queue, none⟩).view
        (tr ++ [.answered requestId .confirmDone])) := by
    rw [Section.notify, Section.view_emit_put, Section.view_of_nil hsec]
    exact .confirms hst
  have hnext : Steps env .bystander
      ((sec.notify (.fileSent s.pendingFile.id)).put ⟨queue, none⟩)
      (completeFile env ⟨queue, none⟩ s.pendingFile.id .sent sec) := sendNextFrom_steps queue _
  rw [he]
  exact hmove.path.trans hnext.path

theorem Responds.path {response r} (h : Responds env contactId requestId sec response r)
    (hsec : sec.effects = []) (hb : r.2 ≠ .blocked)
    (hg : response.starts = true → ∀ s ∈ slotOf sec.entry, g.starts tr requestId response s) :
    Path g ⟨tr, sec.entry⟩ (r.1.view (tr ++ [.answered requestId response])) := by
  cases h with
  | ignored | resets | stuck => exact ignored_path hsec _ _
  | neverOffered => exact answered_path env hsec _ _ (neverOffered_steps sec)
  | stuckEmpty => exact absurd rfl hb
  | otherContact => exact answered_path env hsec _ _ (resetAll_steps sec)
  | @started _ queue s result data ha he hv hr hst =>
    have haccepts : response.starts = true := by rcases ha with rfl | rfl <;> rfl
    refine starts_path hsec he (hg haccepts s (slotOf_of_entry he)) haccepts hst rfl ?_ (.inl ?_)
    · show (noteVerification result s).pendingFile.id = s.pendingFile.id
      rw [noteVerification_pendingFile]
    · exact noteVerification_sendManager result s
  | @continued offset queue s result data he hv hr hst =>
    refine starts_path hsec he (hg rfl s (slotOf_of_entry he)) rfl hst rfl ?_
      (.inr ⟨env.read, env.seeks, offset, ?_⟩)
    · show (noteVerification result s).pendingFile.id = s.pendingFile.id
      rw [noteVerification_pendingFile]
    · rw [noteVerification_sendManager]
  | notPrepared ha he => exact refused_path hsec he _ _ _
  | rejected _ he =>
    exact answered_path env hsec _ _ (completeFile_steps .rejected he (fun h => by cases h))
  | acknowledged he hu hst hid hm =>
    subst hid
    refine acknowledged_path hsec he hst ?_ hm
    rfl
  | dropped he hst => exact answered_path env hsec _ _ (Micro.drop trivial he hst).steps
  | aborted he => exact answered_path env hsec _ _ (sendNext_steps he)
  | confirmed he hst => exact confirmed_path hsec he hst
  | violated he =>
    exact answered_path env hsec _ _
      ((Micro.failOnce he).steps.trans (resetAndRetry_put_steps _ sec))
  | failed he =>
    exact answered_path env hsec _ _ ((Micro.failOnce he).steps.trans (Micro.reset _ rfl).steps)

/-! ### Rounds of the loop -/

/-- The results of reads that a section takes. -/
def Task.reads (env : Env) (entry : Option PeerFiles) : Task → List Observation
  | .sendChunksLoop contactId =>
    match slotOf entry with
    | none => []
    | some s =>
      if (s.unlockMut contactId).isSome && s.sendManager.isReady &&
          s.sendManager.file.pendingRead.isSome then [.read env.read] else []
  | _ => []

variable {queue : List PendingFile} {s : LockedSendData ℕ}

theorem finishSending_path (he : sec.entry = some ⟨queue, some s⟩) (hg : g.rounds s.pendingFile)
    (hf : Finished s.sendManager) (slot : Option (LockedSendData ℕ)) :
    Path g (sec.view tr) ((finishSending env ⟨queue, slot⟩ s sec).1.view tr) := by
  rw [finishSending]
  split
  · next hs =>
    obtain ⟨rfl, ⟨hsend, -⟩ | ⟨-, hid⟩⟩ := Section.send_cases hs
    · rw [Section.view_send_put hsend, Section.view, he]
      exact (Move.finishes hg hf).path
    · cases hid
  · next hs =>
    obtain ⟨rfl, ⟨-, hid⟩ | ⟨hsend, -⟩⟩ := Section.send_cases hs
    · cases hid
    · have hfail : Steps env .bystander sec _ :=
        (Micro.failedRequest false (some s.pendingFile.contactId) hsend).steps
      split
      · exact hfail.path
      · exact (hfail.trans (resetAll_steps _)).path

/-- The file leaves the slot after a read. -/
theorem fails_path (hsec : sec.effects = []) (he : sec.entry = some ⟨queue, some s⟩)
    (result : Except IoError (List UInt8)) (queue' : List PendingFile) :
    Path g ⟨tr, sec.entry⟩ ((sec.put ⟨queue', none⟩).view (tr ++ [.read result])) := by
  have hput : (sec.put ⟨queue', none⟩).effects = [] := hsec
  rw [Section.view_of_nil hput, he]
  exact (Move.fails result).path

/-- The file cannot be read: it leaves the slot, and the next one is offered. -/
theorem abortOnIoError_path (hsec : sec.effects = []) (he : sec.entry = some ⟨queue, some s⟩)
    (s' : LockedSendData ℕ) (slot : Option (LockedSendData ℕ)) (e : IoError) :
    Path g ⟨tr, sec.entry⟩ ((abortOnIoError env ⟨queue, slot⟩ s' e
      (sec.put ⟨queue, some s'⟩)).1.view (tr ++ [.read (.error e)])) := by
  have habort : Steps env .bystander (sec.put ⟨queue, none⟩)
      ((sec.put ⟨queue, none⟩).send env false (some s'.pendingFile.contactId)
        (.abortTransfer (some s'.sendManager.transferId))).2 := abort_steps _ _ _ _
  refine (fails_path hsec he (.error e) queue).trans (habort.path.trans ?_)
  -- the file is reported before the next one is looked for
  have hnext : Steps env .bystander _ (abortOnIoError env ⟨queue, slot⟩ s' e
      (sec.put ⟨queue, some s'⟩)).1 := sendNextFrom_steps queue _
  refine Path.trans ?_ hnext.path
  rw [Section.send_put, Section.send_put]
  exact keeps_path_single rfl trivial (slot_of_none rfl)

theorem interruptSending_path {chunk piece} (hsec : sec.effects = [])
    (he : sec.entry = some ⟨queue, some s⟩) (m : SendManager ℕ) (slot : Option (LockedSendData ℕ))
    (hsend : env.sends (.chunk chunk) = false) :
    Path g ⟨tr, sec.entry⟩ ((interruptSending ⟨queue, slot⟩ { s with sendManager := m }
      ((sendChunk env s chunk sec).2.put ⟨queue, some { s with sendManager := m }⟩)).1.view
        (tr ++ [.read (.ok piece)])) := by
  -- the request that failed comes after the file has left the slot
  have hfail : ∀ files, Steps env .bystander (sec.put files)
      ((sendChunk env s chunk sec).2.put files) := by
    intro files
    have hsteps : Steps env .bystander (sec.put files) _ :=
      (Micro.failedRequest true (some s.pendingFile.contactId) hsend).steps
    rwa [Section.send_put] at hsteps
  rw [interruptSending]
  split
  · next hst =>
    have hput : (sec.put ⟨queue, some { s with sendManager := m }⟩).effects = [] := hsec
    refine Path.trans ?_ (hfail _).path
    rw [Section.view_of_nil hput, he]
    have hmove : Move g ⟨tr, some ⟨queue, some s⟩⟩
        ⟨_, some ⟨queue, some { s with sendManager := m }⟩⟩ := .stuck (.ok piece) hst rfl
    exact hmove.path
  · exact (fails_path hsec he (.ok piece) _).trans (hfail _).path

theorem sends_path {piece} {position : ℕ} (hsec : sec.effects = [])
    (he : sec.entry = some ⟨queue, some s⟩) (hg : g.rounds s.pendingFile)
    (hready : s.sendManager.isReady = true) (hp : s.sendManager.file.pendingRead = some position)
    (hpiece : piece ≠ [])
    (hsend : env.sends (.chunk ⟨s.sendManager.transferId, piece, s.sendManager.nextSlot⟩) = true) :
    Path g ⟨tr, sec.entry⟩ (((sendChunk env s
      ⟨s.sendManager.transferId, piece, s.sendManager.nextSlot⟩ sec).2.put ⟨queue, some { s with
        sendManager := { s.sendManager with file := ⟨some (position + piece.length)⟩ }.register
          sec.nextRequestId piece.length }⟩).view (tr ++ [.read (.ok piece)])) := by
  rw [sendChunk, Section.view_send_put hsend, Section.view_of_nil hsec, he]
  exact (Move.sends hg hready hp hpiece).path

/-- A round with a file in the slot that unlocks. -/
theorem sendChunksLoop_of_unlocks
    (he : sec.entry = some ⟨queue, some s⟩) (hu : s.unlockMut contactId = some s) :
    sendChunksLoop env contactId sec =
      handleSendRes env contactId ⟨queue, some s⟩
        { s with sendManager := (s.sendManager.sendNextChunk env.read (sendChunk env s) sec).2.1 }
        ((s.sendManager.sendNextChunk env.read (sendChunk env s) sec).2.2.put ⟨queue, some { s with
          sendManager := (s.sendManager.sendNextChunk env.read (sendChunk env s) sec).2.1 }⟩)
        (s.sendManager.sendNextChunk env.read (sendChunk env s) sec).1 := by
  simp only [sendChunksLoop, he, hu]

/-- The reader is at the end of the file: `Done` is sent if everything is acknowledged. -/
theorem round_path_of_end (hsec : sec.effects = []) (he : sec.entry = some ⟨queue, some s⟩)
    (hu : s.unlockMut contactId = some s) (hg : g.rounds s.pendingFile)
    (hready : s.sendManager.isReady = true) {reads}
    (hreads : (s.sendManager.file.pendingRead = none ∧ reads = []) ∨
      (s.sendManager.file.pendingRead.isSome ∧ reads = [.read (.ok [])]))
    (hend : s.sendManager.file.pendingRead = none ∨ env.read = .ok []) :
    Path g ⟨tr, sec.entry⟩ ((sendChunksLoop env contactId sec).1.view (tr ++ reads)) := by
  rw [sendChunksLoop_of_unlocks he hu, SendManager.sendNextChunk_of_end hready hend]
  generalize hs' : ({ s with sendManager := { s.sendManager with file := ⟨none⟩ } } :
    LockedSendData ℕ) = s'
  have hput : (sec.put ⟨queue, some s'⟩).effects = [] := hsec
  have hmove : Move g ⟨tr, sec.entry⟩ ((sec.put ⟨queue, some s'⟩).view (tr ++ reads)) := by
    rw [Section.view_of_nil hput, he, ← hs']
    exact .ends hg hreads
  refine hmove.path.trans ?_
  split
  · next hall =>
    obtain ⟨heq, hnone⟩ := Bool.and_eq_true_iff.mp hall
    have hf : Finished s'.sendManager := by
      subst hs'
      exact ⟨rfl, of_decide_eq_true heq, hnone⟩
    have hg' : g.rounds s'.pendingFile := by
      subst hs'
      exact hg
    exact finishSending_path rfl hg' hf _
  · exact .refl _

/-- **A round with a file in the slot that unlocks.** -/
theorem round_path (hsec : sec.effects = []) (he : sec.entry = some ⟨queue, some s⟩)
    (hu : s.unlockMut contactId = some s) (hg : g.rounds s.pendingFile) :
    Path g ⟨tr, sec.entry⟩ ((sendChunksLoop env contactId sec).1.view
      (tr ++ (Task.sendChunksLoop contactId).reads env sec.entry)) := by
  simp only [Task.reads, slotOf_of_entry he, hu, Option.isSome_some, Bool.true_and]
  cases hready : s.sendManager.isReady with
  | false =>
    rw [sendChunksLoop_of_unlocks he hu, SendManager.sendNextChunk_of_full hready]
    have hsame : sec.put ⟨queue, some s⟩ = sec := Section.put_of_entry he
    have hview : sec.view (tr ++ []) = ⟨tr, sec.entry⟩ := by
      rw [List.append_nil, Section.view_of_nil hsec]
    change Path g _ ((sec.put ⟨queue, some s⟩).view (tr ++ []))
    rw [hsame, hview]
    exact .refl _
  | true =>
    cases hp : s.sendManager.file.pendingRead with
    | none =>
      exact round_path_of_end hsec he hu hg hready (.inl ⟨hp, rfl⟩) (.inl hp)
    | some position =>
      cases hr : env.read with
      | error e =>
        rw [sendChunksLoop_of_unlocks he hu, hr, SendManager.sendNextChunk_of_error hready hp]
        exact abortOnIoError_path hsec he _ _ e
      | ok bytes =>
        cases bytes with
        | nil =>
          exact round_path_of_end hsec he hu hg hready (.inr ⟨by rw [hp]; rfl, rfl⟩) (.inr hr)
        | cons b bs =>
          rw [sendChunksLoop_of_unlocks he hu, hr, SendManager.sendNextChunk_of_piece hready hp]
          split
          · next hs =>
            obtain ⟨rfl, ⟨-, hid⟩ | ⟨hsend, -⟩⟩ := Section.send_cases hs
            · cases hid
            · exact interruptSending_path hsec he _ _ hsend
          · next hs =>
            obtain ⟨rfl, ⟨hsend, hid⟩ | ⟨-, hid⟩⟩ := Section.send_cases hs
            · obtain ⟨⟩ := hid
              exact sends_path hsec he hg hready hp (List.cons_ne_nil b bs) hsend
            · cases hid

/-- A round without a file in the slot, or with one that does not unlock. -/
theorem sendChunksLoop_of_locked (env : Env)
    (h : ∀ s, slotOf sec.entry = some s → s.unlockMut contactId = none) :
    sendChunksLoop env contactId sec = (sec, .returned) ∧
      (Task.sendChunksLoop contactId).reads env sec.entry = [] := by
  cases he : sec.entry with
  | none => simp [sendChunksLoop, Task.reads, slotOf, he]
  | some files =>
    obtain ⟨queue, slot⟩ := files
    cases slot with
    | none => simp [sendChunksLoop, Task.reads, slotOf, he]
    | some s => simp [sendChunksLoop, Task.reads, slotOf, he, h s (slotOf_of_entry he)]

theorem sendChunksLoop_path (hsec : sec.effects = [])
    (hg : ∀ s, slotOf sec.entry = some s → s.unlockMut contactId = some s →
      g.rounds s.pendingFile) : Path g ⟨tr, sec.entry⟩ ((sendChunksLoop env contactId sec).1.view
      (tr ++ (Task.sendChunksLoop contactId).reads env sec.entry)) := by
  by_cases hlocked : ∀ s, slotOf sec.entry = some s → s.unlockMut contactId = none
  · obtain ⟨hloop, hreads⟩ := sendChunksLoop_of_locked env hlocked
    rw [hloop, hreads, List.append_nil, Section.view_of_nil hsec]
    exact .refl _
  · push Not at hlocked
    obtain ⟨s, hs, hu⟩ := hlocked
    obtain ⟨s', hu⟩ := Option.ne_none_iff_exists'.mp hu
    obtain rfl := LockedSendData.unlockMut_eq hu
    obtain ⟨⟨queue, slot⟩, he, hslot⟩ := Option.bind_eq_some_iff.mp hs
    obtain rfl : slot = some s' := hslot
    exact round_path hsec he hu (hg s' hs hu)

/-! ### Handlers and their later sections -/

/-- What is seen when a handler is called. -/
def Handler.heard : Handler → List Observation
  | .receiveResponse _ _ requestId response => [.answered requestId response]
  | _ => []

/-- What `g` asks of the first section of a handler. -/
def Handler.Meets (g : Manners) (tr : List Observation) (entry : Option PeerFiles) : Handler → Prop
  | .receiveResponse _ _ requestId response =>
    response.starts = true → ∀ s ∈ slotOf entry, g.starts tr requestId response s
  | _ => True

/-- What `g` asks of a later section. -/
def Task.Meets (g : Manners) (entry : Option PeerFiles) : Task → Prop
  | .sendChunksLoop contactId =>
    ∀ s ∈ slotOf entry, (s.unlockMut contactId).isSome → g.rounds s.pendingFile
  | _ => True

instance Handler.Meets.decidable
    [∀ tr requestId response s, Decidable (g.starts tr requestId response s)]
    (tr : List Observation) (entry : Option PeerFiles) (handler : Handler) :
    Decidable (handler.Meets g tr entry) := by
  rw [Handler.Meets.eq_def]
  split <;> infer_instance

instance Task.Meets.decidable [∀ file, Decidable (g.rounds file)] (entry : Option PeerFiles) :
    ∀ task : Task, Decidable (task.Meets g entry)
  | .sendChunksLoop _ => inferInstanceAs (Decidable (∀ s ∈ slotOf entry, _ → _))
  | .resetAllOnInternalError | .resetAllOnProtocolViolation | .resetDisconnected
  | .reportInterrupt .. => isTrue trivial

theorem quiet_path (env : Env) (hsec : sec.effects = []) (h : Steps env .bystander sec sec') :
    Path g ⟨tr, sec.entry⟩ (sec'.view (tr ++ [])) := by
  rw [List.append_nil, ← Section.view_of_nil hsec]
  exact h.path

/-- **The first section of a handler** is a sequence of moves. -/
theorem Handler.path (handler : Handler) (hsec : sec.effects = [])
    (hb : (handler.run env sec).2 ≠ .blocked) (hg : handler.Meets g tr sec.entry) :
    Path g ⟨tr, sec.entry⟩ ((handler.run env sec).1.view (tr ++ handler.heard)) := by
  cases handler with
  | addPendingFile p file => exact quiet_path env hsec (addPendingFile_steps trivial sec)
  | triggerInteractionWith p => exact quiet_path env hsec (triggerInteractionWith_steps sec)
  | receiveResponse p contactId requestId response =>
    exact (receiveResponse_responds env contactId requestId response sec).path hsec hb hg
  | handleReceiveError p requestId error =>
    exact quiet_path env hsec (handleReceiveError_steps error sec)
  | cancelFile fileId => exact quiet_path env hsec (cancelSection_steps _ sec)
  | cancelFileByTarget target p => exact quiet_path env hsec (cancelSection_steps _ sec)
  | resetForDisconnectedPeer p =>
    rw [Handler.run, resetForDisconnectedPeer_fst]
    exact quiet_path env hsec (.refl sec)

/-- **The later sections of a handler** are sequences of moves. -/
theorem Task.path (task : Task) (hsec : sec.effects = []) (hg : task.Meets g sec.entry) :
    Path g ⟨tr, sec.entry⟩ ((runTask env task sec).1.view (tr ++ task.reads env sec.entry)) := by
  cases task with
  | sendChunksLoop contactId =>
    exact sendChunksLoop_path hsec fun s hs hu => hg s hs (by rw [hu]; rfl)
  | resetAllOnInternalError => exact quiet_path env hsec (resetAllOnInternalErrorFor_steps sec)
  | resetAllOnProtocolViolation =>
    exact quiet_path env hsec (resetAllOnProtocolViolationFor_steps sec)
  | resetDisconnected => exact quiet_path env hsec (resetAll_steps sec)
  | reportInterrupt id status => exact quiet_path env hsec (Micro.reportInterrupt id status _).steps

/-! ### Runs that are watched -/

/-- The tracker, and a trace for every peer. -/
structure Watched where
  /-- The tracker and the handlers that wait. -/
  files : World
  trace : PeerId → List Observation

namespace Watched

/-- No file was ever added. -/
def new : Watched := ⟨.new, fun _ => []⟩

variable (w : Watched)

/-- The entry of a peer. -/
def entry (peer : PeerId) : Option PeerFiles := w.files.tracker.files.lookup peer

/-- What is seen when a section is entered. -/
def heard (env : Env) : Event → List Observation
  | .call handler => handler.heard
  | .resume index =>
    match w.files.tasks[index]? with
    | some (peer, task) => task.reads env (w.entry peer)
    | none => []

variable (e : Event × Env)

/-- What is seen of a section. -/
def seen (sec : Section) : List Observation :=
  w.heard e.2 e.1 ++ sec.effects.map .effect ++
    [.holds ((slotOf sec.entry).map fun s => s.pendingFile.id)]

/-- A step of the tracker, and what is seen of it. -/
def step : Option Watched :=
  (w.files.step e).map fun files => ⟨files, match w.files.sectionOf e.2 e.1 with
    | none => w.trace
    | some (peer, f, _) => Function.update w.trace peer
      (w.trace peer ++ w.seen e (f (w.files.tracker.enter peer)).1)⟩

/-- What `g` asks of a step. -/
def Meets (g : Manners) (w : Watched) : Event × Env → Prop
  | (.call handler, _) =>
    ∀ peer ∈ handler.peer w.files.tracker, handler.Meets g (w.trace peer) (w.entry peer)
  | (.resume index, _) => ∀ t ∈ w.files.tasks[index]?, t.2.Meets g (w.entry t.1)

instance Meets.decidable [∀ tr requestId response s, Decidable (g.starts tr requestId response s)]
    [∀ file, Decidable (g.rounds file)] (w : Watched) (e : Event × Env) :
    Decidable (w.Meets g e) := by
  rw [Meets.eq_def]
  split <;> infer_instance

theorem meets_any : w.Meets .any e := by
  obtain ⟨event, env⟩ := e
  cases event with
  | call handler =>
    intro peer _
    cases handler with
    | receiveResponse => exact fun _ _ _ => trivial
    | _ => trivial
  | resume index =>
    intro t _
    obtain ⟨peer, task⟩ := t
    cases task with
    | sendChunksLoop => exact fun _ _ _ => trivial
    | _ => trivial

/-- The trace and the entry of a peer. -/
def view (peer : PeerId) : View := ⟨w.trace peer, w.entry peer⟩

variable {w w' : Watched}

/-- **What is seen of a section** is a sequence of moves. -/
theorem sectionOf_path {e peer} {f : Section → Section × Control} {tasks}
    (hsection : w.files.sectionOf env e = some (peer, f, tasks))
    (hb : (f (w.files.tracker.enter peer)).2 ≠ .blocked) (hg : w.Meets g (e, env)) :
    Path g (w.view peer)
      ((f (w.files.tracker.enter peer)).1.view (w.trace peer ++ w.heard env e)) := by
  cases e with
  | call handler =>
    obtain ⟨_, hpeer, heq⟩ := Option.map_eq_some_iff.mp hsection
    obtain ⟨rfl, rfl, rfl⟩ := heq
    exact handler.path rfl hb (hg _ hpeer)
  | resume index =>
    obtain ⟨⟨peer', task⟩, htask, heq⟩ := Option.map_eq_some_iff.mp hsection
    obtain ⟨rfl, rfl, rfl⟩ := heq
    simp only [heard, htask]
    have hmeets : task.Meets g (w.files.tracker.enter peer').entry := hg _ htask
    exact task.path rfl hmeets

/-- **Every step of the tracker is a sequence of moves**, for every peer. -/
theorem step_path {e} (hstep : w.step (e, env) = some w') (hg : w.Meets g (e, env)) (p : PeerId) :
    Path g (w.view p) (w'.view p) := by
  obtain ⟨files, hfiles, hw'⟩ := Option.map_eq_some_iff.mp hstep
  rw [World.step, World.stepControl] at hfiles
  cases hsection : w.files.sectionOf env e with
  | none =>
    simp only [hsection] at hfiles hw'
    obtain ⟨⟩ := hfiles
    subst hw'
    exact .refl _
  | some section_ =>
    obtain ⟨peer, f, tasks⟩ := section_
    simp only [hsection] at hfiles hw'
    have hr : World.Ran w.files files peer f tasks := World.ran_of_enter hfiles
    have hpath : Path g (w.view peer) _ := sectionOf_path hsection hr.not_blocked hg
    have hafter : w'.files = files := (congrArg Watched.files hw').symm
    have htrace : w'.trace = Function.update w.trace peer (w.trace peer ++ w.seen (e, env)
      (f (w.files.tracker.enter peer)).1) := (congrArg Watched.trace hw').symm
    by_cases hp : p = peer
    · subst hp
      -- after the section, the file in the slot is recorded
      have hview : w'.view p = ⟨((f (w.files.tracker.enter p)).1.view
          (w.trace p ++ w.heard env e)).trace ++ [.holds ((slotOf
            (f (w.files.tracker.enter p)).1.entry).map fun s => s.pendingFile.id)],
          (f (w.files.tracker.enter p)).1.entry⟩ := by
        rw [view, entry, hafter, hr.tracker, CoreFileTracker.lookup_leave_self, htrace,
          Function.update_self, seen, Section.view]
        simp only [List.append_assoc]
      rw [hview]
      exact hpath.trans Move.holds.path
    · have hview : w'.view p = w.view p := by
        rw [view, entry, hafter, hr.tracker, CoreFileTracker.lookup_leave_ne hp, htrace,
          Function.update_of_ne hp]
        rfl
      rw [hview]
      exact .refl _

/-- **The rule for watched runs.** What holds at the start and is preserved by every move holds for
every peer in every run whose steps are as `g` asks. -/
theorem invariant {I : View → Prop} {ok : Watched → Event × Env → Prop}
    (hok : ∀ {w e}, ok w e → w.Meets g e) (h0 : I ⟨[], none⟩) (hI : ∀ {u v}, I u → Move g u v → I v)
    {events} (hrun : Run step ok .new events w) (p : PeerId) : I (w.view p) := by
  have hall : ∀ p, I (w.view p) := by
    refine hrun.invariant (I := fun w => ∀ p, I (w.view p)) (fun _ => h0) ?_
    rintro w w' ⟨e, env⟩ hw hokw hstep p
    exact (step_path hstep (hok hokw) p).invariant hI (hw p)
  exact hall p

end Watched

/-! ### A transfer -/

/-- The surroundings of a tracker in which everything works, with the result of a read. -/
def readEnv (bytes : List UInt8) : Env where
  isContactKnown _ := .ok true
  openFileForReading _ := some ⟨"name", .ok 10, 0⟩
  read := .ok bytes
  seeks := true
  transferUuid := ⟨"transfer"⟩
  sends _ := true

/-- The peer answers a request. -/
def answers (requestId : ℕ) (response : FileResponse) : Event × Env :=
  (.call (.receiveResponse ⟨"peer"⟩ (some ⟨"contact"⟩) (some requestId) response), readEnv [])

/-- A file is put into the queue. -/
def queues (fileId : String) : Event × Env :=
  (.call (.addPendingFile ⟨"peer"⟩ ⟨⟨fileId⟩, ⟨"contact"⟩, "path", 0, ⟨"filerequest"⟩, .pending⟩),
    readEnv [])

/-- The next file is offered. -/
def triggers : Event × Env := (.call (.triggerInteractionWith ⟨"peer"⟩), readEnv [])

/-- A file is offered with the request `0` and accepted, and its first chunk is sent with the
request `1`. -/
def firstChunk : List (Event × Env) :=
  [queues "file", triggers, answers 0 .acceptNewTransfer, (.resume 0, readEnv [1, 2])]

/-- The chunk is acknowledged, `Done` sent with the request `2` and confirmed. The loop that the
acknowledgement has started finds the slot empty. -/
def wholeTransfer : List (Event × Env) :=
  firstChunk ++ [answers 1 .confirmChunk, (.resume 0, readEnv []), answers 2 .confirmDone,
    (.resume 0, readEnv [])]

end FileTracker

end Fyles
