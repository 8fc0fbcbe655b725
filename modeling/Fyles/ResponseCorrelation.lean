import Fyles.SendWindow
import Fyles.TrackerSteps

/-!
# Which answers leave a transfer alone

A response carries no transfer id, and the handlers of responses and of receive errors do not
compare the request that was answered with the file in the slot. An answer to an old request
therefore acts on whatever file is in the slot when it arrives.

What decides whether an answer leaves the peer's files alone is only the kind of the answer, whether
there is a file in the slot, and whether the queue is empty. The request that it answers is not
looked at, so the same holds for every request: one for an earlier file, for a cancelled file, or
one that reported an abort or a protocol violation.

## What counts

The slot with its window, the queue, and the requests that the handler tries to send. Retry counts
are part of the files in the slot and in the queue. A handler that waits for its own lock, or that
panics, does not return, so it does not leave the files alone.

## Main results

* `leavesAlone_iff` — exactly the inert responses, and the errors that find an empty slot, leave the
  files of the peer alone
* `stale_answers_disturb` — late answers for a cancelled file remove and reset the next one
-/

namespace Fyles

namespace FileTracker

/-! ### Files and requests of a peer -/

/-- Whether an effect is an attempt to send a request. -/
def Effect.isRequest : Effect → Bool
  | .requested .. => true
  | _ => false

/-- The requests among the effects. -/
def requestsOf (effects : List Effect) : List Effect := effects.filter Effect.isRequest

/-- A section that changes neither the slot nor the queue, and sends nothing. -/
structure Undisturbed (sec sec' : Section) : Prop where
  slot : slotOf sec'.entry = slotOf sec.entry
  queue : queueOf sec'.entry = queueOf sec.entry
  requests : requestsOf sec'.effects = requestsOf sec.effects

theorem Undisturbed.refl (sec : Section) : Undisturbed sec sec := ⟨rfl, rfl, rfl⟩

/-- A handler that returns, and all of whose sections, one after the other and whatever the
surroundings answer to the later ones, change neither the slot nor the queue and send nothing. -/
inductive LeavesAlone : Section → Section × Control → Prop
  | returned {sec sec' : Section} (h : Undisturbed sec sec') : LeavesAlone sec (sec', .returned)
  | next {sec sec' : Section} {task : Task} (h : Undisturbed sec sec')
      (rest : ∀ env, LeavesAlone sec' (runTask env task sec')) : LeavesAlone sec (sec', .next task)

variable {env : Env} {sec sec' : Section} {queue : List PendingFile} {s : LockedSendData ℕ}

theorem LeavesAlone.undisturbed {r} (h : LeavesAlone sec r) : Undisturbed sec r.1 := by
  cases h with
  | returned h | next h => exact h

theorem leavesAlone_returned_iff : LeavesAlone sec (sec', .returned) ↔ Undisturbed sec sec' :=
  ⟨LeavesAlone.undisturbed, .returned⟩

theorem queueOf_of_entry {slot} (he : sec.entry = some ⟨queue, slot⟩) :
    queueOf sec.entry = queue := by
  rw [he]
  rfl

/-! ### What the shared operations send -/

variable {s' : LockedSendData ℕ}

@[simp] theorem requestsOf_notify (sec : Section) (action : NetworkNodeAction) :
    requestsOf (sec.notify action).effects = requestsOf sec.effects := by
  simp [requestsOf, Section.notify, Section.emit, Effect.isRequest]

@[simp] theorem requestsOf_announce (sec : Section) (file : PendingFile) :
    requestsOf (announce sec file).effects = requestsOf sec.effects := by
  rw [announce]
  split
  · rfl
  · exact requestsOf_notify _ _

/-- Every attempt to send is a request. -/
theorem requestsOf_send {idempotent : Bool} {contactId q} :
    requestsOf (sec.send env idempotent contactId q).2.effects =
      requestsOf sec.effects ++
        [.requested idempotent contactId q (sec.send env idempotent contactId q).1] := by
  rw [Section.send_effects, requestsOf, List.filter_append]
  rfl

@[simp] theorem requestsOf_resetAll (sec : Section) :
    requestsOf (resetAll sec).2.effects = requestsOf sec.effects := by
  rw [resetAll]
  split
  · rfl
  · split
    · rfl
    · exact requestsOf_notify _ _

@[simp] theorem requestsOf_increaseRetryCount (sec : Section) :
    requestsOf (increaseRetryCount sec).effects = requestsOf sec.effects := by
  rw [increaseRetryCount]
  split <;> rfl

/-- One request more is a difference. -/
theorem not_undisturbed_of_request
    (h : ∃ e, requestsOf sec'.effects = requestsOf sec.effects ++ [e]) :
    ¬ Undisturbed sec sec' := by
  obtain ⟨e, he⟩ := h
  intro hu
  have hlength := congrArg List.length (he.symm.trans hu.requests)
  simp at hlength

theorem neverOffered_not_leavesAlone (sec : Section) : ¬ LeavesAlone sec (neverOffered env sec) :=
  fun h => not_undisturbed_of_request ⟨_, requestsOf_send⟩ h.undisturbed

theorem resetAllOnProtocolViolationFor_requests (sec : Section) :
    ∃ e, requestsOf (resetAllOnProtocolViolationFor env sec).1.effects =
      requestsOf sec.effects ++ [e] := by
  rw [resetAllOnProtocolViolationFor, requestsOf_send, requestsOf_resetAll,
    requestsOf_increaseRetryCount]
  exact ⟨_, rfl⟩

theorem resetAllOnInternalErrorFor_requests (sec : Section) :
    ∃ e, requestsOf (resetAllOnInternalErrorFor env sec).1.effects =
      requestsOf sec.effects ++ [e] := by
  rw [resetAllOnInternalErrorFor, requestsOf_send, requestsOf_resetAll,
    requestsOf_increaseRetryCount]
  exact ⟨_, rfl⟩

/-- A handler that goes on with one of the resets sends a request. -/
theorem not_leavesAlone_violation (env : Env) :
    ¬ LeavesAlone sec (sec', .next .resetAllOnProtocolViolation) := by
  rintro (_ | ⟨-, rest⟩)
  exact not_undisturbed_of_request (resetAllOnProtocolViolationFor_requests sec')
    (rest env).undisturbed

theorem not_leavesAlone_internalError (env : Env) :
    ¬ LeavesAlone sec (sec', .next .resetAllOnInternalError) := by
  rintro (_ | ⟨-, rest⟩)
  exact not_undisturbed_of_request (resetAllOnInternalErrorFor_requests sec')
    (rest env).undisturbed

theorem offerNew_requests (file : PendingFile) (opened : OpenedFile) (size : ℕ) (sec : Section) :
    ∃ e, requestsOf (offerNew env none queue file opened size sec).effects =
      requestsOf sec.effects ++ [e] := by
  refine ⟨_, (?_ : _ = requestsOf (sec.send env false (some file.contactId) (.newTransfer
    file.targetFilerequestId opened.fileName size env.transferUuid)).2.effects).trans
      requestsOf_send⟩
  rw [offerNew]
  split
  · next hs => rw [requestsOf_announce, hs]; rfl
  · next hs => rw [hs]; rfl

theorem offerContinue_requests (file : PendingFile) (data : TransferData) (opened : OpenedFile)
    (size : ℕ) (sec : Section) :
    ∃ e, requestsOf (offerContinue env none queue file data opened size sec).effects =
      requestsOf sec.effects ++ [e] := by
  refine ⟨_, (?_ : _ = requestsOf (sec.send env false (some file.contactId) (.continueTransfer
    file.targetFilerequestId data.transferId)).2.effects).trans requestsOf_send⟩
  rw [offerContinue]
  split
  · next hs => rw [requestsOf_announce, hs]; rfl
  · next hs => rw [requestsOf_announce, hs]; rfl

/-- Unless a file is offered, the entry is removed. -/
theorem sendNextFrom_entry_or_requests (env : Env) (queue : List PendingFile) (sec : Section) :
    (sendNextFrom env none queue sec).entry = none ∨
      ∃ e, requestsOf (sendNextFrom env none queue sec).effects =
        requestsOf sec.effects ++ [e] := by
  induction queue generalizing sec with
  | nil => exact .inl rfl
  | cons file queue ih =>
    -- a file that cannot be sent is only reported
    have skip : ∀ a, (sendNextFrom env none queue (sec.notify a)).entry = none ∨
        ∃ e, requestsOf (sendNextFrom env none queue (sec.notify a)).effects =
          requestsOf sec.effects ++ [e] := fun a => requestsOf_notify sec a ▸ ih (sec.notify a)
    rw [sendNextFrom]
    split
    · exact skip _
    · split
      · have := ih ((sec.notify (.openFileForReading file.id)).notify (.fileMissing file.id))
        rwa [requestsOf_notify, requestsOf_notify] at this
      · split
        · exact skip _
        · split
          · exact .inr (offerNew_requests _ _ _ _)
          · exact .inr (offerContinue_requests _ _ _ _ _)
          · exact skip _

/-- Looking for the next file leaves the files alone only if there is none. -/
theorem sendNext_undisturbed_iff (he : sec.entry = some ⟨queue, none⟩) :
    Undisturbed sec (sendNext env ⟨queue, none⟩ sec) ↔ queue = [] := by
  constructor
  · intro h
    rcases sendNextFrom_entry_or_requests env queue sec with hnone | hrequest
    · have hq := h.queue
      rw [sendNext, hnone, queueOf_of_entry he] at hq
      exact hq.symm
    · exact absurd h (not_undisturbed_of_request hrequest)
  · rintro rfl
    refine ⟨?_, ?_, rfl⟩
    · rw [he]
      rfl
    · rw [he]
      rfl

/-- A file that was in the slot is not there any more, or a request was sent. -/
theorem completeFile_not_undisturbed (he : sec.entry = some ⟨queue, some s⟩) (id : FylesId)
    (outcome : FileOutcome) :
    ¬ Undisturbed sec (completeFile env ⟨queue, none⟩ id outcome sec) := by
  intro h
  rcases sendNextFrom_entry_or_requests env queue (sec.notify (outcome.action id)) with
    hnone | hrequest
  · have hs := h.slot
    rw [completeFile, sendNext, hnone, slotOf_of_entry he] at hs
    cases hs
  · rw [requestsOf_notify] at hrequest
    exact not_undisturbed_of_request hrequest h

/-- A file that is put back makes the queue longer. -/
theorem resetAndStop_not_undisturbed (reason : String) (he : sec.entry = some ⟨queue, some s⟩) :
    ¬ Undisturbed sec (resetAndStop ⟨queue, none⟩ s' reason sec) := by
  intro h
  have hq := h.queue
  rw [queueOf_of_entry he] at hq
  have hlength := congrArg List.length hq
  simp [resetAndStop, queueOf] at hlength

theorem resetAndRetry_not_undisturbed (reason : String) (he : sec.entry = some ⟨queue, some s⟩) :
    ¬ Undisturbed sec (resetAndRetry env ⟨queue, none⟩ s' reason sec) := by
  rw [resetAndRetry]
  split
  · exact completeFile_not_undisturbed he _ _
  · exact resetAndStop_not_undisturbed reason he

theorem resetAll_not_undisturbed (he : sec.entry = some ⟨queue, some s⟩) :
    ¬ Undisturbed sec (resetAll sec).2 := by
  simp only [resetAll, he]
  exact resetAndStop_not_undisturbed _ he

/-- Another file in the slot is a difference. -/
theorem not_undisturbed_of_slot (he : sec.entry = some ⟨queue, some s⟩)
    (hslot : slotOf sec'.entry = some s') (hne : s' ≠ s) : ¬ Undisturbed sec sec' := by
  intro h
  have hs := h.slot
  rw [hslot, slotOf_of_entry he] at hs
  exact hne (Option.some.inj hs)

/-! ### Responses -/

/-- Exactly the inert responses leave the files alone. -/
theorem Responds.leavesAlone_iff_inert {contactId requestId response r}
    (h : Responds env contactId requestId sec response r) :
    LeavesAlone sec r ↔ Inert sec.entry response := by
  -- a response that is for a file in the slot is not inert
  have hslot : ∀ {queue s}, sec.entry = some ⟨queue, some s⟩ → slotOf sec.entry ≠ none :=
    fun he hnone => Option.some_ne_none _ ((slotOf_of_entry he).symm.trans hnone)
  cases h with
  | ignored hr => exact iff_of_true (.returned (.refl sec)) hr
  | neverOffered hr => exact iff_of_false (neverOffered_not_leavesAlone sec) hr
  | resets hr ht =>
    rcases ht with rfl | rfl
    · exact iff_of_false (not_leavesAlone_violation env) hr
    · exact iff_of_false (not_leavesAlone_internalError env) hr
  | stuck hr hcontrol => rcases hcontrol with rfl | rfl <;> exact iff_of_false nofun hr
  | stuckEmpty hr => exact iff_of_false nofun hr
  | otherContact hr he =>
    exact iff_of_false (fun h => resetAll_not_undisturbed he h.undisturbed) hr
  | started ha he hv hr hst =>
    refine iff_of_false (fun h => not_undisturbed_of_slot he rfl (fun heq => ?_) h.undisturbed)
      (by rcases ha with rfl | rfl <;> exact id)
    rw [← heq] at hst
    cases hst
  | continued he hv hr hst =>
    refine iff_of_false (fun h => not_undisturbed_of_slot he rfl (fun heq => ?_) h.undisturbed) id
    rw [← heq] at hst
    cases hst
  | notPrepared ha =>
    refine iff_of_false (not_leavesAlone_violation env) fun hi => ?_
    cases response <;> first | exact hi | cases ha
  | rejected hr he =>
    exact iff_of_false (fun h => completeFile_not_undisturbed he _ _ h.undisturbed) hr
  | acknowledged he hu hst hid hm =>
    refine iff_of_false (fun h => not_undisturbed_of_slot he rfl (fun heq => ?_) h.undisturbed) id
    exact SendManager.receiveAck_ne hm (congrArg LockedSendData.sendManager heq)
  | dropped => exact iff_of_false (not_leavesAlone_violation env) id
  | aborted he =>
    rw [leavesAlone_returned_iff, sendNext_undisturbed_iff he, Inert, queueOf_of_entry he, he]
    exact (or_iff_right (by simp [slotOf])).symm
  | confirmed he =>
    exact iff_of_false (fun h => completeFile_not_undisturbed he _ _ h.undisturbed) id
  | violated he =>
    exact iff_of_false (fun h => resetAndRetry_not_undisturbed _ he h.undisturbed) (hslot he)
  | failed he =>
    exact iff_of_false (fun h => resetAndStop_not_undisturbed _ he h.undisturbed) (hslot he)

/-- A request got no response. -/
theorem handleReceiveError_leavesAlone_iff (error : ReceiveError) (sec : Section) :
    LeavesAlone sec (handleReceiveError env error sec) ↔ slotOf sec.entry = none := by
  rcases handleReceiveError_cases env error sec with
    ⟨hnone, heq⟩ | ⟨queue, s, he, sec', heq, hor⟩
  · rw [heq]
    exact iff_of_true (.returned (.refl sec)) hnone
  · rw [heq, slotOf_of_entry he, leavesAlone_returned_iff]
    refine iff_of_false ?_ (Option.some_ne_none s)
    rcases hor with ⟨reason, rfl⟩ | ⟨reason, rfl⟩ | rfl
    · exact resetAndRetry_not_undisturbed reason he
    · exact resetAndStop_not_undisturbed reason he
    · exact completeFile_not_undisturbed he _ _

/-! ### The exact condition -/

/-- **Which answers leave a peer's files alone**, whatever request they answer: the inert responses,
and the errors that find an empty slot. All others change the slot, the queue or a retry count, send
a request, or do not return. -/
theorem leavesAlone_iff (env : Env) (t : CoreFileTracker) (peer : PeerId)
    (contactId : Option ContactId) (requestId : Option ℕ) :
    (∀ response, LeavesAlone (t.enter peer)
        ((Handler.receiveResponse peer contactId requestId response).run env (t.enter peer)) ↔
      Inert (t.files.lookup peer) response) ∧
    (∀ error, LeavesAlone (t.enter peer)
        ((Handler.handleReceiveError peer requestId error).run env (t.enter peer)) ↔
      slotOf (t.files.lookup peer) = none) := by
  exact ⟨fun response => (receiveResponse_responds env _ _ response _).leavesAlone_iff_inert,
    fun error => handleReceiveError_leavesAlone_iff error _⟩

/-! ### Answers that come too late -/

/-- The request was sent to the peer, and was made for another transfer than the one that is now in
the slot, if there is one. -/
def Stale (t : CoreFileTracker) (peer : PeerId) (requestId : ℕ) : Prop :=
  ∃ idempotent contactId request,
    Effect.requested idempotent contactId request (some requestId) ∈ t.historyOf peer ∧
    ∀ s ∈ slotOf (t.files.lookup peer), request.transfer ≠ some s.sendManager.transferId

/-- The surroundings of a tracker in which everything works, with the id of a new transfer. -/
def offerEnv (transferUuid : String) : Env where
  isContactKnown _ := .ok true
  openFileForReading _ := some ⟨"name", .ok 10, 0⟩
  read := .ok [1, 2]
  seeks := true
  transferUuid := ⟨transferUuid⟩
  sends _ := true

/-- A file that was not offered yet. -/
def newFile (id : String) : PendingFile :=
  ⟨⟨id⟩, ⟨"contact"⟩, "path", 0, ⟨"filerequest"⟩, .pending⟩

/-- A file is offered with the request `0` and cancelled with the request `1`, and another file is
offered with the request `2`. -/
def cancelledAndOffered : List (Event × Env) :=
  [(.call (.addPendingFile ⟨"peer"⟩ (newFile "first")), offerEnv "t1"),
    (.call (.addPendingFile ⟨"peer"⟩ (newFile "second")), offerEnv "t1"),
    (.call (.triggerInteractionWith ⟨"peer"⟩), offerEnv "t1"),
    (.call (.cancelFile ⟨"first"⟩), offerEnv "t2")]

/-- Late answers: the first offer is rejected, it expires, and the abort expires. -/
def lateAnswers : List Handler :=
  [.receiveResponse ⟨"peer"⟩ (some ⟨"contact"⟩) (some 0) .rejectNewTransfer,
    .handleReceiveError ⟨"peer"⟩ (some 0) (.localError .timeout),
    .handleReceiveError ⟨"peer"⟩ (some 1) (.localError .timeout)]

/-- **Late answers act on the next file.** After the first file was cancelled, the rejection of its
offer empties the slot of the second file, and so does an expired request, be it that offer or the
abort. -/
theorem stale_answers_disturb : ∃ w,
    Run World.step (fun _ _ => True) .new cancelledAndOffered w ∧
    Stale w.tracker ⟨"peer"⟩ 0 ∧ Stale w.tracker ⟨"peer"⟩ 1 ∧
    ∀ handler ∈ lateAnswers, ¬ LeavesAlone (w.tracker.enter ⟨"peer"⟩)
      (handler.run (offerEnv "t3") (w.tracker.enter ⟨"peer"⟩)) := by
  refine ⟨_, Run.get_runFrom,
    ⟨false, some ⟨"contact"⟩, .newTransfer ⟨"filerequest"⟩ "name" 10 ⟨"t1"⟩, by decide, by decide⟩,
    ⟨false, some ⟨"contact"⟩, .abortTransfer (some ⟨"t1"⟩), by decide, by decide⟩, ?_⟩
  intro handler hmem h
  have hslot := congrArg Option.isSome h.undisturbed.slot
  simp only [lateAnswers, List.mem_cons, List.not_mem_nil, or_false] at hmem
  rcases hmem with rfl | rfl | rfl
  · exact absurd hslot (by decide)
  · exact absurd hslot (by decide)
  · exact absurd hslot (by decide)

end FileTracker

end Fyles
