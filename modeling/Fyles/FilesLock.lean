import Fyles.Internal.Lock
import Fyles.TrackerRuns

/-!
# The lock on the map of files

The handlers of the tracker once more, this time with every request of the lock on `files` and
every drop of its guard. A guard is dropped by `drop(files)`, or at the end of the block that it
belongs to; both are a `release`. The methods of `CoreFileTrackerRef`, such as `send_next`,
`complete_file` and `reset_all`, have no access to the lock, so they are taken from the tracker
as they are. The methods of `CoreFileTracker` itself that a handler calls are
`verify_target_contact_id`, `send_chunks_loop` and the two that reset all files of a peer. Each of
them can request the lock.

A call at the end of a handler is what the handler does next; the guard that it holds then is
carried over.

## Main results

* `Locked.handler_agrees` — a section that does not wait for itself does what the tracker does, and
  releases the lock
* `waitsForItself_iff` — a path of a handler waits for itself exactly if it starts with `Relocks`
-/

namespace Fyles

namespace FileTracker

namespace Locked

/-! ### Sections -/

variable (f : Section → Section × Control)

/-- Work, and leave the block of the guard. -/
def leaving : Locking Section Control := do
  let control ← access f
  release
  return control

/-- A section that holds the lock from its beginning to its end. -/
def holding : Locking Section Control := do
  acquire .write
  leaving f

/-- Drop the guard and call a method. -/
def dropping (task : Task) : Locking Section Control := do
  release
  return .next task

/-- The entry of the peer. -/
def entry : Locking Section (Option PeerFiles) := access fun sec => (sec, sec.entry)

variable (env : Env)

/-- `reset_all_on_internal_error_for`. -/
def resetAllOnInternalErrorFor : Locking Section Control :=
  holding (FileTracker.resetAllOnInternalErrorFor env)

/-- `reset_all_on_protocol_violation_for`. -/
def resetAllOnProtocolViolationFor : Locking Section Control :=
  holding (FileTracker.resetAllOnProtocolViolationFor env)

/-- One round of `send_chunks_loop`. -/
def sendChunksLoop (connectedContactId : Option ContactId) : Locking Section Control :=
  holding (FileTracker.sendChunksLoop env connectedContactId)

/-- `verify_target_contact_id`. -/
def verifyTargetContactId (targetContactId : ContactId)
    (connectedContactId : Option ContactId) : Locking Section ContactVerificationResult :=
  match env.isContactKnown targetContactId with
  | .error _ => do
    let _ ← resetAllOnInternalErrorFor env
    return .internalError
  | .ok true =>
    return if connectedContactId = some targetContactId then .verified else .verificationFailed
  | .ok false => return .contactIsUnknown

/-- The `match` on the result of `verify_target_contact_id` that its callers share. If the check
fails the file is put back; if it reports an internal error the guard is dropped and all files are
reset. -/
def verifying (sending : LockedSendData ℕ) (contactId : Option ContactId)
    (goOn : ContactVerificationResult → Locking Section Control) : Locking Section Control := do
  match ← verifyTargetContactId env sending.pendingFile.contactId contactId with
  | .verificationFailed => leaving fun sec => ((resetAll sec).2, .returned)
  | .internalError => dropping .resetAllOnInternalError
  | result => goOn result

/-! ### Responses -/

variable (contactId : Option ContactId)

/-- `AcceptNewTransfer` and `RestartContinueTransfer`. -/
def acceptNewTransfer : Locking Section Control := do
  acquire .write
  match ← entry with
  | none => leaving (neverOffered env)
  | some files =>
    match files.sending with
    | none => dropping .resetAllOnProtocolViolation
    | some sending =>
      verifying env sending contactId fun result =>
        match sending.pendingFile.status with
        | .inProgress ⟨.prepared, data⟩ =>
          leaving fun sec => (sec.put { files with
            sending := some ((noteVerification result sending).withStatus
              (.inProgress ⟨.sending, data⟩)) }, .next (.sendChunksLoop contactId))
        | _ => do
          access fun sec =>
            (sec.put { files with sending := some (noteVerification result sending) }, ())
          dropping .resetAllOnProtocolViolation

/-- `RejectNewTransfer`. -/
def rejectNewTransfer : Locking Section Control := do
  acquire .write
  match ← entry with
  | none => leaving (neverOffered env)
  | some files =>
    match files.sending with
    | none => dropping .resetAllOnProtocolViolation
    | some sending =>
      verifying env sending contactId fun _ =>
        leaving fun sec =>
          (completeFile env { files with sending := none } sending.pendingFile.id .rejected sec,
            .returned)

/-- `AcceptContinueTransfer`. -/
def acceptContinueTransfer (offset : ℕ) : Locking Section Control := do
  acquire .write
  match ← entry with
  | none => leaving (neverOffered env)
  | some files =>
    match files.sending with
    | none => dropping .resetAllOnProtocolViolation
    | some sending =>
      verifying env sending contactId fun result =>
        match sending.pendingFile.status with
        | .inProgress ⟨.prepared, data⟩ =>
          match ((noteVerification result sending).withStatus
              (.inProgress ⟨.sending, { data with progressBytes := offset }⟩)).unlockMut
                contactId with
          | none => leaving fun sec => (sec, .panicked)
          | some sending => do
            access fun sec => (sec.put { files with sending := some { sending with
              sendManager := sending.sendManager.setProgress env.read env.seeks offset } }, ())
            dropping (.sendChunksLoop contactId)
        | _ => do
          access fun sec =>
            (sec.put { files with sending := some (noteVerification result sending) }, ())
          dropping .resetAllOnProtocolViolation

/-- `ConfirmChunk`. -/
def confirmChunk (requestId : Option ℕ) : Locking Section Control := do
  acquire .write
  match ← entry with
  | none => leaving (neverOffered env)
  | some files =>
    match requestId with
    | none => dropping .resetAllOnInternalError
    | some requestId =>
      match files.sending with
      | none => dropping .resetAllOnProtocolViolation
      | some locked =>
        match locked.unlockMut contactId with
        | none => leaving fun sec => ((resetAll sec).2, .returned)
        | some sending =>
          match sending.pendingFile.status with
          | .inProgress ⟨.sending, data⟩ =>
            match sending.sendManager.receiveAck requestId with
            | none => leaving fun sec => (sec, .panicked)
            | some manager =>
              let status := SendStatus.inProgress
                ⟨.sending, { data with progressBytes := manager.progressBytes }⟩
              leaving fun sec => (((sec.emit (.acknowledged requestId)).put { files with
                  sending := some
                    ({ sending with sendManager := manager }.withStatus status) }).notify
                (.fileSending sending.pendingFile.id status), .next (.sendChunksLoop contactId))
          | _ => dropping .resetAllOnProtocolViolation

/-- `RejectChunk`. -/
def rejectChunk : Locking Section Control := do
  acquire .write
  match ← entry with
  | none => leaving (neverOffered env)
  | some files =>
    match files.sending with
    | none => dropping .resetAllOnProtocolViolation
    | some sending =>
      let files := { files with sending := none }
      match sending.pendingFile.status with
      | .inProgress ⟨.sending, _⟩ =>
        leaving fun sec =>
          (completeFile env files sending.pendingFile.id .rejected sec, .returned)
      | _ =>
        access fun sec => (sec.put files, ())
        dropping .resetAllOnProtocolViolation

/-- `ConfirmDone` and `RejectDone`. -/
def answerDone (outcome : FileOutcome) : Locking Section Control := do
  acquire .write
  match ← entry with
  | none => leaving (neverOffered env)
  | some files =>
    match files.sending with
    | none => dropping .resetAllOnProtocolViolation
    | some sending =>
      match sending.pendingFile.status with
      | .inProgress ⟨.pendingSent, _⟩ =>
        leaving fun sec =>
          (completeFile env { files with sending := none } sending.pendingFile.id outcome sec,
            .returned)
      | _ => dropping .resetAllOnProtocolViolation

/-- `RejectContinueTransfer`. With an empty slot the guard is not dropped before the call. -/
def rejectContinueTransfer : Locking Section Control := do
  acquire .write
  match ← entry with
  | none => leaving fun sec => (sec, .returned)
  | some files =>
    match files.sending with
    | none => return .next .resetAllOnProtocolViolation
    | some sending =>
      verifying env sending contactId fun _ =>
        leaving fun sec =>
          (completeFile env { files with sending := none } sending.pendingFile.id .rejected sec,
            .returned)

/-- `receive_response`. -/
def receiveResponse (requestId : Option ℕ)
    (response : FileResponse) : Locking Section Control :=
  match response with
  | .acceptNewTransfer | .restartContinueTransfer => acceptNewTransfer env contactId
  | .rejectNewTransfer => rejectNewTransfer env contactId
  | .acceptContinueTransfer offset => acceptContinueTransfer env contactId offset
  | .confirmChunk => confirmChunk env contactId requestId
  | .rejectChunk => rejectChunk env
  | .confirmAbort => holding (confirmAbort env)
  | .confirmDone => answerDone env .sent
  | .rejectDone => answerDone env .rejected
  | .acknowledgeProtocolViolation => return .returned
  | .protocolViolation => holding (peerReportsViolation env)
  | .internalError => holding peerReportsInternalError
  | .rejectContinueTransfer => rejectContinueTransfer env contactId

/-! ### Handlers -/

/-- The first section of `reset_for_disconnected_peer`, which calls `has_sending_files_for`. -/
def resetForDisconnectedPeer : Locking Section Control := do
  acquire .read
  leaving FileTracker.resetForDisconnectedPeer

/-- The first section of a handler. -/
def handler : Handler → Locking Section Control
  | .addPendingFile _ file => holding (addPendingFile file)
  | .triggerInteractionWith _ => holding (triggerInteractionWith env)
  | .receiveResponse _ contactId requestId response =>
    receiveResponse env contactId requestId response
  | .handleReceiveError _ _ error => holding (handleReceiveError env error)
  | .cancelFile fileId =>
    holding fun sec => ((cancelSection env (fun f => f.id = fileId) sec).2, .returned)
  | .cancelFileByTarget target _ =>
    holding fun sec => ((cancelSection env (fun f => f.targetFilerequestId = target) sec).2,
      .returned)
  | .resetForDisconnectedPeer _ => resetForDisconnectedPeer

/-- The later sections of a handler. The last one is entered after the lock was released. -/
def task : Task → Locking Section Control
  | .sendChunksLoop contactId => sendChunksLoop env contactId
  | .resetAllOnInternalError => resetAllOnInternalErrorFor env
  | .resetAllOnProtocolViolation => resetAllOnProtocolViolationFor env
  | .resetDisconnected => holding fun sec => ((resetAll sec).2, .returned)
  | .reportInterrupt id status => access (runTask env (.reportInterrupt id status))

/-! ### The same as without the lock -/

/-- From a free lock, the code does what `f` does and releases the lock, unless `f` says that it
waits for itself. -/
def Agrees (code : Locking Section Control) (f : Section → Section × Control) : Prop :=
  ∀ sec, (f sec).2 ≠ .blocked → code.run ⟨none, sec⟩ = some ((f sec).2, ⟨none, (f sec).1⟩)

variable {env : Env} {sec : Section}

@[simp] theorem run_leaving (guard : Option Guard)
    (sec : Section) : (leaving f).run ⟨guard, sec⟩ = some ((f sec).2, ⟨none, (f sec).1⟩) := rfl

@[simp] theorem run_dropping (task : Task) (guard : Option Guard) (sec : Section) :
    (dropping task).run ⟨guard, sec⟩ = some (.next task, ⟨none, sec⟩) := rfl

@[simp] theorem run_entry (guard : Option Guard) (sec : Section) :
    entry.run ⟨guard, sec⟩ = some (sec.entry, ⟨guard, sec⟩) := rfl

/-- Under the lock, `verify_target_contact_id` waits for itself if the brain reports an error. -/
theorem run_verifyTargetContactId (targetContactId : ContactId)
    (connectedContactId : Option ContactId) (guard : Guard) (sec : Section) :
    (verifyTargetContactId env targetContactId connectedContactId).run ⟨some guard, sec⟩ =
      (FileTracker.verifyTargetContactId env targetContactId connectedContactId).map
        fun result => (result, ⟨some guard, sec⟩) := by
  rw [verifyTargetContactId, FileTracker.verifyTargetContactId]
  cases env.isContactKnown targetContactId with
  | error => rfl
  | ok known =>
    cases known with
    | false => rfl
    | true =>
      dsimp only
      split <;> rfl

theorem run_verifying (sending : LockedSendData ℕ) (contactId : Option ContactId)
    (goOn : ContactVerificationResult → Locking Section Control) (guard : Guard) (sec : Section) :
    (verifying env sending contactId goOn).run ⟨some guard, sec⟩ =
      match FileTracker.verifyTargetContactId env sending.pendingFile.contactId contactId with
      | none => none
      | some .verificationFailed => some (.returned, ⟨none, (resetAll sec).2⟩)
      | some .internalError => some (.next .resetAllOnInternalError, ⟨none, sec⟩)
      | some result => (goOn result).run ⟨some guard, sec⟩ := by
  rw [verifying, StateT.run_bind, run_verifyTargetContactId]
  cases FileTracker.verifyTargetContactId env sending.pendingFile.contactId contactId with
  | none => rfl
  | some result => cases result <;> rfl

theorem holding_agrees : Agrees (holding f) f :=
  fun _ _ => rfl

theorem receiveResponse_agrees (contactId : Option ContactId) (requestId : Option ℕ)
    (response : FileResponse) : Agrees (receiveResponse env contactId requestId response)
      (FileTracker.receiveResponse env contactId requestId response) := by
  rintro ⟨entry, nextRequestId, effects⟩ hb
  cases response with
  | acceptNewTransfer | restartContinueTransfer | rejectNewTransfer | acceptContinueTransfer
  | rejectContinueTransfer =>
    rcases entry with _ | ⟨pending, _ | sending⟩
    · rfl
    · first | rfl | exact absurd rfl hb
    · simp only [FileTracker.receiveResponse, FileTracker.acceptNewTransfer,
        FileTracker.rejectNewTransfer, FileTracker.acceptContinueTransfer,
        FileTracker.rejectContinueTransfer] at hb ⊢
      simp only [receiveResponse, acceptNewTransfer, rejectNewTransfer, acceptContinueTransfer,
        rejectContinueTransfer, StateT.run_bind, run_acquire_free, run_entry, Option.bind_eq_bind,
        Option.bind_some, run_verifying]
      cases hv : FileTracker.verifyTargetContactId env sending.pendingFile.contactId contactId with
      | none => simp [hv] at hb
      | some result =>
        cases result with
        | verificationFailed | internalError => rfl
        | verified | contactIsUnknown =>
          cases sending.pendingFile.status with
          | inProgress progress =>
            obtain ⟨stage, data⟩ := progress
            cases stage with
            | prepared =>
              dsimp only
              -- `AcceptContinueTransfer` unlocks the file before it seeks
              first
              | rfl
              | generalize LockedSendData.unlockMut _ contactId = unlocked
                cases unlocked <;> rfl
            | _ => rfl
          | _ => rfl
  | rejectChunk | confirmDone | rejectDone =>
    rcases entry with _ | ⟨pending, _ | sending⟩
    · rfl
    · rfl
    · simp only [FileTracker.receiveResponse, FileTracker.rejectChunk, FileTracker.confirmDone,
        FileTracker.rejectDone, FileTracker.answerDone, receiveResponse, rejectChunk, answerDone,
        StateT.run_bind, run_acquire_free, run_entry, Option.bind_eq_bind, Option.bind_some]
      cases sending.pendingFile.status with
      | inProgress progress =>
        obtain ⟨stage, data⟩ := progress
        cases stage <;> rfl
      | _ => rfl
  | confirmChunk =>
    rcases entry with _ | ⟨pending, sending⟩
    · rfl
    rcases requestId with _ | requestId
    · rfl
    rcases sending with _ | locked
    · rfl
    simp only [FileTracker.receiveResponse, FileTracker.confirmChunk, receiveResponse, confirmChunk,
      StateT.run_bind, run_acquire_free, run_entry, Option.bind_eq_bind, Option.bind_some]
    cases locked.unlockMut contactId with
    | none => rfl
    | some sending =>
      dsimp only
      cases sending.pendingFile.status with
      | inProgress progress =>
        obtain ⟨stage, data⟩ := progress
        cases stage with
        | sending =>
          cases sending.sendManager.receiveAck requestId <;> rfl
        | _ => rfl
      | _ => rfl
  | acknowledgeProtocolViolation => rfl
  | _ => exact holding_agrees _ _ hb

/-- **The first section of a handler** does what it does in the tracker, and releases the lock. -/
theorem handler_agrees (h : Handler) : Agrees (handler env h) (h.run env) := by
  cases h with
  | receiveResponse nodeId contactId requestId response =>
    exact receiveResponse_agrees contactId requestId response
  | resetForDisconnectedPeer => exact fun _ _ => rfl
  | _ => exact holding_agrees _

/-- **The later sections** do, too. -/
theorem task_agrees (t : Task) : Agrees (task env t) (runTask env t) := by
  cases t with
  | reportInterrupt => exact fun _ _ => rfl
  | _ =>
    exact holding_agrees _

end Locked

/-! ### Sections that wait for themselves -/

/-- The responses whose handlers check the contact. -/
def verifies : FileResponse → Bool
  | .acceptNewTransfer | .restartContinueTransfer | .rejectNewTransfer
  | .acceptContinueTransfer _ | .rejectContinueTransfer => true
  | _ => false

/-- The brain reports an error about the contact of the file in the slot. -/
def ContactError (env : Env) (entry : Option PeerFiles) : Prop :=
  ∃ s ∈ slotOf entry, ∃ message, env.isContactKnown s.pendingFile.contactId = .error message

/-- **States in which a handler waits for itself.** A response that makes the handler check the
contact finds a file in the slot, and the brain reports an error; or the peer rejects to continue a
transfer while it has files in the queue, but none in the slot. -/
def Relocks (env : Env) (entry : Option PeerFiles) : Handler → Prop
  | .receiveResponse _ _ _ response =>
    (verifies response = true ∧ ContactError env entry) ∨
    (response = .rejectContinueTransfer ∧ entry.isSome ∧ slotOf entry = none)
  | _ => False

variable {env : Env} {sec : Section}

/-- The check of the contact waits for itself exactly if the brain reports an error. -/
theorem verifyTargetContactId_eq_none_iff (targetContactId : ContactId)
    (connectedContactId : Option ContactId) :
    verifyTargetContactId env targetContactId connectedContactId = none ↔
      ∃ message, env.isContactKnown targetContactId = .error message := by
  rw [verifyTargetContactId]
  cases env.isContactKnown targetContactId with
  | error message => simp
  | ok known =>
    cases known with
    | false => simp
    | true =>
      dsimp only
      split <;> simp

theorem contactError_some_iff (pending : List PendingFile) (sending : LockedSendData ℕ)
    (contactId : Option ContactId) : ContactError env (some ⟨pending, some sending⟩) ↔
      verifyTargetContactId env sending.pendingFile.contactId contactId = none := by
  rw [verifyTargetContactId_eq_none_iff]
  constructor
  · rintro ⟨s, ⟨⟩, herror⟩
    exact herror
  · intro herror
    exact ⟨sending, rfl, herror⟩

theorem not_contactError {entry} (h : slotOf entry = none) : ¬ ContactError env entry := by
  rintro ⟨s, hs, -⟩
  rw [h] at hs
  cases hs

/-- The handler of a response waits for itself exactly in these states. -/
theorem receiveResponse_blocked_iff (contactId : Option ContactId) (requestId : Option ℕ)
    (response : FileResponse) (sec : Section) :
    (receiveResponse env contactId requestId response sec).2 = .blocked ↔
      (verifies response = true ∧ ContactError env sec.entry) ∨
      (response = .rejectContinueTransfer ∧ sec.entry.isSome ∧ slotOf sec.entry = none) := by
  cases response with
  | acceptNewTransfer | restartContinueTransfer | rejectNewTransfer | acceptContinueTransfer
  | rejectContinueTransfer =>
    obtain ⟨_ | ⟨pending, _ | sending⟩, nextRequestId, effects⟩ := sec
    · have hfree : ¬ ContactError env none := not_contactError rfl
      simp [receiveResponse, acceptNewTransfer, rejectNewTransfer, acceptContinueTransfer,
        rejectContinueTransfer, neverOffered, hfree]
    · have hfree : ¬ ContactError env (some ⟨pending, none⟩) := not_contactError rfl
      simp [receiveResponse, acceptNewTransfer, rejectNewTransfer, acceptContinueTransfer,
        rejectContinueTransfer, hfree, slotOf]
    · rw [contactError_some_iff pending sending contactId]
      simp only [receiveResponse, acceptNewTransfer, rejectNewTransfer, acceptContinueTransfer,
        rejectContinueTransfer]
      cases verifyTargetContactId env sending.pendingFile.contactId contactId with
      | none => simp [verifies]
      | some result =>
        cases result with
        | verificationFailed | internalError => simp [slotOf]
        | verified | contactIsUnknown =>
          dsimp only
          repeat' split
          all_goals simp [slotOf]
  | _ =>
    simp only [receiveResponse, confirmChunk, rejectChunk, confirmAbort, confirmDone, rejectDone,
      answerDone, peerReportsViolation, peerReportsInternalError]
    repeat' split
    all_goals simp [neverOffered, verifies]

theorem handleSendRes_ne_blocked (contactId : Option ContactId) (files : PeerFiles)
    (sending : LockedSendData ℕ) (res : SendRes ℕ) (sec : Section) :
    (handleSendRes env contactId files sending sec res).2 ≠ .blocked := by
  cases res with
  | done =>
    rw [handleSendRes, finishSending]
    repeat' split
    all_goals simp
  | interrupt =>
    rw [handleSendRes, interruptSending]
    split <;> simp
  | _ => nofun

theorem runTask_ne_blocked (t : Task) (sec : Section) : (runTask env t sec).2 ≠ .blocked := by
  cases t with
  | sendChunksLoop contactId =>
    rw [runTask, sendChunksLoop]
    split
    · simp
    · split
      · simp
      · split
        · simp
        · exact handleSendRes_ne_blocked _ _ _ _ _
  | _ => nofun

/-- **The first section of a handler** waits for itself exactly in these states. -/
theorem blocked_iff (h : Handler) (sec : Section) :
    (h.run env sec).2 = .blocked ↔ Relocks env sec.entry h := by
  cases h with
  | receiveResponse nodeId contactId requestId response =>
    exact receiveResponse_blocked_iff contactId requestId response sec
  | cancelFile | cancelFileByTarget => exact iff_of_false nofun id
  | _ =>
    refine iff_of_false ?_ id
    simp only [Handler.run, addPendingFile, triggerInteractionWith, handleReceiveError,
      resetForDisconnectedPeer]
    repeat' split
    all_goals simp

/-! ### Paths -/

/-- The method that a handler calls after a section. -/
def Control.called : Control → Option Task
  | .next task => some task
  | _ => none

/-- The sections of a handler, from the first one on. -/
def lockedSection (t : Handler ⊕ Task) (env : Env) : Locking Section (Option (Handler ⊕ Task)) :=
  (fun control => control.called.map .inr) <$> t.elim (Locked.handler env) (Locked.task env)

/-- A section that does not wait for itself leaves the lock free. -/
theorem run_lockedSection {code} {f : Section → Section × Control} (h : Locked.Agrees code f)
    (hb : (f sec).2 ≠ .blocked) :
    ((fun control => control.called.map (Sum.inr : Task → Handler ⊕ Task)) <$> code).run
      ⟨none, sec⟩ = some ((f sec).2.called.map .inr, ⟨none, (f sec).1⟩) := by
  rw [StateT.run_map, h sec hb]
  rfl

/-- If the brain reports an error, the check of the contact requests the lock a second time. -/
theorem run_receiveResponse_of_contactError {response} (hresponse : verifies response = true)
    (herror : ContactError env sec.entry) (contactId : Option ContactId) (requestId : Option ℕ) :
    (Locked.receiveResponse env contactId requestId response).run ⟨none, sec⟩ = none := by
  obtain ⟨entry, nextRequestId, effects⟩ := sec
  obtain ⟨sending, hslot, herror⟩ := herror
  obtain ⟨⟨pending, _⟩, rfl, rfl⟩ := Option.bind_eq_some_iff.mp hslot
  have hnone := (verifyTargetContactId_eq_none_iff _ contactId).mpr herror
  cases response with
  | acceptNewTransfer | restartContinueTransfer | rejectNewTransfer | acceptContinueTransfer
  | rejectContinueTransfer =>
    simp only [Locked.receiveResponse, Locked.acceptNewTransfer, Locked.rejectNewTransfer,
      Locked.acceptContinueTransfer, Locked.rejectContinueTransfer, StateT.run_bind,
      run_acquire_free, Locked.run_entry, Option.bind_eq_bind, Option.bind_some,
      Locked.run_verifying, hnone]
  | _ => cases hresponse

/-- **Handlers that wait for themselves.** Whatever the handler finds in its sections and is
answered from outside, it requests the lock while it holds its guard exactly if it starts in one
of the states of `Relocks`. -/
theorem waitsForItself_iff (h : Handler) (turns : ℕ → Env × Section) :
    WaitsForItself lockedSection turns (.inl h) ↔ Relocks (turns 0).1 (turns 0).2.entry h := by
  constructor
  · intro hwaits
    by_contra hfree
    -- after the first section only methods are left
    refine not_waitsForItself (P := fun n t => (n = 0 ∧ t = .inl h) ∨ ∃ task, t = .inr task)
      (.inl ⟨rfl, rfl⟩) ?_ hwaits
    rintro n t (⟨rfl, rfl⟩ | ⟨task, rfl⟩)
    · have hb : (h.run (turns 0).1 (turns 0).2).2 ≠ .blocked := mt (blocked_iff h _).mp hfree
      refine ⟨_, _, run_lockedSection (Locked.handler_agrees h) hb, fun t' ht' => ?_⟩
      obtain ⟨task, -, rfl⟩ := Option.map_eq_some_iff.mp ht'
      exact .inr ⟨task, rfl⟩
    · refine ⟨_, _, run_lockedSection (Locked.task_agrees task) (runTask_ne_blocked task _),
        fun t' ht' => ?_⟩
      obtain ⟨task', -, rfl⟩ := Option.map_eq_some_iff.mp ht'
      exact .inr ⟨task', rfl⟩
  · intro hrelocks
    cases h with
    | receiveResponse nodeId contactId requestId response =>
      rcases hrelocks with ⟨hresponse, herror⟩ | ⟨rfl, hentry, hslot⟩
      · refine ⟨1, ?_⟩
        have hnone := run_receiveResponse_of_contactError hresponse herror contactId requestId
        simp only [follow, lockedSection, Sum.elim_inl, Locked.handler, StateT.run_map, hnone]
        rfl
      · -- the guard is still held when the files are reset
        refine ⟨2, ?_⟩
        generalize hturn : turns 0 = turn at hentry hslot
        obtain ⟨env, _ | ⟨pending, _ | sending⟩, nextRequestId, effects⟩ := turn
        · cases hentry
        · simp only [follow, hturn]
          rfl
        · cases hslot
    | _ => exact hrelocks.elim

/-- The surroundings of a tracker in which everything works, apart from what the brain answers about
contacts. -/
def answeringEnv (known : Except String Bool) : Env where
  isContactKnown _ := known
  openFileForReading _ := some ⟨"name", .ok 10, 0⟩
  read := .ok [1, 2]
  seeks := true
  transferUuid := ⟨"transfer"⟩
  sends _ := true

/-- A file is put into the queue. -/
def queued : List (Event × Env) :=
  [(.call (.addPendingFile ⟨"peer"⟩
    ⟨⟨"file"⟩, ⟨"contact"⟩, "path", 0, ⟨"filerequest"⟩, .pending⟩), answeringEnv (.ok true))]

/-- A file is offered. -/
def offered : List (Event × Env) :=
  queued ++ [(.call (.triggerInteractionWith ⟨"peer"⟩), answeringEnv (.ok true))]

/-- A response of the peer. -/
def respond (response : FileResponse) : Handler ⊕ Task :=
  .inl (.receiveResponse ⟨"peer"⟩ (some ⟨"contact"⟩) (some 0) response)

/-- **Two responses that block the tracker for ever.** The peer accepts an offer, and the brain
reports an error when it is asked for the contact. The peer rejects to continue a transfer before
anything was offered. -/
theorem responses_wait_for_themselves : ∃ w w',
    Run World.step (fun _ _ => True) .new offered w ∧
    WaitsForItself lockedSection
      (fun _ => (answeringEnv (.error "database"), w.tracker.enter ⟨"peer"⟩))
      (respond .acceptNewTransfer) ∧
    Run World.step (fun _ _ => True) .new queued w' ∧
    WaitsForItself lockedSection (fun _ => (answeringEnv (.ok true), w'.tracker.enter ⟨"peer"⟩))
      (respond .rejectContinueTransfer) :=
  ⟨_, _, Run.get_runFrom, ⟨1, by decide⟩,
    Run.get_runFrom, ⟨2, by decide⟩⟩

end FileTracker

end Fyles
