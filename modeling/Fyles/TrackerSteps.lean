import Fyles.TrackerRuns
import Mathlib.Logic.Relation

/-!
# What a critical section can do

Every critical section of the file tracker is a sequence of small steps: report the file at the
front of the queue, offer it, put the file of the slot back, acknowledge a chunk, and so on.
`Micro` lists them all, and `Handler.steps` and `runTask_steps` say that the handlers are made of
them. What every small step preserves, every section preserves.

The handlers differ in how they go on afterwards and in what they do with a file they refuse;
that is not recorded here.

## Main results

* `receiveResponse_responds` — the handlers of responses do nothing else
* `Handler.steps`, `runTask_steps` — the sections that do not block are sequences of small steps
-/

namespace Fyles

namespace FileTracker

/-! ### The small steps -/

/-- Requests that say nothing about the chunks of a file. -/
def Sideline : FileRequest → Prop
  | .abortTransfer _ | .protocolViolation _ => True
  | _ => False

/-- Whether everything that was read has been sent and acknowledged, and nothing is left to
read. -/
def Finished (m : SendManager ℕ) : Prop :=
  m.file.pendingRead = none ∧ m.earliestNotSent = m.nextSlot ∧ m.nonePending = true

/-- What a section was entered with, as far as it decides which small steps it can take. -/
structure Occasion where
  /-- The files that it was given. -/
  accepts : FylesId → Prop
  /-- Whether it goes on with the transfer in the slot. -/
  proceeds : Prop
  /-- Whether it can lose a file. -/
  drops : Prop

/-- The small steps of a section. -/
inductive Micro (env : Env) (on : Occasion) : Section → Section → Prop
  /-- Send a request that does not concern the chunks of a file. -/
  | request {sec} (idempotent : Bool) (contactId : Option ContactId) {q}
      (hq : Sideline q) : Micro env on sec (sec.send env idempotent contactId q).2
  | failedRequest {sec} (idempotent : Bool) (contactId : Option ContactId)
      {q} (hq : env.sends q = false) : Micro env on sec (sec.send env idempotent contactId q).2
  /-- Tell the brain that the file of an interrupted round is in the queue again. -/
  | reportInterrupt {sec} (id : FylesId) (status : SendStatus) (reason : String) :
      Micro env on sec (sec.notify (.fileSendReset id status none (some reason)))
  | accept {sec file} (hid : on.accepts file.id)
      (queue : List PendingFile) (slot : Option (LockedSendData ℕ))
      (he : sec.entry.getD .default = ⟨queue, slot⟩)
      (hst : file.status = .pending ∨ ∃ data, file.status = .inProgress ⟨.interrupted, data⟩) :
      Micro env on sec ((sec.emit (.accepted file.id)).put ⟨queue ++ [file], slot⟩)
  /-- Ask the brain for the file at the front of the queue, which cannot be opened. -/
  | openFailed {sec file queue} (he : sec.entry = some ⟨file :: queue, none⟩) :
      Micro env on sec (sec.notify (.openFileForReading file.id))
  /-- Report the file at the front of the queue, which cannot be sent. -/
  | skip {sec file queue a} (he : sec.entry = some ⟨file :: queue, none⟩)
      (ha : a = .fileFailed file.id ∨ a = .fileMissing file.id) :
      Micro env on sec ((sec.notify a).put ⟨queue, none⟩)
  /-- Forget a peer for whom there is nothing to send. -/
  | removeEmpty {sec} (he : sec.entry = some ⟨[], none⟩) : Micro env on sec sec.remove
  | offerNew {sec file queue}
      (opened : OpenedFile) (size : ℕ) (he : sec.entry = some ⟨file :: queue, none⟩)
      (hst : file.status = .pending) (hsend : env.sends (.newTransfer file.targetFilerequestId
        opened.fileName size env.transferUuid) = true) :
      Micro env on sec (offerNew env none queue file opened size sec)
  /-- Offer to go on with the file at the front of the queue. -/
  | offerContinue {sec file queue data} (opened : OpenedFile) (size : ℕ)
      (he : sec.entry = some ⟨file :: queue, none⟩)
      (hst : file.status = .inProgress ⟨.interrupted, data⟩) :
      Micro env on sec (offerContinue env none queue file data opened size sec)
  | complete {sec queue s} (outcome : FileOutcome) (he : sec.entry = some ⟨queue, some s⟩)
      (hsent : outcome = .sent → on.proceeds) :
      Micro env on sec ((sec.notify (outcome.action s.pendingFile.id)).put ⟨queue, none⟩)
  /-- Put the file of the slot back and report it. -/
  | reset {sec queue s} (reason : String) (he : sec.entry = some ⟨queue, some s⟩) :
      Micro env on sec (resetAndStop ⟨queue, none⟩ s reason sec)
  /-- Put the file of the slot back because a chunk could not be sent. -/
  | interrupt {sec queue s data} (he : sec.entry = some ⟨queue, some s⟩)
      (hdata : s.pendingFile.status.transferData = some data) :
      Micro env on sec (sec.put
        ⟨queue ++ [{ s.pendingFile with status := .inProgress ⟨.interrupted, data⟩ }], none⟩)
  | failOnce {sec queue s} (he : sec.entry = some ⟨queue, some s⟩) :
      Micro env on sec (sec.put ⟨queue, some (failedOnce s)⟩)
  /-- Empty the slot without a word: `RejectChunk` for a file that is not being sent. -/
  | drop {sec queue s} (hdrops : on.drops) (he : sec.entry = some ⟨queue, some s⟩)
      (hst : ∀ data, s.pendingFile.status ≠ .inProgress ⟨.sending, data⟩) :
      Micro env on sec (sec.put ⟨queue, none⟩)
  /-- Note that the contact of the file is verified or unknown. -/
  | verify {sec queue s} (result : ContactVerificationResult) (hp : on.proceeds)
      (he : sec.entry = some ⟨queue, some s⟩) :
      Micro env on sec (sec.put ⟨queue, some (noteVerification result s)⟩)
  /-- Start to send, after the transfer was accepted. -/
  | start {sec queue s data} (hp : on.proceeds) (he : sec.entry = some ⟨queue, some s⟩)
      (hst : s.pendingFile.status = .inProgress ⟨.prepared, data⟩) :
      Micro env on sec (sec.put ⟨queue, some (s.withStatus (.inProgress ⟨.sending, data⟩))⟩)
  /-- Start to send from an offset on, after the continuation was accepted. -/
  | continueAt {sec queue s data} (offset : ℕ) (hp : on.proceeds)
      (he : sec.entry = some ⟨queue, some s⟩)
      (hst : s.pendingFile.status = .inProgress ⟨.prepared, data⟩) :
      Micro env on sec (sec.put ⟨queue, some { s.withStatus
        (.inProgress ⟨.sending, { data with progressBytes := offset }⟩) with
        sendManager := s.sendManager.setProgress env.read env.seeks offset }⟩)
  | acknowledge {sec queue s data requestId m} (hp : on.proceeds)
      (he : sec.entry = some ⟨queue, some s⟩)
      (hst : s.pendingFile.status = .inProgress ⟨.sending, data⟩)
      (hm : s.sendManager.receiveAck requestId = some m) :
      Micro env on sec (((sec.emit (.acknowledged requestId)).put ⟨queue, some ({ s with
        sendManager := m }.withStatus
          (.inProgress ⟨.sending, { data with progressBytes := m.progressBytes }⟩))⟩).notify
        (.fileSending s.pendingFile.id
          (.inProgress ⟨.sending, { data with progressBytes := m.progressBytes }⟩)))
  /-- Ask the window for the next chunk and send it, if there is one. -/
  | window {sec queue s} (hp : on.proceeds) (he : sec.entry = some ⟨queue, some s⟩) :
      Micro env on sec ((s.sendManager.sendNextChunk env.read (sendChunk env s) sec).2.2.put
        ⟨queue, some { s with
          sendManager := (s.sendManager.sendNextChunk env.read (sendChunk env s) sec).2.1 }⟩)
  | done {sec queue s} (hp : on.proceeds) (he : sec.entry = some ⟨queue, some s⟩)
      (hsend : env.sends (.done s.sendManager.transferId) = true) :
      Micro env on sec ((sec.send env false (some s.pendingFile.contactId)
        (.done s.sendManager.transferId)).2.put
        ⟨queue, some (s.withStatus (statusAfterDone s.pendingFile.status))⟩)
  /-- Remove the file of the slot because the brain has cancelled it. -/
  | cancelSlot {sec queue s} (he : sec.entry = some ⟨queue, some s⟩) :
      Micro env on sec ((emitCancelled [s.pendingFile.id] sec).put ⟨queue, none⟩)
  /-- Remove files of the queue because the brain has cancelled them. -/
  | cancelQueue {sec queue slot}
      (selected : PendingFile → Bool) (he : sec.entry = some ⟨queue, slot⟩) :
      Micro env on sec ((emitCancelled ((queue.filter selected).map PendingFile.id) sec).put
        ⟨queue.filter fun file => !selected file, slot⟩)

/-- Sequences of small steps. -/
def Steps (env : Env) (on : Occasion) : Section → Section → Prop :=
  Relation.ReflTransGen (Micro env on)

variable {env : Env} {on : Occasion} {sec sec' : Section}

theorem Steps.refl (sec : Section) : Steps env on sec sec := Relation.ReflTransGen.refl

theorem Steps.trans {a b c} (h₁ : Steps env on a b) (h₂ : Steps env on b c) :
    Steps env on a c := Relation.ReflTransGen.trans h₁ h₂

theorem Micro.steps (h : Micro env on sec sec') : Steps env on sec sec' :=
  Relation.ReflTransGen.single h

/-- **The rule for sections.** A reflexive and transitive relation that holds for the small steps
holds for their sequences. -/
theorem Steps.lift {R : Section → Section → Prop} (hrefl : ∀ s, R s s)
    (htrans : ∀ {a b c}, R a b → R b c → R a c) (hmicro : ∀ {a b}, Micro env on a b → R a b)
    (h : Steps env on sec sec') : R sec sec' := by
  induction h with
  | refl => exact hrefl sec
  | tail _ hlast ih => exact htrans ih (hmicro hlast)

/-! ### Operations on a section -/

namespace Section

@[simp] theorem put_entry (files : PeerFiles) : (sec.put files).entry = some files := rfl
@[simp] theorem put_effects (files : PeerFiles) : (sec.put files).effects = sec.effects := rfl
@[simp] theorem put_put (files files' : PeerFiles) :
    (sec.put files).put files' = sec.put files' := rfl
@[simp] theorem remove_entry : sec.remove.entry = none := rfl
@[simp] theorem remove_effects : sec.remove.effects = sec.effects := rfl
@[simp] theorem notify_entry (a : NetworkNodeAction) : (sec.notify a).entry = sec.entry := rfl
@[simp] theorem emit_entry (e : Effect) : (sec.emit e).entry = sec.entry := rfl

theorem put_of_entry {files} (h : sec.entry = some files) : sec.put files = sec := by
  cases sec
  simp_all [put]

variable {idempotent : Bool} {contactId : Option ContactId} {request : FileRequest}

@[simp] theorem send_entry :
    (sec.send env idempotent contactId request).2.entry = sec.entry := by
  rw [send.eq_def]
  split <;> rfl

theorem send_effects : (sec.send env idempotent contactId request).2.effects = sec.effects ++
      [.requested idempotent contactId request
        (sec.send env idempotent contactId request).1] := by
  rw [send]
  split <;> rfl

/-- Sending does not look at the entry. -/
theorem send_put (files : PeerFiles) : (sec.put files).send env idempotent contactId request =
      ((sec.send env idempotent contactId request).1,
        (sec.send env idempotent contactId request).2.put files) := by
  simp only [send]
  split <;> rfl

/-- What sending a request does to the section. -/
theorem send_cases {result} (h : sec.send env idempotent contactId request =
      (result, sec')) : sec' = (sec.send env idempotent contactId request).2 ∧
      ((env.sends request = true ∧ result = some sec.nextRequestId) ∨
        (env.sends request = false ∧ result = none)) := by
  refine ⟨by rw [h], ?_⟩
  rw [send] at h
  split at h
  · next hs => exact .inl ⟨hs, (Prod.mk.inj h).1.symm⟩
  · next hs => exact .inr ⟨by simpa using hs, (Prod.mk.inj h).1.symm⟩

end Section

/-! ### The slot of an entry -/

variable {slot : Option (LockedSendData ℕ)}

theorem slotOf_of_entry {queue s} (he : sec.entry = some ⟨queue, some s⟩) :
    slotOf sec.entry = some s := by
  rw [he]
  rfl

theorem slotOf_of_getD {entry queue} (h : entry.getD .default = ⟨queue, slot⟩) :
    slotOf entry = slot := by
  cases entry with
  | none =>
    cases h
    rfl
  | some files =>
    rw [Option.getD_some] at h
    rw [h]
    rfl

/-! ### The shared operations -/

variable {file : PendingFile}

theorem abort_steps (idempotent : Bool) (contactId : Option ContactId) (t : Option FylesId)
    (sec : Section) :
    Steps env on sec (sec.send env idempotent contactId (.abortTransfer t)).2 :=
  (Micro.request idempotent contactId (q := .abortTransfer t) trivial).steps

theorem violation_steps (idempotent : Bool) (contactId : Option ContactId) (t : Option FylesId)
    (sec : Section) :
    Steps env on sec (sec.send env idempotent contactId (.protocolViolation t)).2 :=
  (Micro.request idempotent contactId (q := .protocolViolation t) trivial).steps

/-- A file that was offered is in the slot. -/
theorem offerNew_sent {queue opened} {size : ℕ}
    (hsend : env.sends (.newTransfer file.targetFilerequestId opened.fileName size
      env.transferUuid) = true) : offerNew env slot queue file opened size sec =
      (sec.send env false (some file.contactId) (.newTransfer file.targetFilerequestId
        opened.fileName size env.transferUuid)).2.put ⟨queue, some (.new { file with
          status := .inProgress ⟨.prepared, ⟨0, size, env.transferUuid⟩⟩ } env.transferUuid size
          opened.position)⟩ := by
  simp [offerNew, Section.send, hsend, announce, isEphemeral]

/-- A file whose continuation was offered is in the slot. -/
theorem offerContinue_sent {queue data opened} {size : ℕ}
    (hsend : env.sends (.continueTransfer file.targetFilerequestId data.transferId) = true) :
    offerContinue env slot queue file data opened size sec =
      announce ((sec.send env false (some file.contactId) (.continueTransfer
        file.targetFilerequestId data.transferId)).2.put ⟨queue, some ((LockedSendData.new file
          data.transferId size opened.position).withStatus (.inProgress ⟨.prepared, data⟩))⟩)
        file := by
  simp [offerContinue, Section.send, hsend]

/-- The offer does not look at the entry that it replaces. -/
theorem offerNew_put (slot : Option (LockedSendData ℕ)) (queue : List PendingFile)
    (file : PendingFile) (opened : OpenedFile) (size : ℕ) (files : PeerFiles) :
    offerNew env slot queue file opened size (sec.put files) =
      offerNew env slot queue file opened size sec := by
  simp only [offerNew, Section.send]
  by_cases hsend : env.sends
      (.newTransfer file.targetFilerequestId opened.fileName size env.transferUuid) = true <;>
    simp [hsend, Section.put, Section.emit]

theorem offerContinue_put (slot : Option (LockedSendData ℕ)) (queue : List PendingFile)
    (file : PendingFile) (data : TransferData) (opened : OpenedFile) (size : ℕ)
    (files : PeerFiles) :
    offerContinue env slot queue file data opened size (sec.put files) =
      offerContinue env slot queue file data opened size sec := by
  simp only [offerContinue, Section.send]
  by_cases hsend : env.sends (.continueTransfer file.targetFilerequestId data.transferId) = true <;>
    simp [hsend, Section.put, Section.emit]

variable {queue : List PendingFile} {s : LockedSendData ℕ}

theorem offerNew_steps (opened : OpenedFile) (size : ℕ)
    (he : sec.entry = some ⟨file :: queue, none⟩) (hst : file.status = .pending) :
    Steps env on sec (offerNew env none queue file opened size sec) := by
  by_cases hsend : env.sends
      (.newTransfer file.targetFilerequestId opened.fileName size env.transferUuid) = true
  · exact (Micro.offerNew opened size he hst hsend).steps
  · have hfail : env.sends (.newTransfer file.targetFilerequestId opened.fileName size
        env.transferUuid) = false := by simpa using hsend
    have heq : offerNew env none queue file opened size sec = (sec.send env false
        (some file.contactId) (.newTransfer file.targetFilerequestId opened.fileName size
          env.transferUuid)).2 := by
      simp only [offerNew, Section.send, hfail, Bool.false_eq_true, if_false]
      exact Section.put_of_entry he
    exact heq ▸ (Micro.failedRequest false (some file.contactId) hfail).steps

theorem sendNextFrom_steps (queue : List PendingFile) (sec : Section) :
    Steps env on (sec.put ⟨queue, none⟩) (sendNextFrom env none queue sec) := by
  induction queue generalizing sec with
  | nil => exact (Micro.removeEmpty rfl).steps
  | cons file queue ih =>
    have he : (sec.put ⟨file :: queue, none⟩).entry = some ⟨file :: queue, none⟩ := rfl
    have skip : ∀ (sec : Section) {a : NetworkNodeAction},
        a = .fileFailed file.id ∨ a = .fileMissing file.id →
        Steps env on (sec.put ⟨file :: queue, none⟩)
          (sendNextFrom env none queue (sec.notify a)) := fun sec a ha =>
      (Micro.skip rfl ha).steps.trans (ih (sec.notify a))
    rw [sendNextFrom]
    split
    · exact skip sec (.inl rfl)
    · split
      · exact (Micro.openFailed he).steps.trans (skip (sec.notify _) (.inr rfl))
      · split
        · exact skip sec (.inr rfl)
        · split
          · next hst =>
            rw [← offerNew_put none queue file _ _ ⟨file :: queue, none⟩]
            exact offerNew_steps _ _ he hst
          · next hst =>
            rw [← offerContinue_put none queue file _ _ _ ⟨file :: queue, none⟩]
            exact (Micro.offerContinue _ _ he hst).steps
          · exact skip sec (.inl rfl)

theorem sendNext_steps (he : sec.entry = some ⟨queue, none⟩) :
    Steps env on sec (sendNext env ⟨queue, none⟩ sec) := by
  have h : Steps env on (sec.put ⟨queue, none⟩) _ := sendNextFrom_steps queue sec
  rwa [Section.put_of_entry he] at h

theorem completeFile_steps (outcome : FileOutcome) (he : sec.entry = some ⟨queue, some s⟩)
    (hsent : outcome = .sent → on.proceeds) :
    Steps env on sec (completeFile env ⟨queue, none⟩ s.pendingFile.id outcome sec) :=
  (Micro.complete outcome he hsent).steps.trans (sendNextFrom_steps queue _)

/-- Neither of the two ways in which a file is put back looks at the entry that it replaces. -/
theorem resetAndRetry_put_steps (reason : String) (sec : Section) :
    Steps env on (sec.put ⟨queue, some s⟩) (resetAndRetry env ⟨queue, none⟩ s reason sec) := by
  rw [resetAndRetry]
  split
  · refine (Micro.complete .failed rfl (fun h => by cases h)).steps.trans ?_
    exact sendNextFrom_steps queue (sec.notify _)
  · exact (Micro.reset reason rfl).steps

theorem resetAndRetry_steps (reason : String) (he : sec.entry = some ⟨queue, some s⟩) :
    Steps env on sec (resetAndRetry env ⟨queue, none⟩ s reason sec) := by
  have h : Steps env on (sec.put ⟨queue, some s⟩) _ := resetAndRetry_put_steps reason sec
  rwa [Section.put_of_entry he] at h

theorem resetAll_steps (sec : Section) : Steps env on sec (resetAll sec).2 := by
  rw [resetAll]
  split
  · exact .refl sec
  · next files he =>
    obtain ⟨queue, _ | s⟩ := files
    · exact .refl sec
    · exact (Micro.reset _ he).steps

theorem increaseRetryCount_steps (sec : Section) : Steps env on sec (increaseRetryCount sec) := by
  rw [increaseRetryCount]
  split
  · next he => exact (Micro.failOnce he).steps
  · exact .refl sec

theorem resetAllOnInternalErrorFor_steps (sec : Section) :
    Steps env on sec (resetAllOnInternalErrorFor env sec).1 :=
  ((increaseRetryCount_steps sec).trans (resetAll_steps _)).trans (abort_steps false _ _ _)

theorem resetAllOnProtocolViolationFor_steps (sec : Section) :
    Steps env on sec (resetAllOnProtocolViolationFor env sec).1 :=
  ((increaseRetryCount_steps sec).trans (resetAll_steps _)).trans (violation_steps false _ _ _)

theorem finishSending_steps (hp : on.proceeds) (he : sec.entry = some ⟨queue, some s⟩) :
    Steps env on sec (finishSending env ⟨queue, slot⟩ s sec).1 := by
  rw [finishSending]
  split
  · next hs =>
    obtain ⟨rfl, ⟨hsend, -⟩ | ⟨-, h⟩⟩ := Section.send_cases hs
    · exact (Micro.done hp he hsend).steps
    · cases h
  · next hs =>
    obtain ⟨rfl, ⟨-, h⟩ | ⟨hsend, -⟩⟩ := Section.send_cases hs
    · cases h
    · have hfail : Steps env on sec _ :=
        (Micro.failedRequest false (some s.pendingFile.contactId) hsend).steps
      split
      · exact hfail
      · exact hfail.trans (resetAll_steps _)

theorem neverOffered_steps (sec : Section) : Steps env on sec (neverOffered env sec).1 :=
  violation_steps false none none sec

theorem abortOnIoError_steps (e : IoError) (he : sec.entry = some ⟨queue, some s⟩) :
    Steps env on sec (abortOnIoError env ⟨queue, slot⟩ s e sec).1 :=
  (abort_steps false _ _ sec).trans
    (completeFile_steps (.ioError e) (by simpa using he) (fun h => by cases h))

theorem interruptSending_steps (he : sec.entry = some ⟨queue, some s⟩) :
    Steps env on sec (interruptSending ⟨queue, slot⟩ s sec).1 := by
  rw [interruptSending]
  split
  · exact .refl sec
  · next hdata => exact (Micro.interrupt he hdata).steps

theorem handleSendRes_steps {res} (contactId : Option ContactId) (hp : on.proceeds)
    (he : sec.entry = some ⟨queue, some s⟩) :
    Steps env on sec (handleSendRes env contactId ⟨queue, slot⟩ s sec res).1 := by
  cases res with
  | notReady | sent => exact .refl sec
  | done => exact finishSending_steps hp he
  | ioError e => exact abortOnIoError_steps e he
  | interrupt => exact interruptSending_steps he

theorem sendChunksLoop_steps {contactId : Option ContactId} (hp : on.proceeds) (sec : Section) :
    Steps env on sec (sendChunksLoop env contactId sec).1 := by
  rw [sendChunksLoop]
  split
  · exact .refl sec
  · next files he =>
    obtain ⟨queue, _ | locked⟩ := files
    · exact .refl sec
    · dsimp only
      split
      · exact .refl sec
      · next s hu =>
        obtain rfl := LockedSendData.unlockMut_eq hu
        exact (Micro.window hp he).steps.trans (handleSendRes_steps contactId hp rfl)

/-! ### Responses -/

/-- The two results with which a handler goes on. -/
theorem verified_or_unknown {result : ContactVerificationResult}
    (h₁ : result ≠ .verificationFailed) (h₂ : result ≠ .internalError) :
    result = .verified ∨ result = .contactIsUnknown := by
  cases result with
  | verified => exact .inl rfl
  | contactIsUnknown => exact .inr rfl
  | verificationFailed => exact absurd rfl h₁
  | internalError => exact absurd rfl h₂

variable (entry : Option PeerFiles)

/-- The queue of an entry. -/
def queueOf : List PendingFile := (entry.map PeerFiles.pending).getD []

/-- The responses that leave the files of a peer alone. With a file in the slot these are only the
acknowledgement of a protocol violation and the confirmation of an abort. -/
def Inert : FileResponse → Prop
  | .acknowledgeProtocolViolation => True
  | .confirmAbort => (slotOf entry).isSome ∨ queueOf entry = []
  | .protocolViolation | .internalError => slotOf entry = none
  | .rejectContinueTransfer => entry = none
  | _ => False

/-- What the handler of a response can do. -/
inductive Responds (env : Env) (contactId : Option ContactId) (requestId : Option ℕ)
    (sec : Section) : FileResponse → Section × Control → Prop
  | ignored {response} (hr : Inert sec.entry response) :
      Responds env contactId requestId sec response (sec, .returned)
  /-- Tell the peer that nothing was offered to it. -/
  | neverOffered {response} (hr : ¬ Inert sec.entry response) :
      Responds env contactId requestId sec response (neverOffered env sec)
  /-- Go on with a reset: the file is not in the state that the response is for. -/
  | resets {response task} (hr : ¬ Inert sec.entry response)
      (ht : task = .resetAllOnProtocolViolation ∨ task = .resetAllOnInternalError) :
      Responds env contactId requestId sec response (sec, .next task)
  /-- Do not return. -/
  | stuck {response control} (hr : ¬ Inert sec.entry response)
      (hc : control = .blocked ∨ control = .panicked) :
      Responds env contactId requestId sec response (sec, control)
  /-- Wait for the lock after the slot was emptied. -/
  | stuckEmpty {response queue s}
      (hr : ¬ Inert sec.entry response) (he : sec.entry = some ⟨queue, some s⟩) :
      Responds env contactId requestId sec response (sec.put ⟨queue, none⟩, .blocked)
  /-- The session is that of another contact. -/
  | otherContact {response queue s}
      (hr : ¬ Inert sec.entry response) (he : sec.entry = some ⟨queue, some s⟩) :
      Responds env contactId requestId sec response ((resetAll sec).2, .returned)
  | started {response queue s result data}
      (ha : response = .acceptNewTransfer ∨ response = .restartContinueTransfer)
      (he : sec.entry = some ⟨queue, some s⟩)
      (hv : verifyTargetContactId env s.pendingFile.contactId contactId = some result)
      (hr : result = .verified ∨ result = .contactIsUnknown)
      (hst : s.pendingFile.status = .inProgress ⟨.prepared, data⟩) :
      Responds env contactId requestId sec response
        (sec.put ⟨queue, some ((noteVerification result s).withStatus
          (.inProgress ⟨.sending, data⟩))⟩, .next (.sendChunksLoop contactId))
  | continued {offset queue s result data} (he : sec.entry = some ⟨queue, some s⟩)
      (hv : verifyTargetContactId env s.pendingFile.contactId contactId = some result)
      (hr : result = .verified ∨ result = .contactIsUnknown)
      (hst : s.pendingFile.status = .inProgress ⟨.prepared, data⟩) :
      Responds env contactId requestId sec (.acceptContinueTransfer offset)
        (sec.put ⟨queue, some { (noteVerification result s).withStatus
          (.inProgress ⟨.sending, { data with progressBytes := offset }⟩) with
          sendManager := (noteVerification result s).sendManager.setProgress env.read env.seeks
            offset }⟩, .next (.sendChunksLoop contactId))
  /-- Note the contact of a file that waits for no answer to an offer. -/
  | notPrepared {response queue s result} (ha : response.starts = true)
      (he : sec.entry = some ⟨queue, some s⟩)
      (hv : verifyTargetContactId env s.pendingFile.contactId contactId = some result)
      (hr : result = .verified ∨ result = .contactIsUnknown) :
      Responds env contactId requestId sec response
        (sec.put ⟨queue, some (noteVerification result s)⟩, .next .resetAllOnProtocolViolation)
  | rejected {response queue s}
      (hr : ¬ Inert sec.entry response) (he : sec.entry = some ⟨queue, some s⟩) :
      Responds env contactId requestId sec response
        (completeFile env ⟨queue, none⟩ s.pendingFile.id .rejected sec, .returned)
  | acknowledged {queue s data id m} (he : sec.entry = some ⟨queue, some s⟩)
      (hu : s.unlockMut contactId = some s)
      (hst : s.pendingFile.status = .inProgress ⟨.sending, data⟩) (hid : requestId = some id)
      (hm : s.sendManager.receiveAck id = some m) :
      Responds env contactId requestId sec .confirmChunk
        (((sec.emit (.acknowledged id)).put ⟨queue, some ({ s with sendManager := m }.withStatus
          (.inProgress ⟨.sending, { data with progressBytes := m.progressBytes }⟩))⟩).notify
          (.fileSending s.pendingFile.id
            (.inProgress ⟨.sending, { data with progressBytes := m.progressBytes }⟩)),
          .next (.sendChunksLoop contactId))
  /-- Empty the slot without a word. -/
  | dropped {queue : List PendingFile} {s : LockedSendData ℕ}
      (he : sec.entry = some ⟨queue, some s⟩)
      (hst : ∀ data, s.pendingFile.status ≠ .inProgress ⟨.sending, data⟩) :
      Responds env contactId requestId sec .rejectChunk
        (sec.put ⟨queue, none⟩, .next .resetAllOnProtocolViolation)
  | aborted {queue : List PendingFile} (he : sec.entry = some ⟨queue, none⟩) :
      Responds env contactId requestId sec .confirmAbort
        (sendNext env ⟨queue, none⟩ sec, .returned)
  | confirmed {queue s data} (he : sec.entry = some ⟨queue, some s⟩)
      (hst : s.pendingFile.status = .inProgress ⟨.pendingSent, data⟩) :
      Responds env contactId requestId sec .confirmDone
        (completeFile env ⟨queue, none⟩ s.pendingFile.id .sent sec, .returned)
  | violated {queue : List PendingFile} {s : LockedSendData ℕ}
      (he : sec.entry = some ⟨queue, some s⟩) :
      Responds env contactId requestId sec .protocolViolation
        (resetAndRetry env ⟨queue, none⟩ (failedOnce s) "Peer reported protocol violation" sec,
          .returned)
  | failed {queue : List PendingFile} {s : LockedSendData ℕ}
      (he : sec.entry = some ⟨queue, some s⟩) :
      Responds env contactId requestId sec .internalError
        (resetAndStop ⟨queue, none⟩ (failedOnce s) "Peer reported internal error" sec, .returned)

section Responds

variable {contactId : Option ContactId} {requestId : Option ℕ} {response : FileResponse}

theorem acceptNewTransfer_responds
    (ha : response = .acceptNewTransfer ∨ response = .restartContinueTransfer) (sec : Section) :
    Responds env contactId requestId sec response (acceptNewTransfer env contactId sec) := by
  have hi : ¬ Inert sec.entry response := by
    rcases ha with rfl | rfl <;> exact id
  rw [acceptNewTransfer]
  split
  · exact .neverOffered hi
  · next files he =>
    obtain ⟨queue, _ | s⟩ := files
    · exact .resets hi (.inl rfl)
    · dsimp only
      split
      · exact .stuck hi (.inl rfl)
      · exact .otherContact hi he
      · exact .resets hi (.inr rfl)
      · next result h₁ h₂ hv =>
        have hr := verified_or_unknown h₁ h₂
        split
        · next hst => exact .started ha he hv hr hst
        · exact .notPrepared (by rcases ha with rfl | rfl <;> rfl) he hv hr

theorem acceptContinueTransfer_responds (offset : ℕ) (sec : Section) :
    Responds env contactId requestId sec (.acceptContinueTransfer offset)
      (acceptContinueTransfer env contactId offset sec) := by
  rw [acceptContinueTransfer]
  split
  · exact .neverOffered id
  · next files he =>
    obtain ⟨queue, _ | s⟩ := files
    · exact .resets id (.inl rfl)
    · dsimp only
      split
      · exact .stuck id (.inl rfl)
      · exact .otherContact id he
      · exact .resets id (.inr rfl)
      · next result h₁ h₂ hv =>
        have hr := verified_or_unknown h₁ h₂
        split
        · next hst =>
          split
          · exact .stuck id (.inr rfl)
          · next hu =>
            obtain rfl := LockedSendData.unlockMut_eq hu
            exact .continued he hv hr hst
        · exact .notPrepared rfl he hv hr

/-- `RejectNewTransfer` and `RejectContinueTransfer`, once the contact was looked at. -/
theorem rejected_responds {result : Option ContactVerificationResult}
    (hi : ¬ Inert sec.entry response) (he : sec.entry = some ⟨queue, some s⟩) :
    Responds env contactId requestId sec response (match result with
      | none => (sec.put ⟨queue, none⟩, .blocked)
      | some .verificationFailed => ((resetAll sec).2, .returned)
      | some .internalError => (sec, .next .resetAllOnInternalError)
      | some _ =>
        (completeFile env ⟨queue, none⟩ s.pendingFile.id .rejected sec, .returned)) := by
  split
  · exact .stuckEmpty hi he
  · exact .otherContact hi he
  · exact .resets hi (.inr rfl)
  · exact .rejected hi he

theorem rejectNewTransfer_responds (sec : Section) :
    Responds env contactId requestId sec .rejectNewTransfer
      (rejectNewTransfer env contactId sec) := by
  rw [rejectNewTransfer]
  split
  · exact .neverOffered id
  · next files he =>
    obtain ⟨queue, _ | s⟩ := files
    · exact .resets id (.inl rfl)
    · exact rejected_responds id he

theorem rejectContinueTransfer_responds (sec : Section) :
    Responds env contactId requestId sec .rejectContinueTransfer
      (rejectContinueTransfer env contactId sec) := by
  rw [rejectContinueTransfer]
  split
  · next he => exact .ignored he
  · next files he =>
    have hi : ¬ Inert sec.entry .rejectContinueTransfer :=
      fun h => Option.some_ne_none files (he.symm.trans h)
    obtain ⟨queue, _ | s⟩ := files
    · exact .stuck hi (.inl rfl)
    · exact rejected_responds hi he

theorem confirmChunk_responds (sec : Section) : Responds env contactId requestId sec .confirmChunk
      (confirmChunk env contactId requestId sec) := by
  rw [confirmChunk]
  split
  · exact .neverOffered id
  · next files he =>
    obtain ⟨queue, slot⟩ := files
    split
    · exact .resets id (.inr rfl)
    · split
      · exact .resets id (.inl rfl)
      · next locked hs =>
        obtain rfl : slot = some locked := hs
        split
        · exact .otherContact id he
        · next s hu =>
          obtain rfl := LockedSendData.unlockMut_eq hu
          split
          · next hst =>
            split
            · exact .stuck id (.inr rfl)
            · next hm => exact .acknowledged he hu hst rfl hm
          · exact .resets id (.inl rfl)

theorem rejectChunk_responds (sec : Section) :
    Responds env contactId requestId sec .rejectChunk (rejectChunk env sec) := by
  rw [rejectChunk]
  split
  · exact .neverOffered id
  · next files he =>
    obtain ⟨queue, _ | s⟩ := files
    · exact .resets id (.inl rfl)
    · dsimp only
      split
      · exact .rejected id he
      · next hst => exact .dropped he hst

theorem confirmAbort_responds (sec : Section) :
    Responds env contactId requestId sec .confirmAbort (confirmAbort env sec) := by
  rw [confirmAbort]
  split
  · next he => exact .ignored (.inr (by rw [he]; rfl))
  · next files he =>
    obtain ⟨queue, slot⟩ := files
    split
    · next hs =>
      obtain rfl : slot = none := hs
      exact .aborted he
    · next s hs =>
      obtain rfl : slot = some s := hs
      exact .ignored (.inl (by rw [slotOf_of_entry he]; rfl))

/-- `ConfirmDone` and `RejectDone`, up to what a file that waits for the answer is reported as. -/
theorem answerDone_responds {outcome} (hi : ∀ entry, ¬ Inert entry response)
    (hdone : ∀ {queue s data}, sec.entry = some ⟨queue, some s⟩ →
      s.pendingFile.status = .inProgress ⟨.pendingSent, data⟩ →
      Responds env contactId requestId sec response
        (completeFile env ⟨queue, none⟩ s.pendingFile.id outcome sec, .returned)) :
    Responds env contactId requestId sec response (answerDone env outcome sec) := by
  rw [answerDone]
  split
  · exact .neverOffered (hi _)
  · next files he =>
    obtain ⟨queue, _ | s⟩ := files
    · exact .resets (hi _) (.inl rfl)
    · dsimp only
      split
      · next hst => exact hdone he hst
      · exact .resets (hi _) (.inl rfl)

/-- The handlers that need a file in the slot. -/
theorem responds_of_slot {f : PeerFiles → LockedSendData ℕ → Section × Control}
    (hi : slotOf sec.entry = none → Inert sec.entry response)
    (hf : ∀ {queue s}, sec.entry = some ⟨queue, some s⟩ →
      Responds env contactId requestId sec response (f ⟨queue, some s⟩ s)) :
    Responds env contactId requestId sec response (match sec.entry with
      | none => (sec, .returned)
      | some files => match files.sending with
        | none => (sec, .returned)
        | some sending => f files sending) := by
  split
  · next he => exact .ignored (hi (by rw [he]; rfl))
  · next files he =>
    obtain ⟨queue, slot⟩ := files
    split
    · next hs => exact .ignored (hi (by rw [he]; exact hs))
    · next s hs =>
      obtain rfl : slot = some s := hs
      exact hf he

/-- **The handlers of responses.** -/
theorem receiveResponse_responds (env : Env) (contactId : Option ContactId) (requestId : Option ℕ)
    (response : FileResponse) (sec : Section) :
    Responds env contactId requestId sec response
      (receiveResponse env contactId requestId response sec) := by
  cases response with
  | acceptNewTransfer => exact acceptNewTransfer_responds (.inl rfl) sec
  | restartContinueTransfer => exact acceptNewTransfer_responds (.inr rfl) sec
  | rejectNewTransfer => exact rejectNewTransfer_responds sec
  | acceptContinueTransfer offset => exact acceptContinueTransfer_responds offset sec
  | rejectContinueTransfer => exact rejectContinueTransfer_responds sec
  | confirmChunk => exact confirmChunk_responds sec
  | rejectChunk => exact rejectChunk_responds sec
  | confirmAbort => exact confirmAbort_responds sec
  | confirmDone => exact answerDone_responds (fun _ => id) .confirmed
  | rejectDone => exact answerDone_responds (fun _ => id) fun he _ => .rejected id he
  | acknowledgeProtocolViolation => exact .ignored trivial
  | protocolViolation => exact responds_of_slot id .violated
  | internalError => exact responds_of_slot id .failed

end Responds

/-- The file in the slot, if there is one, is being sent. -/
def SlotIsSending : Prop :=
  ∀ s, slotOf entry = some s → ∃ data, s.pendingFile.status = .inProgress ⟨.sending, data⟩

theorem Responds.steps {contactId requestId response r}
    (h : Responds env contactId requestId sec response r) (hp : on.proceeds)
    (hdrops : response = .rejectChunk → ¬ SlotIsSending sec.entry → on.drops)
    (hb : r.2 ≠ .blocked) : Steps env on sec r.1 := by
  cases h with
  | ignored | resets | stuck => exact .refl sec
  | neverOffered => exact neverOffered_steps sec
  | stuckEmpty => exact absurd rfl hb
  | otherContact => exact resetAll_steps sec
  | @started _ queue s result data _ he hv hr hst =>
    rw [← noteVerification_pendingFile result s] at hst
    exact (Micro.verify result hp he).steps.trans (Micro.start hp rfl hst).steps
  | @continued offset queue s result data he hv hr hst =>
    rw [← noteVerification_pendingFile result s] at hst
    exact (Micro.verify result hp he).steps.trans (Micro.continueAt offset hp rfl hst).steps
  | notPrepared _ he => exact (Micro.verify _ hp he).steps
  | rejected _ he => exact completeFile_steps .rejected he (fun h => by cases h)
  | acknowledged he hu hst hid hm => exact (Micro.acknowledge hp he hst hm).steps
  | dropped he hst =>
    refine (Micro.drop (hdrops rfl fun h => ?_) he hst).steps
    obtain ⟨data, hdata⟩ := h _ (slotOf_of_entry he)
    exact hst data hdata
  | aborted he => exact sendNext_steps he
  | confirmed he hst => exact completeFile_steps .sent he fun _ => hp
  | violated he => exact (Micro.failOnce he).steps.trans (resetAndRetry_put_steps _ sec)
  | failed he => exact (Micro.failOnce he).steps.trans (Micro.reset _ rfl).steps

/-- What becomes of a file whose request got no response. -/
theorem handleReceiveError_cases (env : Env) (error : ReceiveError) (sec : Section) :
    (slotOf sec.entry = none ∧ handleReceiveError env error sec = (sec, .returned)) ∨
      ∃ queue s, sec.entry = some ⟨queue, some s⟩ ∧ ∃ sec',
        handleReceiveError env error sec = (sec', .returned) ∧
        ((∃ reason, sec' = resetAndRetry env ⟨queue, none⟩ s reason sec) ∨
          (∃ reason, sec' = resetAndStop ⟨queue, none⟩ s reason sec) ∨
          sec' = completeFile env ⟨queue, none⟩ s.pendingFile.id .rejected sec) := by
  rw [handleReceiveError]
  split
  · next he => exact .inl ⟨by rw [he]; rfl, rfl⟩
  · next files he =>
    obtain ⟨queue, slot⟩ := files
    split
    · next hs => exact .inl ⟨by rw [he]; exact hs, rfl⟩
    · next s hs =>
      obtain rfl : slot = some s := hs
      refine .inr ⟨queue, s, he, ?_⟩
      split
      · exact ⟨_, rfl, .inl ⟨_, rfl⟩⟩
      · exact ⟨_, rfl, .inr (.inl ⟨_, rfl⟩)⟩
      · exact ⟨_, rfl, .inr (.inr rfl)⟩
      · exact ⟨_, rfl, .inr (.inl ⟨_, rfl⟩)⟩
      · exact ⟨_, rfl, .inl ⟨_, rfl⟩⟩
      · exact ⟨_, rfl, .inl ⟨_, rfl⟩⟩

theorem handleReceiveError_steps (error : ReceiveError) (sec : Section) :
    Steps env on sec (handleReceiveError env error sec).1 := by
  rcases handleReceiveError_cases env error sec with
    ⟨-, heq⟩ | ⟨queue, s, he, sec', heq, ⟨reason, rfl⟩ | ⟨reason, rfl⟩ | rfl⟩
  · rw [heq]
    exact .refl sec
  · rw [heq]
    exact resetAndRetry_steps reason he
  · rw [heq]
    exact (Micro.reset reason he).steps
  · rw [heq]
    exact completeFile_steps .rejected he (fun h => by cases h)

/-! ### The other handlers -/

theorem addPendingFile_steps (hid : on.accepts file.id) (sec : Section) :
    Steps env on sec (addPendingFile file sec).1 := by
  rw [addPendingFile]
  split
  · next hst => exact (Micro.accept hid _ _ rfl (.inl hst)).steps
  · next data hst => exact (Micro.accept hid _ _ rfl (.inr ⟨data, hst⟩)).steps
  · exact .refl sec

theorem triggerInteractionWith_steps (sec : Section) :
    Steps env on sec (triggerInteractionWith env sec).1 := by
  rw [triggerInteractionWith]
  split
  · exact .refl sec
  · next files he =>
    obtain ⟨queue, slot⟩ := files
    split
    · exact .refl sec
    · next hs =>
      obtain rfl : slot = none := hs
      exact sendNext_steps he

theorem cancelSection_steps (selected : PendingFile → Bool) (sec : Section) :
    Steps env on sec (cancelSection env selected sec).2 := by
  rw [cancelSection]
  split
  · exact .refl sec
  · next files he =>
    obtain ⟨queue, slot⟩ := files
    split
    · next s hs =>
      obtain ⟨rfl, -⟩ : slot = some s ∧ _ := Option.filter_eq_some_iff.mp hs
      refine (Micro.cancelSlot he).steps.trans ((abort_steps false (some s.pendingFile.contactId)
        (some s.sendManager.transferId) _).trans ?_)
      rw [Section.send_put]
      exact sendNextFrom_steps queue _
    · exact (Micro.cancelQueue selected he).steps

theorem resetForDisconnectedPeer_fst (sec : Section) : (resetForDisconnectedPeer sec).1 = sec := by
  rw [resetForDisconnectedPeer]
  split <;> rfl

/-! ### Sections in a run -/

/-- What the first section of a handler is entered with. -/
def Occasion.ofHandler (handler : Handler) (entry : Option PeerFiles) : Occasion where
  accepts id := ∃ p file, handler = .addPendingFile p file ∧ file.id = id
  proceeds := ∃ p c r response, handler = .receiveResponse p c r response
  drops := (∃ p c r, handler = .receiveResponse p c r .rejectChunk) ∧ ¬ SlotIsSending entry

/-- What a later section of a handler is entered with. -/
def Occasion.ofTask (task : Task) : Occasion where
  accepts _ := False
  proceeds := ∃ c, task = .sendChunksLoop c
  drops := False

/-- **Every section is a sequence of small steps**, unless its handler waits for its own lock. -/
theorem Handler.steps (handler : Handler) (sec : Section)
    (hb : (handler.run env sec).2 ≠ .blocked) :
    Steps env (.ofHandler handler sec.entry) sec (handler.run env sec).1 := by
  cases handler with
  | addPendingFile p file =>
    refine addPendingFile_steps ?_ sec
    exact ⟨p, file, rfl, rfl⟩
  | triggerInteractionWith p => exact triggerInteractionWith_steps sec
  | receiveResponse p c r response =>
    refine (receiveResponse_responds env c r response sec).steps ⟨p, c, r, response, rfl⟩ ?_ hb
    rintro rfl hs
    exact ⟨⟨p, c, r, rfl⟩, hs⟩
  | handleReceiveError p r error => exact handleReceiveError_steps error sec
  | cancelFile id => exact cancelSection_steps _ sec
  | cancelFileByTarget target p => exact cancelSection_steps _ sec
  | resetForDisconnectedPeer p =>
    rw [Handler.run, resetForDisconnectedPeer_fst]
    exact .refl sec

theorem runTask_steps (task : Task) (sec : Section) :
    Steps env (.ofTask task) sec (runTask env task sec).1 := by
  cases task with
  | sendChunksLoop contactId =>
    refine sendChunksLoop_steps ?_ sec
    exact ⟨contactId, rfl⟩
  | resetAllOnInternalError => exact resetAllOnInternalErrorFor_steps sec
  | resetAllOnProtocolViolation => exact resetAllOnProtocolViolationFor_steps sec
  | resetDisconnected => exact resetAll_steps sec
  | reportInterrupt id status => exact (Micro.reportInterrupt id status _).steps

/-- **What a step of the tracker does**: nothing, or small steps on the entry of one peer. -/
theorem World.step_steps {w w' : World} {e} (h : w.step (e, env) = some w') :
    w' = w ∨ ∃ on peer sec', Steps env on (w.tracker.enter peer) sec' ∧
      w'.tracker = w.tracker.leave peer sec' := by
  rcases World.step_cases h with
    rfl | ⟨handler, peer, rfl, hp, hr⟩ | ⟨index, peer, task, rfl, ht, hr⟩
  · exact .inl rfl
  · exact .inr ⟨_, peer, _, handler.steps _ hr.not_blocked, hr.tracker⟩
  · exact .inr ⟨_, peer, _, runTask_steps task _, hr.tracker⟩

end FileTracker

end Fyles
