import Fyles.SendManager

/-!
# The file tracker

`p2p/src/event_loop/filerequest/file_tracker.rs`, the class `CoreFileTracker`. For every peer
it keeps a queue of files and a slot for the file that is being sent. Handlers run concurrently
and share a lock on the map of peers.

## Critical sections

The code between acquiring and releasing the lock is one step. All of these sections work on
the entry of one peer, so a section is a function on `Section`: the entry, the counter of the
request ids, and what the section has done so far (`Effect`). How a handler goes on after the
section is its `Control`: it returns, it enters another section later (`Task`), it waits for the
lock that it holds itself, or it panics.

`verifyTargetContactId` is one place that waits for the lock: when the brain cannot answer, it
calls `reset_all_on_internal_error_for`, which acquires the lock that all callers of
`verifyTargetContactId` hold. `rejectContinueTransfer` has another.

## The surroundings

`Env` holds the answers that a section gets from outside: from the brain, from the file system
and from the network. Within a section no request is sent twice and no file opened twice, so
functions of the request and of the file are as general as a list of answers.

The plugin of the tracker is the one that does nothing, as `new_core_file_tracker` sets it, and
tracing is left out.
-/

namespace Fyles

namespace FileTracker

/-! ### Entries, effects and surroundings -/

/-- What the tracker keeps for one peer. -/
structure PeerFiles where
  pending : List PendingFile
  sending : Option (LockedSendData ℕ)

/-- `PeerFiles::default`. -/
def PeerFiles.default : PeerFiles := ⟨[], none⟩

/-- What a section does besides changing its entry. -/
inductive Effect
  /-- A file was taken into the queue. -/
  | accepted (id : FylesId)
  /-- A file was removed because the brain cancelled it. -/
  | cancelled (id : FylesId)
  /-- The brain was told something. -/
  | notified (action : NetworkNodeAction)
  /-- A request was handed to the network for the peer and a contact. The result is its id, or
  `none` if that failed. -/
  | requested (idempotent : Bool) (contactId : Option ContactId) (request : FileRequest)
      (result : Option ℕ)
  /-- The window was told that a request was answered. -/
  | acknowledged (requestId : ℕ)
  deriving DecidableEq, Repr

/-- The question that goes to the brain before a file is sent. -/
structure OpenFileForReadingRequest where
  uri : String
  id : FylesId
  byteOffset : ℕ
  deriving DecidableEq, Repr

/-- An opened file. -/
structure OpenedFile where
  fileName : String
  /-- Its size, if the file system gives it. -/
  metadata : Except IoError ℕ
  /-- The position of the first read. -/
  position : ℕ

/-- The answers that one section gets from outside. -/
structure Env where
  /-- The brain's answer to `IsContactKnown`. -/
  isContactKnown : ContactId → Except String Bool
  /-- The brain's answer to `OpenFileForReading`. -/
  openFileForReading : OpenFileForReadingRequest → Option OpenedFile
  /-- What the read under way returns. -/
  read : Except IoError (List UInt8)
  seeks : Bool
  transferUuid : FylesId
  /-- Whether handing a request to the network works. -/
  sends : FileRequest → Bool

/-- The state of a critical section. -/
structure Section where
  entry : Option PeerFiles
  nextRequestId : ℕ
  effects : List Effect

/-- What a handler does in a later section. -/
inductive Task
  /-- The next round of `send_chunks_loop`. -/
  | sendChunksLoop (connectedContactId : Option ContactId)
  | resetAllOnInternalError
  | resetAllOnProtocolViolation
  /-- `reset_for_disconnected_peer`, after it has seen a file in the slot. -/
  | resetDisconnected
  /-- Tell the brain that a file went back to the queue, after the lock was released. -/
  | reportInterrupt (pendingFileId : FylesId) (status : SendStatus)
  deriving DecidableEq, Repr

/-- How a handler goes on after a section. -/
inductive Control
  | returned
  | next (task : Task)
  /-- It waits for the lock that it holds. -/
  | blocked
  | panicked
  deriving DecidableEq, Repr

namespace Section

variable (sec : Section)

/-- Record an effect. -/
def emit (e : Effect) : Section := { sec with effects := sec.effects ++ [e] }

/-- Tell the brain something. -/
def notify (action : NetworkNodeAction) : Section := sec.emit (.notified action)

/-- Write the entry. -/
def put (files : PeerFiles) : Section := { sec with entry := some files }

/-- Remove the entry. -/
def remove : Section := { sec with entry := none }

/-- Hand a request to the network. -/
def send (env : Env) (idempotent : Bool) (contactId : Option ContactId)
    (request : FileRequest) : Option ℕ × Section :=
  if env.sends request then
    (some sec.nextRequestId,
      { sec.emit (.requested idempotent contactId request (some sec.nextRequestId)) with
        nextRequestId := sec.nextRequestId + 1 })
  else (none, sec.emit (.requested idempotent contactId request none))

end Section

/-! ### Sending the next file -/

/-- How a file can leave the tracker. -/
inductive FileOutcome
  | sent
  | failed
  | missing
  | rejected
  | ioError (error : IoError)
  deriving DecidableEq, Repr

/-- The notification for an outcome. -/
def FileOutcome.action (id : FylesId) : FileOutcome → NetworkNodeAction
  | .sent => .fileSent id
  | .failed => .fileFailed id
  | .missing => .fileMissing id
  | .rejected => .fileRejected id
  | .ioError error => .fileIoError id error

/-- The bytes of a file that the peer already has, for the two statuses that can be sent. -/
def progressOf : SendStatus → Option ℕ
  | .pending => some 0
  | .inProgress progress => some progress.transferData.progressBytes
  | _ => none

/-- Whether a status is one of the two that are kept from the brain. -/
def isEphemeral : SendStatus → Bool
  | .inProgress progress => progress.status = .prepared || progress.status = .pendingSent
  | _ => false

/-- The end of `send_next`: tell the brain about the file unless its status is kept from it. -/
def announce (sec : Section) (file : PendingFile) : Section :=
  if isEphemeral file.status then sec else sec.notify (.fileSending file.id file.status)

/-- Offer a file that has not been offered yet: the first branch of the `match` in `send_next`.
If that fails the file goes back to the front of the queue. -/
def offerNew (env : Env) (sending : Option (LockedSendData ℕ)) (rest : List PendingFile)
    (file : PendingFile) (opened : OpenedFile) (size : ℕ) (sec : Section) : Section :=
  match sec.send env false (some file.contactId)
      (.newTransfer file.targetFilerequestId opened.fileName size env.transferUuid) with
  | (some _, sec) =>
    let file := { file with
      status := .inProgress ⟨.prepared, ⟨0, size, env.transferUuid⟩⟩ }
    announce (sec.put ⟨rest, some (.new file env.transferUuid size opened.position)⟩) file
  | (none, sec) => sec.put ⟨file :: rest, sending⟩

/-- Offer to go on with a file: the second branch. The brain is told the status before the
offer. -/
def offerContinue (env : Env) (sending : Option (LockedSendData ℕ)) (rest : List PendingFile)
    (file : PendingFile) (data : TransferData) (opened : OpenedFile) (size : ℕ) (sec : Section) :
    Section :=
  match sec.send env false (some file.contactId)
      (.continueTransfer file.targetFilerequestId data.transferId) with
  | (some _, sec) =>
    let sendData := (LockedSendData.new file data.transferId size opened.position).withStatus
      (.inProgress ⟨.prepared, data⟩)
    announce (sec.put ⟨rest, some sendData⟩) file
  | (none, sec) => announce (sec.put ⟨rest, sending⟩) file

/-- `send_next`, from the queue on: the files at its front that cannot be sent are reported, the
first that can is offered. With an empty queue the entry is removed. -/
def sendNextFrom (env : Env) (sending : Option (LockedSendData ℕ)) :
    List PendingFile → Section → Section
  | [], sec => sec.remove
  | file :: rest, sec =>
    match progressOf file.status with
    | none => sendNextFrom env sending rest (sec.notify (FileOutcome.failed.action file.id))
    | some progress =>
      match env.openFileForReading ⟨file.filePath, file.id, progress⟩ with
      | none =>
        sendNextFrom env sending rest
          ((sec.notify (.openFileForReading file.id)).notify (.fileMissing file.id))
      | some opened =>
        match opened.metadata with
        | .error _ => sendNextFrom env sending rest (sec.notify (.fileMissing file.id))
        | .ok size =>
          match file.status with
          | .pending => offerNew env sending rest file opened size sec
          | .inProgress ⟨.interrupted, data⟩ =>
            offerContinue env sending rest file data opened size sec
          | _ => sendNextFrom env sending rest (sec.notify (.fileFailed file.id))

/-- `send_next`. -/
def sendNext (env : Env) (files : PeerFiles) (sec : Section) : Section :=
  sendNextFrom env files.sending files.pending sec

/-- `complete_file`: report the outcome of a file that has left the slot, and go on. -/
def completeFile (env : Env) (files : PeerFiles) (id : FylesId) (outcome : FileOutcome)
    (sec : Section) : Section :=
  sendNext env files (sec.notify (outcome.action id))

/-! ### Putting a file back -/

/-- `compute_reset_status`. -/
def computeResetStatus : SendStatus → SendStatus
  | .inProgress ⟨.prepared, data⟩ =>
    if 0 < data.progressBytes then .inProgress ⟨.interrupted, data⟩ else .pending
  | .inProgress ⟨_, data⟩ => .inProgress ⟨.interrupted, data⟩
  | _ => .pending

/-- `reset_and_stop`: the file goes to the end of the queue. -/
def resetAndStop (files : PeerFiles) (sending : LockedSendData ℕ) (reason : String)
    (sec : Section) : Section :=
  let file := { sending.pendingFile with status := computeResetStatus sending.pendingFile.status }
  (sec.notify (.fileSendReset file.id file.status (some file.retryCount) (some reason))).put
    { files with pending := files.pending ++ [file] }

/-- How many failures a file of some size may have. -/
def maxAllowedFailures (fileSizeBytes : ℕ) : ℕ := 1 + fileSizeBytes / 1000000000

/-- `reset_and_retry`: as `resetAndStop`, unless the file has failed too often. -/
def resetAndRetry (env : Env) (files : PeerFiles) (sending : LockedSendData ℕ) (reason : String)
    (sec : Section) : Section :=
  if maxAllowedFailures sending.sendManager.fileSizeBytes < sending.pendingFile.retryCount then
    completeFile env files sending.pendingFile.id .failed sec
  else resetAndStop files sending reason sec

/-- `reset_all`: put the file of the slot back, if there is one. Returns its contact. -/
def resetAll (sec : Section) : Option ContactId × Section :=
  match sec.entry with
  | none => (none, sec)
  | some files =>
    match files.sending with
    | none => (none, sec)
    | some sending =>
      (some sending.pendingFile.contactId,
        resetAndStop { files with sending := none } sending "Peer disconnected while sending" sec)

/-- A file in the slot with one more failure. -/
def failedOnce (sending : LockedSendData ℕ) : LockedSendData ℕ :=
  { sending with
    pendingFile := { sending.pendingFile with retryCount := sending.pendingFile.retryCount + 1 } }

/-- Count a failure of the file in the slot, if there is one. -/
def increaseRetryCount (sec : Section) : Section :=
  match sec.entry with
  | some ⟨pending, some sending⟩ => sec.put ⟨pending, some (failedOnce sending)⟩
  | _ => sec

/-- The file in the slot. -/
def slotOf (entry : Option PeerFiles) : Option (LockedSendData ℕ) := entry.bind PeerFiles.sending

/-- `reset_all_on_internal_error_for`. -/
def resetAllOnInternalErrorFor (env : Env) (sec : Section) : Section × Control :=
  let slot := slotOf sec.entry
  (((resetAll (increaseRetryCount sec)).2.send env false
    (slot.map fun s => s.pendingFile.contactId)
    (.abortTransfer (slot.map fun s => s.sendManager.transferId))).2, .returned)

/-- `reset_all_on_protocol_violation_for`. -/
def resetAllOnProtocolViolationFor (env : Env) (sec : Section) : Section × Control :=
  let r := resetAll (increaseRetryCount sec)
  ((r.2.send env false r.1 (.protocolViolation none)).2, .returned)

/-! ### Sending chunks -/

/-- The status of a file after `Done` was sent. -/
def statusAfterDone : SendStatus → SendStatus
  | .inProgress ⟨.sending, data⟩ => .inProgress ⟨.pendingSent, data⟩
  | status => status

/-- After all chunks were sent and acknowledged: send `Done`, and wait for its confirmation. -/
def finishSending (env : Env) (files : PeerFiles) (sending : LockedSendData ℕ) (sec : Section) :
    Section × Control :=
  match sec.send env false (some sending.pendingFile.contactId)
      (.done sending.sendManager.transferId) with
  | (some _, sec) =>
    (sec.put { files with
      sending := some (sending.withStatus (statusAfterDone sending.pendingFile.status)) },
      .returned)
  | (none, sec) =>
    match sending.pendingFile.status.transferData with
    | none => (sec, .returned)
    | some _ => ((resetAll sec).2, .returned)

/-- The file cannot be read: give the transfer up and report the error. -/
def abortOnIoError (env : Env) (files : PeerFiles) (sending : LockedSendData ℕ) (e : IoError)
    (sec : Section) : Section × Control :=
  (completeFile env { files with sending := none } sending.pendingFile.id (.ioError e)
    (sec.send env false (some sending.pendingFile.contactId)
      (.abortTransfer (some sending.sendManager.transferId))).2, .returned)

/-- A chunk could not be sent: put the file back. The brain is told after the lock was
released. -/
def interruptSending (files : PeerFiles) (sending : LockedSendData ℕ) (sec : Section) :
    Section × Control :=
  match sending.pendingFile.status.transferData with
  | none => (sec, .returned)
  | some data =>
    let status := SendStatus.inProgress ⟨.interrupted, data⟩
    (sec.put ⟨files.pending ++ [{ sending.pendingFile with status := status }], none⟩,
      .next (.reportInterrupt sending.pendingFile.id status))

/-- The `match` of `send_chunks_loop` on the result of `send_next_chunk`. -/
def handleSendRes (env : Env) (connectedContactId : Option ContactId) (files : PeerFiles)
    (sending : LockedSendData ℕ) (sec : Section) : SendRes ℕ → Section × Control
  | .notReady => (sec, .returned)
  | .sent _ => (sec, .next (.sendChunksLoop connectedContactId))
  | .done => finishSending env files sending sec
  | .ioError e => abortOnIoError env files sending e sec
  | .interrupt => interruptSending files sending sec

/-- Hand a chunk of the file in the slot to the network. -/
def sendChunk (env : Env) (sending : LockedSendData ℕ) (chunk : DataChunk) (sec : Section) :
    Option ℕ × Section :=
  sec.send env true (some sending.pendingFile.contactId) (.chunk chunk)

/-- One round of `send_chunks_loop`. -/
def sendChunksLoop (env : Env) (connectedContactId : Option ContactId) (sec : Section) :
    Section × Control :=
  match sec.entry with
  | none => (sec, .returned)
  | some files =>
    match files.sending with
    | none => (sec, .returned)
    | some locked =>
      match locked.unlockMut connectedContactId with
      | none => (sec, .returned)
      | some sending =>
        let r := sending.sendManager.sendNextChunk env.read (sendChunk env sending) sec
        let sending := { sending with sendManager := r.2.1 }
        handleSendRes env connectedContactId files sending
          (r.2.2.put { files with sending := some sending }) r.1

/-! ### The contact at the other end -/

/-- What checking the contact of a file against that of the session can give. -/
inductive ContactVerificationResult
  | verified
  | contactIsUnknown
  | verificationFailed
  | internalError
  deriving DecidableEq, Repr

/-- `verify_target_contact_id`. With an error from the brain it acquires the lock, which every
caller holds: `none`. So `internalError` is never returned. -/
def verifyTargetContactId (env : Env) (targetContactId : ContactId)
    (connectedContactId : Option ContactId) : Option ContactVerificationResult :=
  match env.isContactKnown targetContactId with
  | .error _ => none
  | .ok true =>
    if connectedContactId = some targetContactId then some .verified else some .verificationFailed
  | .ok false => some .contactIsUnknown

variable (result : ContactVerificationResult)

/-- What the handlers of an accepted transfer note about the contact. -/
def noteVerification (sending : LockedSendData ℕ) : LockedSendData ℕ :=
  if result = .contactIsUnknown then { sending with mustVerifyContactId := false } else sending

@[simp] theorem noteVerification_pendingFile (sending : LockedSendData ℕ) :
    (noteVerification result sending).pendingFile = sending.pendingFile := by
  rw [noteVerification.eq_def]
  split <;> rfl

@[simp] theorem noteVerification_sendManager (sending : LockedSendData ℕ) :
    (noteVerification result sending).sendManager = sending.sendManager := by
  rw [noteVerification.eq_def]
  split <;> rfl

/-- The section of a handler that finds no entry for the peer: it sends a protocol violation. -/
def neverOffered (env : Env) (sec : Section) : Section × Control :=
  ((sec.send env false none (.protocolViolation none)).2, .returned)

/-! ### Responses -/

/-- `AcceptNewTransfer` and `RestartContinueTransfer`. -/
def acceptNewTransfer (env : Env) (contactId : Option ContactId) (sec : Section) :
    Section × Control :=
  match sec.entry with
  | none => neverOffered env sec
  | some files =>
    match files.sending with
    | none => (sec, .next .resetAllOnProtocolViolation)
    | some sending =>
      match verifyTargetContactId env sending.pendingFile.contactId contactId with
      | none => (sec, .blocked)
      | some .verificationFailed => ((resetAll sec).2, .returned)
      | some .internalError => (sec, .next .resetAllOnInternalError)
      | some result =>
        match sending.pendingFile.status with
        | .inProgress ⟨.prepared, data⟩ =>
          (sec.put { files with
            sending := some ((noteVerification result sending).withStatus
              (.inProgress ⟨.sending, data⟩)) }, .next (.sendChunksLoop contactId))
        | _ =>
          (sec.put { files with sending := some (noteVerification result sending) },
            .next .resetAllOnProtocolViolation)

/-- `RejectNewTransfer`. -/
def rejectNewTransfer (env : Env) (contactId : Option ContactId) (sec : Section) :
    Section × Control :=
  match sec.entry with
  | none => neverOffered env sec
  | some files =>
    match files.sending with
    | none => (sec, .next .resetAllOnProtocolViolation)
    | some sending =>
      match verifyTargetContactId env sending.pendingFile.contactId contactId with
      | none => (sec.put { files with sending := none }, .blocked)
      | some .verificationFailed => ((resetAll sec).2, .returned)
      | some .internalError => (sec, .next .resetAllOnInternalError)
      | some _ =>
        (completeFile env { files with sending := none } sending.pendingFile.id .rejected sec,
          .returned)

/-- `AcceptContinueTransfer`. After the check of the contact the window always unlocks; the source
would panic if it did not. -/
def acceptContinueTransfer (env : Env) (contactId : Option ContactId) (offset : ℕ)
    (sec : Section) : Section × Control :=
  match sec.entry with
  | none => neverOffered env sec
  | some files =>
    match files.sending with
    | none => (sec, .next .resetAllOnProtocolViolation)
    | some sending =>
      match verifyTargetContactId env sending.pendingFile.contactId contactId with
      | none => (sec, .blocked)
      | some .verificationFailed => ((resetAll sec).2, .returned)
      | some .internalError => (sec, .next .resetAllOnInternalError)
      | some result =>
        match sending.pendingFile.status with
        | .inProgress ⟨.prepared, data⟩ =>
          match ((noteVerification result sending).withStatus
              (.inProgress ⟨.sending, { data with progressBytes := offset }⟩)).unlockMut
                contactId with
          | none => (sec, .panicked)
          | some sending =>
            (sec.put { files with sending := some { sending with
              sendManager := sending.sendManager.setProgress env.read env.seeks offset } },
              .next (.sendChunksLoop contactId))
        | _ =>
          (sec.put { files with sending := some (noteVerification result sending) },
            .next .resetAllOnProtocolViolation)

/-- `ConfirmChunk`. The only check on the request id is that there is one. -/
def confirmChunk (env : Env) (contactId : Option ContactId) (requestId : Option ℕ)
    (sec : Section) : Section × Control :=
  match sec.entry with
  | none => neverOffered env sec
  | some files =>
    match requestId with
    | none => (sec, .next .resetAllOnInternalError)
    | some requestId =>
      match files.sending with
      | none => (sec, .next .resetAllOnProtocolViolation)
      | some locked =>
        match locked.unlockMut contactId with
        | none => ((resetAll sec).2, .returned)
        | some sending =>
          match sending.pendingFile.status with
          | .inProgress ⟨.sending, data⟩ =>
            match sending.sendManager.receiveAck requestId with
            | none => (sec, .panicked)
            | some manager =>
              let status := SendStatus.inProgress
                ⟨.sending, { data with progressBytes := manager.progressBytes }⟩
              (((sec.emit (.acknowledged requestId)).put { files with
                  sending := some
                    ({ sending with sendManager := manager }.withStatus status) }).notify
                (.fileSending sending.pendingFile.id status), .next (.sendChunksLoop contactId))
          | _ => (sec, .next .resetAllOnProtocolViolation)

/-- `RejectChunk`. The slot is emptied before the status of the file is looked at. -/
def rejectChunk (env : Env) (sec : Section) : Section × Control :=
  match sec.entry with
  | none => neverOffered env sec
  | some files =>
    match files.sending with
    | none => (sec, .next .resetAllOnProtocolViolation)
    | some sending =>
      let files := { files with sending := none }
      match sending.pendingFile.status with
      | .inProgress ⟨.sending, _⟩ =>
        (completeFile env files sending.pendingFile.id .rejected sec, .returned)
      | _ => (sec.put files, .next .resetAllOnProtocolViolation)

/-- `ConfirmAbort`. -/
def confirmAbort (env : Env) (sec : Section) : Section × Control :=
  match sec.entry with
  | none => (sec, .returned)
  | some files =>
    match files.sending with
    | none => (sendNext env files sec, .returned)
    | some _ => (sec, .returned)

/-- `ConfirmDone` and `RejectDone`, which report different outcomes. -/
def answerDone (env : Env) (outcome : FileOutcome) (sec : Section) : Section × Control :=
  match sec.entry with
  | none => neverOffered env sec
  | some files =>
    match files.sending with
    | none => (sec, .next .resetAllOnProtocolViolation)
    | some sending =>
      match sending.pendingFile.status with
      | .inProgress ⟨.pendingSent, _⟩ =>
        (completeFile env { files with sending := none } sending.pendingFile.id outcome sec,
          .returned)
      | _ => (sec, .next .resetAllOnProtocolViolation)

/-- `ConfirmDone`. -/
def confirmDone (env : Env) : Section → Section × Control := answerDone env .sent

/-- `RejectDone`. -/
def rejectDone (env : Env) : Section → Section × Control := answerDone env .rejected

/-- The peer reports that this end violated the protocol. -/
def peerReportsViolation (env : Env) (sec : Section) : Section × Control :=
  match sec.entry with
  | none => (sec, .returned)
  | some files =>
    match files.sending with
    | none => (sec, .returned)
    | some sending =>
      (resetAndRetry env { files with sending := none } (failedOnce sending)
        "Peer reported protocol violation" sec, .returned)

/-- The peer reports an internal error. -/
def peerReportsInternalError (sec : Section) : Section × Control :=
  match sec.entry with
  | none => (sec, .returned)
  | some files =>
    match files.sending with
    | none => (sec, .returned)
    | some sending =>
      (resetAndStop { files with sending := none } (failedOnce sending)
        "Peer reported internal error" sec, .returned)

/-- `RejectContinueTransfer`. With an empty slot the handler calls
`reset_all_on_protocol_violation_for` without releasing the lock. -/
def rejectContinueTransfer (env : Env) (contactId : Option ContactId) (sec : Section) :
    Section × Control :=
  match sec.entry with
  | none => (sec, .returned)
  | some files =>
    match files.sending with
    | none => (sec, .blocked)
    | some sending =>
      match verifyTargetContactId env sending.pendingFile.contactId contactId with
      | none => (sec.put { files with sending := none }, .blocked)
      | some .verificationFailed => ((resetAll sec).2, .returned)
      | some .internalError => (sec, .next .resetAllOnInternalError)
      | some _ =>
        (completeFile env { files with sending := none } sending.pendingFile.id .rejected sec,
          .returned)

/-- `receive_response`. -/
def receiveResponse (env : Env) (contactId : Option ContactId) (requestId : Option ℕ)
    (response : FileResponse) (sec : Section) : Section × Control :=
  match response with
  | .acceptNewTransfer | .restartContinueTransfer => acceptNewTransfer env contactId sec
  | .rejectNewTransfer => rejectNewTransfer env contactId sec
  | .acceptContinueTransfer offset => acceptContinueTransfer env contactId offset sec
  | .confirmChunk => confirmChunk env contactId requestId sec
  | .rejectChunk => rejectChunk env sec
  | .confirmAbort => confirmAbort env sec
  | .confirmDone => confirmDone env sec
  | .rejectDone => rejectDone env sec
  | .acknowledgeProtocolViolation => (sec, .returned)
  | .protocolViolation => peerReportsViolation env sec
  | .internalError => peerReportsInternalError sec
  | .rejectContinueTransfer => rejectContinueTransfer env contactId sec

/-- `handle_receive_error`. The request id is not looked at. -/
def handleReceiveError (env : Env) (error : ReceiveError) (sec : Section) : Section × Control :=
  match sec.entry with
  | none => (sec, .returned)
  | some files =>
    match files.sending with
    | none => (sec, .returned)
    | some sending =>
      let files := { files with sending := none }
      match error with
      | .remoteError e =>
        (resetAndRetry env files sending ("Remote error: RemoteError(" ++ e.debug ++ ")") sec,
          .returned)
      | .localError .timeout => (resetAndStop files sending "Request timeout" sec, .returned)
      | .localError (.transportError .unsupportedProtocols) =>
        (completeFile env files sending.pendingFile.id .rejected sec, .returned)
      | .localError (.transportError e) =>
        (resetAndStop files sending ("Transport error: " ++ e.debug) sec, .returned)
      | .localError (.resendError e) =>
        (resetAndRetry env files sending
          ("Resend error: " ++ (LocalReceiveError.resendError e).debug) sec, .returned)
      | .localError e =>
        (resetAndRetry env files sending ("Session/decrypt error: " ++ e.debug) sec, .returned)

/-! ### The other handlers -/

/-- `add_pending_file`. Only files that have not been started or were interrupted are taken. -/
def addPendingFile (file : PendingFile) (sec : Section) : Section × Control :=
  match file.status with
  | .pending | .inProgress ⟨.interrupted, _⟩ =>
    let files := sec.entry.getD .default
    ((sec.emit (.accepted file.id)).put { files with pending := files.pending ++ [file] },
      .returned)
  | _ => (sec, .returned)

/-- `trigger_interaction_with`. -/
def triggerInteractionWith (env : Env) (sec : Section) : Section × Control :=
  match sec.entry with
  | none => (sec, .returned)
  | some files =>
    match files.sending with
    | some _ => (sec, .returned)
    | none => (sendNext env files sec, .returned)

/-- Record that the files of a list were cancelled. -/
def emitCancelled (ids : List FylesId) (sec : Section) : Section :=
  { sec with effects := sec.effects ++ ids.map .cancelled }

/-- The part that `cancel_file` and `cancel_file_by_target` share, for the files that `selected`
selects. A file in the slot is aborted and the next one sent; otherwise the selected files
are removed from the queue. The result says whether anything was cancelled. -/
def cancelSection (env : Env) (selected : PendingFile → Bool) (sec : Section) : Bool × Section :=
  match sec.entry with
  | none => (false, sec)
  | some files =>
    match files.sending.filter fun s => selected s.pendingFile with
    | some sending =>
      (true, sendNext env { files with sending := none }
        ((emitCancelled [sending.pendingFile.id] sec).send env false
          (some sending.pendingFile.contactId)
          (.abortTransfer (some sending.sendManager.transferId))).2)
    | none =>
      let removed := files.pending.filter selected
      let kept := files.pending.filter fun file => !selected file
      (files.pending.length ≠ kept.length,
        (emitCancelled (removed.map PendingFile.id) sec).put { files with pending := kept })

/-- The first section of `reset_for_disconnected_peer`, which only looks at the slot. -/
def resetForDisconnectedPeer (sec : Section) : Section × Control :=
  match slotOf sec.entry with
  | none => (sec, .returned)
  | some _ => (sec, .next .resetDisconnected)

/-- The later sections of a handler. -/
def runTask (env : Env) (task : Task) (sec : Section) : Section × Control :=
  match task with
  | .sendChunksLoop contactId => sendChunksLoop env contactId sec
  | .resetAllOnInternalError => resetAllOnInternalErrorFor env sec
  | .resetAllOnProtocolViolation => resetAllOnProtocolViolationFor env sec
  | .resetDisconnected => ((resetAll sec).2, .returned)
  | .reportInterrupt id status =>
    (sec.notify (.fileSendReset id status none
      (some "Send interrupted: file tracker could not send to peer")), .returned)

end FileTracker

end Fyles
