import Fyles.ReceiveManager
import Fyles.Internal.Delimited
import Fyles.Internal.Run
import Fyles.Internal.Update

/-!
# Part files and who touches them

How the receiver answers the requests of a peer. All peers write their part files into one
directory, and the name of a part file is not yet its path: `core/filerequest_drive_handler.rs`
sanitises the name first, and only then is it a file of the directory (`direct_fs_controller.rs`).

Every request leaves a record of what it did to part files and to the recorded status of a
transfer: for which transfer, and under which transfer id and which session it came. Nothing reads
these records.

## Sanitising

The crate that sanitises names is not part of the source. What it is taken to do is remove some
characters, among them the separator of paths, empty reserved names such as `..`, and cut off what
is beyond 255 bytes, unless it is told not to. It keeps letters, digits, `-`, `_` and `.`.

## Other users of the directory

`brain/stale_cleanup.rs` removes part files that are older than a week: those of transfers that
the database still lists, by the name that it builds from the row, and then all others whose name
begins with a time that is long ago. The names are not sanitised there.

## Main results

* `answered` — what a request can do to the receiver
* `respondTo_logged` — no file is written, removed or finished and no transfer ends without a record
-/

namespace Fyles.PartFiles

open FilerequestReceiver

/-! ### Paths -/

/-- How names are sanitised. -/
structure Sanitizer where
  /-- The characters that are removed. -/
  reserved : Char → Bool
  /-- What separates the parts of a path. -/
  mainSeparator : Char
  /-- The separator is removed. -/
  reserved_mainSeparator : reserved mainSeparator = true
  /-- What is never removed. -/
  kept : ∀ c : Char, c.isAlphanum = true ∨ c = '-' ∨ c = '_' ∨ c = '.' → reserved c = false
  /-- The names that are emptied. -/
  emptied : String → Bool
  emptied_dots : emptied "." = true ∧ emptied ".." = true
  /-- Reserved names begin with a dot or a letter. -/
  emptied_first : ∀ (c : Char) (l : List Char), c.isDigit = true ∨ c = '-' ∨ c = '_' →
    emptied (.ofList (c :: l)) = false
  /-- The option of the crate that long names are cut off, which is the default. -/
  truncate : Bool

/-- The characters that cannot be in the name of a file everywhere are removed, and names that
consist of dots are emptied. -/
def Sanitizer.sample : Sanitizer where
  reserved c := decide (c ∈ ['/', '\\', '?', '<', '>', ':', '*', '|', '"'])
  mainSeparator := '/'
  reserved_mainSeparator := by decide
  emptied name := name.toList.all (· == '.')
  emptied_dots := by decide
  emptied_first c l h := by
    have hc : (c == '.') = false := beq_false_of_ne (by rintro rfl; revert h; decide)
    rw [String.toList_ofList, List.all_cons, hc, Bool.false_and]
  truncate := true
  kept c h := by
    by_contra hc
    simp only [Bool.not_eq_false, decide_eq_true_eq, List.mem_cons, List.not_mem_nil,
      or_false] at hc
    rcases hc with rfl | rfl | rfl | rfl | rfl | rfl | rfl | rfl | rfl <;> revert h <;> decide

/-- The longest name, in bytes. -/
def maxNameBytes : ℕ := 255

/-- `sanitize`. -/
def Sanitizer.sanitize (z : Sanitizer) (name : String) : String :=
  let name := name.toList.filter fun c => !z.reserved c
  if z.emptied (.ofList name) then ""
  else .ofList (bif z.truncate then cutOff Char.utf8Size maxNameBytes name else name)

/-- `sanitize_filename`. -/
def sanitizeFilename (z : Sanitizer) (filename : String) : Option String :=
  if filename.toList.head? = some '.' then none
  else if z.sanitize filename = "" then none
  else if z.mainSeparator ∈ (z.sanitize filename).toList then none
  else some (z.sanitize filename)

/-- The path of the part file of a transfer, given when it started, its id, its peer and its
contact. -/
abbrev PathOf := ℤ → FylesId → PeerId → Option ContactId → Option String

/-- The path of a part file. -/
def Sanitizer.partPath (z : Sanitizer) : PathOf := fun startedAtMs transferId peerId contactId =>
  sanitizeFilename z (getPartFileName startedAtMs transferId peerId contactId)

/-- Names that are not sanitised. -/
def unsanitized : PathOf := fun startedAtMs transferId peerId contactId =>
  some (getPartFileName startedAtMs transferId peerId contactId)

/-! ### Records -/

/-- An incoming transfer, as the brain knows it. -/
@[ext] structure IncomingTransfer where
  peerId : PeerId
  /-- On behalf of whom. -/
  contactId : Option ContactId
  transferId : FylesId
  deriving DecidableEq, Repr

/-- What can be done to a part file, or to the status of a transfer. -/
inductive Operation
  /-- The part file was opened, and created if there was none. -/
  | opened
  | appended
  /-- The part file was moved to where finished files are. -/
  | finalized
  | removed
  /-- The brain was told that the transfer has failed. -/
  | failed
  /-- The brain was told that the transfer is complete. -/
  | completed
  deriving DecidableEq, Repr

/-- What a message has done. -/
structure Access where
  operation : Operation
  /-- The file it was done to, if it was done to a file. -/
  file : Option ℕ
  startedAtMs : ℤ
  transfer : IncomingTransfer
  /-- The transfer id in the message. -/
  named : Option FylesId
  /-- The contact of the session of the message. -/
  contactId : Option ContactId
  deriving DecidableEq, Repr

/-- The transfer whose part file was meant: its name has the contact of the message. -/
def Access.target (a : Access) : IncomingTransfer :=
  ⟨a.transfer.peerId, a.contactId, a.transfer.transferId⟩

/-- The answer to a request, and what became of the receiver. -/
structure Reply where
  response : FileResponse
  receiver : FilerequestReceiver
  /-- What was done to part files and to statuses. -/
  accesses : List Access
  /-- The transfer that the brain has authorised. -/
  authorized : Option IncomingTransfer

/-- An answer without consequences for files. -/
def Reply.plain (response : FileResponse) (receiver : FilerequestReceiver) : Reply :=
  ⟨response, receiver, [], none⟩

/-! ### Requests -/

section Requests

variable (path : PathOf) (env : ReceiverEnv) (nodeId : PeerId) (contactId : Option ContactId)

/-- `get_partial_file_for_writing`. -/
def getPartialFileForWriting (startedAtMs : ℤ) (transferId : FylesId) (r : FilerequestReceiver) :
    Option (ℕ × FilerequestReceiver) :=
  if env.opensPartFile then (path startedAtMs transferId nodeId contactId).map r.openPart else none

/-- `remove_partial_file`. That there is no such file is no error. -/
def removePartialFile (startedAtMs : ℤ) (transferId : FylesId) (r : FilerequestReceiver) :
    Option (Option ℕ × FilerequestReceiver) :=
  if env.removesPartFile then
    (path startedAtMs transferId nodeId contactId).map fun name =>
      (r.parts.lookup name, { r with parts := r.parts.erase name })
  else none

/-- `finalize_partial_file`: where the file is afterwards, and which file it is. -/
def finalizePartialFile (startedAtMs : ℤ) (transferId : FylesId) (r : FilerequestReceiver) :
    Option (String × ℕ × FilerequestReceiver) :=
  env.finalizesPartFile.bind fun final =>
    (path startedAtMs transferId nodeId contactId).bind fun name =>
      (r.parts.lookup name).map fun file =>
        (final, file, { r with
          parts := r.parts.erase name
          finished := r.finished ++ [(transferId, file)] })

/-- `NewTransfer`. -/
def newTransfer (filerequestId : FylesId) (fileName : String) (fileSizeBytes : ℕ)
    (transferUuid : FylesId) (r : FilerequestReceiver) : Reply :=
  if !env.requestFileDrop then .plain .rejectNewTransfer r
  else
    match env.unixEpochMillis with
    | none => .plain .internalError r
    | some startedAtMs =>
      match getPartialFileForWriting path env nodeId contactId startedAtMs transferUuid r with
      | none => .plain .internalError r
      | some (file, r) =>
        let transfer := ⟨nodeId, contactId, transferUuid⟩
        let opened := [⟨.opened, some file, startedAtMs, transfer, some transferUuid, contactId⟩]
        let r := r.notify (.createIncomingFile filerequestId transferUuid contactId nodeId fileName
          fileSizeBytes startedAtMs)
        if !env.createsIncomingFile then ⟨.internalError, r, opened, none⟩
        else ⟨.acceptNewTransfer, { r with
          receiving := some (.new file fileSizeBytes fileName transferUuid filerequestId contactId
            startedAtMs) }, opened, some transfer⟩

/-- `ContinueTransfer` for a transfer that is not in memory. -/
def continueFromDisk (filerequestId transferUuid : FylesId) (r : FilerequestReceiver) : Reply :=
  match env.continuation with
  | none => .plain .restartContinueTransfer r
  | some response =>
    let transfer := ⟨nodeId, contactId, transferUuid⟩
    match
      getPartialFileForWriting path env nodeId contactId response.startedAtMs transferUuid r with
    | none =>
      ⟨.restartContinueTransfer, r.notify (.updateReceivedFileStatus transferUuid .failed 0),
        [⟨.failed, none, response.startedAtMs, transfer, some transferUuid, contactId⟩],
        some transfer⟩
    | some (file, r) =>
      let opened :=
        [⟨.opened, some file, response.startedAtMs, transfer, some transferUuid, contactId⟩]
      if !env.readsMetadata then ⟨.internalError, r, opened, some transfer⟩
      else
        let continueAt := (r.bytesOf file).length
        ⟨.acceptContinueTransfer continueAt, { r with
          receiving := some { ReceiveManager.new file response.fileSizeBytes response.fileName
            transferUuid filerequestId contactId response.startedAtMs with
            byteProgress := continueAt } }, opened, some transfer⟩

/-- `ContinueTransfer`. -/
def continueTransfer (filerequestId transferUuid : FylesId) (r : FilerequestReceiver) : Reply :=
  match r.receiving with
  | some m =>
    if m.transferId = transferUuid ∧ m.filerequestId = filerequestId ∧ m.contactId = contactId then
      .plain (.acceptContinueTransfer m.byteProgress) { r with receiving := some m.reset }
    else continueFromDisk path env nodeId contactId filerequestId transferUuid r
  | none => continueFromDisk path env nodeId contactId filerequestId transferUuid r

/-- What a message does for the transfer in memory. -/
def accessFor (m : ReceiveManager) (operation : Operation) (file : Option ℕ)
    (named : Option FylesId) : Access :=
  ⟨operation, file, m.startedAtMs, ⟨nodeId, m.contactId, m.transferId⟩, named, contactId⟩

/-- `AbortTransfer`. The contact is not compared, and neither is a transfer id that is not
given. -/
def abortTransfer (transferUuid : Option FylesId) (r : FilerequestReceiver) : Reply :=
  match r.receiving with
  | none => .plain .protocolViolation r
  | some m =>
    let r := { r with receiving := none }
    if transferUuid = none ∨ transferUuid = some m.transferId then
      match removePartialFile path env nodeId contactId m.startedAtMs m.transferId r with
      | none => .plain .internalError r
      | some (file, r) =>
        ⟨.confirmAbort, r.notify (.updateReceivedFileStatus m.transferId .failed m.byteProgress),
          (file.map fun file =>
            accessFor nodeId contactId m .removed (some file) transferUuid).toList ++
            [accessFor nodeId contactId m .failed none transferUuid], none⟩
    else .plain .protocolViolation r

/-- `Chunk`. -/
def chunk (chunk : DataChunk) (r : FilerequestReceiver) : Reply :=
  match r.receiving with
  | none => .plain .protocolViolation r
  | some m =>
    if chunk.transferUuid ≠ m.transferId then .plain .protocolViolation { r with receiving := none }
    else if contactId ≠ m.contactId then .plain env.randomResponse { r with receiving := none }
    else
      let appended :=
        accessFor nodeId contactId m .appended (some m.file) (some chunk.transferUuid)
      match m.store env.write chunk (r.bytesOf m.file) with
      | (.received, m', bytes) =>
        ⟨.confirmChunk, { r with
          receiving := some m'
          files := r.files.set m.file bytes }.notify
          (.updateReceivedFileStatus m'.transferId .receiving m'.byteProgress), [appended], none⟩
      | (.protocolViolation, _, bytes) =>
        ⟨.protocolViolation, { r with receiving := none, files := r.files.set m.file bytes },
          [appended], none⟩
      | (.ioError, m', bytes) =>
        ⟨.internalError, { r with receiving := none, files := r.files.set m.file bytes }.notify
          (.updateReceivedFileStatus m'.transferId .failed m'.byteProgress),
          [appended, accessFor nodeId contactId m .failed none (some chunk.transferUuid)], none⟩

/-- `Done`. The contact is not compared. -/
def done (transferUuid : FylesId) (r : FilerequestReceiver) : Reply :=
  match r.receiving with
  | none => .plain .protocolViolation r
  | some m =>
    if m.transferId ≠ transferUuid then .plain .protocolViolation { r with receiving := none }
    else if m.byteProgress ≠ m.declaredFileSizeBytes then .plain .protocolViolation r
    else
      match finalizePartialFile path env nodeId contactId m.startedAtMs transferUuid r with
      | none => .plain .internalError r
      | some (final, file, r) =>
        let finalized :=
          accessFor nodeId contactId m .finalized (some file) (some transferUuid)
        match env.unixEpochMillis with
        | none => ⟨.internalError, r, [finalized], none⟩
        | some receivedAtMs =>
          ⟨if env.storesReceivedFile then .confirmDone else .internalError,
            r.notify (.storeReceivedFile m.transferId final receivedAtMs),
            [finalized, accessFor nodeId contactId m .completed none (some transferUuid)], none⟩

/-- `respond_to`. -/
def respondTo (request : FileRequest) (r : FilerequestReceiver) : Reply :=
  match request with
  | .newTransfer filerequestId fileName fileSizeBytes transferUuid =>
    newTransfer path env nodeId contactId filerequestId fileName fileSizeBytes transferUuid r
  | .continueTransfer filerequestId transferUuid =>
    continueTransfer path env nodeId contactId filerequestId transferUuid r
  | .abortTransfer transferUuid => abortTransfer path env nodeId contactId transferUuid r
  | .chunk c => chunk env nodeId contactId c r
  | .done transferUuid => done path env nodeId contactId transferUuid r
  | .protocolViolation _ => .plain .acknowledgeProtocolViolation { r with receiving := none }

end Requests

/-! ### What a request can do -/

/-- The times at which a transfer that a request begins can have started. -/
def startTimes (env : ReceiverEnv) : List ℤ :=
  env.unixEpochMillis.toList ++
    (env.continuation.map FilerequestContinueResponse.startedAtMs).toList

/-- The transfer that the brain is told is over. -/
def ended : ReceiveNotice → Option FylesId
  | .updateReceivedFileStatus transferId .failed _ => some transferId
  | .storeReceivedFile transferId _ _ => some transferId
  | .createIncomingFile _ _ _ _ _ _ _ | .updateReceivedFileStatus _ .receiving _ => none

/-- The brain is told more, and each transfer that it is told is over has the property. -/
def Tells (p : FylesId → Prop) (before after : List ReceiveNotice) : Prop :=
  ∃ notices, after = before ++ notices ∧
    ∀ notice ∈ notices, ∀ transferId, ended notice = some transferId → p transferId

theorem Tells.nothing {p : FylesId → Prop} {before} : Tells p before before :=
  ⟨[], (List.append_nil before).symm, fun _ h => nomatch h⟩

theorem Tells.notice {p : FylesId → Prop} {before notice}
    (h : ∀ transferId, ended notice = some transferId → p transferId) :
    Tells p before (before ++ [notice]) := by
  refine ⟨[notice], rfl, ?_⟩
  intro notice' hmem
  obtain rfl := List.mem_singleton.mp hmem
  exact h

section Answers

variable (path : PathOf) (env : ReceiverEnv) (nodeId : PeerId) (contactId : Option ContactId)
  (r : FilerequestReceiver)

/-- What a request does to the transfer in memory, and what the brain is told in its course. -/
inductive Handled : FileRequest → Option FylesId → List ReceiveNotice → Prop
  /-- The brain is told nothing. The transfer in memory is the one from before, or dropped. -/
  | quiet {request held} (hheld : held = r.receiving.map ReceiveManager.transferId ∨ held = none) :
      Handled request held []
  /-- The brain does not create a row. -/
  | refused {filerequestId transferId fileName fileSizeBytes startedAtMs}
      (hcreates : env.createsIncomingFile = false) :
      Handled (.newTransfer filerequestId fileName fileSizeBytes transferId)
        (r.receiving.map ReceiveManager.transferId)
        [.createIncomingFile filerequestId transferId contactId nodeId fileName fileSizeBytes
          startedAtMs]
  | begun {filerequestId transferId fileName fileSizeBytes startedAtMs}
      (hcreates : env.createsIncomingFile = true) :
      Handled (.newTransfer filerequestId fileName fileSizeBytes transferId) (some transferId)
        [.createIncomingFile filerequestId transferId contactId nodeId fileName fileSizeBytes
          startedAtMs]
  /-- A transfer is taken up from disk. -/
  | resumed {filerequestId transferId} (hcontinues : env.continuation.isSome = true) :
      Handled (.continueTransfer filerequestId transferId) (some transferId) []
  /-- The part file of a transfer that may go on cannot be opened. -/
  | lost {filerequestId transferId} (hcontinues : env.continuation.isSome = true) :
      Handled (.continueTransfer filerequestId transferId)
        (r.receiving.map ReceiveManager.transferId)
        [.updateReceivedFileStatus transferId .failed 0]
  /-- The transfer in memory has a new status. -/
  | updated {request m held status progressBytes} (hm : r.receiving = some m)
      (hheld : held = some m.transferId ∨ held = none) :
      Handled request held [.updateReceivedFileStatus m.transferId status progressBytes]
  | stored {m filePath receivedAtMs} (hm : r.receiving = some m) :
      Handled (.done m.transferId) (some m.transferId)
        [.storeReceivedFile m.transferId filePath receivedAtMs]

/-- A request leaves a transfer in memory, and the brain has been told something in its course. -/
def Handles (request : FileRequest) (receiving : Option ReceiveManager)
    (notices : List ReceiveNotice) : Prop :=
  ∃ new, notices = r.notices ++ new ∧
    Handled env nodeId contactId r request (receiving.map ReceiveManager.transferId) new

/-- What a request does to the receiver, and what it records. -/
inductive Answered : FileRequest → Reply → Prop
  /-- Nothing is done to files. The transfer in memory is kept, reset or dropped. -/
  | plain {request} (response : FileResponse) {receiving}
      (hreceiving : ∀ m', receiving = some m' → ∃ m, r.receiving = some m ∧ m'.header = m.header) :
      Answered request (.plain response { r with receiving := receiving })
  /-- The part file of the transfer in the request is opened. The transfer may be in memory
  afterwards; then the brain has authorised it. -/
  | opened {request} (response : FileResponse)
      {startedAtMs transferUuid name notices receiving authorized}
      (hrequest : request.transfer = some transferUuid) (htime : startedAtMs ∈ startTimes env)
      (hname : path startedAtMs transferUuid nodeId contactId = some name)
      (hnotices : Tells (fun _ => False) (r.openPart name).2.notices notices)
      (hhandles : Handles env nodeId contactId r request receiving notices)
      (hreceiving : receiving = r.receiving ∨
        authorized = some ⟨nodeId, contactId, transferUuid⟩ ∧
        ∃ m, receiving = some m ∧ m.file = (r.openPart name).1 ∧ m.startedAtMs = startedAtMs ∧
          m.transferId = transferUuid ∧ m.contactId = contactId) :
      Answered request ⟨response,
        { (r.openPart name).2 with
          receiving := receiving
          notices := notices },
        [⟨.opened, some (r.openPart name).1, startedAtMs, ⟨nodeId, contactId, transferUuid⟩,
          some transferUuid, contactId⟩], authorized⟩
  /-- The part file of a transfer that may go on cannot be opened. -/
  | lost {filerequestId} (response : FileResponse) {startedAtMs transferUuid}
      (hcontinues : env.continuation.isSome = true) (htime : startedAtMs ∈ startTimes env) :
      Answered (.continueTransfer filerequestId transferUuid) ⟨response, r.notify (.updateReceivedFileStatus transferUuid .failed 0),
        [⟨.failed, none, startedAtMs, ⟨nodeId, contactId, transferUuid⟩, some transferUuid,
          contactId⟩], some ⟨nodeId, contactId, transferUuid⟩⟩
  /-- A chunk is appended, for the transfer in memory and under its contact. -/
  | stored (response : FileResponse) {c m bytes receiving notices failed}
      (hm : r.receiving = some m) (hid : c.transferUuid = m.transferId)
      (hcontact : contactId = m.contactId)
      (hreceiving : ∀ m', receiving = some m' → m'.header = m.header)
      (hnotices : Tells (fun t => t = m.transferId ∧ failed ≠ []) r.notices notices)
      (hhandles : Handles env nodeId contactId r (.chunk c) receiving notices)
      (hfailed : ∀ a ∈ failed,
        a = accessFor nodeId contactId m .failed none (some c.transferUuid)) :
      Answered (.chunk c) ⟨response,
        { r with
          receiving := receiving
          files := r.files.set m.file bytes
          notices := notices },
        accessFor nodeId contactId m .appended (some m.file) (some c.transferUuid) :: failed, none⟩
  /-- The transfer in memory is given up. -/
  | aborted (response : FileResponse) {transferUuid m name} (hm : r.receiving = some m)
      (hid : transferUuid = none ∨ transferUuid = some m.transferId)
      (hremoves : env.removesPartFile = true)
      (hname : path m.startedAtMs m.transferId nodeId contactId = some name) :
      Answered (.abortTransfer transferUuid) ⟨response,
        { r with
          receiving := none
          parts := r.parts.erase name
          notices := r.notices ++ [.updateReceivedFileStatus m.transferId .failed m.byteProgress] },
        ((r.parts.lookup name).map fun file =>
          accessFor nodeId contactId m .removed (some file) transferUuid).toList ++
          [accessFor nodeId contactId m .failed none transferUuid], none⟩
  /-- The part file of the transfer in memory is finished. -/
  | finalized (response : FileResponse) {transferUuid m name file notices completed}
      (hm : r.receiving = some m) (hid : m.transferId = transferUuid)
      (hprogress : m.byteProgress = m.declaredFileSizeBytes)
      (hfinal : env.finalizesPartFile.isSome = true)
      (hname : path m.startedAtMs transferUuid nodeId contactId = some name)
      (hfile : r.parts.lookup name = some file)
      (hnotices : Tells (fun t => t = m.transferId ∧ completed ≠ []) r.notices notices)
      (hhandles : Handles env nodeId contactId r (.done transferUuid) r.receiving notices)
      (hcompleted : ∀ a ∈ completed,
        a = accessFor nodeId contactId m .completed none (some transferUuid)) :
      Answered (.done transferUuid) ⟨response,
        { r with
          parts := r.parts.erase name
          finished := r.finished ++ [(transferUuid, file)]
          notices := notices },
        accessFor nodeId contactId m .finalized (some file) (some transferUuid) :: completed, none⟩

variable {path env nodeId contactId r}

theorem Handles.quiet {request receiving}
    (h : receiving.map ReceiveManager.transferId = r.receiving.map ReceiveManager.transferId ∨
      receiving = none) : Handles env nodeId contactId r request receiving r.notices :=
  ⟨[], (List.append_nil _).symm, .quiet (h.imp_right fun hnone => congrArg _ hnone)⟩

/-- Nothing is done at all. -/
theorem Answered.same {request} (response : FileResponse) :
    Answered path env nodeId contactId r request (.plain response r) :=
  .plain response fun m' hm' => ⟨m', hm', rfl⟩

/-- The transfer in memory is dropped. -/
theorem Answered.dropped {request} (response : FileResponse) :
    Answered path env nodeId contactId r request (.plain response { r with receiving := none }) :=
  .plain response fun _ hm' => nomatch hm'

theorem getPartialFileForWriting_eq_some {startedAtMs transferId opened}
    (h : getPartialFileForWriting path env nodeId contactId startedAtMs transferId r =
      some opened) : ∃ name, path startedAtMs transferId nodeId contactId = some name ∧
      r.openPart name = opened := by
  rw [getPartialFileForWriting] at h
  split at h
  · exact Option.map_eq_some_iff.mp h
  · cases h

theorem removePartialFile_eq_some {startedAtMs transferId removed}
    (h : removePartialFile path env nodeId contactId startedAtMs transferId r = some removed) :
    env.removesPartFile = true ∧ ∃ name, path startedAtMs transferId nodeId contactId = some name ∧
      (r.parts.lookup name, { r with parts := r.parts.erase name }) = removed := by
  rw [removePartialFile] at h
  split at h
  · next hremoves => exact ⟨hremoves, Option.map_eq_some_iff.mp h⟩
  · cases h

theorem finalizePartialFile_eq_some {startedAtMs transferId finalized}
    (h : finalizePartialFile path env nodeId contactId startedAtMs transferId r =
      some finalized) : env.finalizesPartFile.isSome = true ∧
    ∃ final name file, path startedAtMs transferId nodeId contactId = some name ∧
      r.parts.lookup name = some file ∧
      (final, file, { r with
        parts := r.parts.erase name
        finished := r.finished ++ [(transferId, file)] }) = finalized := by
  obtain ⟨final, hfinal, h⟩ := Option.bind_eq_some_iff.mp h
  obtain ⟨name, hname, h⟩ := Option.bind_eq_some_iff.mp h
  obtain ⟨file, hfile, h⟩ := Option.map_eq_some_iff.mp h
  exact ⟨Option.isSome_of_eq_some hfinal, final, name, file, hname, hfile, h⟩

theorem answered_newTransfer (filerequestId : FylesId) (fileName : String) (fileSizeBytes : ℕ)
    (transferUuid : FylesId) : Answered path env nodeId contactId r
      (.newTransfer filerequestId fileName fileSizeBytes transferUuid)
      (newTransfer path env nodeId contactId filerequestId fileName fileSizeBytes transferUuid
        r) := by
  rw [newTransfer]
  split
  · exact .same _
  · cases htime : env.unixEpochMillis with
    | none => exact .same _
    | some startedAtMs =>
      dsimp only
      have hstart : startedAtMs ∈ startTimes env := by simp [startTimes, htime]
      cases hopen : getPartialFileForWriting path env nodeId contactId startedAtMs transferUuid
          r with
      | none => exact .same _
      | some opened =>
        obtain ⟨name, hname, rfl⟩ := getPartialFileForWriting_eq_some hopen
        have hheld := receiving_openPart r name
        have htold := congrArg (· ++ [ReceiveNotice.createIncomingFile filerequestId transferUuid
          contactId nodeId fileName fileSizeBytes startedAtMs]) (notices_openPart r name)
        dsimp only
        split
        · next hcreates =>
          refine .opened _ rfl hstart hname (.notice fun _ h => nomatch h) ⟨_, htold, ?_⟩
            (.inl hheld)
          rw [hheld]
          exact .refused (by simpa using hcreates)
        · next hcreates =>
          exact .opened _ rfl hstart hname (.notice fun _ h => nomatch h)
            ⟨_, htold, .begun (by simpa using hcreates)⟩ (.inr ⟨rfl, _, rfl, rfl, rfl, rfl, rfl⟩)

theorem answered_continueFromDisk (filerequestId transferUuid : FylesId) :
    Answered path env nodeId contactId r (.continueTransfer filerequestId transferUuid)
      (continueFromDisk path env nodeId contactId filerequestId transferUuid r) := by
  rw [continueFromDisk]
  cases hc : env.continuation with
  | none => exact .same _
  | some response =>
    dsimp only
    have hstart : response.startedAtMs ∈ startTimes env := by simp [startTimes, hc]
    have hcontinues : env.continuation.isSome = true := Option.isSome_of_eq_some hc
    cases hopen : getPartialFileForWriting path env nodeId contactId response.startedAtMs
        transferUuid r with
    | none => exact .lost _ hcontinues hstart
    | some opened =>
      obtain ⟨name, hname, rfl⟩ := getPartialFileForWriting_eq_some hopen
      have hheld := receiving_openPart r name
      have htold := notices_openPart r name
      dsimp only
      split
      · refine .opened _ rfl hstart hname .nothing ?_ (.inl hheld)
        rw [hheld, htold]
        exact .quiet (.inl rfl)
      · exact .opened _ rfl hstart hname .nothing
          ⟨[], htold.trans (List.append_nil _).symm, .resumed hcontinues⟩
          (.inr ⟨rfl, _, rfl, rfl, rfl, rfl, rfl⟩)

theorem answered_continueTransfer (filerequestId transferUuid : FylesId) :
    Answered path env nodeId contactId r (.continueTransfer filerequestId transferUuid)
      (continueTransfer path env nodeId contactId filerequestId transferUuid r) := by
  rw [continueTransfer]
  cases hm : r.receiving with
  | none => exact answered_continueFromDisk filerequestId transferUuid
  | some m =>
    dsimp only
    split
    · refine .plain _ ?_
      rintro m' hm'
      obtain ⟨⟩ := hm'
      exact ⟨m, hm, rfl⟩
    · exact answered_continueFromDisk filerequestId transferUuid

theorem answered_abortTransfer (transferUuid : Option FylesId) :
    Answered path env nodeId contactId r (.abortTransfer transferUuid)
      (abortTransfer path env nodeId contactId transferUuid r) := by
  rw [abortTransfer]
  cases hm : r.receiving with
  | none => exact .same _
  | some m =>
    dsimp only
    split
    · next hid =>
      cases hremove : removePartialFile path env nodeId contactId m.startedAtMs m.transferId
          { r with receiving := none } with
      | none => exact .dropped _
      | some removed =>
        obtain ⟨hremoves, name, hname, rfl⟩ := removePartialFile_eq_some hremove
        exact .aborted _ hm hid hremoves hname
    · exact .dropped _

theorem answered_chunk (c : DataChunk) :
    Answered path env nodeId contactId r (.chunk c) (chunk env nodeId contactId c r) := by
  rw [chunk]
  cases hm : r.receiving with
  | none => exact .same _
  | some m =>
    dsimp only
    split
    · exact .dropped _
    · next hid =>
      split
      · exact .dropped _
      · next hcontact =>
        have hheader := m.store_header env.write c (r.bytesOf m.file)
        rcases hstore : m.store env.write c (r.bytesOf m.file) with ⟨result, m', bytes⟩
        rw [hstore] at hheader
        have hid' : m'.transferId = m.transferId := ReceiveManager.transferId_of_header hheader
        cases result with
        | received =>
          refine .stored _ hm (not_not.mp hid) (not_not.mp hcontact) ?_
            (.notice (by rintro _ ⟨⟩)) ?_ (by rintro _ ⟨⟩)
          · intro m'' hm''
            obtain ⟨⟩ := hm''
            exact hheader
          · rw [hid']
            exact ⟨_, rfl, .updated hm (.inl (congrArg some hid'))⟩
        | protocolViolation =>
          exact .stored _ hm (not_not.mp hid) (not_not.mp hcontact) (by rintro _ ⟨⟩) .nothing
            (.quiet (.inr rfl)) (by rintro _ ⟨⟩)
        | ioError =>
          refine .stored _ hm (not_not.mp hid) (not_not.mp hcontact) (by rintro _ ⟨⟩)
            (.notice ?_) (hid' ▸ ⟨_, rfl, .updated hm (.inr rfl)⟩)
            (fun _ h => List.mem_singleton.mp h)
          intro t ht
          obtain ⟨⟩ := ht
          exact ⟨hid', List.cons_ne_nil _ _⟩

theorem answered_done (transferUuid : FylesId) :
    Answered path env nodeId contactId r (.done transferUuid)
      (done path env nodeId contactId transferUuid r) := by
  rw [done]
  cases hm : r.receiving with
  | none => exact .same _
  | some m =>
    dsimp only
    split
    · exact .dropped _
    · next hid =>
      split
      · exact .same _
      · next hprogress =>
        cases hfinalize : finalizePartialFile path env nodeId contactId m.startedAtMs transferUuid
            r with
        | none => exact .same _
        | some finalized =>
          obtain ⟨hfinal, final, name, file, hname, hfile, rfl⟩ :=
            finalizePartialFile_eq_some hfinalize
          obtain rfl : m.transferId = transferUuid := not_not.mp hid
          cases env.unixEpochMillis with
          | none =>
            exact .finalized _ hm rfl (not_not.mp hprogress) hfinal hname hfile .nothing
              (.quiet (.inl rfl)) (fun _ h => nomatch h)
          | some receivedAtMs =>
            refine .finalized _ hm rfl (not_not.mp hprogress) hfinal hname hfile (.notice ?_)
              ⟨_, rfl, ?_⟩ (fun _ h => List.mem_singleton.mp h)
            · intro t ht
              obtain ⟨⟩ := ht
              exact ⟨rfl, List.cons_ne_nil _ _⟩
            · rw [hm]
              exact .stored hm

/-- **What a request can do.** -/
theorem answered (request : FileRequest) : Answered path env nodeId contactId r request
      (respondTo path env nodeId contactId request r) := by
  cases request with
  | newTransfer filerequestId fileName fileSizeBytes transferUuid =>
    exact answered_newTransfer filerequestId fileName fileSizeBytes transferUuid
  | continueTransfer filerequestId transferUuid =>
    exact answered_continueTransfer filerequestId transferUuid
  | abortTransfer transferUuid => exact answered_abortTransfer transferUuid
  | chunk c => exact answered_chunk c
  | done transferUuid => exact answered_done transferUuid
  | protocolViolation transferUuid => exact .dropped _

/-- What a request does to the transfer in memory, and what the brain is told. -/
theorem Answered.handles {request reply} (h : Answered path env nodeId contactId r request reply) :
    Handles env nodeId contactId r request reply.receiver.receiving reply.receiver.notices := by
  cases h with
  | @plain _ _ receiving hreceiving =>
    refine .quiet ?_
    cases receiving with
    | none => exact .inr rfl
    | some m' =>
      obtain ⟨m, hm, hheader⟩ := hreceiving m' rfl
      rw [hm]
      exact .inl (congrArg some (ReceiveManager.transferId_of_header hheader))
  | lost response hcontinues => exact ⟨_, rfl, .lost hcontinues⟩
  | aborted response hm => exact ⟨_, rfl, .updated hm (.inr rfl)⟩
  | opened | stored | finalized => assumption

/-! ### The records are complete -/

variable (r) in
/-- Everything that a reply does to files and statuses is in its records. -/
structure Logged (reply : Reply) : Prop where
  /-- A file whose contents have changed was appended to. -/
  appended : ∀ file < r.files.length, reply.receiver.bytesOf file ≠ r.bytesOf file →
    ∃ a ∈ reply.accesses, a.operation = .appended ∧ a.file = some file
  /-- A part file that is gone was removed or finished. -/
  removed : ∀ name file, r.parts.lookup name = some file →
    reply.receiver.parts.lookup name ≠ some file →
    ∃ a ∈ reply.accesses, (a.operation = .removed ∨ a.operation = .finalized) ∧ a.file = some file
  /-- A finished file was finished. -/
  finished : ∀ entry ∈ reply.receiver.finished, entry ∉ r.finished →
    ∃ a ∈ reply.accesses, a.operation = .finalized ∧ a.transfer.transferId = entry.1 ∧
      a.file = some entry.2
  /-- A transfer that the brain is told is over has failed or is complete. -/
  ended : Tells (fun t => ∃ a ∈ reply.accesses,
    (a.operation = .failed ∨ a.operation = .completed) ∧ a.transfer.transferId = t)
    r.notices reply.receiver.notices

theorem Tells.mono {p q : FylesId → Prop} {before after} (h : Tells p before after)
    (hpq : ∀ t, p t → q t) : Tells q before after := by
  obtain ⟨notices, rfl, hp⟩ := h
  exact ⟨notices, rfl, fun notice hmem t ht => hpq t (hp notice hmem t ht)⟩

/-- Erasing a name takes away the file of that name only. -/
theorem lookup_of_erase {name name' : String} {file : ℕ} (h : r.parts.lookup name' = some file)
    (h' : (r.parts.erase name).lookup name' ≠ some file) : r.parts.lookup name = some file := by
  obtain rfl | hne := eq_or_ne name' name
  · exact h
  · rw [AList.lookup_erase_ne hne] at h'
    exact absurd h h'

theorem bytesOf_of_set {file file' : ℕ} {bytes receiving notices} (h : ({ r with
      receiving := receiving
      files := r.files.set file bytes
      notices := notices } : FilerequestReceiver).bytesOf file' ≠ r.bytesOf file') :
    file' = file := by
  by_contra hne
  apply h
  simp only [bytesOf, List.getD_eq_getElem?_getD, List.getElem?_set_ne (Ne.symm hne)]

theorem Answered.logged {request reply}
    (h : Answered path env nodeId contactId r request reply) : Logged r reply := by
  cases h with
  | plain response hreceiving =>
    exact ⟨fun _ _ h => absurd rfl h, fun _ _ h h' => absurd h h', fun _ h h' => absurd h h',
      .nothing⟩
  | opened response hrequest htime hname hnotices hhandles hreceiving =>
    next name notices receiving authorized =>
    refine ⟨fun file _ h => absurd (bytesOf_openPart r name file) h, ?_, ?_, ?_⟩
    · intro name' file hfile h
      refine absurd ?_ h
      -- Opening creates the name only if there was none.
      obtain rfl | hne := eq_or_ne name' name
      · rw [openPart, hfile]
        exact hfile
      · exact (lookup_openPart_of_ne r hne).trans hfile
    · intro entry hmem hnew
      rw [finished_openPart] at hmem
      exact absurd hmem hnew
    · rw [notices_openPart] at hnotices
      exact hnotices.mono fun _ h => h.elim
  | lost response hcontinues htime =>
    refine ⟨fun _ _ h => absurd rfl h, fun _ _ h h' => absurd h h', fun _ h h' => absurd h h',
      .notice ?_⟩
    intro t ht
    obtain ⟨⟩ := ht
    exact ⟨_, List.mem_singleton_self _, .inl rfl, rfl⟩
  | stored response hm hid hcontact hreceiving hnotices hhandles hfailed =>
    next c m bytes receiving notices failed =>
    refine ⟨?_, fun _ _ h h' => absurd h h', fun _ h h' => absurd h h', hnotices.mono ?_⟩
    · intro file hlt h
      obtain rfl := bytesOf_of_set h
      exact ⟨_, List.mem_cons_self, rfl, rfl⟩
    · rintro t ⟨rfl, hne⟩
      obtain ⟨a, ha⟩ := List.exists_mem_of_ne_nil failed hne
      refine ⟨a, List.mem_cons_of_mem _ ha, ?_⟩
      rw [hfailed a ha]
      exact ⟨.inl rfl, rfl⟩
  | aborted response hm hid hremoves hname =>
    next transferUuid m name =>
    refine ⟨fun _ _ h => absurd rfl h, ?_, fun _ h h' => absurd h h', .notice ?_⟩
    · intro name' file hfile h
      have hlookup := lookup_of_erase hfile h
      refine ⟨accessFor nodeId contactId m .removed (some file) transferUuid, ?_, .inl rfl, rfl⟩
      simp [hlookup]
    · intro t ht
      obtain ⟨⟩ := ht
      exact ⟨_, List.mem_append_right _ (List.mem_singleton_self _), .inl rfl, rfl⟩
  | finalized response hm hid hprogress hfinal hname hfile hnotices hhandles hcompleted =>
    next transferUuid m name file notices completed =>
    refine ⟨fun _ _ h => absurd rfl h, ?_, ?_, hnotices.mono ?_⟩
    · intro name' file' hfile' h
      obtain rfl := Option.some.inj (hfile.symm.trans (lookup_of_erase hfile' h))
      exact ⟨_, List.mem_cons_self, .inr rfl, rfl⟩
    · intro entry hmem hnew
      obtain h | h := List.mem_append.mp hmem
      · exact absurd h hnew
      · obtain rfl := List.mem_singleton.mp h
        exact ⟨_, List.mem_cons_self, rfl, hid, rfl⟩
    · rintro t ⟨rfl, hne⟩
      obtain ⟨a, ha⟩ := List.exists_mem_of_ne_nil completed hne
      refine ⟨a, List.mem_cons_of_mem _ ha, ?_⟩
      rw [hcompleted a ha]
      exact ⟨.inr rfl, rfl⟩

/-- **Nothing goes unrecorded.** -/
theorem respondTo_logged (request : FileRequest) :
    Logged r (respondTo path env nodeId contactId request r) :=
  (answered request).logged

/-! ### What a record says -/

/-- A transfer that is in memory afterwards was there before, or the brain has authorised it. -/
theorem Answered.receiving {request reply m'}
    (h : Answered path env nodeId contactId r request reply)
    (hm' : reply.receiver.receiving = some m') :
    (∃ m, r.receiving = some m ∧ m'.header = m.header) ∨
    (reply.authorized = some ⟨nodeId, m'.contactId, m'.transferId⟩ ∧
      m'.startedAtMs ∈ startTimes env) := by
  cases h with
  | plain response hreceiving => exact .inl (hreceiving m' hm')
  | opened response hrequest htime hname hnotices hhandles hreceiving =>
    obtain h | ⟨hauth, m, h, -, hstart, hid, hcontact⟩ := hreceiving
    · exact .inl ⟨m', h.symm.trans hm', rfl⟩
    · obtain rfl := Option.mem_unique h hm'
      refine .inr ⟨?_, hstart ▸ htime⟩
      rw [hid, hcontact]
      exact hauth
  | lost response hcontinues htime => exact .inl ⟨m', hm', rfl⟩
  | stored response hm hid hcontact hreceiving hnotices hhandles hfailed =>
    exact .inl ⟨_, hm, hreceiving m' hm'⟩
  | aborted response hm hid hremoves hname => cases hm'
  | finalized response hm hid hprogress hfinal hname hfile hnotices hhandles hcompleted =>
    exact .inl ⟨m', hm', rfl⟩

/-- The transfer that a request is about. An abort is about the transfer in memory. -/
def concerned (receiving : Option ReceiveManager) : FileRequest → Option FylesId
  | .abortTransfer _ => receiving.map ReceiveManager.transferId
  | request => request.transfer

theorem concerned_of_transfer {request receiving transferUuid}
    (h : FileRequest.transfer request = some transferUuid) :
    concerned receiving request = some transferUuid := by
  cases request with
  | abortTransfer _ | protocolViolation _ => cases h
  | newTransfer _ _ _ _ | continueTransfer _ _ | chunk _ | done _ => exact h

variable (env nodeId contactId r) in
/-- Where a record of a request comes from. -/
structure Origin (request : FileRequest) (reply : Reply) (a : Access) : Prop where
  /-- It has the contact of the session. -/
  contactId_eq : a.contactId = contactId
  /-- It is for a transfer of the peer. -/
  peerId_eq : a.transfer.peerId = nodeId
  /-- It is for the transfer that the request is about. -/
  concerned_eq : concerned r.receiving request = some a.transfer.transferId
  /-- That transfer is in memory, or the request begins it. -/
  known : (∃ m, r.receiving = some m ∧ a.transfer = ⟨nodeId, m.contactId, m.transferId⟩ ∧
      a.startedAtMs = m.startedAtMs) ∨
    (a.startedAtMs ∈ startTimes env ∧
      (a.operation = .opened ∨ reply.authorized = some a.transfer))

theorem origin_accessFor {request reply m operation file named} (hm : r.receiving = some m)
    (hid : concerned r.receiving request = some m.transferId) :
    Origin env nodeId contactId r request reply
      (accessFor nodeId contactId m operation file named) :=
  ⟨rfl, rfl, hid, .inl ⟨m, hm, rfl, rfl⟩⟩

theorem Answered.origin {request reply a}
    (h : Answered path env nodeId contactId r request reply) (ha : a ∈ reply.accesses) :
    Origin env nodeId contactId r request reply a := by
  cases h with
  | plain response hreceiving => cases ha
  | opened response hrequest htime hname hnotices hhandles hreceiving =>
    obtain rfl := List.mem_singleton.mp ha
    exact ⟨rfl, rfl, concerned_of_transfer hrequest, .inr ⟨htime, .inl rfl⟩⟩
  | lost response hcontinues htime =>
    obtain rfl := List.mem_singleton.mp ha
    exact ⟨rfl, rfl, rfl, .inr ⟨htime, .inr rfl⟩⟩
  | stored response hm hid hcontact hreceiving hnotices hhandles hfailed =>
    have hconcerned := congrArg some hid
    obtain rfl | ha := List.mem_cons.mp ha
    · exact origin_accessFor hm hconcerned
    · rw [hfailed a ha]
      exact origin_accessFor hm hconcerned
  | aborted response hm hid hremoves hname =>
    have hconcerned := congrArg (Option.map ReceiveManager.transferId) hm
    obtain ha | ha := List.mem_append.mp ha
    · obtain ⟨file, -, rfl⟩ := Option.map_eq_some_iff.mp (Option.mem_toList.mp ha)
      exact origin_accessFor hm hconcerned
    · obtain rfl := List.mem_singleton.mp ha
      exact origin_accessFor hm hconcerned
  | finalized response hm hid hprogress hfinal hname hfile hnotices hhandles hcompleted =>
    have hconcerned := congrArg some hid.symm
    obtain rfl | ha := List.mem_cons.mp ha
    · exact origin_accessFor hm hconcerned
    · rw [hcompleted a ha]
      exact origin_accessFor hm hconcerned

end Answers

/-! ### The receivers of all peers -/

/-- The receivers of all peers, which share one directory. -/
structure Receivers where
  receiving : PeerId → Option ReceiveManager
  files : List (List UInt8)
  parts : AList fun _ : String => ℕ
  /-- The files that were finished, with their transfers. -/
  finished : List (FylesId × ℕ)
  notices : List ReceiveNotice
  /-- What was done to part files and to statuses. -/
  accesses : List Access
  /-- The transfers that the brain has authorised. -/
  authorized : List IncomingTransfer

/-- What can happen. -/
inductive Event
  /-- A peer sends a request, in a session with a contact. -/
  | request (peer : PeerId) (contactId : Option ContactId) (request : FileRequest)
      (env : ReceiverEnv)
  /-- The transfer of a peer was idle for too long. -/
  | expire (peer : PeerId)
  /-- The part file of a transfer in the database is too old. -/
  | structuredPartialCleanup (startedAtMs : ℤ) (transfer : IncomingTransfer)
  /-- A part file that is in no row of the database is too old. -/
  | sweepPartialCleanup (name : String)

namespace Receivers

/-- Nothing was received yet. -/
def new : Receivers := ⟨fun _ => none, [], ∅, [], [], [], []⟩

/-- The receiver as far as one peer is concerned. -/
def atPeer (w : Receivers) (peer : PeerId) : FilerequestReceiver :=
  ⟨w.receiving peer, w.files, w.parts, w.finished, w.notices⟩

/-- The receivers after a request of a peer. -/
def leave (w : Receivers) (peer : PeerId) (reply : Reply) : Receivers where
  receiving := Function.update w.receiving peer reply.receiver.receiving
  files := reply.receiver.files
  parts := reply.receiver.parts
  finished := reply.receiver.finished
  notices := reply.receiver.notices
  accesses := w.accesses ++ reply.accesses
  authorized := w.authorized ++ reply.authorized.toList

/-- A transfer in memory after a request is what the request has left there, or one of another
peer. -/
theorem receiving_leave {w : Receivers} {peer peer' reply m}
    (h : (w.leave peer reply).receiving peer' = some m) :
    peer' = peer ∧ reply.receiver.receiving = some m ∨ w.receiving peer' = some m :=
  (update_eq_cases h).imp_right And.right

/-- `structured_partial_cleanup`, for one row. A name with a separator is refused. -/
def structuredPartialCleanup (z : Sanitizer) (w : Receivers) (startedAtMs : ℤ)
    (transfer : IncomingTransfer) : Receivers :=
  let name :=
    getPartFileName startedAtMs transfer.transferId transfer.peerId transfer.contactId
  if z.mainSeparator ∈ name.toList then w
  else { w with
    parts := w.parts.erase name
    accesses := w.accesses ++ ((w.parts.lookup name).map fun file =>
      ⟨.removed, some file, startedAtMs, transfer, some transfer.transferId,
        transfer.contactId⟩).toList }

/-- The receivers after an event. -/
def step (z : Sanitizer) (w : Receivers) : Event → Option Receivers
  | .request peer contactId request env =>
    some (w.leave peer (respondTo z.partPath env peer contactId request (w.atPeer peer)))
  | .expire peer => some { w with receiving := Function.update w.receiving peer none }
  | .structuredPartialCleanup startedAtMs transfer =>
    some (w.structuredPartialCleanup z startedAtMs transfer)
  | .sweepPartialCleanup name => some { w with parts := w.parts.erase name }

end Receivers

/-- Surroundings in which everything works, at some time. -/
def readyAt (now : ℤ) : ReceiverEnv where
  requestFileDrop := true
  continuation := none
  unixEpochMillis := some now
  opensPartFile := true
  readsMetadata := true
  createsIncomingFile := true
  write _ := .completed
  removesPartFile := true
  finalizesPartFile := some "path"
  storesReceivedFile := true
  randomResponse := .internalError

/-- A peer offers a file of two bytes and sends the first one. -/
def offered (peer : PeerId) (contactId : Option ContactId) (transferUuid : FylesId) : List Event :=
  [.request peer contactId (.newTransfer ⟨"filerequest"⟩ "name" 2 transferUuid) (readyAt 0),
    .request peer contactId (.chunk ⟨transferUuid, [1], 0⟩) (readyAt 1)]

end Fyles.PartFiles
