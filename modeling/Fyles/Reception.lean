import Fyles.IncomingTables

/-!
# Receivers and their database

The receivers of `PartFiles` together with the tables of `IncomingTables`. Here the brain's answers
to a request are read from the tables, and what the receiver tells the brain gets there.

The receiver handles one request at a time. It waits for the brain where a file is created or
completed, so these statements are part of the request. A new status is only handed to the brain,
which starts a task for it; the tasks are executed in any order (`core/src/core/brain.rs`). The
cleanup of stale part files lists the rows first and then goes through the list, one row after the
other, while all other things go on.

## Main results

* `PartFiles.Handled`, `PartFiles.handles_respondTo` — what a request does to the transfer in
  memory, and what the brain is told in its course
* `PartFiles.Notifies`, `Reception.notifies` — the latter alone
* `Reception.Told`, `Reception.told` — what becomes of it
-/

namespace Fyles

open PartFiles

namespace Reception

/-- What the brain still has to do. -/
inductive Job
  /-- The task of an `UpdateReceivedFileStatus`. -/
  | update (transferId : FylesId) (status : ReceiveStatus) (progressBytes : ℕ)
  /-- `structured_partial_cleanup`, with the rows that it has not come to. -/
  | cleanup (files : List ReceivedFile)
  deriving DecidableEq, Repr

/-- A request of a peer, and what happens around it. Of the answers of the brain only those about
the disk are taken from `env`. -/
structure Asked where
  peer : PeerId
  contactId : Option ContactId
  request : FileRequest
  env : ReceiverEnv
  newId : FylesId
  /-- The own contact; keys are not looked at. -/
  db : Db Unit
  reads : DbReads

/-- What can happen. -/
inductive Event
  | request (asked : Asked)
  /-- The transfer of a peer was idle for too long. -/
  | expire (peer : PeerId)
  | resume (index : ℕ)
  /-- `structured_partial_cleanup` begins. -/
  | structuredPartialCleanup (threshold : ℤ)
  | sweepPartialCleanup (name : String)
  /-- The user creates or changes a file request. -/
  | putFilerequest (id : FylesId) (filerequest : Filerequest)
  | deleteFilerequest (id : FylesId)
  | deleteReceivedFile (id : FylesId)
  | restart

end Reception

/-- The receivers, their database, and what waits between them. -/
structure Reception where
  receivers : Receivers
  tables : IncomingTables
  /-- The jobs of the brain, the oldest first. -/
  jobs : List Reception.Job
  /-- The statuses that the brain was told since the start. Nothing reads them. -/
  emitted : List (FylesId × ReceivedTag)

namespace Reception

/-- The service has just started, with the tables and the part files of before. -/
def start (receivers : Receivers) (tables : IncomingTables) : Reception where
  receivers := { receivers with receiving := fun _ => none }
  tables := tables
  jobs := []
  emitted := []

section Requests

variable (z : Sanitizer) (s : Reception) (a : Asked)

/-- What the request gets from outside. -/
def env : ReceiverEnv :=
  { a.env with
    requestFileDrop :=
      match a.request with
      | .newTransfer filerequestId _ _ _ =>
        (a.db.requestFileDrop a.reads (s.tables.filerequest filerequestId) a.contactId).isSome
      | _ => false
    continuation :=
      match a.request with
      | .continueTransfer filerequestId transferId =>
        s.tables.requestFileTransferContinuation filerequestId transferId a.peer a.contactId
      | _ => none
    createsIncomingFile := a.env.createsIncomingFile &&
      match a.request with
      | .newTransfer filerequestId _ _ transferId =>
        s.tables.canInsert a.newId transferId filerequestId
      | _ => false
    storesReceivedFile := a.env.storesReceivedFile &&
      match a.request with
      | .done transferId => (s.tables.row transferId).isSome
      | _ => false }

/-- The answer to a request. -/
def reply : Reply :=
  respondTo z.partPath (s.env a) a.peer a.contactId a.request (s.receivers.atPeer a.peer)

/-- What the brain is told. -/
def notices : List ReceiveNotice :=
  (s.reply z a).receiver.notices.drop s.receivers.notices.length

/-- A status is on its way to its row, or has got there. -/
def emit (transferId : FylesId) (status : ReceivedTag) : Reception :=
  { s with emitted := s.emitted ++ [(transferId, status)] }

/-- What the brain does. It was found out before whether a row can be created or completed. -/
def hear : ReceiveNotice → Reception
  | .createIncomingFile filerequestId transferId contactId peerId fileName fileSizeBytes
      startedAtMs =>
    if (s.env a).createsIncomingFile then
      match s.tables.createIncomingFile a.newId filerequestId transferId contactId peerId fileName
        fileSizeBytes startedAtMs with
      | some tables => { s.emit transferId .receiving with tables := tables }
      | none => s
    else s
  | .updateReceivedFileStatus transferId status progressBytes =>
    { s.emit transferId status.statusTag with
      jobs := s.jobs ++ [.update transferId status progressBytes] }
  | .storeReceivedFile transferId filePath receivedAtMs =>
    if (s.env a).storesReceivedFile then
      match s.tables.completeReceivedFile transferId filePath receivedAtMs with
      | some tables => { s.emit transferId .completed with tables := tables }
      | none => s
    else s

/-- A request. There is at most one notice. -/
def respond : Reception :=
  { (s.notices z a).foldl (fun s' notice => hear s' a notice) s with
    receivers := s.receivers.leave a.peer (s.reply z a) }

end Requests

/-- A job goes on, and is over unless it is put back. A row that is gone is no error. -/
def execute (z : Sanitizer) (s : Reception) : Job → Reception
  | .update transferId status progressBytes =>
    { s with
      tables := (s.tables.updateReceivedFileStatus transferId status.statusTag
        progressBytes).getD s.tables }
  | .cleanup [] => s
  | .cleanup (file :: files) =>
    match file.transferId with
    | none => { s with jobs := s.jobs ++ [.cleanup files] }
    | some transferId =>
      { s with
        receivers := s.receivers.structuredPartialCleanup z file.startedAtMs
          ⟨file.peerId, file.contactId, transferId⟩
        tables := (s.tables.updateReceivedFileStatus transferId .failed
          file.progressBytes).getD s.tables
        jobs := s.jobs ++ [.cleanup files] }

/-- What happens. -/
def step (z : Sanitizer) (s : Reception) : Event → Option Reception
  | .request asked => some (s.respond z asked)
  | .expire peer =>
    some { s with receivers := { s.receivers with
      receiving := Function.update s.receivers.receiving peer none } }
  | .resume index =>
    s.jobs[index]?.map fun job => execute z { s with jobs := s.jobs.eraseIdx index } job
  | .structuredPartialCleanup threshold =>
    some { s with jobs := s.jobs ++ [.cleanup (s.tables.staleReceivedFiles threshold)] }
  | .sweepPartialCleanup name =>
    some { s with receivers := { s.receivers with parts := s.receivers.parts.erase name } }
  | .putFilerequest id filerequest =>
    some { s with tables := s.tables.putFilerequest id filerequest }
  | .deleteFilerequest id => some { s with tables := s.tables.deleteFilerequest id }
  | .deleteReceivedFile id => some { s with tables := s.tables.deleteReceivedFile id }
  | .restart => some (start s.receivers s.tables)

end Reception

/-! ### What the brain is told -/

namespace Reception

variable {z : Sanitizer} {s : Reception} {a : Asked}

/-- The transfer of a peer that is in memory. -/
def heldId (s : Reception) (peer : PeerId) : Option FylesId :=
  (s.receivers.receiving peer).map ReceiveManager.transferId

theorem heldId_respond (peer : PeerId) : (s.respond z a).heldId peer =
    if peer = a.peer then (s.reply z a).receiver.receiving.map ReceiveManager.transferId
    else s.heldId peer := by
  rw [heldId, respond]
  dsimp only [Receivers.leave]
  by_cases hpeer : peer = a.peer
  · rw [if_pos hpeer, hpeer, Function.update_self]
  · rw [if_neg hpeer, Function.update_of_ne hpeer]
    rfl

/-- What a request does to the transfer of its peer, to the tables and to the jobs, with the status
that it reports. -/
inductive Told (s : Reception) (a : Asked) :
    Option FylesId → IncomingTables → List Job → List (FylesId × ReceivedTag) → Prop
  /-- The database is not written to. The transfer in memory is the one from before, or dropped. -/
  | quiet {held} (hheld : held = s.heldId a.peer ∨ held = none) :
      Told s a held s.tables s.jobs s.emitted
  | created {filerequestId transferId fileName fileSizeBytes startedAtMs tables}
      (hrequest : a.request = .newTransfer filerequestId fileName fileSizeBytes transferId)
      (hcreate : s.tables.createIncomingFile a.newId filerequestId transferId a.contactId a.peer
        fileName fileSizeBytes startedAtMs = some tables) :
      Told s a (some transferId) tables s.jobs (s.emitted ++ [(transferId, .receiving)])
  /-- A transfer is taken up from disk. -/
  | resumed {filerequestId transferId}
      (hrequest : a.request = .continueTransfer filerequestId transferId)
      (hcontinues : (s.env a).continuation.isSome = true) :
      Told s a (some transferId) s.tables s.jobs s.emitted
  /-- The transfer in memory, or one that may go on, has a new status. -/
  | updated {held transferId status progressBytes}
      (hid : s.heldId a.peer = some transferId ∨ (s.env a).continuation.isSome = true ∧
        ∃ filerequestId, a.request = .continueTransfer filerequestId transferId)
      (hheld : held = s.heldId a.peer ∨ held = none) :
      Told s a held s.tables (s.jobs ++ [.update transferId status progressBytes])
        (s.emitted ++ [(transferId, status.statusTag)])
  | completed {transferId filePath receivedAtMs tables}
      (hrequest : a.request = .done transferId) (hid : s.heldId a.peer = some transferId)
      (hcomplete : s.tables.completeReceivedFile transferId filePath receivedAtMs = some tables) :
      Told s a (some transferId) tables s.jobs (s.emitted ++ [(transferId, .completed)])

/-- **What a request does to the database.** -/
theorem told : Told s a ((s.respond z a).heldId a.peer) (s.respond z a).tables
    (s.respond z a).jobs (s.respond z a).emitted := by
  obtain ⟨new, hnew, hhandled⟩ : Handles (s.env a) a.peer a.contactId (s.receivers.atPeer a.peer)
    a.request (s.reply z a).receiver.receiving (s.reply z a).receiver.notices :=
      (answered a.request).handles
  have hnotices : s.notices z a = new := by
    rw [notices, hnew]
    exact List.drop_left
  rw [heldId_respond, if_pos rfl]
  change Told s a _ ((s.notices z a).foldl (fun s' notice => hear s' a notice) s).tables
    ((s.notices z a).foldl (fun s' notice => hear s' a notice) s).jobs
    ((s.notices z a).foldl (fun s' notice => hear s' a notice) s).emitted
  rw [hnotices]
  generalize (s.reply z a).receiver.receiving.map ReceiveManager.transferId = held at hhandled ⊢
  generalize hrequest : a.request = request at hhandled
  cases hhandled with
  | quiet hheld => exact .quiet hheld
  | refused hcreates =>
    rw [List.foldl_cons, List.foldl_nil, hear, hcreates]
    exact .quiet (.inl rfl)
  | @begun filerequestId transferId fileName fileSizeBytes startedAtMs hcreates =>
    have hinsert : s.tables.canInsert a.newId transferId filerequestId = true := by
      simp only [env, hrequest, Bool.and_eq_true] at hcreates
      exact hcreates.2
    obtain ⟨tables, htables⟩ := IncomingTables.createIncomingFile_isSome hinsert a.contactId a.peer
      fileName fileSizeBytes startedAtMs
    rw [List.foldl_cons, List.foldl_nil, hear, if_pos hcreates, htables]
    exact .created hrequest htables
  | resumed hcontinues => exact .resumed hrequest hcontinues
  | lost hcontinues => exact .updated (.inr ⟨hcontinues, _, hrequest⟩) (.inl rfl)
  | @updated _ m _ _ _ hm hheld =>
    have hid : s.heldId a.peer = some m.transferId := congrArg (Option.map _) hm
    exact .updated (.inl hid) (hheld.imp_left fun h => h.trans hid.symm)
  | stored hm =>
    have hid := congrArg (Option.map ReceiveManager.transferId) hm
    rw [List.foldl_cons, List.foldl_nil, hear]
    split
    · split
      · next tables hcomplete => exact .completed hrequest hid hcomplete
      · exact .quiet (.inl hid.symm)
    · exact .quiet (.inl hid.symm)

end Reception

end Fyles
