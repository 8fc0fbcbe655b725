import Fyles.Reception

/-!
# Transfers that are complete

When `Done` is answered with `ConfirmDone`, the part file was moved to where finished files are, and
the row of the transfer says that it is complete. But the entry of the transfer stays in memory. A
`ContinueTransfer` is accepted from there, and chunks and an abort are taken for it; they set the
status of the row back. Once the entry is gone, the database still lets the transfer be continued,
because nobody looks at the status of the row. And the task of a status from before the end may
come last.

So what matters is what happens to the entry: whether the first thing that happens to it is that it
is dropped by a message which is not for this transfer, and whether nobody asks to go on with the
transfer afterwards.

## Main results

* `notReopened_iff` — the entry stays; and from then on a transfer is not reopened by those lists
  of events in which each is one that leaves it alone
* `reopened_after_done` — one that is reopened
-/

namespace Fyles.Reception

open PartFiles IncomingTables

variable {z : Sanitizer} {s s' : Reception} {a : Asked} {e : Event} {t : FylesId}

/-! ### Reopening -/

/-- A `Done` is answered with `ConfirmDone`. -/
def Confirms (z : Sanitizer) (s : Reception) (t : FylesId) (a : Asked) : Prop :=
  a.request = .done t ∧ (s.reply z a).response = .confirmDone

/-- A `ContinueTransfer` is accepted. -/
def Accepts (z : Sanitizer) (s : Reception) (t : FylesId) : Event → Prop
  | .request a => (∃ filerequestId, a.request = .continueTransfer filerequestId t) ∧
      ∃ continueAt, (s.reply z a).response = .acceptContinueTransfer continueAt
  | _ => False

/-- A chunk is given to the transfer, or it is aborted. -/
def Processes (z : Sanitizer) (s : Reception) (t : FylesId) : Event → Prop
  | .request a =>
    match a.request with
    | .chunk _ => ∃ access ∈ (s.reply z a).accesses,
        access.operation = .appended ∧ access.transfer.transferId = t
    | .abortTransfer _ =>
      s.heldId a.peer = some t ∧ (s.reply z a).response ≠ .protocolViolation
    | _ => False
  | _ => False

/-- **What is expected.** The transfer is not taken up, no message is processed for it, there is
no entry for it afterwards, and its row stays as it is. -/
def NotReopened (z : Sanitizer) (t : FylesId) (s : Reception) (e : Event) : Prop :=
  ¬ s.Accepts z t e ∧ ¬ s.Processes z t e ∧
  ∀ s', s.step z e = some s' →
    (∀ peer, s'.heldId peer ≠ some t) ∧ s'.tables.row t = s.tables.row t

/-! ### What leaves a transfer alone -/

/-- A new transfer is accepted. -/
def Begins (z : Sanitizer) (s : Reception) (a : Asked) (transferId : FylesId) : Prop :=
  (s.env a).requestFileDrop = true ∧ (s.env a).createsIncomingFile = true ∧
  ∃ now, a.env.unixEpochMillis = some now ∧ a.env.opensPartFile = true ∧
    (z.partPath now transferId a.peer a.contactId).isSome = true

/-- A transfer is taken up from disk: the brain agrees, and the part file can be opened. -/
def GoesOn (z : Sanitizer) (s : Reception) (a : Asked) (filerequestId transferId : FylesId) :
    Prop :=
  ∃ response, s.tables.requestFileTransferContinuation filerequestId transferId a.peer a.contactId =
      some response ∧ a.env.opensPartFile = true ∧
    (z.partPath response.startedAtMs transferId a.peer a.contactId).isSome = true ∧
    a.env.readsMetadata = true

/-- The requests that leave a transfer alone, and drop its entry if their peer has it: another
transfer is begun or taken up, or there is something else that does not fit. -/
def Asked.Leaves (z : Sanitizer) (s : Reception) (t : FylesId) (a : Asked) : Prop :=
  match a.request with
  | .newTransfer _ _ _ transferId => s.heldId a.peer = some t → Begins z s a transferId
  | .continueTransfer filerequestId transferId =>
    (transferId = t → ¬ GoesOn z s a filerequestId t) ∧
    (s.heldId a.peer = some t → transferId ≠ t ∧ GoesOn z s a filerequestId transferId)
  | .abortTransfer transferId =>
    s.heldId a.peer = some t → transferId ≠ none ∧ transferId ≠ some t
  | .chunk c => ∀ m, s.receivers.receiving a.peer = some m → m.transferId = t →
      c.transferUuid ≠ t ∨ a.contactId ≠ m.contactId
  | .done transferId => s.heldId a.peer = some t → transferId ≠ t
  | .protocolViolation _ => True

/-- A status that the row has anyway. -/
def SameStatus (s : Reception) (t : FylesId) (status : ReceivedTag) (progressBytes : ℕ) : Prop :=
  ∀ row ∈ s.tables.row t, row.status = status ∧ row.progressBytes = progressBytes

/-- The jobs that leave a transfer alone. -/
def Job.Leaves (s : Reception) (t : FylesId) : Job → Prop
  | .update transferId status progressBytes =>
    transferId = t → s.SameStatus t status.statusTag progressBytes
  | .cleanup [] => True
  | .cleanup (file :: _) => file.transferId = some t → s.SameStatus t .failed file.progressBytes

/-- **The events that leave a transfer alone.** Only the peer of a request, or of an entry that
expires, may have an entry for it. -/
def Untouched (z : Sanitizer) (t : FylesId) (s : Reception) (e : Event) : Prop :=
  match e with
  | .request a => (∀ peer ≠ a.peer, s.heldId peer ≠ some t) ∧ a.Leaves z s t
  | .expire expired => ∀ peer ≠ expired, s.heldId peer ≠ some t
  | .resume index => ∀ job ∈ s.jobs[index]?, (∀ peer, s.heldId peer ≠ some t) ∧ job.Leaves s t
  | .deleteFilerequest id => (∀ peer, s.heldId peer ≠ some t) ∧
      ∀ row ∈ s.tables.row t, row.filerequestId ≠ id
  | .deleteReceivedFile id => (∀ peer, s.heldId peer ≠ some t) ∧
      ∀ row ∈ s.tables.row t, row.id ≠ id
  | .restart => True
  | _ => ∀ peer, s.heldId peer ≠ some t

/-! ### The entry after a request -/

/-- What a request has to do with a transfer that is over. -/
theorem notReopened_request : NotReopened z t s (.request a) ↔
    (∀ peer ≠ a.peer, s.heldId peer ≠ some t) ∧
    ¬ s.Accepts z t (.request a) ∧ ¬ s.Processes z t (.request a) ∧
    (s.reply z a).receiver.receiving.map ReceiveManager.transferId ≠ some t ∧
    (s.respond z a).tables.row t = s.tables.row t := by
  constructor
  · rintro ⟨haccepts, hprocesses, hafter⟩
    obtain ⟨hheld, hrow⟩ := hafter _ rfl
    refine ⟨fun peer hpeer => ?_, haccepts, hprocesses, ?_, hrow⟩
    · have h := hheld peer
      rwa [heldId_respond, if_neg hpeer] at h
    · have h := hheld a.peer
      rwa [heldId_respond, if_pos rfl] at h
  · rintro ⟨hothers, haccepts, hprocesses, hheld, hrow⟩
    refine ⟨haccepts, hprocesses, fun s' hs' => ?_⟩
    obtain ⟨⟩ := hs'
    refine ⟨fun peer => ?_, hrow⟩
    rw [heldId_respond]
    split
    · exact hheld
    · next hpeer => exact hothers peer hpeer

/-- The row of a transfer changes in a request only if its own `Done` comes once more. -/
theorem row_respond (hrow : (s.tables.row t).isSome = true) :
    (s.respond z a).tables.row t = s.tables.row t ∨
      a.request = .done t ∧ s.heldId a.peer = some t := by
  have htold := told (z := z) (s := s) (a := a)
  generalize (s.respond z a).tables = tables at htold ⊢
  generalize (s.respond z a).heldId a.peer = held, (s.respond z a).jobs = jobs,
    (s.respond z a).emitted = emitted at htold
  cases htold with
  | quiet | resumed | updated => exact .inl rfl
  | created hrequest hcreate =>
    obtain ⟨hnone, -, hother⟩ := row_insert hcreate
    refine .inl (hother t ?_)
    rintro rfl
    rw [hnone] at hrow
    cases hrow
  | @completed transferId _ _ _ hrequest hheld hcomplete =>
    by_cases hid : t = transferId
    · subst hid
      exact .inr ⟨hrequest, hheld⟩
    · have hrow' := row_completeReceivedFile hcomplete t
      simp only [if_neg hid, Option.map_id'] at hrow'
      exact .inl hrow'

/-! ### Requests one by one -/

theorem isSome_getPartialFileForWriting {path env nodeId contactId} {startedAtMs : ℤ}
    {transferId r} :
    (getPartialFileForWriting path env nodeId contactId startedAtMs transferId r).isSome = true ↔
      env.opensPartFile = true ∧ (path startedAtMs transferId nodeId contactId).isSome = true := by
  rw [getPartialFileForWriting]
  split
  · next hopens => simp [hopens]
  · next hopens => simp [hopens]

theorem receiving_getPartialFileForWriting {path env nodeId contactId} {startedAtMs : ℤ}
    {transferId} {file : ℕ} {r r'}
    (h : getPartialFileForWriting path env nodeId contactId startedAtMs transferId r =
      some (file, r')) : r'.receiving = r.receiving := by
  obtain ⟨name, -, hname⟩ := getPartialFileForWriting_eq_some h
  obtain rfl : (r.openPart name).2 = r' := congrArg Prod.snd hname
  exact FilerequestReceiver.receiving_openPart r name

/-- The entry that a reply leaves. -/
def leftId (reply : Reply) : Option FylesId :=
  reply.receiver.receiving.map ReceiveManager.transferId

section Kinds

variable {path : PathOf} {env : ReceiverEnv} {nodeId : PeerId} {contactId : Option ContactId}
  {r : FilerequestReceiver}

/-- A new transfer takes the place of the old one, or nothing changes. -/
theorem leftId_newTransfer (filerequestId : FylesId) (fileName : String) (fileSizeBytes : ℕ)
    (transferUuid : FylesId) :
    let begins := env.requestFileDrop = true ∧ env.createsIncomingFile = true ∧
      ∃ now, env.unixEpochMillis = some now ∧ env.opensPartFile = true ∧
        (path now transferUuid nodeId contactId).isSome = true
    let left := leftId (respondTo path env nodeId contactId
      (.newTransfer filerequestId fileName fileSizeBytes transferUuid) r)
    begins ∧ left = some transferUuid ∨
      ¬ begins ∧ left = r.receiving.map ReceiveManager.transferId := by
  intro begins left
  simp only [left, respondTo, newTransfer]
  split
  · next hdrop =>
    refine .inr ⟨fun h => ?_, rfl⟩
    rw [h.1] at hdrop
    cases hdrop
  · next hdrop =>
    split
    · next htime =>
      refine .inr ⟨?_, rfl⟩
      rintro ⟨-, -, now, hnow, -⟩
      rw [htime] at hnow
      cases hnow
    · next now htime =>
      split
      · next hopen =>
        refine .inr ⟨?_, rfl⟩
        rintro ⟨-, -, now', hnow, hopens⟩
        obtain rfl := Option.mem_unique htime hnow
        have hsome := isSome_getPartialFileForWriting (r := r).mpr hopens
        rw [hopen] at hsome
        cases hsome
      · next file r' hopen =>
        split
        · next hcreates =>
          refine .inr ⟨fun h => ?_,
            congrArg _ (receiving_getPartialFileForWriting hopen)⟩
          rw [h.2.1] at hcreates
          cases hcreates
        · next hcreates =>
          refine .inl ⟨⟨by simpa using hdrop, by simpa using hcreates, now, htime, ?_⟩, rfl⟩
          exact isSome_getPartialFileForWriting.mp (Option.isSome_of_eq_some hopen)

/-- A transfer that is taken up from disk takes the place of the old one, or nothing changes. -/
theorem leftId_continueFromDisk (filerequestId transferUuid : FylesId) :
    let goesOn := ∃ response, env.continuation = some response ∧ env.opensPartFile = true ∧
      (path response.startedAtMs transferUuid nodeId contactId).isSome = true ∧
      env.readsMetadata = true
    let reply := continueFromDisk path env nodeId contactId filerequestId transferUuid r
    goesOn ∧ leftId reply = some transferUuid ∨
      ¬ goesOn ∧ leftId reply = r.receiving.map ReceiveManager.transferId ∧
        ¬ ∃ continueAt, reply.response = .acceptContinueTransfer continueAt := by
  intro goesOn reply
  simp only [reply, continueFromDisk]
  split
  · next hnone =>
    refine .inr ⟨?_, rfl, by rintro ⟨_, ⟨⟩⟩⟩
    rintro ⟨response, hsome, -⟩
    rw [hnone] at hsome
    cases hsome
  · next response hsome =>
    split
    · next hopen =>
      refine .inr ⟨?_, rfl, by rintro ⟨_, ⟨⟩⟩⟩
      rintro ⟨response', hsome', hopens, hpath, -⟩
      obtain rfl := Option.mem_unique hsome hsome'
      have h := isSome_getPartialFileForWriting (r := r).mpr ⟨hopens, hpath⟩
      rw [hopen] at h
      cases h
    · next file r' hopen =>
      split
      · next hreads =>
        refine .inr ⟨?_, congrArg _ (receiving_getPartialFileForWriting hopen), by rintro ⟨_, ⟨⟩⟩⟩
        rintro ⟨-, -, -, -, hreads'⟩
        rw [hreads'] at hreads
        cases hreads
      · next hreads =>
        obtain ⟨hopens, hpath⟩ :=
          isSome_getPartialFileForWriting.mp (Option.isSome_of_eq_some hopen)
        exact .inl ⟨⟨response, hsome, hopens, hpath, by simpa using hreads⟩, rfl⟩

/-- The transfer in memory goes on, or one is taken up from disk. -/
theorem leftId_continueTransfer (filerequestId transferUuid : FylesId) :
    let goesOn := ∃ response, env.continuation = some response ∧ env.opensPartFile = true ∧
      (path response.startedAtMs transferUuid nodeId contactId).isSome = true ∧
      env.readsMetadata = true
    let reply := respondTo path env nodeId contactId (.continueTransfer filerequestId transferUuid) r
    r.receiving.map ReceiveManager.transferId = some transferUuid ∧
        leftId reply = some transferUuid ∨
      goesOn ∧ leftId reply = some transferUuid ∨
      ¬ goesOn ∧ leftId reply = r.receiving.map ReceiveManager.transferId ∧
        ¬ ∃ continueAt, reply.response = .acceptContinueTransfer continueAt := by
  intro goesOn reply
  simp only [reply, respondTo, continueTransfer]
  split
  · next m hm =>
    split
    · next hsame =>
      rw [hm, ← hsame.1]
      exact .inl ⟨rfl, rfl⟩
    · exact .inr (leftId_continueFromDisk filerequestId transferUuid)
  · exact .inr (leftId_continueFromDisk filerequestId transferUuid)

/-- An abort drops the entry, and is refused if it names another transfer. -/
theorem leftId_abortTransfer (transferUuid : Option FylesId) :
    let reply := respondTo path env nodeId contactId (.abortTransfer transferUuid) r
    leftId reply = none ∧ ∀ m, r.receiving = some m →
      (reply.response ≠ .protocolViolation ↔
        transferUuid = none ∨ transferUuid = some m.transferId) := by
  intro reply
  simp only [reply, respondTo, abortTransfer]
  split
  · next hnone =>
    refine ⟨congrArg (Option.map ReceiveManager.transferId) hnone, fun m hm => ?_⟩
    rw [hnone] at hm
    cases hm
  · next m hm =>
    split
    · next hid =>
      split
      · refine ⟨rfl, fun m' hm' => ?_⟩
        obtain rfl := Option.mem_unique hm hm'
        exact ⟨fun _ => hid, by rintro _ ⟨⟩⟩
      · next hremove =>
        obtain ⟨-, name, -, heq⟩ := removePartialFile_eq_some hremove
        obtain rfl := congrArg Prod.snd heq
        refine ⟨rfl, fun m' hm' => ?_⟩
        obtain rfl := Option.mem_unique hm hm'
        exact ⟨fun _ => hid, by rintro _ ⟨⟩⟩
    · next hid =>
      refine ⟨rfl, fun m' hm' => ?_⟩
      obtain rfl := Option.mem_unique hm hm'
      exact ⟨fun h => absurd rfl h, fun h => absurd h hid⟩

/-- A chunk that is not one of the transfer in memory, or does not come in a session with its
contact, drops the entry. -/
theorem leftId_chunk_of_not {c} (h : ∀ m, r.receiving = some m →
      ¬ (c.transferUuid = m.transferId ∧ contactId = m.contactId)) :
    leftId (respondTo path env nodeId contactId (.chunk c) r) = none ∧
      (respondTo path env nodeId contactId (.chunk c) r).accesses = [] := by
  rw [respondTo, chunk]
  split
  · next hnone => exact ⟨congrArg (Option.map ReceiveManager.transferId) hnone, rfl⟩
  · next m hm =>
    split
    · exact ⟨rfl, rfl⟩
    · next hid =>
      split
      · exact ⟨rfl, rfl⟩
      · next hcontact => exact absurd ⟨not_not.mp hid, not_not.mp hcontact⟩ (h m hm)

/-- Other chunks are given to the transfer. -/
theorem leftId_chunk {c m} (hm : r.receiving = some m) (hid : c.transferUuid = m.transferId)
    (hcontact : contactId = m.contactId) :
    let reply := respondTo path env nodeId contactId (.chunk c) r
    (∃ access ∈ reply.accesses, access.operation = .appended) ∧
    (∀ access ∈ reply.accesses, access.transfer.transferId = m.transferId) ∧
    (leftId reply = none ∨ leftId reply = some m.transferId) := by
  intro reply
  simp only [reply, respondTo, chunk, hm]
  rw [if_neg (not_not.mpr hid), if_neg (not_not.mpr hcontact)]
  have hheader := m.store_header env.write c (r.bytesOf m.file)
  rcases hstore : m.store env.write c (r.bytesOf m.file) with ⟨result, m', bytes⟩
  rw [hstore] at hheader
  have hid' : m'.transferId = m.transferId := ReceiveManager.transferId_of_header hheader
  have hsingle : ∀ access ∈ [accessFor nodeId contactId m .appended (some m.file)
      (some c.transferUuid)], access.transfer.transferId = m.transferId := by
    intro access haccess
    rw [List.mem_singleton.mp haccess]
    rfl
  cases result with
  | received =>
    exact ⟨⟨_, List.mem_singleton_self _, rfl⟩, hsingle, .inr (congrArg some hid')⟩
  | protocolViolation => exact ⟨⟨_, List.mem_singleton_self _, rfl⟩, hsingle, .inl rfl⟩
  | ioError =>
    refine ⟨⟨_, List.mem_cons_self, rfl⟩, ?_, .inl rfl⟩
    intro access haccess
    obtain rfl | haccess := List.mem_cons.mp haccess
    · rfl
    · rw [List.mem_singleton.mp haccess]
      rfl

/-- `Done` leaves the entry, unless it is for another transfer. -/
theorem leftId_done (transferUuid : FylesId) :
    leftId (respondTo path env nodeId contactId (.done transferUuid) r) =
      (r.receiving.map ReceiveManager.transferId).filter fun id => id = transferUuid := by
  rw [respondTo, done]
  split
  · next hnone =>
    rw [hnone]
    exact congrArg (Option.map ReceiveManager.transferId) hnone
  · next m hm =>
    rw [hm, Option.map_some, Option.filter_some]
    split
    · next hid =>
      rw [if_neg (by simpa using hid)]
      rfl
    · next hid =>
      obtain rfl : m.transferId = transferUuid := not_not.mp hid
      rw [if_pos (decide_eq_true rfl)]
      have hleft : r.receiving.map ReceiveManager.transferId = some m.transferId := by
        rw [hm]
        rfl
      split
      · exact hleft
      · split
        · exact hleft
        · next final file r' hfinal =>
          obtain ⟨-, final', name, file', -, -, heq⟩ := finalizePartialFile_eq_some hfinal
          obtain rfl := congrArg (fun p => p.2.2) heq
          split <;> exact hleft

end Kinds

/-! ### One event -/

theorem reply_eq {request} (h : a.request = request) : s.reply z a =
    respondTo z.partPath (s.env a) a.peer a.contactId request (s.receivers.atPeer a.peer) := by
  rw [reply, h]

/-- For all requests but `ContinueTransfer`, `Chunk`, `AbortTransfer` and `Done` only the entry
matters. -/
theorem reopens_iff_left (hrow : (s.tables.row t).isSome = true)
    (hcontinue : ∀ filerequestId, a.request ≠ .continueTransfer filerequestId t)
    (hprocesses : ¬ s.Processes z t (.request a)) (hdone : a.request ≠ .done t) :
    (¬ s.Accepts z t (.request a) ∧ ¬ s.Processes z t (.request a) ∧
      leftId (s.reply z a) ≠ some t ∧ (s.respond z a).tables.row t = s.tables.row t) ↔
    leftId (s.reply z a) ≠ some t := by
  constructor
  · exact fun h => h.2.2.1
  · intro h
    refine ⟨?_, hprocesses, h, (row_respond hrow).resolve_right fun h => hdone h.1⟩
    rintro ⟨⟨filerequestId, hrequest⟩, -⟩
    exact hcontinue filerequestId hrequest

theorem reopens_newTransfer {filerequestId transferId} {fileName : String} {fileSizeBytes : ℕ}
    (hrow : (s.tables.row t).isSome = true)
    (hrequest : a.request = .newTransfer filerequestId fileName fileSizeBytes transferId) :
    leftId (s.reply z a) ≠ some t ↔ (s.heldId a.peer = some t → Begins z s a transferId) := by
  rw [reply_eq hrequest]
  obtain ⟨hbegins, hleft⟩ | ⟨hbegins, hleft⟩ := @leftId_newTransfer z.partPath
    (s.env a) a.peer a.contactId (s.receivers.atPeer a.peer) filerequestId fileName fileSizeBytes
    transferId
  · -- The id of a transfer that begins is not in the tables.
    have hne : transferId ≠ t := by
      rintro rfl
      have hcreates := hbegins.2.1
      simp only [env, hrequest, canInsert, Bool.and_eq_true,
        Option.isNone_iff_eq_none] at hcreates
      rw [hcreates.2.1.2] at hrow
      cases hrow
    rw [hleft]
    exact ⟨fun _ _ => hbegins, fun _ heq => hne (Option.some.inj heq)⟩
  · rw [hleft]
    exact ⟨fun h hheld => absurd hheld h, fun h hheld => hbegins (h hheld)⟩

theorem reopens_continueTransfer {filerequestId transferId} (hrow : (s.tables.row t).isSome = true)
    (hrequest : a.request = .continueTransfer filerequestId transferId) :
    (¬ s.Accepts z t (.request a) ∧ ¬ s.Processes z t (.request a) ∧
      leftId (s.reply z a) ≠ some t ∧ (s.respond z a).tables.row t = s.tables.row t) ↔
    (transferId = t → ¬ GoesOn z s a filerequestId t) ∧
    (s.heldId a.peer = some t → transferId ≠ t ∧ GoesOn z s a filerequestId transferId) := by
  have hprocesses : ¬ s.Processes z t (.request a) := by
    rw [Processes, hrequest]
    exact not_false
  have hrow' : (s.respond z a).tables.row t = s.tables.row t := by
    refine (row_respond hrow).resolve_right fun h => ?_
    rw [hrequest] at h
    cases h.1
  have haccepts : s.Accepts z t (.request a) ↔ transferId = t ∧
      ∃ continueAt, (s.reply z a).response = .acceptContinueTransfer continueAt := by
    rw [Accepts, hrequest]
    refine and_congr_left' ⟨?_, ?_⟩
    · rintro ⟨_, heq⟩
      cases heq
      rfl
    · rintro rfl
      exact ⟨filerequestId, rfl⟩
  have hcontinuation : (s.env a).continuation =
      s.tables.requestFileTransferContinuation filerequestId transferId a.peer a.contactId := by
    simp only [env, hrequest]
  have hcases := @leftId_continueTransfer z.partPath (s.env a) a.peer a.contactId
    (s.receivers.atPeer a.peer) filerequestId transferId
  rw [hcontinuation, ← reply_eq hrequest] at hcases
  change s.heldId a.peer = some transferId ∧ _ ∨ GoesOn z s a filerequestId transferId ∧ _ ∨
    ¬ GoesOn z s a filerequestId transferId ∧ leftId (s.reply z a) = s.heldId a.peer ∧ _ at hcases
  rw [haccepts]
  obtain ⟨hheld, hleft⟩ | ⟨hgoes, hleft⟩ | ⟨hgoes, hleft, hrefused⟩ := hcases
  · rw [hleft, hheld]
    constructor
    · rintro ⟨-, -, hne, -⟩
      have hne' : transferId ≠ t := fun heq => hne (congrArg some heq)
      exact ⟨fun heq => absurd heq hne', fun heq => absurd heq hne⟩
    · rintro ⟨-, hsecond⟩
      have hne : some transferId ≠ some t := fun heq => (hsecond heq).1 (Option.some.inj heq)
      exact ⟨fun h => hne (congrArg some h.1), hprocesses, hne, hrow'⟩
  · rw [hleft]
    constructor
    · rintro ⟨-, -, hne, -⟩
      have hne' : transferId ≠ t := fun heq => hne (congrArg some heq)
      exact ⟨fun heq => absurd heq hne', fun _ => ⟨hne', hgoes⟩⟩
    · rintro ⟨hfirst, -⟩
      have hne : transferId ≠ t := by
        rintro rfl
        exact hfirst rfl hgoes
      exact ⟨fun h => hne h.1, hprocesses, fun heq => hne (Option.some.inj heq), hrow'⟩
  · rw [hleft]
    constructor
    · rintro ⟨-, -, hne, -⟩
      refine ⟨?_, fun heq => absurd heq hne⟩
      rintro rfl
      exact hgoes
    · rintro ⟨-, hsecond⟩
      exact ⟨fun h => hrefused h.2, hprocesses, fun heq => hgoes (hsecond heq).2, hrow'⟩

theorem reopens_chunk {c} (hrow : (s.tables.row t).isSome = true)
    (hrequest : a.request = .chunk c) :
    (¬ s.Accepts z t (.request a) ∧ ¬ s.Processes z t (.request a) ∧
      leftId (s.reply z a) ≠ some t ∧ (s.respond z a).tables.row t = s.tables.row t) ↔
    ∀ m, s.receivers.receiving a.peer = some m → m.transferId = t →
      c.transferUuid ≠ t ∨ a.contactId ≠ m.contactId := by
  have hreply := reply_eq (z := z) (s := s) hrequest
  have hprocesses : s.Processes z t (.request a) ↔ ∃ access ∈ (s.reply z a).accesses,
      access.operation = .appended ∧ access.transfer.transferId = t := by
    rw [Processes, hrequest]
  constructor
  · rintro ⟨-, hprocessed, -⟩ m hm hid
    by_contra hnot
    rw [not_or, not_not, not_not] at hnot
    obtain ⟨⟨access, haccess, happended⟩, hids, -⟩ := @leftId_chunk z.partPath (s.env a) a.peer _
      (s.receivers.atPeer a.peer) c m hm (hnot.1.trans hid.symm) hnot.2
    rw [← hreply] at haccess hids
    exact hprocessed (hprocesses.mpr
      ⟨access, haccess, happended, (hids access haccess).trans hid⟩)
  · intro hleaves
    suffices h : ¬ s.Processes z t (.request a) ∧ leftId (s.reply z a) ≠ some t by
      refine (reopens_iff_left hrow (fun _ heq => ?_) h.1 fun heq => ?_).mpr h.2
      · rw [hrequest] at heq
        cases heq
      · rw [hrequest] at heq
        cases heq
    rw [hprocesses, hreply]
    by_cases hgiven : ∀ m, s.receivers.receiving a.peer = some m →
        ¬ (c.transferUuid = m.transferId ∧ a.contactId = m.contactId)
    · obtain ⟨hleft, haccesses⟩ := @leftId_chunk_of_not z.partPath (s.env a) a.peer a.contactId
        (s.receivers.atPeer a.peer) c hgiven
      rw [hleft, haccesses]
      exact ⟨fun ⟨_, h, _⟩ => (nomatch h), nofun⟩
    · push Not at hgiven
      obtain ⟨m, hm, hid, hcontact⟩ := hgiven
      have hne : m.transferId ≠ t := by
        intro heq
        exact (hleaves m hm heq).elim (fun h => h (hid.trans heq)) fun h => h hcontact
      obtain ⟨-, hids, hleft⟩ := @leftId_chunk z.partPath (s.env a) a.peer _
        (s.receivers.atPeer a.peer) c m hm hid hcontact
      refine ⟨fun ⟨access, haccess, _, heq⟩ => hne ((hids access haccess).symm.trans heq), ?_⟩
      obtain hleft | hleft := hleft
      · rw [hleft]
        exact fun h => nomatch h
      · rw [hleft]
        exact fun heq => hne (Option.some.inj heq)

/-- **Requests.** -/
theorem notReopened_request_iff (hrow : (s.tables.row t).isSome = true) :
    NotReopened z t s (.request a) ↔ Untouched z t s (.request a) := by
  rw [notReopened_request]
  refine and_congr_right fun _ => ?_
  change (_ ∧ _ ∧ leftId (s.reply z a) ≠ some t ∧ _) ↔ _
  rw [Asked.Leaves.eq_def]
  cases hrequest : a.request with
  | newTransfer filerequestId fileName fileSizeBytes transferId =>
    rw [reopens_iff_left hrow (by rw [hrequest]; exact nofun) (by rw [Processes, hrequest]; exact
      not_false) (by rw [hrequest]; exact nofun)]
    exact reopens_newTransfer hrow hrequest
  | continueTransfer filerequestId transferId => exact reopens_continueTransfer hrow hrequest
  | chunk c => exact reopens_chunk hrow hrequest
  | abortTransfer transferId =>
    obtain ⟨hleft, hresponse⟩ := @leftId_abortTransfer z.partPath (s.env a) a.peer a.contactId
      (s.receivers.atPeer a.peer) transferId
    rw [← reply_eq hrequest] at hleft hresponse
    have hprocesses : s.Processes z t (.request a) ↔
        s.heldId a.peer = some t ∧ (transferId = none ∨ transferId = some t) := by
      rw [Processes, hrequest]
      refine and_congr_right fun hheld => ?_
      obtain ⟨m, hm, hid⟩ := Option.map_eq_some_iff.mp hheld
      rw [hresponse m hm, hid]
    constructor
    · rintro ⟨-, hprocessed, -⟩ hheld
      rw [hprocesses] at hprocessed
      exact not_or.mp fun h => hprocessed ⟨hheld, h⟩
    · intro hleaves
      refine (reopens_iff_left hrow (by rw [hrequest]; exact nofun) (fun h => ?_)
        (by rw [hrequest]; exact nofun)).mpr (by rw [hleft]; exact nofun)
      obtain ⟨hheld, hid⟩ := hprocesses.mp h
      exact not_or.mpr (hleaves hheld) hid
  | done transferId =>
    have hleft : leftId (s.reply z a) = (s.heldId a.peer).filter fun id => id = transferId := by
      rw [reply_eq hrequest]
      exact leftId_done transferId
    constructor
    · rintro ⟨-, -, hne, -⟩ hheld rfl
      refine hne ?_
      rw [hleft, hheld, Option.filter_some, if_pos (decide_eq_true rfl)]
    · intro hleaves
      have hne : leftId (s.reply z a) ≠ some t := by
        rw [hleft]
        intro heq
        obtain ⟨hheld, hid⟩ := Option.filter_eq_some_iff.mp heq
        exact hleaves hheld (of_decide_eq_true hid).symm
      refine ⟨?_, ?_, hne, ?_⟩
      · rintro ⟨⟨_, heq⟩, -⟩
        rw [hrequest] at heq
        cases heq
      · rw [Processes, hrequest]
        exact not_false
      · refine (row_respond hrow).resolve_right fun h => ?_
        rw [hrequest] at h
        exact hleaves h.2 (FileRequest.done.inj h.1)
  | protocolViolation transferId =>
    rw [reopens_iff_left hrow (by rw [hrequest]; exact nofun) (by rw [Processes, hrequest]; exact
      not_false) (by rw [hrequest]; exact nofun), reply, hrequest]
    exact ⟨fun _ => trivial, fun _ => nofun⟩

theorem row_execute (job : Job) : (execute z s job).tables.row t = s.tables.row t ↔
    (s.tables.row t = none ∨ job.Leaves s t) := by
  have hupdate : ∀ (transferId : FylesId) (status : ReceivedTag) (progressBytes : ℕ),
      ((s.tables.updateReceivedFileStatus transferId status progressBytes).getD s.tables).row t =
        s.tables.row t ↔
      s.tables.row t = none ∨ (transferId = t → s.SameStatus t status progressBytes) := by
    intro transferId status progressBytes
    rw [row_updateReceivedFileStatus, SameStatus]
    cases hrow : s.tables.row t with
    | none => simp
    | some row =>
      simp only [Option.map_some, Option.some.injEq, reduceCtorEq, false_or]
      by_cases ht : t = transferId
      · subst ht
        rw [if_pos rfl]
        constructor
        · intro heq _ row' hrow'
          obtain rfl := Option.mem_some.mp hrow'
          rw [← heq]
          exact ⟨rfl, rfl⟩
        · intro h
          obtain ⟨rfl, rfl⟩ := h rfl row rfl
          rfl
      · rw [if_neg ht]
        exact ⟨fun _ heq => absurd heq.symm ht, fun _ => rfl⟩
  cases job with
  | update transferId status progressBytes =>
    exact hupdate transferId status.statusTag progressBytes
  | cleanup files =>
    cases files with
    | nil => exact ⟨fun _ => .inr trivial, fun _ => rfl⟩
    | cons file files =>
      rw [execute, Job.Leaves]
      cases htransfer : file.transferId with
      | none => exact ⟨fun _ => .inr (by simp), fun _ => rfl⟩
      | some transferId =>
        rw [Option.some.injEq]
        exact hupdate transferId .failed file.progressBytes

theorem receiving_execute (job : Job) :
    (execute z s job).receivers.receiving = s.receivers.receiving := by
  rw [execute.eq_def]
  split
  · rfl
  · rfl
  · split
    · rfl
    · rw [Receivers.structuredPartialCleanup]
      split <;> rfl

theorem heldId_execute (job : Job) (peer : PeerId) :
    (execute z s job).heldId peer = s.heldId peer :=
  congrArg (Option.map _) (congrFun (receiving_execute job) peer)

/-- An event without a request. -/
theorem notReopened_of_step (haccepts : ¬ s.Accepts z t e) (hprocesses : ¬ s.Processes z t e)
    (hstep : s.step z e = some s') : NotReopened z t s e ↔
      (∀ peer, s'.heldId peer ≠ some t) ∧ s'.tables.row t = s.tables.row t := by
  constructor
  · exact fun h => h.2.2 s' hstep
  · intro h
    refine ⟨haccepts, hprocesses, fun s'' hs'' => ?_⟩
    obtain rfl := Option.mem_unique hstep hs''
    exact h

theorem filter_row_iff {row} {kept : ReceivedFile → Bool} (hrow : s.tables.row t = some row) :
    (s.tables.row t).filter kept = s.tables.row t ↔ kept row = true := by
  rw [hrow, Option.filter_some]
  split
  · next hkept => exact ⟨fun _ => hkept, fun _ => rfl⟩
  · next hkept => exact ⟨fun heq => (nomatch heq), fun h => absurd h hkept⟩

/-- **One event.** -/
theorem notReopened_step_iff (hrow : (s.tables.row t).isSome = true) :
    NotReopened z t s e ↔ Untouched z t s e := by
  obtain ⟨row, hrow'⟩ := Option.isSome_iff_exists.mp hrow
  cases e with
  | request a => exact notReopened_request_iff hrow
  | expire expired =>
    refine (notReopened_of_step (e := .expire expired) not_false not_false rfl).trans ?_
    refine ⟨fun h peer hpeer => ?_, fun h => ⟨fun peer => ?_, rfl⟩⟩
    · have hheld : (Function.update s.receivers.receiving expired none peer).map
          ReceiveManager.transferId ≠ some t := h.1 peer
      rwa [Function.update_of_ne hpeer] at hheld
    · change (Function.update s.receivers.receiving expired none peer).map
          ReceiveManager.transferId ≠ some t
      by_cases hpeer : peer = expired
      · rw [hpeer, Function.update_self]
        simp
      · rw [Function.update_of_ne hpeer]
        exact h peer hpeer
  | resume index =>
    cases hjob : s.jobs[index]? with
    | none =>
      have hstep : s.step z (.resume index) = none := by
        rw [step, hjob]
        rfl
      refine ⟨fun _ job hjob' => ?_, fun _ => ⟨not_false, not_false, fun s' hs' => ?_⟩⟩
      · rw [hjob] at hjob'
        cases hjob'
      · rw [hstep] at hs'
        cases hs'
    | some job =>
      have hstep : s.step z (.resume index) =
          some (execute z { s with jobs := s.jobs.eraseIdx index } job) := by
        rw [step, hjob]
        rfl
      have hleaves : job.Leaves { s with jobs := s.jobs.eraseIdx index } t ↔ job.Leaves s t := by
        rfl
      refine (notReopened_of_step (e := .resume index) not_false not_false hstep).trans ?_
      rw [row_execute, hleaves]
      simp only [heldId_execute, Untouched, hjob, Option.mem_some_iff, forall_eq', hrow',
        reduceCtorEq, false_or]
      rfl
  | structuredPartialCleanup threshold =>
    refine (notReopened_of_step (e := .structuredPartialCleanup threshold) not_false not_false
      rfl).trans ?_
    exact ⟨fun h => h.1, fun h => ⟨h, rfl⟩⟩
  | sweepPartialCleanup name =>
    refine (notReopened_of_step (e := .sweepPartialCleanup name) not_false not_false rfl).trans ?_
    exact ⟨fun h => h.1, fun h => ⟨h, rfl⟩⟩
  | putFilerequest id f =>
    refine (notReopened_of_step (e := .putFilerequest id f) not_false not_false rfl).trans ?_
    exact ⟨fun h => h.1, fun h => ⟨h, rfl⟩⟩
  | deleteFilerequest id =>
    refine (notReopened_of_step (e := .deleteFilerequest id) not_false not_false rfl).trans ?_
    refine and_congr Iff.rfl ?_
    rw [deleteFilerequest, row_filter, filter_row_iff hrow', hrow']
    simp
  | deleteReceivedFile id =>
    refine (notReopened_of_step (e := .deleteReceivedFile id) not_false not_false rfl).trans ?_
    refine and_congr Iff.rfl ?_
    rw [deleteReceivedFile, row_filter, filter_row_iff hrow', hrow']
    simp
  | restart =>
    refine (notReopened_of_step (e := .restart) not_false not_false rfl).trans ?_
    exact ⟨fun _ => trivial, fun _ => ⟨by rintro _ ⟨⟩, rfl⟩⟩

/-! ### All later events -/

/-- The step lemma along a list of events: as long as nothing is reopened the row is there. -/
theorem admitted_notReopened_iff (later : List Event) (hrow : (s.tables.row t).isSome = true) :
    Admitted (step z) (NotReopened z t) s later ↔ Admitted (step z) (Untouched z t) s later := by
  induction later generalizing s with
  | nil => exact Iff.rfl
  | cons e later ih =>
    rw [Admitted, Admitted, ← notReopened_step_iff hrow]
    refine and_congr_right fun hnot => forall_congr' fun s' => forall_congr' fun hs' => ih ?_
    rw [(hnot.2.2 s' hs').2]
    exact hrow

/-- `ConfirmDone` is sent for a transfer in memory, after the brain has found its row. -/
theorem stored_of_confirmDone {path env nodeId contactId r}
    (h : (respondTo path env nodeId contactId (.done t) r).response = .confirmDone) :
    r.receiving.map ReceiveManager.transferId = some t ∧ env.storesReceivedFile = true := by
  rw [respondTo, done] at h
  split at h
  · cases h
  · next m hm =>
    split at h
    · cases h
    · next hid =>
      rw [hm]
      refine ⟨congrArg some (not_not.mp hid), ?_⟩
      split at h
      · cases h
      · split at h
        · cases h
        · split at h
          · cases h
          · split at h
            · assumption
            · cases h

theorem isSome_row_respond (hrow : (s.tables.row t).isSome = true) :
    ((s.respond z a).tables.row t).isSome = true := by
  have htold := told (z := z) (s := s) (a := a)
  generalize (s.respond z a).tables = tables at htold ⊢
  generalize (s.respond z a).heldId a.peer = held, (s.respond z a).jobs = jobs,
    (s.respond z a).emitted = emitted at htold
  cases htold with
  | quiet | resumed | updated => exact hrow
  | @created _ transferId _ _ _ _ hrequest hcreate =>
    obtain ⟨-, ⟨row, hrow', -⟩, hother⟩ := row_insert hcreate
    obtain rfl | hne := eq_or_ne t transferId
    · exact Option.isSome_of_eq_some hrow'
    · rwa [hother t hne]
  | completed hrequest hheld hcomplete =>
    rw [row_completeReceivedFile hcomplete t, Option.isSome_map]
    exact hrow

/-- **The end of a transfer.** When `Done` is confirmed, the entry of the transfer stays. From
then on, the transfer is not reopened in a list of events, whatever they are and however long the
list, if and only if each of the events leaves it alone. -/
theorem notReopened_iff (hconfirms : s.Confirms z t a) :
    (s.respond z a).heldId a.peer = some t ∧ ∀ later,
      Admitted (step z) (NotReopened z t) (s.respond z a) later ↔
        Admitted (step z) (Untouched z t) (s.respond z a) later := by
  obtain ⟨hrequest, hresponse⟩ := hconfirms
  have hreply := reply_eq (z := z) (s := s) hrequest
  rw [hreply] at hresponse
  obtain ⟨hheld, hstores⟩ := stored_of_confirmDone hresponse
  have hrow : (s.tables.row t).isSome = true := by
    simp only [env, hrequest, Bool.and_eq_true] at hstores
    exact hstores.2
  refine ⟨?_, fun later => admitted_notReopened_iff later (isSome_row_respond hrow)⟩
  rw [heldId_respond, if_pos rfl, hreply]
  refine (leftId_done t).trans ?_
  rw [hheld, Option.filter_some, if_pos (decide_eq_true rfl)]

/-! ### A transfer that is reopened -/

/-- One public file request. -/
def sampleTables : IncomingTables :=
  empty.putFilerequest ⟨"filerequest"⟩ ⟨.isPublic, true⟩

/-- A request of a peer without a contact, when everything works. -/
def sampleAsked (request : FileRequest) : Asked where
  peer := ⟨"peer"⟩
  contactId := none
  request := request
  env := readyAt 0
  newId := ⟨"row"⟩
  db := ⟨∅, ⟨⟨"self"⟩, ()⟩⟩
  reads := ⟨true, true⟩

/-- The peer has sent a file of one byte. -/
def sampleSent : List Event :=
  [.request (sampleAsked (.newTransfer ⟨"filerequest"⟩ "name" 1 ⟨"transfer"⟩)),
    .request (sampleAsked (.chunk ⟨⟨"transfer"⟩, [1], 0⟩))]

/-- A file of one byte is sent and its end confirmed. -/
theorem notReopened_iff_sample : ∃ s,
    Run (step .sample) (fun _ _ => True) (start .new sampleTables) sampleSent s ∧
    s.Confirms .sample ⟨"transfer"⟩ (sampleAsked (.done ⟨"transfer"⟩)) ∧
    (s.respond .sample (sampleAsked (.done ⟨"transfer"⟩))).heldId ⟨"peer"⟩ =
      some ⟨"transfer"⟩ ∧
    ∀ later, Admitted (step .sample) (NotReopened .sample ⟨"transfer"⟩)
        (s.respond .sample (sampleAsked (.done ⟨"transfer"⟩))) later ↔
      Admitted (step .sample) (Untouched .sample ⟨"transfer"⟩)
        (s.respond .sample (sampleAsked (.done ⟨"transfer"⟩))) later :=
  ⟨_, Run.get_runFrom, ⟨rfl, by decide⟩,
    notReopened_iff ⟨rfl, by decide⟩⟩

/-- **A transfer that is reopened.** After `ConfirmDone` the peer goes on with the transfer, which
is still in memory, and sends an empty chunk. When the tasks are done the row says that the file is
being received. And when the entry has expired, the transfer is taken up from the database. -/
theorem reopened_after_done : ∃ s,
    Run (step .sample) (fun _ _ => True) (start .new sampleTables) sampleSent s ∧
    s.Confirms .sample ⟨"transfer"⟩ (sampleAsked (.done ⟨"transfer"⟩)) ∧
    ∃ s', s' = s.respond .sample (sampleAsked (.done ⟨"transfer"⟩)) ∧
    (s'.tables.row ⟨"transfer"⟩).map ReceivedFile.status = some .completed ∧
    s'.Accepts .sample ⟨"transfer"⟩
      (.request (sampleAsked (.continueTransfer ⟨"filerequest"⟩ ⟨"transfer"⟩))) ∧
    (∃ s'', Run (step .sample) (fun _ _ => True) s'
        [.request (sampleAsked (.continueTransfer ⟨"filerequest"⟩ ⟨"transfer"⟩)),
          .request (sampleAsked (.chunk ⟨⟨"transfer"⟩, [], 0⟩)), .resume 0, .resume 0] s'' ∧
      (s''.tables.row ⟨"transfer"⟩).map ReceivedFile.status = some .receiving ∧
      s''.heldId ⟨"peer"⟩ = some ⟨"transfer"⟩ ∧ s''.jobs = []) ∧
    ∃ s'', Run (step .sample) (fun _ _ => True) s' [.expire ⟨"peer"⟩] s'' ∧
      s''.Accepts .sample ⟨"transfer"⟩
        (.request (sampleAsked (.continueTransfer ⟨"filerequest"⟩ ⟨"transfer"⟩))) :=
  ⟨_, Run.get_runFrom, ⟨rfl, by decide⟩, _, rfl, by decide,
    ⟨⟨_, rfl⟩, 1, by decide⟩,
    ⟨_, Run.get_runFrom, by decide, by decide, by decide⟩,
    _, Run.get_runFrom, ⟨_, rfl⟩, 0, by decide⟩

end Fyles.Reception
