import Fyles.CompletedTransfers
import Fyles.ExpiringMaps
import Fyles.TrackerRuns

/-!
# What a peer can do to the others

The file tracker, the receivers and the tables of incoming files side by side, with all peers in
them. A peer acts on them by a request, a response, an error, or by being disconnected; whatever
then happens on its behalf, at once or in a task that is executed later, is attributed to it.

In memory the peers are kept apart by the keys of the maps. A handler of the tracker works on the
entry of one peer. The receiver goes through the transfers of all peers when a clean-up is due, and
removes those that were idle for too long, but it touches no other.

In the database they are not kept apart. A row of `received_files` is updated by its transfer id
alone. As long as the row of a transfer is there, no other peer can create one with the same id. But
the user may delete a row while its transfer is in memory, or while a task that updates it waits.
Then another peer may create a row with this id, and it is changed on behalf of the first one.

## Main results

* `IncomingTables.rowsOfOthers_update` — an update on behalf of the peer that has the row
* `Party.Rightful.step` — every peer has the rows that are written to on its behalf
* `peers_isolated` — what is left alone in every state, and what in runs without such deletions
* `row_of_another_peer` — a row that is changed on behalf of another peer
-/

namespace Fyles

open PartFiles IdleExpiryMap IncomingTables

/-! ### The rows of a peer -/

namespace IncomingTables

variable {t : IncomingTables} {peer other : PeerId} {transferId transferId' : FylesId}
  {row : ReceivedFile}

/-- The row of a transfer is there, and it is one of this peer. -/
def Owns (t : IncomingTables) (peer : PeerId) (transferId : FylesId) : Prop :=
  ∃ row ∈ t.receivedFiles, row.transferId = some transferId ∧ row.peerId = peer

/-- The rows of all other peers. -/
def rowsOfOthers (t : IncomingTables) (peer : PeerId) : List ReceivedFile :=
  t.receivedFiles.filter fun row => row.peerId ≠ peer

theorem owns_of_row (h : t.row transferId = some row) : t.Owns row.peerId transferId :=
  ⟨row, List.mem_of_find?_eq_some h, transferId_of_row h, rfl⟩

/-- A transfer has one row, so it has one peer. -/
theorem Owns.peerId_eq (h : t.Owns peer transferId) (hrow : row ∈ t.receivedFiles)
    (hid : row.transferId = some transferId) : row.peerId = peer := by
  obtain ⟨row', hrow', hid', hpeer⟩ := h
  have hsame : some row = some row' := (row_of_mem hrow hid).symm.trans (row_of_mem hrow' hid')
  rw [Option.some.inj hsame, hpeer]

section Updates

variable {f : ReceivedFile → ReceivedFile} (hf : KeepsKeys f)

/-- An update leaves the peers of all rows as they are. -/
theorem Owns.update (h : t.Owns peer transferId) (hpeer : ∀ row, (f row).peerId = row.peerId) :
    (t.update transferId' f hf).Owns peer transferId := by
  obtain ⟨row, hrow, hid, rfl⟩ := h
  refine ⟨_, List.mem_map_of_mem hrow, ?_⟩
  split
  · exact ⟨(hf row).2.1.trans hid, hpeer row⟩
  · exact ⟨hid, rfl⟩

/-- **An update on behalf of the peer that has the row.** -/
theorem rowsOfOthers_update (h : t.Owns peer transferId)
    (hpeer : ∀ row, (f row).peerId = row.peerId) :
    (t.update transferId f hf).rowsOfOthers peer = t.rowsOfOthers peer := by
  have hkept : (fun row : ReceivedFile => decide (row.peerId ≠ peer)) ∘
      (fun row => if row.transferId = some transferId then f row else row) =
      fun row => decide (row.peerId ≠ peer) := by
    funext row
    dsimp only [Function.comp]
    split
    · rw [hpeer]
    · rfl
  rw [rowsOfOthers, rowsOfOthers, IncomingTables.update, List.filter_map, hkept]
  -- A row that stays in the list has another peer, and so another transfer.
  refine (List.map_congr_left fun row hrow => ?_).trans (List.map_id _)
  obtain ⟨hmem, hother⟩ := List.mem_filter.mp hrow
  exact if_neg fun hid => of_decide_eq_true hother (h.peerId_eq hmem hid)

end Updates

theorem Owns.updateReceivedFileStatus {status} {progressBytes : ℕ} (h : t.Owns peer transferId) :
    ((t.updateReceivedFileStatus transferId' status progressBytes).getD t).Owns peer
      transferId := by
  rw [IncomingTables.updateReceivedFileStatus]
  split
  · exact h.update keepsKeys_withStatus fun _ => rfl
  · exact h

theorem rowsOfOthers_updateReceivedFileStatus {status} {progressBytes : ℕ}
    (h : t.Owns peer transferId) :
    ((t.updateReceivedFileStatus transferId status progressBytes).getD t).rowsOfOthers peer =
      t.rowsOfOthers peer := by
  rw [IncomingTables.updateReceivedFileStatus]
  split
  · exact rowsOfOthers_update keepsKeys_withStatus h fun _ => rfl
  · rfl

theorem receivedFiles_createIncomingFile {t' id filerequestId contactId} {fileName : String}
    {fileSizeBytes : ℕ} {startedAtMs : ℤ}
    (h : t.createIncomingFile id filerequestId transferId contactId peer fileName fileSizeBytes
      startedAtMs = some t') :
    t'.receivedFiles = t.receivedFiles ++ [.new id filerequestId transferId contactId peer fileName
      fileSizeBytes startedAtMs] := by
  rw [createIncomingFile] at h
  split at h
  · obtain ⟨⟩ := h
    rfl
  · cases h

/-- A transfer may go on for the peer that has its row. -/
theorem owns_of_requestFileTransferContinuation {filerequestId contactId}
    (h : (t.requestFileTransferContinuation filerequestId transferId
      peer contactId).isSome = true) : t.Owns peer transferId := by
  rw [requestFileTransferContinuation] at h
  split at h
  · next filerequest row _ hrow =>
    split at h
    · cases h
    · split at h
      · cases h
      · split at h
        · cases h
        · next hpeer => exact not_not.mp hpeer ▸ owns_of_row hrow
  · cases h

theorem Owns.filter {filerequests : AList fun _ : FylesId => Filerequest}
    {kept : ReceivedFile → Bool}
    (href : ∀ row ∈ t.receivedFiles, kept row = true → row.filerequestId ∈ filerequests)
    (h : t.Owns peer transferId)
    (hkept : ∀ row ∈ t.receivedFiles, row.transferId = some transferId → row.peerId = peer →
      kept row = true) : (t.filter filerequests kept href).Owns peer transferId := by
  obtain ⟨row, hrow, hid, hpeer⟩ := h
  exact ⟨row, List.mem_filter.mpr ⟨hrow, hkept row hrow hid hpeer⟩, hid, hpeer⟩

end IncomingTables

/-! ### Requests -/

namespace Reception

variable {z : Sanitizer} {s : Reception} {a : Asked}

/-- What a request does to the transfer of its peer, to the tables and to the jobs. -/
inductive Answers (s : Reception) (a : Asked) :
    Option FylesId → IncomingTables → List Job → Prop
  /-- The database is not written to. The transfer in memory is the one from before, or dropped. -/
  | quiet {held} (hheld : held = s.heldId a.peer ∨ held = none) : Answers s a held s.tables s.jobs
  | created {transferId row tables}
      (hid : row.transferId = some transferId) (hpeer : row.peerId = a.peer)
      (hrows : tables.receivedFiles = s.tables.receivedFiles ++ [row]) :
      Answers s a (some transferId) tables s.jobs
  | resumed {transferId} (howns : s.tables.Owns a.peer transferId) :
      Answers s a (some transferId) s.tables s.jobs
  | updated {held transferId status progressBytes}
      (hid : s.heldId a.peer = some transferId ∨ s.tables.Owns a.peer transferId)
      (hheld : held = s.heldId a.peer ∨ held = none) :
      Answers s a held s.tables (s.jobs ++ [.update transferId status progressBytes])
  | completed {transferId filePath receivedAtMs} (hheld : s.heldId a.peer = some transferId) :
      Answers s a (some transferId)
        (s.tables.update transferId (.complete filePath receivedAtMs)
          keepsKeys_complete) s.jobs

/-- A transfer goes on only after the brain has found the row with this peer. -/
theorem owns_of_continuation {filerequestId transferId}
    (hrequest : a.request = .continueTransfer filerequestId transferId)
    (h : (s.env a).continuation.isSome = true) : s.tables.Owns a.peer transferId := by
  simp only [env, hrequest] at h
  exact owns_of_requestFileTransferContinuation h

/-- **What a request does.** -/
theorem answers : Answers s a ((s.respond z a).heldId a.peer) (s.respond z a).tables
    (s.respond z a).jobs := by
  have htold := told (z := z) (s := s) (a := a)
  generalize (s.respond z a).heldId a.peer = held, (s.respond z a).tables = tables,
    (s.respond z a).jobs = jobs at htold ⊢
  generalize (s.respond z a).emitted = emitted at htold
  cases htold with
  | quiet hheld => exact .quiet hheld
  | created hrequest hcreate =>
    exact .created rfl rfl (receivedFiles_createIncomingFile hcreate)
  | resumed hrequest hcontinues => exact .resumed (owns_of_continuation hrequest hcontinues)
  | updated hid hheld =>
    refine .updated (hid.imp_right ?_) hheld
    rintro ⟨hcontinues, filerequestId, hrequest⟩
    exact owns_of_continuation hrequest hcontinues
  | completed hrequest hid hcomplete =>
    rw [completeReceivedFile] at hcomplete
    split at hcomplete
    · obtain ⟨⟩ := hcomplete
      exact .completed hid
    · cases hcomplete

namespace Answers

variable {held : Option FylesId} {tables : IncomingTables} {jobs : List Job} {peer : PeerId}
  {transferId : FylesId}

theorem owns (h : Answers s a held tables jobs) (howns : s.tables.Owns peer transferId) :
    tables.Owns peer transferId := by
  cases h with
  | quiet | resumed | updated => exact howns
  | created hid hpeer hrows =>
    obtain ⟨row, hrow, howned⟩ := howns
    exact ⟨row, hrows ▸ List.mem_append_left _ hrow, howned⟩
  | completed => exact howns.update keepsKeys_complete fun _ => rfl

variable (hheld : ∀ transferId, s.heldId a.peer = some transferId →
  s.tables.Owns a.peer transferId)

include hheld

theorem owns_held (h : Answers s a held tables jobs) (htransfer : held = some transferId) :
    tables.Owns a.peer transferId := by
  have hkept : held = s.heldId a.peer ∨ held = none → s.tables.Owns a.peer transferId := by
    rintro (heq | hnone)
    · exact hheld transferId (heq.symm.trans htransfer)
    · cases hnone.symm.trans htransfer
  cases h with
  | quiet hsame => exact hkept hsame
  | updated _ hsame => exact hkept hsame
  | @created transferId' row _ hid hpeer hrows =>
    obtain rfl : transferId' = transferId := Option.some.inj htransfer
    exact ⟨row, hrows ▸ List.mem_append_right _ (List.mem_singleton_self row), hid, hpeer⟩
  | @resumed transferId' howns =>
    obtain rfl : transferId' = transferId := Option.some.inj htransfer
    exact howns
  | @completed transferId' _ _ hsame =>
    obtain rfl : transferId' = transferId := Option.some.inj htransfer
    exact (hheld _ hsame).update keepsKeys_complete fun _ => rfl

theorem exists_jobs (h : Answers s a held tables jobs) : ∃ new, jobs = s.jobs ++ new ∧
    ∀ job ∈ new, ∃ transferId status progressBytes,
      job = .update transferId status progressBytes ∧ s.tables.Owns a.peer transferId := by
  cases h with
  | quiet | created | resumed | completed => exact ⟨[], (List.append_nil _).symm, nofun⟩
  | updated hid _ =>
    refine ⟨_, rfl, fun job hjob => ?_⟩
    obtain rfl := List.mem_singleton.mp hjob
    exact ⟨_, _, _, rfl, hid.elim (hheld _) id⟩

/-- A request leaves the rows of the other peers alone. -/
theorem rowsOfOthers (h : Answers s a held tables jobs) :
    tables.rowsOfOthers a.peer = s.tables.rowsOfOthers a.peer := by
  cases h with
  | quiet | resumed | updated => rfl
  | created hid hpeer hrows =>
    rw [IncomingTables.rowsOfOthers, hrows, List.filter_append,
      List.filter_cons_of_neg (by simp [hpeer]), List.filter_nil, List.append_nil]
    rfl
  | completed hsame =>
    exact rowsOfOthers_update keepsKeys_complete (hheld _ hsame)
      fun _ => rfl

end Answers

theorem owns_execute {peer transferId} (job : Job) (h : s.tables.Owns peer transferId) :
    (execute z s job).tables.Owns peer transferId := by
  rw [execute.eq_def]
  split
  · exact h.updateReceivedFileStatus
  · exact h
  · split
    · exact h
    · exact h.updateReceivedFileStatus

/-- The transfer that a job is for, unless it goes through a list of rows. -/
def Job.transferId : Job → Option FylesId
  | .update transferId _ _ => some transferId
  | .cleanup _ => none

end Reception

/-! ### All peers -/

/-- Everything that peers have an effect on. Times are in milliseconds. -/
structure Party where
  tracker : FileTracker.World
  /-- The receivers and the tables. The jobs here are those of nobody. -/
  reception : Reception
  /-- The tasks of the brain that update rows, and the peer on whose behalf. -/
  updates : List (PeerId × Reception.Job)
  /-- When the transfer of a peer was last touched. -/
  touched : PeerId → ℕ
  lastCleanup : ℕ

namespace Party

/-- What can happen. -/
inductive Event
  /-- A handler of the tracker is called, or goes on. -/
  | track (event : FileTracker.Event) (env : FileTracker.Env)
  /-- A peer sends a request. The entry is looked up at `now`, looked at again after `wait`, and
  `work` later touched for the last time. -/
  | request (asked : Reception.Asked) (now wait work : ℕ)
  /-- A task that updates a row is executed. -/
  | update (index : ℕ)
  /-- What no peer has asked for. -/
  | upkeep (event : Reception.Event)
  /-- The service ends and is started again. -/
  | restart (now : ℕ)

/-- The service has just started. -/
def start (receivers : Receivers) (tables : IncomingTables) (now : ℕ) : Party where
  tracker := .new
  reception := .start receivers tables
  updates := []
  touched _ := now
  lastCleanup := now

section Steps

variable (z : Sanitizer) (n : Party)

/-- `receiving_files`: an idle transfer is forgotten after 30 seconds, and a clean-up is due after
35 seconds. -/
def receivingFiles : IdleExpiryMap PeerId ReceiveManager where
  entries peer := (n.reception.receivers.receiving peer).map fun m => (m, n.touched peer)
  idleTtl := 30000
  cleanupInterval := 35000
  lastCleanup := n.lastCleanup

variable (a : Reception.Asked)

/-- What a request finds in `receiving_files`. -/
def looked (now wait : ℕ) : IdleExpiryMap PeerId ReceiveManager :=
  let files := n.receivingFiles.entry now a.peer
  match a.request with
  | .newTransfer .. => files
  | .continueTransfer .. | .abortTransfer _ | .protocolViolation _ =>
    files.lookUp (now + wait) a.peer
  -- These do not use the entry that they were given but go to the map again.
  | .chunk _ | .done _ => files.entry (now + wait) a.peer

/-- The receivers, with the transfers that a request finds. -/
def found (now wait : ℕ) : Reception :=
  { n.reception with receivers := { n.reception.receivers with
      receiving := fun peer => ((n.looked a now wait).entries peer).map Prod.fst } }

/-- When the transfer of the peer was last touched, after a request. A new transfer that is not
accepted leaves the entry alone. -/
def touchedAfter (now wait work : ℕ) : ℕ :=
  match a.request, ((n.found a now wait).reply z a).response with
  | .newTransfer .., .acceptNewTransfer => now + wait + work
  | .newTransfer .., _ => n.touched a.peer
  | _, _ => now + wait + work

/-- A request. -/
def request (now wait work : ℕ) : Party :=
  let after := (n.found a now wait).respond z a
  { n with
    reception := { after with jobs := n.reception.jobs }
    updates := n.updates ++
      (after.jobs.drop n.reception.jobs.length).map fun job => (a.peer, job)
    touched := Function.update n.touched a.peer (n.touchedAfter z a now wait work)
    lastCleanup := (n.looked a now wait).lastCleanup }

/-- What happens. A handler that blocks or panics has done what it has done. -/
def step : Event → Option Party
  | .track event env => some { n with tracker := (n.tracker.stepControl (event, env)).1 }
  | .request asked now wait work => some (n.request z asked now wait work)
  | .update index => n.updates[index]?.map fun u => { n with
      reception := n.reception.execute z u.2
      updates := n.updates.eraseIdx index }
  -- Transfers expire in the course of requests.
  | .upkeep (.request _) | .upkeep (.expire _) | .upkeep .restart => none
  | .upkeep event => (n.reception.step z event).map fun s => { n with reception := s }
  | .restart now => some (start n.reception.receivers n.reception.tables now)

/-- The peer on whose behalf something happens. -/
def attributed : Event → Option PeerId
  | .track (.call handler) _ => handler.peer n.tracker.tracker
  | .track (.resume index) _ => n.tracker.tasks[index]?.map Prod.fst
  | .request asked _ _ _ => some asked.peer
  | .update index => n.updates[index]?.map Prod.fst
  | .upkeep _ | .restart _ => none

end Steps

/-- When `receiving_files` is looked at for the last time. -/
def Event.time : Event → ℕ
  | .request _ now wait _ => now + wait
  | _ => 0

/-- The transfer of a peer was idle for too long. -/
def IsIdle (n : Party) (time : ℕ) (peer : PeerId) : Prop :=
  n.receivingFiles.idleTtl ≤ time - n.touched peer

/-- The entries of all other peers are left alone: what is queued and sent to them, how often it was
tried, and what is received from them. -/
structure Spares (n : Party) (time : ℕ) (peer : PeerId) (n' : Party) : Prop where
  tracker : ∀ other ≠ peer,
    n'.tracker.tracker.files.lookup other = n.tracker.tracker.files.lookup other
  receiving : ∀ other ≠ peer,
    n'.reception.receivers.receiving other = n.reception.receivers.receiving other ∨
      n.IsIdle time other ∧ n'.reception.receivers.receiving other = none

/-- A row that is still written to: its transfer is in memory, or a task that updates it waits. -/
def isUnderWay (n : Party) (row : ReceivedFile) : Bool :=
  row.transferId.any fun transferId =>
    decide (n.reception.heldId row.peerId = some transferId) ||
      n.updates.any fun u => u.2.transferId = some transferId

/-- The user deletes no row that is still written to. -/
def Kempt (n : Party) : Event → Prop
  | .upkeep (.deleteReceivedFile id) => ∀ row ∈ n.reception.tables.receivedFiles,
      row.id = id → n.isUnderWay row = false
  | .upkeep (.deleteFilerequest id) => ∀ row ∈ n.reception.tables.receivedFiles,
      row.filerequestId = id → n.isUnderWay row = false
  | _ => True

instance decidableKempt (n : Party) (e : Event) : Decidable (n.Kempt e) := by
  rw [Kempt.eq_def]
  split <;> infer_instance

variable {z : Sanitizer} {n n' : Party} {e : Event} {peer other : PeerId} {a : Reception.Asked}
  {now wait work : ℕ}

/-! ### Entries in memory -/

/-- An access to `receiving_files` leaves the transfers of other peers, unless they are idle. -/
theorem entries_looked (h : other ≠ a.peer) :
    (n.looked a now wait).entries other = n.receivingFiles.entries other ∨
      n.IsIdle (now + wait) other ∧ (n.looked a now wait).entries other = none := by
  -- What is idle at the first access is idle at the second one.
  have hidle : ∀ time ≤ now + wait, ∀ e, n.receivingFiles.entries other = some e →
      n.receivingFiles.isExpired time e = true → n.IsIdle (now + wait) other := by
    intro time htime e he hexpired
    obtain ⟨m, -, rfl⟩ := Option.map_eq_some_iff.mp he
    have hlong : n.receivingFiles.idleTtl ≤ time - n.touched other := of_decide_eq_true hexpired
    exact hlong.trans (Nat.sub_le_sub_right htime _)
  have hfirst : (n.receivingFiles.entry now a.peer).entries other =
      n.receivingFiles.entries other ∨ n.IsIdle (now + wait) other ∧
        (n.receivingFiles.entry now a.peer).entries other = none := by
    rcases entries_entry h with heq | ⟨hnone, e, he, hexpired⟩
    · exact .inl heq
    · exact .inr ⟨hidle now (Nat.le_add_right now wait) e he hexpired, hnone⟩
  rw [looked]
  split
  · exact hfirst
  · rwa [entries_lookUp h]
  · rwa [entries_lookUp h]
  · rwa [entries_lookUp h]
  all_goals
    rcases entries_entry h with heq | ⟨hnone, e, he, hexpired⟩
    · rwa [heq]
    · refine .inr ⟨?_, hnone⟩
      rw [isExpired, idleTtl_entry] at hexpired
      exact hidle (now + wait) le_rfl e (entries_of_entry he) hexpired

/-- A request finds no transfer that was not there. -/
theorem entries_of_looked {entry} (h : (n.looked a now wait).entries other = some entry) :
    n.receivingFiles.entries other = some entry := by
  rw [looked] at h
  split at h
  · exact entries_of_entry h
  · exact entries_of_entry (entries_of_lookUp h)
  · exact entries_of_entry (entries_of_lookUp h)
  · exact entries_of_entry (entries_of_lookUp h)
  · exact entries_of_entry (entries_of_entry h)
  · exact entries_of_entry (entries_of_entry h)

/-- The transfers of other peers after a request are those that it has found. -/
theorem receiving_request (h : other ≠ a.peer) :
    (n.request z a now wait work).reception.receivers.receiving other =
      ((n.looked a now wait).entries other).map Prod.fst :=
  Function.update_of_ne h _ _

/-- A section of the tracker works on the entry of one peer. -/
theorem lookup_stepControl {w : FileTracker.World} {event env}
    (hother : ∀ section', w.sectionOf env event = some section' →
      other ≠ section'.1) :
    (w.stepControl (event, env)).1.tracker.files.lookup other = w.tracker.files.lookup other := by
  rw [FileTracker.World.stepControl]
  cases hsection : w.sectionOf env event with
  | none => rfl
  | some section' =>
    exact FileTracker.CoreFileTracker.lookup_leave_ne (hother section' hsection)

/-- **Memory.** Whatever happens on behalf of a peer, the entries of the others are left alone. -/
theorem spares_step (hstep : n.step z e = some n') (hpeer : n.attributed e = some peer) :
    n.Spares e.time peer n' := by
  cases e with
  | track event env =>
    obtain ⟨⟩ := hstep
    refine ⟨fun other hother => lookup_stepControl fun section' hsection => ?_,
      fun _ _ => .inl rfl⟩
    cases event with
    | call handler =>
      obtain ⟨owner, howner, rfl⟩ := Option.map_eq_some_iff.mp hsection
      cases hpeer.symm.trans howner
      exact hother
    | resume index =>
      obtain ⟨task, htask, rfl⟩ := Option.map_eq_some_iff.mp hsection
      obtain ⟨task', htask', rfl⟩ := Option.map_eq_some_iff.mp hpeer
      cases htask.symm.trans htask'
      exact hother
  | request a now wait work =>
    obtain ⟨⟩ := hstep
    obtain rfl : a.peer = peer := Option.some.inj hpeer
    refine ⟨fun _ _ => rfl, fun other hother => ?_⟩
    rw [receiving_request hother]
    refine (entries_looked hother).imp (fun heq => ?_) fun ⟨hidle, hnone⟩ => ⟨hidle, ?_⟩
    · rw [heq, receivingFiles, Option.map_map]
      exact Option.map_id_apply
    · rw [hnone]
      rfl
  | update index =>
    obtain ⟨u, -, rfl⟩ := Option.map_eq_some_iff.mp hstep
    refine ⟨fun _ _ => rfl, fun other _ => .inl ?_⟩
    exact congrFun (Reception.receiving_execute u.2) other
  | upkeep | restart => cases hpeer

/-! ### Rows -/

/-- Every peer has the rows that are written to on its behalf. -/
structure Rightful (n : Party) : Prop where
  held : ∀ peer transferId, n.reception.heldId peer = some transferId →
    n.reception.tables.Owns peer transferId
  updates : ∀ u ∈ n.updates, ∃ transferId status progressBytes,
    u.2 = .update transferId status progressBytes ∧ n.reception.tables.Owns u.1 transferId

theorem rightful_start (receivers : Receivers) (tables : IncomingTables) (now : ℕ) :
    (start receivers tables now).Rightful :=
  ⟨nofun, nofun⟩

theorem heldId_of_found {transferId} (h : (n.found a now wait).heldId other = some transferId) :
    n.reception.heldId other = some transferId := by
  obtain ⟨m, hm, rfl⟩ := Option.map_eq_some_iff.mp h
  obtain ⟨entry, hentry, rfl⟩ := Option.map_eq_some_iff.mp hm
  obtain ⟨m', hm', rfl⟩ := Option.map_eq_some_iff.mp (entries_of_looked hentry)
  exact congrArg (Option.map _) hm'

namespace Rightful

/-- The tables change, but no peer loses a row; no transfer is new, and no task. -/
theorem mono (h : n.Rightful)
    (hheld : ∀ peer transferId, n'.reception.heldId peer = some transferId →
      n.reception.heldId peer = some transferId)
    (hupdates : n'.updates ⊆ n.updates)
    (howns : ∀ peer transferId, n.reception.tables.Owns peer transferId →
      (n.reception.heldId peer = some transferId ∨
        ∃ u ∈ n.updates, u.2.transferId = some transferId) →
      n'.reception.tables.Owns peer transferId) : n'.Rightful := by
  refine ⟨fun peer transferId hin => ?_, fun u hu => ?_⟩
  · have hin' := hheld peer transferId hin
    exact howns peer transferId (h.held peer transferId hin') (.inl hin')
  · obtain ⟨transferId, status, progressBytes, hjob, hu'⟩ := h.updates u (hupdates hu)
    refine ⟨transferId, status, progressBytes, hjob, howns u.1 transferId hu' (.inr ?_)⟩
    exact ⟨u, hupdates hu, congrArg Reception.Job.transferId hjob⟩

/-- A request finds a transfer only if the peer has its row. -/
theorem held_found (h : n.Rightful) (transferId : FylesId)
    (hin : (n.found a now wait).heldId peer = some transferId) :
    (n.found a now wait).tables.Owns peer transferId :=
  h.held peer transferId (heldId_of_found hin)

theorem request (h : n.Rightful) : (n.request z a now wait work).Rightful := by
  have hanswers := Reception.answers (z := z) (s := n.found a now wait) (a := a)
  refine ⟨fun peer transferId hin => ?_, fun u hu => ?_⟩
  · change ((n.found a now wait).respond z a).heldId peer = some transferId at hin
    by_cases hpeer : peer = a.peer
    · subst hpeer
      exact hanswers.owns_held h.held_found hin
    · rw [Reception.heldId_respond, if_neg hpeer] at hin
      exact hanswers.owns (h.held_found transferId hin)
  · obtain ⟨new, hnew, hjobs⟩ := hanswers.exists_jobs h.held_found
    change u ∈ n.updates ++ (((n.found a now wait).respond z a).jobs.drop
      (n.found a now wait).jobs.length).map fun job => (a.peer, job) at hu
    rw [hnew, List.drop_left] at hu
    obtain hold | hmem := List.mem_append.mp hu
    · obtain ⟨transferId, status, progressBytes, hjob, howns⟩ := h.updates u hold
      exact ⟨transferId, status, progressBytes, hjob, hanswers.owns howns⟩
    · obtain ⟨job, hjob, rfl⟩ := List.mem_map.mp hmem
      obtain ⟨transferId, status, progressBytes, rfl, howns⟩ := hjobs job hjob
      exact ⟨transferId, status, progressBytes, rfl, hanswers.owns howns⟩

/-- A row that somebody writes to is not among those that are deleted. -/
theorem isUnderWay {transferId row} (hid : row.transferId = some transferId)
    (h : n.reception.heldId row.peerId = some transferId ∨
      ∃ u ∈ n.updates, u.2.transferId = some transferId) : n.isUnderWay row = true := by
  rw [Party.isUnderWay, hid, Option.any_some, Bool.or_eq_true, decide_eq_true_eq, List.any_eq_true]
  exact h.imp_right fun ⟨u, hu, heq⟩ => ⟨u, hu, decide_eq_true heq⟩

theorem delete {kept : ReceivedFile → Bool} {filerequests : AList fun _ : FylesId => Filerequest}
    {href : ∀ row ∈ n.reception.tables.receivedFiles, kept row = true →
      row.filerequestId ∈ filerequests} (h : n.Rightful)
    (hkempt : ∀ row ∈ n.reception.tables.receivedFiles, kept row = false →
      n.isUnderWay row = false) :
    Rightful { n with reception := { n.reception with
      tables := n.reception.tables.filter filerequests kept href } } := by
  refine h.mono (fun _ _ hin => hin) (List.Subset.refl _) fun peer transferId howns hwritten => ?_
  refine howns.filter href fun row hrow hid hpeer => ?_
  by_contra hgone
  rw [← hpeer] at hwritten
  cases (hkempt row hrow (Bool.eq_false_iff.mpr hgone)).symm.trans (isUnderWay hid hwritten)

/-- **Every peer has the rows that are written to on its behalf**, as long as no row is deleted
that is still written to. -/
theorem step (h : n.Rightful) (hkempt : n.Kempt e) (hstep : n.step z e = some n') :
    n'.Rightful := by
  have hsame : ∀ s, s.heldId = n.reception.heldId → s.tables.receivedFiles =
      n.reception.tables.receivedFiles → Rightful { n with reception := s } := by
    intro s hheld hrows
    refine h.mono (fun peer _ hin => (congrFun hheld peer).symm.trans hin) (List.Subset.refl _)
      fun peer transferId howns _ => ?_
    obtain ⟨row, hrow, howned⟩ := howns
    exact ⟨row, hrows ▸ hrow, howned⟩
  cases e with
  | track event env =>
    obtain ⟨⟩ := hstep
    exact ⟨h.held, h.updates⟩
  | request a now wait work =>
    obtain ⟨⟩ := hstep
    exact h.request
  | update index =>
    obtain ⟨u, -, rfl⟩ := Option.map_eq_some_iff.mp hstep
    refine h.mono (fun peer transferId hin => ?_) (List.eraseIdx_subset)
      fun _ _ howns _ => Reception.owns_execute u.2 howns
    exact (Reception.heldId_execute u.2 peer).symm.trans hin
  | restart now =>
    obtain ⟨⟩ := hstep
    exact rightful_start _ _ _
  | upkeep event =>
    cases event with
    | request | expire | restart => cases hstep
    | resume index =>
      obtain ⟨s, hs, rfl⟩ := Option.map_eq_some_iff.mp hstep
      obtain ⟨job, -, rfl⟩ := Option.map_eq_some_iff.mp hs
      refine h.mono (fun peer transferId hin => ?_) (List.Subset.refl _)
        fun _ _ howns _ => Reception.owns_execute job howns
      rwa [Reception.heldId_execute job peer] at hin
    | structuredPartialCleanup threshold =>
      obtain ⟨⟩ := hstep
      exact hsame _ rfl rfl
    | sweepPartialCleanup name =>
      obtain ⟨⟩ := hstep
      exact hsame _ rfl rfl
    | putFilerequest id filerequest =>
      obtain ⟨⟩ := hstep
      exact hsame _ rfl rfl
    | deleteFilerequest id =>
      obtain ⟨⟩ := hstep
      exact h.delete fun row hrow hgone => hkempt row hrow (by simpa using hgone)
    | deleteReceivedFile id =>
      obtain ⟨⟩ := hstep
      exact h.delete fun row hrow hgone => hkempt row hrow (by simpa using hgone)

/-- What happens on behalf of a peer leaves the rows of the others alone. -/
theorem rowsOfOthers_step (h : n.Rightful) (hstep : n.step z e = some n')
    (hpeer : n.attributed e = some peer) :
    n'.reception.tables.rowsOfOthers peer = n.reception.tables.rowsOfOthers peer := by
  cases e with
  | track event env =>
    obtain ⟨⟩ := hstep
    rfl
  | request a now wait work =>
    obtain ⟨⟩ := hstep
    obtain rfl : a.peer = peer := Option.some.inj hpeer
    have hanswers := Reception.answers (z := z) (s := n.found a now wait) (a := a)
    have hrows : ((n.found a now wait).respond z a).tables.rowsOfOthers a.peer =
        (n.found a now wait).tables.rowsOfOthers a.peer := hanswers.rowsOfOthers h.held_found
    exact hrows
  | update index =>
    obtain ⟨u, hu, rfl⟩ := Option.map_eq_some_iff.mp hstep
    obtain ⟨u', hu', rfl⟩ := Option.map_eq_some_iff.mp hpeer
    obtain rfl : u = u' := Option.mem_unique hu hu'
    obtain ⟨transferId, status, progressBytes, hjob, howns⟩ :=
      h.updates u (List.mem_of_getElem? hu)
    rw [hjob]
    exact rowsOfOthers_updateReceivedFileStatus howns
  | upkeep | restart => cases hpeer

end Rightful

end Party

/-! ### Isolation -/

open Party

/-- **What a peer can do to the others.** In every state, whatever happens on behalf of a peer
leaves the entries of all others in memory alone. In every run in which no row is deleted that is
still written to, it leaves their rows alone as well. -/
theorem peers_isolated (z : Sanitizer) :
    (∀ n n' e peer, step z n e = some n' → n.attributed e = some peer →
      n.Spares e.time peer n') ∧
    ∀ receivers tables now events n,
      Run (step z) Kempt (start receivers tables now) events n →
      ∀ e n' peer, step z n e = some n' → n.attributed e = some peer →
        n'.reception.tables.rowsOfOthers peer = n.reception.tables.rowsOfOthers peer := by
  refine ⟨fun n n' e peer => spares_step, ?_⟩
  intro receivers tables now events n hrun e n' peer hstep hpeer
  have hrightful : n.Rightful := hrun.invariant (rightful_start receivers tables now)
    fun h hkempt hstep => h.step hkempt hstep
  exact hrightful.rowsOfOthers_step hstep hpeer

variable (peer : PeerId)

/-- A request of a peer at some time, when everything works; a new row would get this id. -/
def sampleRequest (newId : FylesId) (request : FileRequest) (now : ℕ) : Party.Event :=
  .request { Reception.sampleAsked request with peer := peer, newId := newId } now 0 0

/-- A file of one byte is offered for a public file request. -/
def sampleOffer (newId transferId : FylesId) : Party.Event :=
  sampleRequest peer newId (.newTransfer ⟨"filerequest"⟩ "name" 1 transferId) 0

/-- The byte is sent. -/
def sampleByte (transferId : FylesId) (now : ℕ) : Party.Event :=
  sampleRequest peer ⟨"unused"⟩ (.chunk ⟨transferId, [1], 0⟩) now

/-- The end of the file. -/
def sampleEnd (transferId : FylesId) (now : ℕ) : Party.Event :=
  sampleRequest peer ⟨"unused"⟩ (.done transferId) now

/-- Two peers offer files. When one of them is at the end of its file, a clean-up is due, and the
transfer of the other one was idle for too long. -/
theorem peers_isolated_two : ∃ n,
    Run (step .sample) Kempt (start .new Reception.sampleTables 0)
      [sampleOffer ⟨"p"⟩ ⟨"row p"⟩ ⟨"transfer p"⟩, sampleOffer ⟨"q"⟩ ⟨"row q"⟩ ⟨"transfer q"⟩,
        sampleByte ⟨"p"⟩ ⟨"transfer p"⟩ 20000] n ∧
    ∃ n', step .sample n (sampleEnd ⟨"p"⟩ ⟨"transfer p"⟩ 40000) = some n' ∧
      n.attributed (sampleEnd ⟨"p"⟩ ⟨"transfer p"⟩ 40000) = some ⟨"p"⟩ ∧
      n.reception.heldId ⟨"q"⟩ = some ⟨"transfer q"⟩ ∧ n'.reception.heldId ⟨"q"⟩ = none ∧
      n.Spares 40000 ⟨"p"⟩ n' ∧
      n'.reception.tables.rowsOfOthers ⟨"p"⟩ = n.reception.tables.rowsOfOthers ⟨"p"⟩ := by
  obtain ⟨hspares, hrows⟩ := peers_isolated .sample
  exact Run.exists_and Run.get_runFrom fun hrun => ⟨_, rfl, rfl, by decide, by decide,
    hspares _ _ (sampleEnd ⟨"p"⟩ ⟨"transfer p"⟩ 40000) _ rfl rfl,
    hrows _ _ _ _ _ hrun (sampleEnd ⟨"p"⟩ ⟨"transfer p"⟩ 40000) _ _ rfl rfl⟩

/-- **A row of another peer.** The user deletes the row of a transfer that was just offered. Another
peer offers a file with the same transfer id. When the first peer sends a byte, the task that is
executed on its behalf says in the row of the other one that a byte was received. -/
theorem row_of_another_peer : ∃ n,
    Run (step .sample) (fun _ _ => True) (start .new Reception.sampleTables 0)
      [sampleOffer ⟨"p"⟩ ⟨"row p"⟩ ⟨"transfer"⟩, .upkeep (.deleteReceivedFile ⟨"row p"⟩),
        sampleOffer ⟨"q"⟩ ⟨"row q"⟩ ⟨"transfer"⟩, sampleByte ⟨"p"⟩ ⟨"transfer"⟩ 0] n ∧
    n.attributed (.update 0) = some ⟨"p"⟩ ∧
    ∃ n', step .sample n (.update 0) = some n' ∧
      (n.reception.tables.rowsOfOthers ⟨"p"⟩).map
        (fun row => (row.peerId, row.transferId, row.progressBytes)) =
          [(⟨"q"⟩, some ⟨"transfer"⟩, 0)] ∧
      (n'.reception.tables.rowsOfOthers ⟨"p"⟩).map
        (fun row => (row.peerId, row.transferId, row.progressBytes)) =
          [(⟨"q"⟩, some ⟨"transfer"⟩, 1)] :=
  ⟨_, Run.get_runFrom, by decide, _,
    Option.some_get (show (step .sample _ (.update 0)).isSome = true by decide) |>.symm,
    by decide, by decide⟩

end Fyles
