import Fyles.FileHoldings

/-!
# The deliveries of files to the tracker

Files are handed to the tracker by two kinds of tasks. `CreatePendingFiles` hands over the files
that it has inserted, `Ready` those that it has found in the database. This module keeps the book of
all deliveries, of those that the tracker has accepted and of those that the waiting jobs are going
to make, and says what each job does to it.

## Main results

* `deliveries_readyFiles` — what `Ready` hands over after it has read the database
* `Does.book` — what a job does to the book
-/

namespace Fyles

open OutgoingTables

/-! ### Statuses -/

/-- The status with which a file is handed over. -/
def SendStatus.restarted : SendStatus → SendStatus
  | .inProgress ⟨.sending, data⟩ => .inProgress ⟨.interrupted, data⟩
  | status => status

/-- Whether the tracker accepts a file with the status. -/
def SendStatus.isAcceptable : SendStatus → Bool
  | .pending | .inProgress ⟨.interrupted, _⟩ => true
  | _ => false

theorem SendStatus.restarted_of_ne {status : SendStatus}
    (h : ∀ data, status ≠ .inProgress ⟨.sending, data⟩) : status.restarted = status := by
  rw [restarted.eq_def]
  split
  · next data => exact absurd rfl (h data)
  · rfl

namespace Brain

/-- The statuses of rows, by their tags. -/
theorem sendStatus_cases {row : PendingFileRow} (hcheck : row.Check) (hcounts : row.Counts) :
    (row.status.isTerminal = true ∧ isContinuable row.sendStatus = false) ∨
    (row.status.isTerminal = false ∧ isContinuable row.sendStatus = true ∧
      row.sendStatus.restarted.isAcceptable = true) := by
  have hread := PendingFileRow.readStatus_eq hcheck hcounts
  rw [PendingFileRow.readStatus, readU64_of_isCount hcounts.1, readU64_of_isCount hcounts.2]
    at hread
  generalize row.sendStatus = status at hread ⊢
  have hcolumns := Option.some.inj hread
  cases htag : row.status with
  | sent | rejected | failed =>
    rw [htag] at hcolumns
    obtain rfl := Except.ok.inj hcolumns
    exact .inl ⟨rfl, rfl⟩
  | pending =>
    rw [htag] at hcolumns
    obtain rfl := Except.ok.inj hcolumns
    exact .inr ⟨rfl, rfl, rfl⟩
  | sending | interrupted =>
    rw [htag] at hcolumns
    simp only [SendStatus.fromDbColumns] at hcolumns
    split at hcolumns
    · obtain rfl := Except.ok.inj hcolumns
      exact .inr ⟨rfl, rfl, rfl⟩
    · cases hcolumns

/-! ### Deliveries -/

/-- A file that is handed to the tracker, for a peer if there is one with that id. -/
abbrev Delivery := Option PeerId × PendingFile

/-- What the tracker is to be told about a file of the database. -/
def recoveredFile (file : PendingFile) (r : RemoteFilerequest) : PendingFile :=
  ⟨file.id, r.contactId, file.filePath, file.retryCount, r.filerequestId, file.status.restarted⟩

variable (parse : String → Option PeerId)

/-- The files that a job is going to hand over. -/
def Job.deliveries : Job → List Delivery
  | .sendFiles files => files.map fun f => (parse f.peerId, f.newFile)
  | .initialFiles files => files.map fun f => (parse f.peerId, f.initialFile)
  | .readyReset done todo =>
    (done.map fun p => (parse p.2.peerId, (FileToSend.ofRecovered p.1 p.2).initialFile)) ++
      todo.map fun p => (parse p.2.peerId, recoveredFile p.1 p.2)
  | _ => []

/-- What the tracker has accepted, as deliveries. -/
def Service.received (s : Service) : List Delivery := s.accepted.map fun a => (some a.1, a.2)

/-- What the tracker has accepted and what it is going to be told. -/
def Service.book (s : Service) : List Delivery :=
  s.received ++ s.jobs.flatMap (Job.deliveries parse)

/-- The deliveries that `Ready` owes for a database. -/
def recoveries (t : OutgoingTables) : List Delivery :=
  t.pendingFiles.filterMap fun row =>
    if isContinuable row.sendStatus then
      (t.getRemoteFilerequest row.targetFilerequestId).map fun r =>
        (parse r.peerId, recoveredFile (pendingFileOf row r) r)
    else none

variable {parse : String → Option PeerId} {x : Surroundings} {s s' : Service}
  {t : OutgoingTables}

/-- A delivery of `Ready`, and the row that it is for. -/
theorem mem_recoveries {d : Delivery} (h : d ∈ recoveries parse t) :
    ∃ row ∈ t.pendingFiles, ∃ r, t.getRemoteFilerequest row.targetFilerequestId = some r ∧
      d = (parse r.peerId, recoveredFile (pendingFileOf row r) r) ∧
      row.status.isTerminal = false ∧ d.2.status.isAcceptable = true := by
  obtain ⟨row, hrow, hd⟩ := List.mem_filterMap.mp h
  split at hd
  · next hcont =>
    obtain ⟨r, hr, rfl⟩ := Option.map_eq_some_iff.mp hd
    rcases sendStatus_cases (t.checks row hrow) (t.counts row hrow) with
      ⟨-, hnot⟩ | ⟨hopen, -, hacceptable⟩
    · rw [hnot] at hcont
      cases hcont
    · exact ⟨row, hrow, r, hr, rfl, hopen, hacceptable⟩
  · cases hd

/-- What `Ready` reads. The remote file requests were listed before, and may have got another name
since. -/
theorem deliveries_readyFiles (parse : String → Option PeerId) {remotes rows} {t' : OutgoingTables}
    (hrows : t'.pendingFiles = t.pendingFiles ++ rows)
    (hold : ∀ row ∈ t.pendingFiles, ∀ r ∈ t.getRemoteFilerequest row.targetFilerequestId,
      (∃ name, t'.getRemoteFilerequest row.targetFilerequestId = some { r with name := name }) ∧
      ∃ name, (remotes.find? fun r => r.id = row.targetFilerequestId) =
        some { r with name := name })
    (hnew : ∀ row ∈ rows, (remotes.find? fun r => r.id = row.targetFilerequestId) = none) :
    Job.deliveries parse (.readyReset [] (recoverable remotes
      (t'.joined.map fun p => pendingFileOf p.1 p.2))) = recoveries parse t := by
  -- all the lists run over the rows of the table
  have hread : ∀ all : List PendingFileRow,
      (recoverable remotes ((all.filterMap fun row =>
        (t'.getRemoteFilerequest row.targetFilerequestId).map fun r => (row, r)).map
        fun p => pendingFileOf p.1 p.2)).map
        (fun p => (parse p.2.peerId, recoveredFile p.1 p.2)) =
      all.filterMap fun row => (t'.getRemoteFilerequest row.targetFilerequestId).bind fun r =>
        if isContinuable row.sendStatus then
          (remotes.find? fun r => r.id = row.targetFilerequestId).map fun r' =>
            (parse r'.peerId, recoveredFile (pendingFileOf row r) r')
        else none := by
    intro all
    induction all with
    | nil => rfl
    | cons row all ih =>
      rw [List.filterMap_cons, List.filterMap_cons]
      cases hr : t'.getRemoteFilerequest row.targetFilerequestId with
      | none => exact ih
      | some r =>
        simp only [Option.map_some, Option.bind_some, List.map_cons]
        rw [recoverable, List.filter_cons]
        by_cases hcont : isContinuable row.sendStatus
        · have hcont' : isContinuable (pendingFileOf row r).status = true := hcont
          have hkey : (pendingFileOf row r).targetFilerequestId =
            row.targetFilerequestId := rfl
          rw [if_pos hcont', if_pos hcont, List.filterMap_cons, hkey]
          cases hfound : remotes.find? fun r => r.id = row.targetFilerequestId with
          | none => exact ih
          | some r' =>
            exact congrArg _ ih
        · have hcont' : ¬ isContinuable (pendingFileOf row r).status = true := hcont
          rw [if_neg hcont', if_neg hcont]
          exact ih
  rw [Job.deliveries, List.map_nil, List.nil_append, joined, hread, hrows,
    List.filterMap_append, recoveries]
  have hnone : (rows.filterMap fun row =>
      (t'.getRemoteFilerequest row.targetFilerequestId).bind fun r =>
        if isContinuable row.sendStatus then
          (remotes.find? fun r => r.id = row.targetFilerequestId).map fun r' =>
            (parse r'.peerId, recoveredFile (pendingFileOf row r) r')
        else none) = [] := by
    rw [List.filterMap_eq_nil_iff]
    intro row hrow
    rw [hnew row hrow]
    cases t'.getRemoteFilerequest row.targetFilerequestId <;> simp
  rw [hnone, List.append_nil]
  refine List.filterMap_congr fun row hrow => ?_
  obtain ⟨r, hr⟩ := exists_remote hrow
  obtain ⟨⟨name, hname⟩, name', hname'⟩ := hold row hrow r hr
  rw [hr, hname, hname']
  rfl

/-! ### What a job does to the book -/

/-- The jobs of `Ready` until it has read the pending files. -/
def Job.isReading : Job → Bool
  | .ready | .readyFiles _ => true
  | _ => false

/-- The jobs of `Ready`. -/
def Job.isRecovery : Job → Bool
  | .ready | .readyFiles _ | .readyReset .. | .initialFiles _ => true
  | _ => false

/-- The jobs that belong to a deletion. -/
def Job.isDeletion : Job → Bool
  | .deleteFile _ | .cancelFile _ | .removeFile _ | .deleteRequest _ | .cancelRequest _
  | .removeRequest _ => true
  | _ => false

variable {next : List Job} {job : Job}

/-- A job that goes on with what it was going to hand over. -/
theorem book_perm {received jobs} (h : next.flatMap (Job.deliveries parse) = job.deliveries parse) :
    (received ++ (jobs ++ next).flatMap (Job.deliveries parse)).Perm
      (received ++ (job :: jobs).flatMap (Job.deliveries parse)) := by
  rw [List.flatMap_append, List.flatMap_cons, h]
  exact List.perm_append_comm.append_left _

/-- The jobs that store reports hand nothing over. -/
theorem deliveries_reports (actions : List NetworkNodeAction) :
    (actions.map Job.report).flatMap (Job.deliveries parse) = [] := by
  rw [List.flatMap_eq_nil_iff]
  intro job hjob
  obtain ⟨action, -, rfl⟩ := List.mem_map.mp hjob
  rfl

theorem handOver_perm {job' w peer file} (hfile : file.status.isAcceptable = true)
    (h : job.deliveries parse = (some peer, file) :: job'.deliveries parse) :
    ((s.withNode (.call (.addPendingFile peer file)) w).received ++
      ((s.withNode (.call (.addPendingFile peer file)) w).jobs ++ [job']).flatMap
        (Job.deliveries parse)).Perm
      (s.received ++ (job :: s.jobs).flatMap (Job.deliveries parse)) := by
  have hstatus : file.status = .pending ∨
      ∃ data, file.status = .inProgress ⟨.interrupted, data⟩ := by
    rw [SendStatus.isAcceptable.eq_def] at hfile
    split at hfile
    · next hst => exact .inl hst
    · next hst => exact .inr ⟨_, hst⟩
    · cases hfile
  have haccepts : Service.accepts (.call (.addPendingFile peer file)) = [(peer, file)] := by
    obtain hst | ⟨data, hst⟩ := hstatus <;> rw [Service.accepts, hst]
  have hreceived : (s.withNode (.call (.addPendingFile peer file)) w).received =
      s.received ++ [(some peer, file)] := by
    rw [Service.received, Service.withNode, haccepts, List.map_append]
    rfl
  have hjobs : ((s.withNode (.call (.addPendingFile peer file)) w).jobs ++ [job']).flatMap
      (Job.deliveries parse) = s.jobs.flatMap (Job.deliveries parse) ++ job'.deliveries parse := by
    rw [Service.withNode, List.flatMap_append, List.flatMap_append, deliveries_reports,
      List.append_nil, List.flatMap_cons, List.flatMap_nil, List.append_nil]
  rw [hreceived, hjobs, List.flatMap_cons, h, List.append_assoc, List.singleton_append,
    List.cons_append]
  exact (List.perm_append_comm.cons _).append_left _

/-- **What a job does to the book**: new rows are to be delivered, the rows that `Ready` reads are
to be delivered, or nothing changes. The remote file requests stay as they are. -/
theorem Does.book (h : Does parse x s job s' next) (hdeletes : job.isDeletion = false)
    (hacceptable : ∀ d ∈ job.deliveries parse, d.2.status.isAcceptable = true) :
    s'.tables.remoteFilerequests = s.tables.remoteFilerequests ∧
    ((∃ r filePaths, job = .insertFiles r filePaths ∧ s'.received = s.received ∧ s'.jobs = s.jobs ∧
      s'.tables.pendingFiles = s.tables.pendingFiles ++
        (drawIds x.newId filePaths).map (fun f => .new f.1 f.2 r.id) ∧
      next = [.sendFiles ((drawIds x.newId filePaths).map fun f => .ofNew r f.1 f.2)]) ∨
    (∃ remotes, job = .readyFiles remotes ∧ s' = s ∧ next = [.readyReset [] (recoverable remotes
      (s.tables.joined.map fun p => pendingFileOf p.1 p.2))]) ∨
    ((∀ remotes, job ≠ .readyFiles remotes) ∧
      s'.tables.pendingFiles.map PendingFileRow.id = s.tables.pendingFiles.map PendingFileRow.id ∧
      (s'.received ++ (s'.jobs ++ next).flatMap (Job.deliveries parse)).Perm
        (s.received ++ (job :: s.jobs).flatMap (Job.deliveries parse)))) := by
  cases h with
  | insertFiles hcreate =>
    obtain ⟨hremotes, hrows⟩ := createPendingFiles_ok hcreate
    exact ⟨hremotes, .inl ⟨_, _, rfl, rfl, rfl, hrows, rfl⟩⟩
  | readyFiles hget =>
    rw [getAllPendingFiles_eq] at hget
    obtain rfl := Except.ok.inj hget
    exact ⟨rfl, .inr (.inl ⟨_, rfl, rfl, rfl⟩)⟩
  | report hup =>
    obtain ⟨tag, row, -, -, hremotes, hrows⟩ := updatePendingFileStatus_ok hup
    refine ⟨hremotes, .inr (.inr ⟨by simp, ?_, book_perm ?_⟩)⟩
    · rw [hrows]
      exact OutgoingTables.ids_updated fun _ => PendingFileRow.withStatus_id
    · exact List.flatMap_eq_nil_iff.mpr (forall_followUp (fun _ => rfl) fun _ => rfl)
  | readyReset hst hup =>
    obtain ⟨tag, row, -, -, hremotes, hrows⟩ := updatePendingFileStatus_ok hup
    refine ⟨hremotes, .inr (.inr ⟨by simp, ?_, book_perm ?_⟩)⟩
    · rw [hrows]
      exact OutgoingTables.ids_updated fun _ => PendingFileRow.withStatus_id
    · simp [Job.deliveries, recoveredFile, hst, SendStatus.restarted, FileToSend.ofRecovered,
        FileToSend.initialFile]
  | readyKeep hst =>
    refine ⟨rfl, .inr (.inr ⟨by simp, rfl, book_perm ?_⟩)⟩
    simp [Job.deliveries, recoveredFile, SendStatus.restarted_of_ne hst, FileToSend.ofRecovered,
      FileToSend.initialFile]
  | readyDone =>
    refine ⟨rfl, .inr (.inr ⟨by simp, rfl, book_perm ?_⟩)⟩
    simp [Job.deliveries, FileToSend.ofRecovered]
  | addReason hup =>
    obtain ⟨hremotes, hrows⟩ := addInterruptionReason_ok hup
    refine ⟨hremotes, .inr (.inr ⟨by simp, ?_, book_perm rfl⟩)⟩
    rw [hrows]
    exact OutgoingTables.ids_updated fun row => rfl
  | sendFile hp hstep =>
    refine ⟨rfl, .inr (.inr ⟨by simp, rfl, handOver_perm rfl ?_⟩)⟩
    rw [Job.deliveries, List.map_cons, hp]
    rfl
  | @initialFile f files peer w hp hstep =>
    refine ⟨rfl, .inr (.inr ⟨by simp, rfl, handOver_perm ?_ ?_⟩)⟩
    · exact hacceptable (parse f.peerId, f.initialFile) List.mem_cons_self
    · rw [Job.deliveries, List.map_cons, hp]
      rfl
  | ends hends =>
    have hread : ∀ remotes, job ≠ .readyFiles remotes := by
      rintro remotes rfl
      cases hends
    refine ⟨rfl, .inr (.inr ⟨hread, rfl, book_perm ?_⟩)⟩
    cases job with
    | sendFiles files | initialFiles files => cases files <;> first | rfl | cases hends
    | readyReset => cases hends
    | _ => rfl
  | cleanup | countForPath | removeSource | createFiles | ready | sweep | sweepRemove =>
    exact ⟨rfl, .inr (.inr ⟨by simp, rfl, book_perm rfl⟩)⟩
  | _ => cases hdeletes

theorem Does.kind (h : Does parse x s job s' next) :
    ∀ job' ∈ next, (job'.isReading = true → job.isReading = true) ∧
      (job'.isDeletion = true → job.isDeletion = true) ∧
      ∀ id reason, job' = .addReason id reason → id ∈ job.fileIds := by
  cases h with
  | report hup =>
    refine forall_followUp (fun reason => ⟨nofun, nofun, ?_⟩) fun _ => ⟨nofun, nofun, nofun⟩
    rintro _ _ ⟨⟩
    exact List.mem_singleton_self _
  | addReason | removeSource | removeFile | removeRequest | ends => exact fun _ h => (nomatch h)
  | cleanup | countForPath | createFiles | insertFiles | sendFile | readyDone | readyReset
  | readyKeep | initialFile | sweep | sweepRemove | readyFiles =>
    exact List.forall_mem_singleton.mpr ⟨nofun, nofun, nofun⟩
  | deleteFile | deleteFinished | cancelFile | deleteRequest | cancelRequest =>
    exact List.forall_mem_singleton.mpr ⟨nofun, fun _ => rfl, nofun⟩
  | ready => exact List.forall_mem_singleton.mpr ⟨fun _ => rfl, nofun, nofun⟩

end Brain

end Fyles
