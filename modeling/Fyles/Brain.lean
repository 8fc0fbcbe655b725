import Fyles.Custody
import Fyles.OutgoingTables
import Mathlib.Data.Prod.Lex
import Mathlib.Logic.Hydra

/-!
# The brain

The part of `core/src/core/brain` that deals with outgoing files. The brain starts one task for
every action that it receives, from a client, from the network node or from its own clock, and no
order is kept between them. A task waits whenever it asks the database, the network node or the
host, so it is a sequence of jobs, and every interleaving of jobs is a run: `Job` lists what a task
does until it waits next, and `runJob` does it.

## The service

The state of a run is that of the whole service as far as outgoing files are concerned: the tables,
the network node with the file tracker (`Fyles.TrackerRuns`), the temporary copies of source files,
and the jobs that wait. What the tracker reports becomes a job of the brain, and so does its request
to open a file if that fails, since the brain then stores this before it answers. The commands of
the brain to the node, which add and cancel files, are jobs as well; all other events of the tracker
come from the network.

A task of the brain that panics ends the process, because release builds abort on a panic, and so
does a task of the node. So a step has a next state or a `Failure`. The process can be started again
at any time; it then finds the tables and the temporary files as it left them. Answers to clients,
messages that are pushed to clients and errors of the channels between the tasks are left out. A
peer id is stored as it was entered, and whether a text is a peer id (`PeerId::from_str`) is a
parameter.

Two lists record what has happened since the last start, and no job reads them: the notifications
of the tracker, and the files that were handed to it and that it has accepted.

## Main results

* `does_of_runJob`, `happens_of_step` — nothing else happens
* `reports_of_step` — the rule of `Fyles.Custody` for the service
* `comes_to_rest` — the jobs come to an end
-/

namespace Fyles

open FileTracker (World)

/-- The events of the tracker that come from the network; the others are commands of the brain. -/
def FileTracker.Event.fromNetwork : FileTracker.Event → Bool
  | .call (.addPendingFile ..) | .call (.cancelFile _) | .call (.cancelFileByTarget ..) => false
  | _ => true

/-- The file that a notification is about. -/
def NetworkNodeAction.file : NetworkNodeAction → FylesId
  | .fileSent id | .fileFailed id | .fileMissing id | .openFileForReading id | .fileRejected id
  | .fileIoError id _ | .fileSendReset id .. | .fileSending id _ => id

/-- The status that a notification reports. -/
def NetworkNodeAction.sendStatus : NetworkNodeAction → SendStatus
  | .fileSent _ => .sent
  | .fileFailed _ | .fileMissing _ | .openFileForReading _ | .fileIoError .. => .failed
  | .fileRejected _ => .rejected
  | .fileSendReset _ status .. | .fileSending _ status => status

/-- The retry counter that a notification reports. -/
def NetworkNodeAction.retryCount : NetworkNodeAction → Option ℕ
  | .fileSendReset _ _ retryCount _ => retryCount
  | _ => none

namespace Brain

/-! ### Jobs -/

/-- A file as it is handed to the network node. -/
structure FileToSend where
  id : FylesId
  contactId : ContactId
  peerId : String
  filerequestId : FylesId
  filePath : String
  retryCount : ℕ
  status : SendStatus
  deriving DecidableEq, Repr

namespace FileToSend

/-- The file of `SendFiles`, which takes neither the status nor the retry counter over. -/
def newFile (f : FileToSend) : PendingFile :=
  ⟨f.id, f.contactId, f.filePath, 0, f.filerequestId, .pending⟩

/-- The file of `InitialFilesToSend`. -/
def initialFile (f : FileToSend) : PendingFile :=
  ⟨f.id, f.contactId, f.filePath, f.retryCount, f.filerequestId, f.status⟩

/-- What `CreatePendingFiles` sends for a row that it has inserted. -/
def ofNew (r : RemoteFilerequest) (id : FylesId) (filePath : String) : FileToSend :=
  ⟨id, r.contactId, r.peerId, r.filerequestId, filePath, 0, .pending⟩

/-- What `Ready` sends for a file. -/
def ofRecovered (file : PendingFile) (r : RemoteFilerequest) : FileToSend :=
  ⟨file.id, r.contactId, r.peerId, r.filerequestId, file.filePath, file.retryCount, file.status⟩

end FileToSend

/-- What a task of the brain does until it waits next. -/
inductive Job
  /-- Store what the tracker has reported. -/
  | report (action : NetworkNodeAction)
  | addReason (id : FylesId) (reason : String)
  /-- `try_cleanup_source_file`: look the file up, -/
  | cleanup (id : FylesId)
  /-- count the other files with its path for which something is to be done, -/
  | countForPath (id : FylesId) (filePath : String)
  /-- and remove the source file. -/
  | removeSource (filePath : String)
  /-- `CreatePendingFiles`: look the remote file request up, -/
  | createFiles (target : FylesId) (filePaths : List String)
  /-- insert the files, -/
  | insertFiles (r : RemoteFilerequest) (filePaths : List String)
  /-- and hand them to the node. -/
  | sendFiles (files : List FileToSend)
  /-- `DeletePendingFile`: look the file up, -/
  | deleteFile (id : FylesId)
  /-- cancel it, -/
  | cancelFile (id : FylesId)
  /-- and delete it. -/
  | removeFile (id : FylesId)
  /-- `DeleteRemoteFilerequest`: look it up, -/
  | deleteRequest (id : FylesId)
  /-- cancel its files, -/
  | cancelRequest (r : RemoteFilerequest)
  /-- and delete it. -/
  | removeRequest (id : FylesId)
  /-- `Ready`: get the remote file requests, -/
  | ready
  /-- get the pending files, -/
  | readyFiles (remotes : List RemoteFilerequest)
  /-- store for each file that was being sent that it was interrupted, -/
  | readyReset (done todo : List (PendingFile × RemoteFilerequest))
  /-- and hand the files to the node. -/
  | initialFiles (files : List FileToSend)
  /-- `sweep_outgoing_files_cleanup`: list the temporary files, -/
  | sweep (threshold : ℤ)
  /-- and remove the old ones. -/
  | sweepRemove (filePaths : List String)
  deriving DecidableEq, Repr

/-- What follows the update of the status: the source of a finished file may be removed, and the
reason of an interruption is stored. -/
def followUp : NetworkNodeAction → List Job
  | .fileSent id | .fileFailed id | .fileMissing id | .openFileForReading id | .fileRejected id
  | .fileIoError id _ => [.cleanup id]
  | .fileSendReset id _ _ (some reason) => [.addReason id reason]
  | .fileSendReset _ _ _ none | .fileSending .. => []

theorem forall_followUp {P : Job → Prop} {action : NetworkNodeAction}
    (hreason : ∀ reason, P (.addReason action.file reason))
    (hcleanup : (∀ tag, action.sendStatus.statusTag = .ok tag → tag.isTerminal = true) →
      P (.cleanup action.file)) : ∀ job ∈ followUp action, P job := by
  cases action with
  | fileSendReset id status retryCount reason =>
    cases reason with
    | none => exact List.forall_mem_nil _
    | some reason => exact List.forall_mem_singleton.mpr (hreason reason)
  | fileSending => exact List.forall_mem_nil _
  | _ => exact List.forall_mem_singleton.mpr (hcleanup (by rintro tag ⟨⟩; rfl))

/-- Whether a file is handed to the tracker at startup. -/
def isContinuable : SendStatus → Bool
  | .pending | .inProgress _ => true
  | .sent | .rejected | .failed | .unknown _ => false

/-- The files that `Ready` hands to the node, with their remote file requests. -/
def recoverable (remotes : List RemoteFilerequest) (files : List PendingFile) :
    List (PendingFile × RemoteFilerequest) :=
  (files.filter fun file => isContinuable file.status).filterMap fun file =>
    (remotes.find? fun r => r.id = file.targetFilerequestId).map fun r => (file, r)

/-! ### The service -/

/-- The service. -/
structure Service where
  tables : OutgoingTables
  node : World
  /-- The temporary copies of source files, with the times of their last changes. -/
  sources : List (String × ℤ)
  jobs : List Job
  /-- What the tracker has reported since the start. -/
  reported : List NetworkNodeAction
  /-- The files that the tracker has accepted since the start. -/
  accepted : List (PeerId × PendingFile)

/-- How a step can end the process, or make it useless. -/
inductive Failure
  /-- The status of a file could not be stored: a failing `expect`. -/
  | report (id : FylesId) (error : TableError)
  /-- A failing `expect` of `Ready`. -/
  | recovery (error : TableError)
  /-- A text is no peer id: a failing `expect`. -/
  | peerId (text : String)
  /-- A handler of the tracker panics, or waits for its own lock. -/
  | tracker
  deriving DecidableEq, Repr

/-- The actions for which the brain starts a task. -/
inductive Action
  | createPendingFiles (target : FylesId) (filePaths : List String)
  | deletePendingFile (id : FylesId)
  | deleteRemoteFilerequest (id : FylesId)
  | ready
  | cleanup (threshold : ℤ)
  deriving DecidableEq, Repr

/-- The first job of the task. -/
def Action.job : Action → Job
  | .createPendingFiles target filePaths => .createFiles target filePaths
  | .deletePendingFile id => .deleteFile id
  | .deleteRemoteFilerequest id => .deleteRequest id
  | .ready => .ready
  | .cleanup threshold => .sweep threshold

/-- What can happen. -/
inductive Event
  | act (action : Action)
  /-- A waiting job is done. -/
  | resume (index : ℕ)
  /-- The tracker is told something by the network, or one of its handlers goes on. -/
  | network (event : FileTracker.Event)
  | createRemoteFilerequest (r : RemoteFilerequest)
  | updateRemoteFilerequest (id : FylesId) (name : String)
  /-- The host makes a temporary copy of a file. -/
  | storeSource (filePath : String) (modified : ℤ)
  /-- The process ends and is started again. -/
  | restart
  deriving DecidableEq, Repr

/-- The answers that a step gets from outside. -/
structure Surroundings where
  env : FileTracker.Env
  /-- The ids that are drawn. -/
  newId : ℕ → FylesId

namespace Service

/-- The service when it is started on some tables. -/
def start (tables : OutgoingTables) (sources : List (String × ℤ)) : Service :=
  ⟨tables, .new, sources, [], [], []⟩

/-- What an event of the tracker takes over. -/
def accepts : FileTracker.Event → List (PeerId × PendingFile)
  | .call (.addPendingFile peer file) =>
    match file.status with
    | .pending | .inProgress ⟨.interrupted, _⟩ => [(peer, file)]
    | _ => []
  | _ => []

/-- What a step of the tracker reports. -/
def reports (w w' : World) : List NetworkNodeAction := (w.news w').map Prod.snd

/-- The service after a step of the tracker. -/
def withNode (s : Service) (e : FileTracker.Event) (w' : World) : Service :=
  { s with
    node := w'
    jobs := s.jobs ++ (reports s.node w').map .report
    reported := s.reported ++ reports s.node w'
    accepted := s.accepted ++ accepts e }

/-- A step of the tracker. -/
def stepNode (s : Service) (e : FileTracker.Event) (env : FileTracker.Env) :
    Except Failure Service :=
  match s.node.step (e, env) with
  | none => .error .tracker
  | some w' => .ok (s.withNode e w')

/-- Remove a source file, if it is a temporary one. -/
def removeSource (s : Service) (filePath : String) : Service :=
  { s with sources := s.sources.filter fun f => f.1 ≠ filePath }

end Service

/-- The ids that are drawn for files. -/
def drawIds (newId : ℕ → FylesId) (filePaths : List String) : List (FylesId × String) :=
  filePaths.zipIdx.map fun f => (newId f.2, f.1)

/-- Do a job. The result is the service and what the task does next. -/
def runJob (parse : String → Option PeerId) (x : Surroundings) (s : Service) :
    Job → Except Failure (Service × List Job)
  | .report action =>
    match s.tables.updatePendingFileStatus action.file action.sendStatus action.retryCount with
    | .error e => .error (.report action.file e)
    | .ok (_, tables) => .ok ({ s with tables }, followUp action)
  | .addReason id reason =>
    match s.tables.addInterruptionReason id reason with
    | .error _ => .ok (s, [])
    | .ok (_, tables) => .ok ({ s with tables }, [])
  | .cleanup id =>
    match s.tables.getPendingFile id with
    | .error _ => .ok (s, [])
    | .ok file => .ok (s, [.countForPath id file.filePath])
  | .countForPath id filePath =>
    if s.tables.countNonTerminalPendingFilesForPath id = 0 then .ok (s, [.removeSource filePath])
    else .ok (s, [])
  | .removeSource filePath => .ok (s.removeSource filePath, [])
  | .createFiles target filePaths =>
    match s.tables.getRemoteFilerequest target with
    | none => .ok (s, [])
    | some r => .ok (s, [.insertFiles r filePaths])
  | .insertFiles r filePaths =>
    match s.tables.createPendingFiles r.id (drawIds x.newId filePaths) with
    | .error _ => .ok (s, [])
    | .ok tables => .ok ({ s with tables },
        [.sendFiles ((drawIds x.newId filePaths).map fun f => .ofNew r f.1 f.2)])
  | .sendFiles [] => .ok (s, [])
  | .sendFiles (f :: files) =>
    match parse f.peerId with
    | none => .error (.peerId f.peerId)
    | some peer =>
      (s.stepNode (.call (.addPendingFile peer f.newFile)) x.env).map fun s =>
        (s, [.sendFiles files])
  | .deleteFile id =>
    match s.tables.getPendingFile id with
    | .error _ => .ok (s, [])
    | .ok file =>
      match file.status with
      | .pending | .inProgress _ => .ok (s, [.cancelFile id])
      | _ => .ok (s, [.removeFile id])
  | .cancelFile id =>
    -- the file is deleted whether the tracker has found it or not
    (s.stepNode (.call (.cancelFile id)) x.env).map fun s => (s, [.removeFile id])
  | .removeFile id => .ok ({ s with tables := s.tables.deletePendingFile id }, [])
  | .deleteRequest id =>
    match s.tables.getRemoteFilerequest id with
    | none => .ok (s, [])
    | some r => .ok (s, [.cancelRequest r])
  | .cancelRequest r =>
    match parse r.peerId with
    | none => .error (.peerId r.peerId)
    | some peer =>
      (s.stepNode (.call (.cancelFileByTarget r.filerequestId peer)) x.env).map
        fun s => (s, [.removeRequest r.id])
  | .removeRequest id => .ok ({ s with tables := s.tables.deleteRemoteFilerequest id }, [])
  | .ready => .ok (s, [.readyFiles s.tables.getAllRemoteFilerequests])
  | .readyFiles remotes =>
    match s.tables.getAllPendingFiles with
    | .error e => .error (.recovery e)
    | .ok files => .ok (s, [.readyReset [] (recoverable remotes files)])
  | .readyReset done [] =>
    .ok (s, [.initialFiles (done.map fun p => .ofRecovered p.1 p.2)])
  | .readyReset done ((file, r) :: todo) =>
    match file.status with
    | .inProgress ⟨.sending, data⟩ =>
      match s.tables.updatePendingFileStatus file.id (.inProgress ⟨.interrupted, data⟩) none with
      | .error e => .error (.recovery e)
      | .ok (_, tables) => .ok ({ s with tables }, [.readyReset
          (done ++ [({ file with status := .inProgress ⟨.interrupted, data⟩ }, r)]) todo])
    | _ => .ok (s, [.readyReset (done ++ [(file, r)]) todo])
  | .initialFiles [] => .ok (s, [])
  | .initialFiles (f :: files) =>
    match parse f.peerId with
    | none => .error (.peerId f.peerId)
    | some peer =>
      (s.stepNode (.call (.addPendingFile peer f.initialFile)) x.env).map
        fun s => (s, [.initialFiles files])
  | .sweep threshold =>
    .ok (s, [.sweepRemove ((s.sources.filter fun f => f.2 < threshold).map Prod.fst)])
  | .sweepRemove [] => .ok (s, [])
  | .sweepRemove (filePath :: filePaths) =>
    .ok (s.removeSource filePath, [.sweepRemove filePaths])

namespace Service

variable (parse : String → Option PeerId)

/-- A step of the service. -/
def step (s : Service) (e : Event × Surroundings) : Except Failure Service :=
  match e.1 with
  | .act action => .ok { s with jobs := s.jobs ++ [action.job] }
  | .resume index =>
    match s.jobs[index]? with
    | none => .ok s
    | some job =>
      match runJob parse e.2 { s with jobs := s.jobs.eraseIdx index } job with
      | .error failure => .error failure
      | .ok (s', next) => .ok { s' with jobs := s'.jobs ++ next }
  | .network event => if event.fromNetwork then s.stepNode event e.2.env else .ok s
  | .createRemoteFilerequest r =>
    match s.tables.createRemoteFilerequest r with
    | .error _ => .ok s
    | .ok tables => .ok { s with tables }
  | .updateRemoteFilerequest id name =>
    .ok { s with tables := s.tables.updateRemoteFilerequest id name }
  | .storeSource filePath modified =>
    .ok { s with sources := (filePath, modified) :: s.sources.filter fun f => f.1 ≠ filePath }
  | .restart => .ok (.start s.tables s.sources)

/-- The service after a step that does not fail. -/
def next (s : Service) (e : Event × Surroundings) : Option Service :=
  (s.step parse e).toOption

theorem next_eq_some {parse : String → Option PeerId} {s s' : Service} {e} :
    s.next parse e = some s' ↔ s.step parse e = .ok s' := by
  rw [next]
  cases s.step parse e with
  | error failure => exact ⟨nofun, nofun⟩
  | ok s₁ => simp [Except.toOption]

theorem stepNode_ok {s s' : Service} {e env} (h : s.stepNode e env = .ok s') :
    ∃ w', s.node.step (e, env) = some w' ∧
      s' = s.withNode e w' := by
  rw [stepNode] at h
  split at h
  · cases h
  · next w' hw => exact ⟨w', hw, (Except.ok.inj h).symm⟩

end Service

/-! ### What a job can do -/

/-- Whether the task can end with a job that changes nothing. -/
def Job.mayEnd : Job → Bool
  | .addReason .. | .cleanup _ | .countForPath .. | .createFiles .. | .insertFiles ..
  | .sendFiles [] | .deleteFile _ | .deleteRequest _ | .initialFiles [] | .sweepRemove [] => true
  | _ => false

/-- What a job can do: the service afterwards, and what the task does next. -/
inductive Does (parse : String → Option PeerId) (x : Surroundings) (s : Service) :
    Job → Service → List Job → Prop
  | report {action target tables}
      (h : s.tables.updatePendingFileStatus action.file action.sendStatus action.retryCount =
        .ok (target, tables)) :
      Does parse x s (.report action) { s with tables } (followUp action)
  | addReason {id reason target tables}
      (h : s.tables.addInterruptionReason id reason = .ok (target, tables)) :
      Does parse x s (.addReason id reason) { s with tables } []
  /-- The file to clean up after is found. -/
  | cleanup {id file} (h : s.tables.getPendingFile id = .ok file) :
      Does parse x s (.cleanup id) s [.countForPath id file.filePath]
  /-- No other file needs the source file. -/
  | countForPath {id filePath} (h : s.tables.countNonTerminalPendingFilesForPath id = 0) :
      Does parse x s (.countForPath id filePath) s [.removeSource filePath]
  | removeSource {filePath} :
      Does parse x s (.removeSource filePath) (s.removeSource filePath) []
  | createFiles {target filePaths r} (h : s.tables.getRemoteFilerequest target = some r) :
      Does parse x s (.createFiles target filePaths) s [.insertFiles r filePaths]
  | insertFiles {r filePaths tables}
      (h : s.tables.createPendingFiles r.id (drawIds x.newId filePaths) = .ok tables) :
      Does parse x s (.insertFiles r filePaths) { s with tables }
        [.sendFiles ((drawIds x.newId filePaths).map fun f => .ofNew r f.1 f.2)]
  | sendFile {f files peer w} (hp : parse f.peerId = some peer)
      (h : s.node.step (.call (.addPendingFile peer f.newFile), x.env) = some w) :
      Does parse x s (.sendFiles (f :: files))
        (s.withNode (.call (.addPendingFile peer f.newFile)) w) [.sendFiles files]
  /-- The file to delete is found, and the tracker may have it. -/
  | deleteFile {id file} (h : s.tables.getPendingFile id = .ok file)
      (hst : isContinuable file.status = true) : Does parse x s (.deleteFile id) s [.cancelFile id]
  /-- The file to delete is found, and is finished. -/
  | deleteFinished {id file} (h : s.tables.getPendingFile id = .ok file)
      (hst : isContinuable file.status = false) : Does parse x s (.deleteFile id) s [.removeFile id]
  | cancelFile {id w} (h : s.node.step (.call (.cancelFile id), x.env) = some w) :
      Does parse x s (.cancelFile id) (s.withNode (.call (.cancelFile id)) w) [.removeFile id]
  | removeFile {id} :
      Does parse x s (.removeFile id) { s with tables := s.tables.deletePendingFile id } []
  | deleteRequest {id r} (h : s.tables.getRemoteFilerequest id = some r) :
      Does parse x s (.deleteRequest id) s [.cancelRequest r]
  | cancelRequest {r peer w} (hp : parse r.peerId = some peer)
      (h : s.node.step (.call (.cancelFileByTarget r.filerequestId peer), x.env) = some w) :
      Does parse x s (.cancelRequest r)
        (s.withNode (.call (.cancelFileByTarget r.filerequestId peer)) w) [.removeRequest r.id]
  | removeRequest {id} :
      Does parse x s (.removeRequest id) { s with tables := s.tables.deleteRemoteFilerequest id } []
  | ready : Does parse x s .ready s [.readyFiles s.tables.getAllRemoteFilerequests]
  | readyFiles {remotes files} (h : s.tables.getAllPendingFiles = .ok files) :
      Does parse x s (.readyFiles remotes) s [.readyReset [] (recoverable remotes files)]
  | readyDone {done} :
      Does parse x s (.readyReset done []) s
        [.initialFiles (done.map fun p => .ofRecovered p.1 p.2)]
  /-- A file that was being sent is stored as interrupted. -/
  | readyReset {done file r todo data target tables}
      (hst : file.status = .inProgress ⟨.sending, data⟩)
      (h : s.tables.updatePendingFileStatus file.id (.inProgress ⟨.interrupted, data⟩) none =
        .ok (target, tables)) :
      Does parse x s (.readyReset done ((file, r) :: todo)) { s with tables }
        [.readyReset (done ++ [({ file with status := .inProgress ⟨.interrupted, data⟩ }, r)]) todo]
  /-- Another file is taken over as it is. -/
  | readyKeep {done file r todo} (hst : ∀ data, file.status ≠ .inProgress ⟨.sending, data⟩) :
      Does parse x s (.readyReset done ((file, r) :: todo)) s
        [.readyReset (done ++ [(file, r)]) todo]
  | initialFile {f files peer w} (hp : parse f.peerId = some peer)
      (h : s.node.step (.call (.addPendingFile peer f.initialFile), x.env) = some w) :
      Does parse x s (.initialFiles (f :: files))
        (s.withNode (.call (.addPendingFile peer f.initialFile)) w) [.initialFiles files]
  | sweep {threshold} :
      Does parse x s (.sweep threshold) s
        [.sweepRemove ((s.sources.filter fun f => f.2 < threshold).map Prod.fst)]
  | sweepRemove {filePath filePaths} :
      Does parse x s (.sweepRemove (filePath :: filePaths)) (s.removeSource filePath)
        [.sweepRemove filePaths]
  | ends {job} (h : job.mayEnd = true) : Does parse x s job s []

section Does

variable {parse : String → Option PeerId} {x : Surroundings} {s s' : Service} {next : List Job}

theorem map_stepNode_ok {e : FileTracker.Event} {jobs}
    (h : (s.stepNode e x.env).map (fun s => (s, jobs)) = .ok (s', next)) :
    ∃ w, s.node.step (e, x.env) = some w ∧ s' = s.withNode e w ∧ next = jobs := by
  cases hstep : s.stepNode e x.env with
  | error failure =>
    rw [hstep] at h
    cases h
  | ok s₁ =>
    rw [hstep] at h
    obtain ⟨w, hw, rfl⟩ := Service.stepNode_ok hstep
    obtain ⟨rfl, rfl⟩ := Prod.mk.inj (Except.ok.inj h)
    exact ⟨w, hw, rfl, rfl⟩

theorem Does.of_ok {job s₁ next₁} (hd : Does parse x s job s₁ next₁)
    (h : (.ok (s₁, next₁) : Except Failure (Service × List Job)) = .ok (s', next)) :
    Does parse x s job s' next := by
  obtain ⟨rfl, rfl⟩ := Prod.mk.inj (Except.ok.inj h)
  exact hd

/-- **What a job does.** -/
theorem does_of_runJob {job} (h : runJob parse x s job = .ok (s', next)) :
    Does parse x s job s' next := by
  cases job with
  | report action =>
    simp only [runJob] at h
    split at h
    · cases h
    · next hup => exact (Does.report hup).of_ok h
  | addReason id reason =>
    simp only [runJob] at h
    split at h
    · exact (Does.ends rfl).of_ok h
    · next hup => exact (Does.addReason hup).of_ok h
  | cleanup id =>
    simp only [runJob] at h
    split at h
    · exact (Does.ends rfl).of_ok h
    · next hget => exact (Does.cleanup hget).of_ok h
  | countForPath id filePath =>
    simp only [runJob] at h
    split at h
    · next hcount => exact (Does.countForPath hcount).of_ok h
    · exact (Does.ends rfl).of_ok h
  | removeSource filePath => exact Does.removeSource.of_ok h
  | createFiles target filePaths =>
    simp only [runJob] at h
    split at h
    · exact (Does.ends rfl).of_ok h
    · next hget => exact (Does.createFiles hget).of_ok h
  | insertFiles r filePaths =>
    simp only [runJob] at h
    split at h
    · exact (Does.ends rfl).of_ok h
    · next hcreate => exact (Does.insertFiles hcreate).of_ok h
  | sendFiles files =>
    cases files with
    | nil => exact (Does.ends rfl).of_ok h
    | cons f files =>
      simp only [runJob] at h
      split at h
      · cases h
      · next hp =>
        obtain ⟨w, hw, rfl, rfl⟩ := map_stepNode_ok h
        exact .sendFile hp hw
  | deleteFile id =>
    simp only [runJob] at h
    split at h
    · exact (Does.ends rfl).of_ok h
    · next file hget =>
      cases hst : file.status with
      | pending | inProgress progress =>
        rw [hst] at h
        exact (Does.deleteFile hget (by rw [hst]; rfl)).of_ok h
      | sent | rejected | failed | unknown text =>
        rw [hst] at h
        exact (Does.deleteFinished hget (by rw [hst]; rfl)).of_ok h
  | cancelFile id =>
    obtain ⟨w, hw, rfl, rfl⟩ := map_stepNode_ok h
    exact .cancelFile hw
  | removeFile id => exact Does.removeFile.of_ok h
  | deleteRequest id =>
    simp only [runJob] at h
    split at h
    · exact (Does.ends rfl).of_ok h
    · next hget => exact (Does.deleteRequest hget).of_ok h
  | cancelRequest r =>
    simp only [runJob] at h
    split at h
    · cases h
    · next hp =>
      obtain ⟨w, hw, rfl, rfl⟩ := map_stepNode_ok h
      exact .cancelRequest hp hw
  | removeRequest id => exact Does.removeRequest.of_ok h
  | ready => exact Does.ready.of_ok h
  | readyFiles remotes =>
    simp only [runJob] at h
    split at h
    · cases h
    · next hget => exact (Does.readyFiles hget).of_ok h
  | readyReset done todo =>
    cases todo with
    | nil => exact Does.readyDone.of_ok h
    | cons p todo =>
      simp only [runJob] at h
      split at h
      · next data hst =>
        split at h
        · cases h
        · next hup => exact (Does.readyReset hst hup).of_ok h
      · next hst => exact (Does.readyKeep hst).of_ok h
  | initialFiles files =>
    cases files with
    | nil => exact (Does.ends rfl).of_ok h
    | cons f files =>
      simp only [runJob] at h
      split at h
      · cases h
      · next hp =>
        obtain ⟨w, hw, rfl, rfl⟩ := map_stepNode_ok h
        exact .initialFile hp hw
  | sweep threshold => exact Does.sweep.of_ok h
  | sweepRemove filePaths =>
    cases filePaths with
    | nil => exact (Does.ends rfl).of_ok h
    | cons filePath filePaths =>
      exact Does.sweepRemove.of_ok h

end Does

/-! ### What a step can do -/

/-- What a step can do. -/
inductive Happens (parse : String → Option PeerId) (x : Surroundings) (s : Service) :
    Event → Service → Prop
  | act (action : Action) :
      Happens parse x s (.act action) { s with jobs := s.jobs ++ [action.job] }
  | resume {index job s' next} (hjob : s.jobs[index]? = some job)
      (h : Does parse x { s with jobs := s.jobs.eraseIdx index } job s' next) :
      Happens parse x s (.resume index) { s' with jobs := s'.jobs ++ next }
  | network {event w} (hnet : event.fromNetwork = true)
      (h : s.node.step (event, x.env) = some w) :
      Happens parse x s (.network event) (s.withNode event w)
  | createRemoteFilerequest {r tables} (h : s.tables.createRemoteFilerequest r = .ok tables) :
      Happens parse x s (.createRemoteFilerequest r) { s with tables }
  | updateRemoteFilerequest (id : FylesId) (name : String) :
      Happens parse x s (.updateRemoteFilerequest id name)
        { s with tables := s.tables.updateRemoteFilerequest id name }
  | storeSource (filePath : String) (modified : ℤ) :
      Happens parse x s (.storeSource filePath modified)
        { s with sources := (filePath, modified) :: s.sources.filter fun f => f.1 ≠ filePath }
  | restart : Happens parse x s .restart (.start s.tables s.sources)
  | nothing (e : Event) : Happens parse x s e s

/-- **What a step does.** -/
theorem happens_of_step {parse : String → Option PeerId} {s s' : Service} {e x}
    (h : s.step parse (e, x) = .ok s') : Happens parse x s e s' := by
  cases e with
  | act action =>
    obtain rfl := Except.ok.inj h
    exact .act action
  | resume index =>
    simp only [Service.step] at h
    split at h
    · obtain rfl := Except.ok.inj h
      exact .nothing _
    · next job hjob =>
      split at h
      · cases h
      · next s₁ next hrun =>
        obtain rfl := Except.ok.inj h
        exact .resume hjob (does_of_runJob hrun)
  | network event =>
    simp only [Service.step] at h
    split at h
    · next hnet =>
      obtain ⟨w, hw, rfl⟩ := Service.stepNode_ok h
      exact .network hnet hw
    · obtain rfl := Except.ok.inj h
      exact .nothing _
  | createRemoteFilerequest r =>
    simp only [Service.step] at h
    split at h
    · obtain rfl := Except.ok.inj h
      exact .nothing _
    · next hcreate =>
      obtain rfl := Except.ok.inj h
      exact .createRemoteFilerequest hcreate
  | updateRemoteFilerequest id name =>
    obtain rfl := Except.ok.inj h
    exact .updateRemoteFilerequest id name
  | storeSource filePath modified =>
    obtain rfl := Except.ok.inj h
    exact .storeSource filePath modified
  | restart =>
    obtain rfl := Except.ok.inj h
    exact .restart

/-- The status of a file cannot be stored. -/
theorem error_of_report {parse : String → Option PeerId} {s : Service} {index : ℕ}
    {action x id error} (hjob : s.jobs[index]? = some (.report action))
    (h : s.step parse (.resume index, x) = .error (.report id error)) :
    s.tables.updatePendingFileStatus action.file action.sendStatus action.retryCount =
      .error error := by
  simp only [Service.step, hjob, runJob] at h
  cases hup : s.tables.updatePendingFileStatus action.file action.sendStatus action.retryCount with
  | ok r =>
    rw [hup] at h
    cases h
  | error error' =>
    rw [hup] at h
    obtain ⟨-, rfl⟩ := Failure.report.inj (Except.error.inj h)
    rfl

/-! ### The tracker in the service -/

/-- The rule for steps of the tracker, for the service: what the brain is told has the property of
the custody. -/
theorem reports_of_step {c : PeerId → FileTracker.Custody} {s : Service} {e env w}
    (h : FileTracker.InCustody c s.node) (hadmits : FileTracker.Custody.Admits c s.node e env)
    (hstep : s.node.step (e, env) = some w) :
    FileTracker.InCustody c w ∧ ∀ a ∈ Service.reports s.node w, ∃ p, (c p).notice a := by
  have hkept := h.step hadmits hstep
  refine ⟨hkept.custody, fun a ha => ?_⟩
  obtain ⟨⟨p, a⟩, hmem, rfl⟩ := List.mem_map.mp ha
  exact ⟨p, hkept.notices p a hmem⟩

/-- What a command of the brain needs: only a file that is handed over has to have the property. -/
theorem admits_command {c : PeerId → FileTracker.Custody} {w e env}
    (hcommand : e.fromNetwork = false) (hclosed : ∀ p, (c p).Closed env)
    (hfile : ∀ p file, e = .call (.addPendingFile p file) → (c p).file file) :
    FileTracker.Custody.Admits c w e env where
  closed := hclosed
  file p file he _ := hfile p file he
  accepts _ _ _ _ _ _ he := by
    rw [he] at hcommand
    cases hcommand
  response _ _ _ _ he := by
    rw [he] at hcommand
    cases hcommand
  round _ _ _ _ he := by
    rw [he] at hcommand
    cases hcommand

/-! ### Coming to rest -/

/-- How much a job can lead to. How many rows and files are read is not bounded, so the jobs that
read them are above the others; the reports of the tracker are below its commands. -/
def Job.rank : Job → ℕ ×ₗ ℕ
  | .addReason .. | .removeSource _ | .removeFile _ | .removeRequest _ => toLex (0, 0)
  | .countForPath .. => toLex (0, 1)
  | .cleanup _ => toLex (0, 2)
  | .report _ => toLex (0, 3)
  | .cancelFile _ | .cancelRequest _ => toLex (0, 4)
  | .deleteFile _ | .deleteRequest _ => toLex (0, 5)
  | .sendFiles files | .initialFiles files => toLex (0, 4 + files.length)
  | .insertFiles _ filePaths => toLex (0, 5 + filePaths.length)
  | .createFiles _ filePaths => toLex (0, 6 + filePaths.length)
  | .readyReset done todo => toLex (0, 5 + done.length + 2 * todo.length)
  | .sweepRemove filePaths => toLex (0, filePaths.length)
  | .readyFiles _ | .sweep _ => toLex (1, 0)
  | .ready => toLex (2, 0)

theorem Job.rank_lt {m n : ℕ} (h : m < n) : toLex (0, m) < toLex (0, n) :=
  Prod.Lex.toLex_lt_toLex.mpr (.inr ⟨rfl, h⟩)

/-- What a job leads to has a lower rank. -/
theorem Does.descends {parse x s job s' next} (h : Does parse x s job s' next) :
    ∃ new, s'.jobs ++ next = s.jobs ++ new ∧ ∀ job' ∈ new, job'.rank < job.rank := by
  cases h with
  | sendFile | initialFile | cancelFile | cancelRequest =>
    -- the tracker may report something
    refine ⟨_, List.append_assoc .., List.forall_mem_append.mpr ⟨fun job' hmem => ?_, ?_⟩⟩
    · obtain ⟨action, -, rfl⟩ := List.mem_map.mp hmem
      exact Job.rank_lt (by omega)
    · simp [Job.rank, Prod.Lex.toLex_lt_toLex]
  | @report action =>
    refine ⟨_, rfl, ?_⟩
    rw [followUp.eq_def]
    split <;> simp [Job.rank, Prod.Lex.toLex_lt_toLex]
  | readyReset | readyKeep =>
    refine ⟨_, rfl, List.forall_mem_singleton.mpr (Job.rank_lt ?_)⟩
    simp only [List.length_append, List.length_cons, List.length_nil]
    omega
  | insertFiles =>
    refine ⟨_, rfl, List.forall_mem_singleton.mpr (Job.rank_lt ?_)⟩
    simp [drawIds]
  | _ => exact ⟨_, rfl, by simp [Job.rank, Prod.Lex.toLex_lt_toLex]⟩

/-- **The brain comes to rest.** Unless something comes from outside, only finitely many jobs are
done: whichever of the waiting jobs is next, and whatever the tables, the tracker and the host
answer. -/
theorem comes_to_rest (parse : String → Option PeerId) : WellFounded fun s' s : Service =>
    ∃ index x, index < s.jobs.length ∧ s.step parse (.resume index, x) = .ok s' := by
  refine Subrelation.wf ?_ (InvImage.wf (fun s : Service => (s.jobs : Multiset Job))
    (InvImage.wf Job.rank wellFounded_lt).cutExpand)
  rintro s' s ⟨index, x, hindex, hstep⟩
  simp only [Service.step, List.getElem?_eq_getElem hindex] at hstep
  split at hstep
  · cases hstep
  · next next hrun =>
    obtain rfl := Except.ok.inj hstep
    obtain ⟨new, hnew, hlower⟩ := (does_of_runJob hrun).descends
    refine ⟨new, s.jobs[index], hlower, Multiset.coe_eq_coe.mpr ?_⟩
    rw [hnew]
    exact (List.perm_append_singleton ..).trans
      ((List.getElem_cons_eraseIdx_perm hindex).append_right new)

/-! ### A small service -/

/-- Every text but one is a peer id. -/
def sampleParse (text : String) : Option PeerId := if text = "invalid" then none else some ⟨text⟩

/-- A remote file request. -/
def sampleRequest : RemoteFilerequest :=
  ⟨⟨"row"⟩, "peer", ⟨"filerequest"⟩, "name", ⟨"contact"⟩⟩

/-- Files of ten bytes, the next of which are read. Requests can be sent, and the ids that are drawn
are made from a text. -/
def sampleSurroundings (read : List UInt8) (id : String) : Surroundings where
  env :=
    { isContactKnown := fun _ => .ok true
      openFileForReading := fun _ => some ⟨"name", .ok 10, 0⟩
      read := .ok read
      seeks := true
      transferUuid := ⟨"transfer"⟩
      sends := fun _ => true }
  newId index := ⟨id ++ toString index⟩

/-- The sample request is entered, a file is created for it and handed to the tracker. -/
def sampleSetup : List (Event × Surroundings) :=
  [.createRemoteFilerequest sampleRequest, .act (.createPendingFiles ⟨"row"⟩ ["path"]),
    .resume 0, .resume 0, .resume 0, .resume 0].map fun e => (e, sampleSurroundings [] "file")

end Brain

end Fyles
