import Fyles.FileTracker
import Fyles.Internal.Run

/-!
# Runs of the file tracker

The whole tracker: the map of peers, and the handlers that are between two of their critical
sections. An event starts a handler or lets one of the waiting handlers enter its next section.
Every order of such events is a run, so what holds in every run holds for every interleaving of
the handlers.

The tracker also records what the sections have done. No section reads this history.
-/

namespace Fyles

namespace FileTracker

/-- The tracker. -/
structure CoreFileTracker where
  files : AList fun _ : PeerId => PeerFiles
  nextRequestId : ℕ
  /-- What has been done, and for which peer. -/
  history : List (PeerId × Effect)

namespace CoreFileTracker

/-- `new_core_file_tracker`. -/
def new : CoreFileTracker := ⟨∅, 0, []⟩

variable (t : CoreFileTracker)

variable (peer : PeerId)

/-- The section of a peer when it is entered. -/
def enter : Section :=
  ⟨t.files.lookup peer, t.nextRequestId, []⟩

/-- The tracker after a section of a peer. -/
def leave (sec : Section) : CoreFileTracker where
  files := match sec.entry with
    | some files => t.files.insert peer files
    | none => t.files.erase peer
  nextRequestId := sec.nextRequestId
  history := t.history ++ sec.effects.map fun e => (peer, e)

/-- Run a section on the entry of a peer. -/
def atPeer (f : Section → Section × Control) : CoreFileTracker × Control :=
  (t.leave peer (f (t.enter peer)).1, (f (t.enter peer)).2)

/-- The effects of the sections of a peer. -/
def historyOf : List Effect :=
  t.history.filterMap fun e => if e.1 = peer then some e.2 else none

/-- The peer that `cancel_file` finds for a file. -/
def peerOf (id : FylesId) : Option PeerId :=
  (t.files.entries.find? fun e =>
    (e.2.sending.any fun s => s.pendingFile.id = id) || e.2.pending.any fun p => p.id = id).map
    Sigma.fst

variable {t : CoreFileTracker} {p q : PeerId} {sec : Section}

@[simp] theorem lookup_leave_self : (t.leave p sec).files.lookup p = sec.entry := by
  rw [leave]
  cases sec.entry <;> simp

theorem lookup_leave_ne (h : q ≠ p) : (t.leave p sec).files.lookup q = t.files.lookup q := by
  rw [leave]
  cases sec.entry <;> simp [h]

@[simp] theorem history_leave :
    (t.leave p sec).history = t.history ++ sec.effects.map fun e => (p, e) := rfl

@[simp] theorem historyOf_leave_self :
    (t.leave p sec).historyOf p = t.historyOf p ++ sec.effects := by
  simp [historyOf, List.filterMap_append, List.filterMap_map]

theorem historyOf_leave_ne (h : q ≠ p) : (t.leave p sec).historyOf q = t.historyOf q := by
  simp [historyOf, List.filterMap_append, List.filterMap_map, Ne.symm h]

end CoreFileTracker

/-! ### Handlers -/

/-- The entry points of the tracker that change it. -/
inductive Handler
  | addPendingFile (peer : PeerId) (file : PendingFile)
  | triggerInteractionWith (peer : PeerId)
  | receiveResponse (nodeId : PeerId) (contactId : Option ContactId) (requestId : Option ℕ)
      (response : FileResponse)
  | handleReceiveError (nodeId : PeerId) (requestId : Option ℕ) (error : ReceiveError)
  | cancelFile (fileId : FylesId)
  | cancelFileByTarget (targetFilerequestId : FylesId) (peer : PeerId)
  | resetForDisconnectedPeer (peer : PeerId)
  deriving DecidableEq, Repr

namespace Handler

/-- The peer whose entry a handler works on. -/
def peer (t : CoreFileTracker) : Handler → Option PeerId
  | .addPendingFile peer _ | .triggerInteractionWith peer | .receiveResponse peer _ _ _
  | .handleReceiveError peer _ _ | .cancelFileByTarget _ peer | .resetForDisconnectedPeer peer =>
    some peer
  | .cancelFile fileId => t.peerOf fileId

/-- The first section of a handler. -/
def run (env : Env) : Handler → Section → Section × Control
  | .addPendingFile _ file => FileTracker.addPendingFile file
  | .triggerInteractionWith _ => FileTracker.triggerInteractionWith env
  | .receiveResponse _ contactId requestId response =>
    FileTracker.receiveResponse env contactId requestId response
  | .handleReceiveError _ _ error => FileTracker.handleReceiveError env error
  | .cancelFile fileId => fun sec => ((cancelSection env (fun f => f.id = fileId) sec).2, .returned)
  | .cancelFileByTarget target _ => fun sec =>
    ((cancelSection env (fun f => f.targetFilerequestId = target) sec).2, .returned)
  | .resetForDisconnectedPeer _ => FileTracker.resetForDisconnectedPeer

end Handler

/-! ### Worlds -/

/-- The tracker and the handlers that wait for their next section. -/
structure World where
  tracker : CoreFileTracker
  /-- What the waiting handlers do next, and for which peer. -/
  tasks : List (PeerId × Task)

/-- What can happen. -/
inductive Event
  | call (handler : Handler)
  /-- A waiting handler enters its next section. -/
  | resume (index : ℕ)
  deriving DecidableEq, Repr

namespace World

/-- No file was ever added. -/
def new : World := ⟨.new, []⟩

variable (w : World)

/-- Run a section, and let the handler wait if it has another one. -/
def enter (peer : PeerId) (f : Section → Section × Control)
    (tasks : List (PeerId × Task)) : World × Control :=
  let r := w.tracker.atPeer peer f
  (⟨r.1, match r.2 with
    | .next task => tasks ++ [(peer, task)]
    | _ => tasks⟩, r.2)

/-- The section that an event runs: the peer, the section itself, and the handlers that wait
besides. `none` if there is no section to run. -/
def sectionOf (env : Env) :
    Event → Option (PeerId × (Section → Section × Control) × List (PeerId × Task))
  | .call handler => (handler.peer w.tracker).map fun peer => (peer, handler.run env, w.tasks)
  | .resume index => w.tasks[index]?.map fun t => (t.1, runTask env t.2, w.tasks.eraseIdx index)

/-- What an event does, and how its handler goes on. -/
def stepControl (e : Event × Env) : World × Control :=
  match w.sectionOf e.2 e.1 with
  | none => (w, .returned)
  | some (peer, f, tasks) => w.enter peer f tasks

/-- The world after an event, unless the handler blocks or panics. -/
def step (e : Event × Env) : Option World :=
  match w.stepControl e with
  | (w', .returned) | (w', .next _) => some w'
  | (_, .blocked) | (_, .panicked) => none

/-- A section that lets the tracker go on. -/
structure Ran (w w' : World) (peer : PeerId) (f : Section → Section × Control)
    (tasks : List (PeerId × Task)) : Prop where
  /-- The handler does not wait for its own lock. -/
  not_blocked : (f (w.tracker.enter peer)).2 ≠ .blocked
  /-- The handler does not panic. -/
  not_panicked : (f (w.tracker.enter peer)).2 ≠ .panicked
  /-- What becomes of the tracker. -/
  tracker : w'.tracker = w.tracker.leave peer (f (w.tracker.enter peer)).1
  /-- What becomes of the handler. -/
  tasks : w'.tasks = match (f (w.tracker.enter peer)).2 with
    | .next task => tasks ++ [(peer, task)]
    | _ => tasks

variable {w w' : World}

theorem ran_of_enter {peer} {f : Section → Section × Control} {tasks}
    (h : (match w.enter peer f tasks with
      | (w', .returned) | (w', .next _) => some w'
      | (_, .blocked) | (_, .panicked) => none) = some w') : Ran w w' peer f tasks := by
  simp only [enter, CoreFileTracker.atPeer] at h
  cases hc : (f (w.tracker.enter peer)).2 with
  | returned | next task =>
    rw [hc] at h
    obtain ⟨⟩ := h
    exact ⟨by simp [hc], by simp [hc], rfl, by simp [hc]⟩
  | blocked | panicked =>
    rw [hc] at h
    cases h

variable {env : Env}

/-- What a step does: nothing, or one section of a handler that is called or was waiting. -/
theorem step_cases {e} (h : w.step (e, env) = some w') : w' = w ∨
    (∃ handler peer, e = .call handler ∧ handler.peer w.tracker = some peer ∧
      Ran w w' peer (handler.run env) w.tasks) ∨
    (∃ index peer task, e = .resume index ∧ w.tasks[index]? = some (peer, task) ∧
      Ran w w' peer (runTask env task) (w.tasks.eraseIdx index)) := by
  rw [step, stepControl] at h
  cases e with
  | call handler =>
    cases hp : handler.peer w.tracker with
    | none =>
      simp only [sectionOf, hp, Option.map_none] at h
      exact .inl (Option.some.inj h).symm
    | some peer =>
      simp only [sectionOf, hp, Option.map_some] at h
      exact .inr (.inl ⟨handler, peer, rfl, hp, ran_of_enter h⟩)
  | resume index =>
    cases ht : w.tasks[index]? with
    | none =>
      simp only [sectionOf, ht, Option.map_none] at h
      exact .inl (Option.some.inj h).symm
    | some t =>
      simp only [sectionOf, ht, Option.map_some] at h
      exact .inr (.inr ⟨index, t.1, t.2, rfl, ht, ran_of_enter h⟩)

/-- A handler is called. -/
theorem ran_of_call {p handler} (hp : handler.peer w.tracker = some p)
    (h : w.step (.call handler, env) = some w') : World.Ran w w' p (handler.run env) w.tasks := by
  rw [World.step, World.stepControl] at h
  simp only [World.sectionOf, hp, Option.map_some] at h
  exact World.ran_of_enter h

/-- A handler that returns. -/
theorem step_of_returned {p handler sec} (hp : handler.peer w.tracker = some p)
    (h : handler.run env (w.tracker.enter p) = (sec, .returned)) :
    w.step (.call handler, env) = some ⟨w.tracker.leave p sec, w.tasks⟩ := by
  simp only [World.step, World.stepControl, World.sectionOf, hp, Option.map_some, World.enter,
    CoreFileTracker.atPeer, h]

end World

end FileTracker

end Fyles
