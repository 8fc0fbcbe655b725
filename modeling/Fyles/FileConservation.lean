import Fyles.TrackerSteps
import Fyles.Internal.Ledger

/-!
# No file is lost

Every file that the tracker has accepted is in the queue or in the slot of its peer, or it has
left: with one of the five notifications that report a file as finished, or because the brain
has cancelled it. Counting, the three together are one.

Two branches of the source break this. When the request to continue an interrupted transfer
cannot be sent, `send_next` forgets the file that it has taken from the queue, while its branch
for new transfers puts it back. And the handler of `RejectChunk` takes the file out of the slot
before it looks at its status, and returns when the status is another than `Sending`.
`Careful` excludes the two, and `files_are_lost` shows them.

## Main results

* `Micro.conserves` — all small steps but two conserve files
* `accounted_once` — in every run of careful events every accepted file is accounted for once
-/

namespace Fyles

namespace FileTracker

/-! ### Counting -/

/-- How often a file is in a queue. -/
def inQueue (queue : List PendingFile) (id : FylesId) : ℕ := (queue.map PendingFile.id).count id

/-- How often a file is in a slot. -/
def inSlot (slot : Option (LockedSendData ℕ)) (id : FylesId) : ℕ :=
  match slot with
  | none => 0
  | some s => if s.pendingFile.id = id then 1 else 0

/-- How often a file is in an entry. -/
def held (entry : Option PeerFiles) (id : FylesId) : ℕ :=
  match entry with
  | none => 0
  | some files => inQueue files.pending id + inSlot files.sending id

/-- The file that an effect reports as finished. -/
def Effect.finishes : Effect → Option FylesId
  | .notified action => action.terminal
  | _ => none

/-- The file that an effect takes out because it was cancelled. -/
def Effect.cancels : Effect → Option FylesId
  | .cancelled id => some id
  | _ => none

/-- The file that an effect takes into the tracker. -/
def Effect.enters : Effect → Option FylesId
  | .accepted id => some id
  | _ => none

/-- How often a file was reported as finished. -/
def finishedBy (effects : List Effect) (id : FylesId) : ℕ :=
  (effects.filterMap Effect.finishes).count id

/-- How often a file was cancelled. -/
def cancelledBy (effects : List Effect) (id : FylesId) : ℕ :=
  (effects.filterMap Effect.cancels).count id

/-- How often a file has left. -/
def leftBy (effects : List Effect) (id : FylesId) : ℕ :=
  finishedBy effects id + cancelledBy effects id

/-- How often a file was accepted. -/
def enteredBy (effects : List Effect) (id : FylesId) : ℕ :=
  (effects.filterMap Effect.enters).count id

variable (id : FylesId)

@[simp] theorem held_none : held none id = 0 := rfl

@[simp] theorem held_some (files : PeerFiles) (id : FylesId) :
    held (some files) id = inQueue files.pending id + inSlot files.sending id := rfl

@[simp] theorem inSlot_none : inSlot none id = 0 := rfl

@[simp] theorem inSlot_some (s : LockedSendData ℕ) (id : FylesId) :
    inSlot (some s) id = if s.pendingFile.id = id then 1 else 0 := rfl

@[simp] theorem inQueue_nil : inQueue [] id = 0 := rfl

@[simp] theorem inQueue_cons (file : PendingFile) (queue : List PendingFile) (id : FylesId) :
    inQueue (file :: queue) id = inQueue queue id + if file.id = id then 1 else 0 := by
  simp [inQueue, List.count_cons]

@[simp] theorem inQueue_append (queue queue' : List PendingFile) (id : FylesId) :
    inQueue (queue ++ queue') id = inQueue queue id + inQueue queue' id := by
  simp [inQueue]

/-- A queue is what is selected and what is not. -/
theorem inQueue_filter (selected : PendingFile → Bool) (queue : List PendingFile) (id : FylesId) :
    inQueue (queue.filter fun file => !selected file) id +
      ((queue.filter selected).map PendingFile.id).count id = inQueue queue id := by
  induction queue with
  | nil => rfl
  | cons file queue ih =>
    cases hs : selected file <;> simp [hs, List.count_cons, ← ih] <;> omega

theorem count_filterMap_cons (f : Effect → Option FylesId) (e : Effect) (es : List Effect)
    (id : FylesId) : ((e :: es).filterMap f).count id =
      (es.filterMap f).count id + if f e = some id then 1 else 0 := by
  cases h : f e <;> simp [h, List.count_cons]

@[simp] theorem leftBy_nil : leftBy [] id = 0 := rfl

@[simp] theorem enteredBy_nil : enteredBy [] id = 0 := rfl

@[simp] theorem leftBy_append (es es' : List Effect) (id : FylesId) :
    leftBy (es ++ es') id = leftBy es id + leftBy es' id := by
  simp only [leftBy, finishedBy, cancelledBy, List.filterMap_append, List.count_append]
  omega

@[simp] theorem enteredBy_append (es es' : List Effect) (id : FylesId) :
    enteredBy (es ++ es') id = enteredBy es id + enteredBy es' id := by
  simp [enteredBy]

theorem enteredBy_pos {es id} : 0 < enteredBy es id ↔ Effect.accepted id ∈ es := by
  rw [enteredBy, List.count_pos_iff, List.mem_filterMap]
  constructor
  · rintro ⟨e, he, hid⟩
    cases e <;> simp [Effect.enters] at hid
    exact hid ▸ he
  · exact fun h => ⟨_, h, rfl⟩

/-! ### Effects of the operations on a section -/

namespace Section

variable {sec : Section} {id : FylesId}

@[simp] theorem leftBy_notify (a : NetworkNodeAction) :
    leftBy (sec.notify a).effects id =
      leftBy sec.effects id + if a.terminal = some id then 1 else 0 := by
  rw [notify, emit, leftBy_append]
  congr 1
  simp only [leftBy, finishedBy, cancelledBy, count_filterMap_cons, List.filterMap_nil,
    List.count_nil, Nat.zero_add]
  rfl

@[simp] theorem enteredBy_notify (a : NetworkNodeAction) :
    enteredBy (sec.notify a).effects id = enteredBy sec.effects id := by
  rw [notify, emit, enteredBy_append]
  rfl

@[simp] theorem leftBy_emit_accepted (id' : FylesId) :
    leftBy (sec.emit (.accepted id')).effects id = leftBy sec.effects id := by
  rw [emit, leftBy_append]
  rfl

@[simp] theorem enteredBy_emit_accepted (id' : FylesId) :
    enteredBy (sec.emit (.accepted id')).effects id =
      enteredBy sec.effects id + if id' = id then 1 else 0 := by
  rw [emit, enteredBy_append]
  congr 1
  simp [enteredBy, Effect.enters, List.count_cons]

@[simp] theorem leftBy_emit_acknowledged (r : ℕ) :
    leftBy (sec.emit (.acknowledged r)).effects id = leftBy sec.effects id := by
  rw [emit, leftBy_append]
  rfl

@[simp] theorem enteredBy_emit_acknowledged (r : ℕ) :
    enteredBy (sec.emit (.acknowledged r)).effects id = enteredBy sec.effects id := by
  rw [emit, enteredBy_append]
  rfl

@[simp] theorem leftBy_emitCancelled (ids : List FylesId) :
    leftBy (emitCancelled ids sec).effects id = leftBy sec.effects id + ids.count id := by
  rw [emitCancelled, leftBy_append]
  congr 1
  induction ids with
  | nil => rfl
  | cons a ids ih =>
    simp only [leftBy, finishedBy, cancelledBy, List.map_cons, count_filterMap_cons,
      List.count_cons, Effect.finishes, Effect.cancels] at ih ⊢
    simp only [reduceCtorEq, if_false, Option.some.injEq, beq_iff_eq]
    omega

@[simp] theorem enteredBy_emitCancelled (ids : List FylesId) :
    enteredBy (emitCancelled ids sec).effects id = enteredBy sec.effects id := by
  rw [emitCancelled, enteredBy_append]
  simp [enteredBy, List.filterMap_map, Function.comp_def, Effect.enters]

variable {env : Env} {idempotent : Bool} {contactId : Option ContactId} {request : FileRequest}

@[simp] theorem leftBy_send :
    leftBy (sec.send env idempotent contactId request).2.effects id = leftBy sec.effects id := by
  rw [send]
  split <;> rw [emit, leftBy_append] <;> rfl

@[simp] theorem enteredBy_send :
    enteredBy (sec.send env idempotent contactId request).2.effects id =
      enteredBy sec.effects id := by
  rw [send]
  split <;> rw [emit, enteredBy_append] <;> rfl

end Section

/-! ### Sections that conserve files -/

variable {on : Occasion} {sec' : Section}

/-- The second section is the first one after some steps that neither lose nor duplicate
files. -/
def Conserves (sec sec' : Section) : Prop :=
  ∀ id, held sec'.entry id + leftBy sec'.effects id + enteredBy sec.effects id =
    held sec.entry id + leftBy sec.effects id + enteredBy sec'.effects id

theorem Conserves.trans {a b c} (h₁ : Conserves a b) (h₂ : Conserves b c) :
    Conserves a c := fun id => by
  have := h₁ id
  have := h₂ id
  omega

/-- Requests to continue a transfer are handed to the network without an error. -/
def ContinueSends (env : Env) : Prop := ∀ f t, env.sends (.continueTransfer f t) = true

@[simp] theorem held_announce (sec : Section) (file : PendingFile) (id : FylesId) :
    held (announce sec file).entry id = held sec.entry id := by
  rw [announce]
  split <;> rfl

@[simp] theorem leftBy_announce (sec : Section) (file : PendingFile) (id : FylesId) :
    leftBy (announce sec file).effects id = leftBy sec.effects id := by
  rw [announce]
  split <;> simp [NetworkNodeAction.terminal]

@[simp] theorem enteredBy_announce (sec : Section) (file : PendingFile) (id : FylesId) :
    enteredBy (announce sec file).effects id = enteredBy sec.effects id := by
  rw [announce]
  split <;> simp

@[simp] theorem terminal_action (outcome : FileOutcome) (id : FylesId) :
    (outcome.action id).terminal = some id := by
  cases outcome <;> rfl

/-- Asking the window for a chunk changes neither the files that have left nor those that have
entered. -/
theorem sendNextChunk_effects (env : Env) (s : LockedSendData ℕ) (sec : Section) (id : FylesId) :
    leftBy (s.sendManager.sendNextChunk env.read (sendChunk env s) sec).2.2.effects id =
      leftBy sec.effects id ∧
    enteredBy (s.sendManager.sendNextChunk env.read (sendChunk env s) sec).2.2.effects id =
      enteredBy sec.effects id := by
  refine SendManager.sendNextChunk_state (P := fun sec' : Section =>
    leftBy sec'.effects id = leftBy sec.effects id ∧
      enteredBy sec'.effects id = enteredBy sec.effects id) ⟨rfl, rfl⟩ fun c r sec' h => ?_
  obtain rfl : (sec.send env true (some s.pendingFile.contactId) (.chunk c)).2 = sec' :=
    congrArg Prod.snd h
  simp

/-- **Conservation of the small steps.** -/
theorem Micro.conserves {env sec} (hc : ContinueSends env) (hd : ¬ on.drops)
    (h : Micro env on sec sec') : Conserves sec sec' := by
  intro id
  cases h with
  | request | failedRequest => simp
  | reportInterrupt | openFailed => simp [NetworkNodeAction.terminal]
  | accept _ queue slot he =>
    have hheld : held sec.entry id = inQueue queue id + inSlot slot id := by
      cases hsec : sec.entry with
      | none =>
        rw [hsec] at he
        cases he
        rfl
      | some files =>
        rw [hsec] at he
        cases he
        rfl
    simp [hheld]
    omega
  | skip he ha =>
    rcases ha with rfl | rfl <;> simp [he, NetworkNodeAction.terminal] <;> omega
  | removeEmpty he => simp [he]
  | offerNew opened size he hst hsend =>
    rw [offerNew_sent hsend]
    simp [he, LockedSendData.new]
  | offerContinue opened size he hst =>
    rw [offerContinue_sent (hc _ _)]
    simp [he, LockedSendData.new, LockedSendData.withStatus]
  | complete outcome he hsent =>
    simp [he]
    omega
  | reset reason he => simp [resetAndStop, he, NetworkNodeAction.terminal]
  | interrupt he hdata => simp [he]
  | failOnce he => simp [he, failedOnce]
  | drop hdrops => exact absurd hdrops hd
  | verify _ _ he => simp [he]
  | start _ he => simp [he, LockedSendData.withStatus]
  | continueAt _ _ he => simp [he, LockedSendData.withStatus]
  | acknowledge _ he => simp [he, LockedSendData.withStatus, NetworkNodeAction.terminal]
  | @window _ s _ he =>
    obtain ⟨hleft, hentered⟩ := sendNextChunk_effects env s sec id
    simp [he, hleft, hentered]
  | done _ he => simp [he, LockedSendData.withStatus]
  | cancelSlot he =>
    simp [he, List.count_cons]
    omega
  | @cancelQueue queue _ selected he =>
    have := inQueue_filter selected queue id
    simp [he]
    omega

theorem Steps.conserves {env sec} (hc : ContinueSends env) (hd : ¬ on.drops)
    (h : Steps env on sec sec') : Conserves sec sec' :=
  h.lift (fun _ _ => rfl) Conserves.trans (Micro.conserves hc hd)

/-! ### Files enter by `add_pending_file` only -/

theorem Micro.enteredBy_eq {env sec} (hno : ∀ id, ¬ on.accepts id) (h : Micro env on sec sec')
    (id : FylesId) : enteredBy sec'.effects id = enteredBy sec.effects id := by
  cases h with
  | accept hid => exact absurd hid (hno _)
  | offerNew opened size he hst hsend => simp [offerNew_sent hsend]
  | offerContinue opened size he hst =>
    rw [FileTracker.offerContinue]
    split
    · next hs =>
      obtain ⟨rfl, -⟩ := Section.send_cases hs
      simp
    · next hs =>
      obtain ⟨rfl, -⟩ := Section.send_cases hs
      simp
  | @window _ s _ he => simp [sendNextChunk_effects env s sec id]
  | reset reason he => simp [resetAndStop]
  | _ => simp

theorem Steps.enteredBy_eq {env sec} (hno : ∀ id, ¬ on.accepts id) (h : Steps env on sec sec')
    (id : FylesId) : enteredBy sec'.effects id = enteredBy sec.effects id :=
  h.lift (R := fun a b => enteredBy b.effects id = enteredBy a.effects id) (fun _ => rfl)
    (fun h₁ h₂ => h₂.trans h₁) (fun hm => hm.enteredBy_eq hno id)

theorem addPendingFile_enteredBy (file : PendingFile) (sec : Section) (id : FylesId) :
    enteredBy (addPendingFile file sec).1.effects id ≤
      enteredBy sec.effects id + if file.id = id then 1 else 0 := by
  rw [addPendingFile]
  split <;> simp

/-- A section accepts at most one file, and only one that its handler was given. -/
theorem Handler.enteredBy_run {env} (handler : Handler) (sec : Section) (hsec : sec.effects = [])
    (hb : (handler.run env sec).2 ≠ .blocked) (id : FylesId) :
    enteredBy (handler.run env sec).1.effects id ≤ 1 ∧
      (0 < enteredBy (handler.run env sec).1.effects id →
        ∃ p file, handler = .addPendingFile p file ∧ file.id = id) := by
  by_cases hadd : ∃ p file, handler = .addPendingFile p file
  · obtain ⟨p, file, rfl⟩ := hadd
    have hle : enteredBy (FileTracker.addPendingFile file sec).1.effects id ≤ _ :=
      addPendingFile_enteredBy file sec id
    rw [hsec, enteredBy_nil, Nat.zero_add] at hle
    have hrun : (Handler.addPendingFile p file).run env sec =
        FileTracker.addPendingFile file sec := rfl
    rw [hrun]
    by_cases hid : file.id = id
    · exact ⟨by simpa [hid] using hle, fun _ => ⟨p, file, rfl, hid⟩⟩
    · rw [if_neg hid] at hle
      exact ⟨by omega, fun h => absurd h (by simpa using hle)⟩
  · have hno : ∀ id, ¬ (Occasion.ofHandler handler sec.entry).accepts id :=
      fun id ⟨p, file, h, _⟩ => hadd ⟨p, file, h⟩
    rw [(handler.steps sec hb).enteredBy_eq hno id, hsec]
    simp

/-! ### The tracker as a ledger -/

namespace CoreFileTracker

/-- All effects so far. -/
def effects (t : CoreFileTracker) : List Effect := t.history.map Prod.snd

/-- Where the files are. -/
def ledger (t : CoreFileTracker) : Ledger PeerId FylesId where
  held p id := held (t.files.lookup p) id
  left id := leftBy t.effects id
  entered p id := (p, Effect.accepted id) ∈ t.history

theorem settled_new : new.ledger.Settled where
  once h := absurd h List.not_mem_nil
  elsewhere h := absurd h List.not_mem_nil
  absent _ := ⟨fun _ => rfl, rfl⟩

/-- A section that conserves files is a move of the ledger. -/
theorem move_leave {t : CoreFileTracker} {p sec} (hcons : Conserves (t.enter p) sec)
    (hone : ∀ id, enteredBy sec.effects id ≤ 1)
    (hfresh : ∀ id, 0 < enteredBy sec.effects id → ∀ q, (q, Effect.accepted id) ∉ t.history) :
    t.ledger.Move (t.leave p sec).ledger p (enteredBy sec.effects) where
  frame q hq := by
    funext id
    simp [ledger, lookup_leave_ne hq]
  left_le id := by simp [ledger, effects]
  flow id := by
    have hflow := hcons id
    simp only [enter, leftBy_nil, enteredBy_nil] at hflow
    simp only [ledger, lookup_leave_self, effects, history_leave, List.map_append, List.map_map,
      Function.comp_def, List.map_id', leftBy_append]
    omega
  entered q id := by
    simp only [ledger, history_leave, List.mem_append, List.mem_map, Prod.mk.injEq, enteredBy_pos]
    constructor
    · rintro (h | ⟨e, he, rfl, rfl⟩)
      · exact .inl h
      · exact .inr ⟨rfl, he⟩
    · rintro (h | ⟨rfl, he⟩)
      · exact .inl h
      · exact .inr ⟨_, he, rfl, rfl⟩
  once := hone
  fresh := hfresh

end CoreFileTracker

/-! ### Runs -/

variable {w : World}

/-- A file is added at most once. -/
def DistinctIds (w : World) (e : Event × Env) : Prop :=
  ∀ p file, e.1 = .call (.addPendingFile p file) →
    ∀ q, (q, Effect.accepted file.id) ∉ w.tracker.history

/-- An event for which the tracker conserves files: requests to continue a transfer can be sent,
and `RejectChunk` meets a file that is being sent, or none. -/
structure Careful (w : World) (e : Event × Env) : Prop where
  /-- Requests to continue a transfer do not fail. -/
  continues : ContinueSends e.2
  /-- `RejectChunk` does not meet a file in another status than `Sending`. -/
  rejects : ∀ p c r, e.1 = .call (.receiveResponse p c r .rejectChunk) →
    SlotIsSending (w.tracker.files.lookup p)

/-- **One step.** A careful event keeps the ledger of files settled. -/
theorem settled_step {w' : World} {e} (hs : w.tracker.ledger.Settled) (hd : DistinctIds w e)
    (hc : Careful w e) (h : w.step e = some w') : w'.tracker.ledger.Settled := by
  obtain ⟨ev, env⟩ := e
  rcases World.step_cases h with
    rfl | ⟨handler, peer, rfl, hp, hr⟩ | ⟨index, peer, task, rfl, ht, hr⟩
  · exact hs
  · have hentered := handler.enteredBy_run (w.tracker.enter peer) rfl hr.not_blocked
    rw [hr.tracker]
    refine hs.move (CoreFileTracker.move_leave ?_ (fun id => (hentered id).1) fun id hid => ?_)
    · refine (handler.steps _ hr.not_blocked).conserves hc.continues ?_
      rintro ⟨⟨p, c, r, rfl⟩, hsending⟩
      obtain rfl : p = peer := Option.some.inj hp
      exact hsending (hc.rejects p c r rfl)
    · obtain ⟨p, file, rfl, rfl⟩ := (hentered id).2 hid
      exact hd p file rfl
  · have hsteps := @runTask_steps env task (w.tracker.enter peer)
    have hentered : ∀ id, enteredBy (runTask env task (w.tracker.enter peer)).1.effects id = 0 :=
      hsteps.enteredBy_eq fun _ h => h
    rw [hr.tracker]
    refine hs.move (CoreFileTracker.move_leave (hsteps.conserves hc.continues id)
      (fun id => ?_) fun id hid => ?_)
    · rw [hentered id]
      exact Nat.zero_le 1
    · rw [hentered id] at hid
      exact absurd hid (Nat.lt_irrefl 0)

/-- **No file is lost.** In every run in which files are added once, requests to continue a
transfer can be sent and `RejectChunk` meets no file that is not being sent, every accepted file
is accounted for exactly once: in the queue or the slot of its peer, by a notification that
reports it as finished, or by a cancellation. -/
theorem accounted_once {events : List (Event × Env)} {w : World}
    (h : Run World.step (fun w e => DistinctIds w e ∧ Careful w e) World.new events w)
    {p : PeerId} {id : FylesId} (hacc : (p, Effect.accepted id) ∈ w.tracker.history) :
    held (w.tracker.files.lookup p) id + finishedBy w.tracker.effects id +
        cancelledBy w.tracker.effects id = 1 ∧
      ∀ q ≠ p, held (w.tracker.files.lookup q) id = 0 := by
  have hsettled : w.tracker.ledger.Settled :=
    h.invariant CoreFileTracker.settled_new fun hs hok hstep => settled_step hs hok.1 hok.2 hstep
  have honce := hsettled.once hacc
  simp only [CoreFileTracker.ledger, leftBy] at honce
  exact ⟨by omega, hsettled.elsewhere hacc⟩

/-! ### The two ways to lose a file -/

variable (status : SendStatus)

/-- A file of ten bytes in some status. -/
def sampleFile : PendingFile :=
  ⟨⟨"file"⟩, ⟨"contact"⟩, "path", 0, ⟨"filerequest"⟩, status⟩

/-- Surroundings in which everything works, except that some requests cannot be sent. -/
def sampleEnv (sends : FileRequest → Bool) : Env where
  isContactKnown _ := .ok true
  openFileForReading _ := some ⟨"name", .ok 10, 0⟩
  read := .ok []
  seeks := true
  transferUuid := ⟨"transfer"⟩
  sends := sends

/-- Add a file for a peer. -/
def sampleAdd (env : Env) : Event × Env :=
  (.call (.addPendingFile ⟨"peer"⟩ (sampleFile status)), env)

/-- The peer can be reached. -/
def sampleTrigger (env : Env) : Event × Env := (.call (.triggerInteractionWith ⟨"peer"⟩), env)

theorem distinctIds_new (env : Env) : DistinctIds World.new (sampleAdd status env) :=
  fun _ _ _ _ => List.not_mem_nil

theorem distinctIds_of_ne {e} (h : ∀ p file, e.1 ≠ .call (.addPendingFile p file)) :
    DistinctIds w e :=
  fun p file he => absurd he (h p file)

theorem careful_of_ne {e} {sends : FileRequest → Bool}
    (hsends : ∀ f t, sends (.continueTransfer f t) = true)
    (h : ∀ p c r, e ≠ .call (.receiveResponse p c r .rejectChunk)) :
    Careful w (e, sampleEnv sends) :=
  ⟨hsends, fun p c r he => absurd he (h p c r)⟩

/-- The file is accounted for once at the end of a run that offers it. -/
theorem accounted_once_offered : ∃ w,
    Run World.step (fun w e => DistinctIds w e ∧ Careful w e) World.new
      [sampleAdd .pending (sampleEnv fun _ => true), sampleTrigger (sampleEnv fun _ => true)] w ∧
    held (w.tracker.files.lookup ⟨"peer"⟩) ⟨"file"⟩ + finishedBy w.tracker.effects ⟨"file"⟩ +
      cancelledBy w.tracker.effects ⟨"file"⟩ = 1 ∧
    ∀ q ≠ ⟨"peer"⟩, held (w.tracker.files.lookup q) ⟨"file"⟩ = 0 := by
  have hok : Admitted World.step (fun w e => DistinctIds w e ∧ Careful w e) World.new
      [sampleAdd .pending (sampleEnv fun _ => true), sampleTrigger (sampleEnv fun _ => true)] := by
    refine ⟨⟨distinctIds_new _ _, careful_of_ne (fun _ _ => rfl) ?_⟩, fun _ _ =>
      ⟨⟨distinctIds_of_ne ?_, careful_of_ne (fun _ _ => rfl) ?_⟩, fun _ _ => trivial⟩⟩ <;>
      simp [sampleTrigger]
  exact ⟨_, Run.of_runFrom rfl hok, accounted_once (Run.of_runFrom rfl hok) (by decide)⟩

/-- **Two files are lost.** An interrupted file whose continuation cannot be offered, and a file
that was offered and is answered with `RejectChunk`, are in no queue and in no slot, were not
cancelled, and were not reported as finished. -/
theorem files_are_lost : (∃ w, Run World.step DistinctIds World.new
        [sampleAdd (.inProgress ⟨.interrupted, ⟨5, 10, ⟨"transfer"⟩⟩⟩) (sampleEnv fun _ => true),
          sampleTrigger (sampleEnv fun _ => false)] w ∧
      (⟨"peer"⟩, Effect.accepted ⟨"file"⟩) ∈ w.tracker.history ∧
      held (w.tracker.files.lookup ⟨"peer"⟩) ⟨"file"⟩ + finishedBy w.tracker.effects ⟨"file"⟩ +
        cancelledBy w.tracker.effects ⟨"file"⟩ = 0) ∧
    (∃ w, Run World.step DistinctIds World.new
        [sampleAdd .pending (sampleEnv fun _ => true), sampleTrigger (sampleEnv fun _ => true),
          (.call (.receiveResponse ⟨"peer"⟩ none (some 0) .rejectChunk),
            sampleEnv fun _ => true)] w ∧
      (⟨"peer"⟩, Effect.accepted ⟨"file"⟩) ∈ w.tracker.history ∧
      held (w.tracker.files.lookup ⟨"peer"⟩) ⟨"file"⟩ + finishedBy w.tracker.effects ⟨"file"⟩ +
        cancelledBy w.tracker.effects ⟨"file"⟩ = 0) := by
  constructor
  · refine ⟨_, Run.of_runFrom rfl ⟨distinctIds_new _ _, fun _ _ =>
      ⟨distinctIds_of_ne ?_, fun _ _ => trivial⟩⟩, by decide, by decide⟩
    intro _ _ h
    cases h
  · refine ⟨_, Run.of_runFrom rfl ⟨distinctIds_new _ _, fun _ _ => ⟨distinctIds_of_ne ?_,
      fun _ _ => ⟨distinctIds_of_ne ?_, fun _ _ => trivial⟩⟩⟩, by decide, by decide⟩ <;>
    · intro _ _ h
      cases h

end FileTracker

end Fyles
