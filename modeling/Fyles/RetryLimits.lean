import Fyles.FileConservation

/-!
# Retries are not bounded

The tracker gives a file up when it has failed too often: `reset_and_retry` compares the file's
retry count with `1 + size / 10 ^ 9`. Counting and checking are spread over the handlers:

* after an error of the peer, of the session, of decrypting or of sending again, the limit is
  checked and the count stays as it is, although the comments say that it increases;
* when the peer reports an internal error, and when this end finds that the protocol was violated or
  has an internal error itself, the count increases and the limit is not checked;
* when the peer reports a violation of the protocol, the count increases and the limit is checked.

Such a *fault* should count once and end the file that is beyond its limit (`World.Counted`). It
does so exactly under the conditions of `Fault.Limits`. If all faults of a run meet them, then a
file is put back after a fault no more often than its size allows.

## The potential

For the bound, a file is worth as many retries as it has left (`roomIn`). No section makes a file
worth more, a file that is accepted is worth at most its limit, and a fault that puts a file back
uses one retry up.

## Main results

* `Handler.counts_iff`, `Task.counts_iff` — the sections of the faults
* `Micro.room` — no small step makes a file worth more
* `faults_counted_and_bounded` — the exact condition, and the bound for runs that meet it
* `faults_not_counted` — the runs of the source that do not
-/

namespace Fyles

/-- The errors after which a file is put back and the failure should count: those that are neither a
timeout nor an error of the transport. -/
def ReceiveError.isFault : ReceiveError → Bool
  | .remoteError _ => true
  | .localError .timeout | .localError (.transportError _) => false
  | .localError .missingSession | .localError (.decryptError _) | .localError (.resendError _) =>
    true

namespace FileTracker

/-! ### Faults -/

/-- What a file can fail from. -/
inductive Fault
  /-- An error of the peer, of the session, of decrypting or of sending again. -/
  | receiveError
  | peerInternalError
  /-- The peer reports that the protocol was violated. -/
  | peerProtocolViolation
  /-- This end has an internal error, or finds that the peer has violated the protocol. -/
  | resetAll
  deriving DecidableEq, Repr

/-- The fault that a handler is called for. -/
def Handler.fault : Handler → Option Fault
  | .handleReceiveError _ _ error => if error.isFault then some .receiveError else none
  | .receiveResponse _ _ _ .internalError => some .peerInternalError
  | .receiveResponse _ _ _ .protocolViolation => some .peerProtocolViolation
  | _ => none

/-- The fault that a handler has found. -/
def Task.fault : Task → Option Fault
  | .resetAllOnInternalError | .resetAllOnProtocolViolation => some .resetAll
  | _ => none

/-- The fault of an event, and the peer whose file it strikes. -/
def World.fault (w : World) : Event → Option (PeerId × Fault)
  | .call handler =>
    (handler.peer w.tracker).bind fun p => handler.fault.map fun fault => (p, fault)
  | .resume index => w.tasks[index]?.bind fun t => t.2.fault.map fun fault => (t.1, fault)

/-- **What should come of a fault** that strikes the file in the slot: the file fails if the fault
takes it beyond its limit, and otherwise goes back to the queue with the fault counted. -/
def Counts (env : Env) (queue : List PendingFile) (s : LockedSendData ℕ) (sec sec' : Section) :
    Prop :=
  if maxAllowedFailures s.sendManager.fileSizeBytes < s.pendingFile.retryCount + 1 then
    sec' = completeFile env ⟨queue, none⟩ s.pendingFile.id .failed sec
  else ∃ status, sec'.entry = some ⟨queue ++ [{ s.pendingFile with
    status := status, retryCount := s.pendingFile.retryCount + 1 }], none⟩

/-- The faults for which the source does that. -/
def Fault.Limits (s : LockedSendData ℕ) : Fault → Prop
  | .receiveError => maxAllowedFailures s.sendManager.fileSizeBytes < s.pendingFile.retryCount
  | .peerInternalError | .resetAll =>
    s.pendingFile.retryCount + 1 ≤ maxAllowedFailures s.sendManager.fileSizeBytes
  | .peerProtocolViolation => True

instance (s : LockedSendData ℕ) (fault) : Decidable (Fault.Limits s fault) := by
  rw [Fault.Limits.eq_def]
  split <;> infer_instance

/-- A fault of the event, if there is one, counts and is limited. -/
def World.Counted (w : World) (e : Event × Env) (w' : World) : Prop :=
  ∀ p fault queue s, w.fault e.1 = some (p, fault) →
    w.tracker.files.lookup p = some ⟨queue, some s⟩ →
    ∃ sec', w'.tracker = w.tracker.leave p sec' ∧ Counts e.2 queue s (w.tracker.enter p) sec'

/-- **The condition.** A file that fails from an error is beyond its limit already, and the other
faults that are not reported as violations of the protocol do not take it there. -/
def World.Limits (w : World) (e : Event) : Prop :=
  ∀ f ∈ w.fault e, ∀ s ∈ slotOf (w.tracker.files.lookup f.1), f.2.Limits s

instance (w : World) (e : Event) : Decidable (w.Limits e) :=
  inferInstanceAs (Decidable (∀ f ∈ w.fault e, ∀ s ∈ slotOf (w.tracker.files.lookup f.1),
    f.2.Limits s))

/-! ### The sections of the faults -/

variable {env : Env} {sec sec' : Section} {queue : List PendingFile} {s : LockedSendData ℕ}

theorem sendNextFrom_effects (slot : Option (LockedSendData ℕ)) (queue : List PendingFile)
    (sec : Section) : sec.effects <+: (sendNextFrom env slot queue sec).effects := by
  have hsend : ∀ (sec : Section) c q, sec.effects <+: (sec.send env false c q).2.effects := by
    intro sec c q
    rw [Section.send_effects]
    exact List.prefix_append _ _
  have hannounce : ∀ (sec : Section) file, sec.effects <+: (announce sec file).effects := by
    intro sec file
    rw [announce]
    split
    · exact List.prefix_rfl
    · exact List.prefix_append _ _
  induction queue generalizing sec with
  | nil => exact List.prefix_rfl
  | cons file queue ih =>
    have hskip : ∀ a, sec.effects <+: (sendNextFrom env slot queue (sec.notify a)).effects :=
      fun a => (List.prefix_append _ _).trans (ih (sec.notify a))
    rw [sendNextFrom]
    split
    · exact hskip _
    · split
      · exact (List.prefix_append _ _).trans
          ((List.prefix_append _ _).trans (ih ((sec.notify _).notify _)))
      · split
        · exact hskip _
        · split
          · rw [offerNew]
            split
            · next hs =>
              obtain ⟨rfl, -⟩ := Section.send_cases hs
              refine List.IsPrefix.trans ?_ (hannounce _ _)
              exact hsend _ _ _
            · next hs =>
              obtain ⟨rfl, -⟩ := Section.send_cases hs
              exact hsend _ _ _
          · rw [offerContinue]
            split
            · next hs =>
              obtain ⟨rfl, -⟩ := Section.send_cases hs
              refine List.IsPrefix.trans ?_ (hannounce _ _)
              exact hsend _ _ _
            · next hs =>
              obtain ⟨rfl, -⟩ := Section.send_cases hs
              refine List.IsPrefix.trans ?_ (hannounce _ _)
              exact hsend _ _ _
          · exact hskip _

theorem completeFile_effects (files : PeerFiles) (id : FylesId) (outcome : FileOutcome)
    (sec : Section) : ∃ effects, (completeFile env files id outcome sec).effects =
      sec.effects ++ .notified (outcome.action id) :: effects := by
  obtain ⟨effects, h⟩ : _ <+: (completeFile env files id outcome sec).effects :=
    sendNextFrom_effects files.sending files.pending (sec.notify (outcome.action id))
  refine ⟨effects, h.symm.trans ?_⟩
  rw [Section.notify, Section.emit, List.append_assoc, List.singleton_append]

/-- A section that puts the file back, and says so. -/
theorem counts_iff_of_reset {file} (hentry : sec'.entry = some ⟨queue ++ [file], none⟩)
    (hreset : ∃ status count reason effects, sec'.effects =
      sec.effects ++ .notified (.fileSendReset s.pendingFile.id status count reason) :: effects)
    (hfile : { s.pendingFile with status := file.status, retryCount := file.retryCount } = file) :
    Counts env queue s sec sec' ↔ file.retryCount = s.pendingFile.retryCount + 1 ∧
      s.pendingFile.retryCount + 1 ≤ maxAllowedFailures s.sendManager.fileSizeBytes := by
  rw [Counts]
  split
  · next hmax =>
    refine iff_of_false (fun hsec => ?_) (by omega)
    obtain ⟨status, count, reason, effects, heffects⟩ := hreset
    obtain ⟨effects', h⟩ := completeFile_effects ⟨queue, none⟩ s.pendingFile.id .failed sec
    rw [← hsec, heffects] at h
    cases (List.cons.inj (List.append_cancel_left h)).1
  · next hmax =>
    rw [hentry]
    constructor
    · rintro ⟨status, h⟩
      have hqueue := (PeerFiles.mk.inj (Option.some.inj h)).1
      have hf := (List.cons.inj (List.append_cancel_left hqueue)).1
      exact ⟨by rw [hf], by omega⟩
    · rintro ⟨hcount, -⟩
      refine ⟨file.status, ?_⟩
      rw [← hcount, hfile]

variable (reason : String)

/-- After an error the limit is checked, and the count stays. -/
theorem resetAndRetry_counts :
    Counts env queue s sec (resetAndRetry env ⟨queue, none⟩ s reason sec) ↔
      Fault.Limits s .receiveError := by
  rw [resetAndRetry]
  split
  · next hmax =>
    refine iff_of_true ?_ hmax
    rw [Counts, if_pos (by omega)]
  · next hmax =>
    refine iff_of_false (fun h => ?_) hmax
    have hcount := ((counts_iff_of_reset rfl ⟨_, _, _, [], rfl⟩ rfl).mp h).1
    change s.pendingFile.retryCount = s.pendingFile.retryCount + 1 at hcount
    omega

/-- The peer reports an internal error: the count increases, and the limit is not checked. -/
theorem resetAndStop_counts :
    Counts env queue s sec (resetAndStop ⟨queue, none⟩ (failedOnce s) reason sec) ↔
      s.pendingFile.retryCount + 1 ≤ maxAllowedFailures s.sendManager.fileSizeBytes := by
  refine (counts_iff_of_reset rfl ⟨_, _, _, [], rfl⟩ rfl).trans (and_iff_right rfl)

/-- The peer reports a violation of the protocol: the count increases, and the limit is checked. -/
theorem resetAndRetry_failedOnce_counts :
    Counts env queue s sec (resetAndRetry env ⟨queue, none⟩ (failedOnce s) reason sec) := by
  rw [resetAndRetry]
  split
  · next hmax =>
    exact (if_pos hmax).mpr rfl
  · next hmax => exact (resetAndStop_counts reason).mpr (Nat.le_of_not_lt hmax)

/-- This end resets: as if the peer had reported an internal error, and a request is sent. -/
theorem resetAll_counts (he : sec.entry = some ⟨queue, some s⟩) (contactId : Option ContactId)
    (q : FileRequest) :
    Counts env queue s sec ((resetAll (increaseRetryCount sec)).2.send env false contactId q).2 ↔
      s.pendingFile.retryCount + 1 ≤ maxAllowedFailures s.sendManager.fileSizeBytes := by
  have hreset : (resetAll (increaseRetryCount sec)).2 = resetAndStop ⟨queue, none⟩ (failedOnce s)
      "Peer disconnected while sending" sec := by
    rw [increaseRetryCount, he]
    rfl
  rw [hreset]
  refine (counts_iff_of_reset Section.send_entry ?_ rfl).trans (and_iff_right rfl)
  rw [Section.send_effects]
  exact ⟨_, _, _, _, List.append_assoc _ _ _⟩

theorem Handler.counts_iff {handler : Handler} {fault} (hf : handler.fault = some fault)
    (he : sec.entry = some ⟨queue, some s⟩) :
    Counts env queue s sec (handler.run env sec).1 ↔ fault.Limits s := by
  cases handler with
  | handleReceiveError p r error =>
    rw [Handler.fault] at hf
    split at hf
    · next herror =>
      obtain ⟨⟩ := hf
      rw [Handler.run, FileTracker.handleReceiveError, he]
      dsimp only
      split
      · exact resetAndRetry_counts _
      · cases herror
      · cases herror
      · cases herror
      · exact resetAndRetry_counts _
      · exact resetAndRetry_counts _
    · cases hf
  | receiveResponse p c r response =>
    cases response with
    | internalError =>
      obtain ⟨⟩ := hf
      rw [Handler.run, FileTracker.receiveResponse, peerReportsInternalError, he]
      exact resetAndStop_counts _
    | protocolViolation =>
      obtain ⟨⟩ := hf
      rw [Handler.run, FileTracker.receiveResponse, peerReportsViolation, he]
      exact iff_of_true (resetAndRetry_failedOnce_counts _) trivial
    | _ => cases hf
  | _ => cases hf

theorem Task.counts_iff {task fault} (hf : task.fault = some fault)
    (he : sec.entry = some ⟨queue, some s⟩) :
    Counts env queue s sec (runTask env task sec).1 ↔ fault.Limits s := by
  cases task with
  | resetAllOnInternalError | resetAllOnProtocolViolation =>
    obtain ⟨⟩ := hf
    exact resetAll_counts he _ _
  | _ => cases hf

/-! ### The events of the faults -/

variable {w w' : World} {p : PeerId} {fault : Fault} {e : Event × Env}

/-- A section is determined by the tracker that it leaves behind. -/
theorem CoreFileTracker.leave_injective {t : CoreFileTracker}
    (h : t.leave p sec = t.leave p sec') : sec = sec' := by
  have hentry : sec.entry = sec'.entry := by
    have hlookup := congrArg (fun t => t.files.lookup p) h
    simpa using hlookup
  have hid : sec.nextRequestId = sec'.nextRequestId := by
    exact congrArg CoreFileTracker.nextRequestId h
  have heffects : sec.effects = sec'.effects := by
    have hhistory := congrArg CoreFileTracker.history h
    exact List.map_injective_iff.mpr (fun _ _ heq => (Prod.mk.inj heq).2)
      (List.append_cancel_left hhistory)
  cases sec
  cases sec'
  cases hentry
  cases hid
  cases heffects
  rfl

theorem World.counts_of_fault (hstep : w.step e = some w') (hf : w.fault e.1 = some (p, fault))
    (he : w.tracker.files.lookup p = some ⟨queue, some s⟩) :
    ∃ sec', w'.tracker = w.tracker.leave p sec' ∧
      (Counts e.2 queue s (w.tracker.enter p) sec' ↔ fault.Limits s) := by
  obtain ⟨event, env⟩ := e
  rcases World.step_cases hstep with rfl | ⟨handler, q, rfl, hq, hran⟩ |
    ⟨index, q, task, rfl, htask, hran⟩
  · cases event with
    | call handler =>
      obtain ⟨q, hq, hf⟩ := Option.bind_eq_some_iff.mp hf
      obtain ⟨fault', hfault, heq⟩ := Option.map_eq_some_iff.mp hf
      cases heq
      exact ⟨_, (World.ran_of_call hq hstep).tracker, Handler.counts_iff hfault he⟩
    | resume index =>
      obtain ⟨⟨q, task⟩, htask, hf⟩ := Option.bind_eq_some_iff.mp hf
      obtain ⟨fault', hfault, heq⟩ := Option.map_eq_some_iff.mp hf
      cases heq
      rw [World.step, World.stepControl] at hstep
      simp only [World.sectionOf, htask, Option.map_some] at hstep
      exact ⟨_, (World.ran_of_enter hstep).tracker, Task.counts_iff hfault he⟩
  · obtain ⟨q', hq', hf⟩ := Option.bind_eq_some_iff.mp hf
    obtain ⟨fault', hfault, heq⟩ := Option.map_eq_some_iff.mp hf
    cases heq
    obtain rfl := Option.mem_unique hq hq'
    exact ⟨_, hran.tracker, Handler.counts_iff hfault he⟩
  · obtain ⟨⟨q', task'⟩, htask', hf⟩ := Option.bind_eq_some_iff.mp hf
    obtain ⟨fault', hfault, heq⟩ := Option.map_eq_some_iff.mp hf
    cases heq
    cases Option.mem_unique htask htask'
    exact ⟨_, hran.tracker, Task.counts_iff hfault he⟩

/-- **One event.** A fault counts and is limited exactly under the condition. -/
theorem World.counted_iff (hstep : w.step e = some w') : w.Counted e w' ↔ w.Limits e.1 := by
  constructor
  · rintro hcounted ⟨p, fault⟩ hf s hs
    obtain ⟨⟨queue, slot⟩, he, hslot⟩ := Option.bind_eq_some_iff.mp hs
    obtain rfl : slot = some s := hslot
    obtain ⟨sec, htracker, hcounts⟩ := hcounted p fault queue s hf he
    obtain ⟨sec', htracker', hiff⟩ := World.counts_of_fault hstep hf he
    obtain rfl := CoreFileTracker.leave_injective (htracker.symm.trans htracker')
    exact hiff.mp hcounts
  · intro hlimits p fault queue s hf he
    obtain ⟨sec', htracker, hiff⟩ := World.counts_of_fault hstep hf he
    exact ⟨sec', htracker, hiff.mpr (hlimits _ hf s (Option.bind_eq_some_iff.mpr ⟨_, he, rfl⟩))⟩

/-! ### The retries that are left -/

section Room

variable (limit : ℕ) (id : FylesId)

/-- The retries that a file has left, if it is the file in question. -/
def room (file : PendingFile) : ℕ := if file.id = id then limit - file.retryCount else 0

/-- The retries that are left in an entry. -/
def roomIn (entry : Option PeerFiles) : ℕ :=
  match entry with
  | none => 0
  | some files => (files.pending.map (room limit id)).sum +
      files.sending.elim 0 fun s => room limit id s.pendingFile

variable {limit id}

@[simp] theorem roomIn_none : roomIn limit id none = 0 := rfl

@[simp] theorem roomIn_some (queue : List PendingFile) (slot : Option (LockedSendData ℕ)) :
    roomIn limit id (some ⟨queue, slot⟩) = (queue.map (room limit id)).sum +
      slot.elim 0 fun s => room limit id s.pendingFile := rfl

theorem room_le (file : PendingFile) : room limit id file ≤ if file.id = id then limit else 0 := by
  rw [room]
  split
  · exact Nat.sub_le _ _
  · exact Nat.le_refl _

@[simp] theorem room_withStatus (s : LockedSendData ℕ) (status : SendStatus) :
    room limit id (s.withStatus status).pendingFile = room limit id s.pendingFile := rfl

theorem room_failedOnce (s : LockedSendData ℕ) :
    room limit id (failedOnce s).pendingFile ≤ room limit id s.pendingFile := by
  by_cases hid : s.pendingFile.id = id
  · simp only [room, failedOnce, hid, if_true]
    omega
  · simp [room, failedOnce, hid]

@[simp] theorem roomIn_announce (sec : Section) (file : PendingFile) :
    roomIn limit id (announce sec file).entry = roomIn limit id sec.entry := by
  rw [announce]
  split <;> rfl

theorem sum_filter_le (selected : PendingFile → Bool) (queue : List PendingFile) :
    ((queue.filter selected).map (room limit id)).sum ≤ (queue.map (room limit id)).sum :=
  (List.filter_sublist.map _).sum_le_sum fun _ _ => Nat.zero_le _

/-- The second section has no more retries left than the first one, and those of the files that have
entered. -/
def Spends (limit : ℕ) (id : FylesId) (sec sec' : Section) : Prop :=
  roomIn limit id sec'.entry + limit * enteredBy sec.effects id ≤
    roomIn limit id sec.entry + limit * enteredBy sec'.effects id

/-- **No small step makes a file worth more.** -/
theorem Micro.room {on} (h : Micro env on sec sec') : Spends limit id sec sec' := by
  cases h with
  | request | failedRequest => simp [Spends]
  | reportInterrupt | openFailed => simp [Spends]
  | @accept file _ queue slot he =>
    have hroom : roomIn limit id sec.entry = roomIn limit id (some ⟨queue, slot⟩) := by
      cases hsec : sec.entry with
      | none =>
        rw [hsec] at he
        cases he
        rfl
      | some files =>
        rw [hsec] at he
        cases he
        rfl
    have hle : FileTracker.room limit id file ≤ _ := room_le file
    simp only [Spends, hroom]
    simp [Nat.mul_add]
    omega
  | skip he ha =>
    rcases ha with rfl | rfl <;> simp [Spends, he]
  | removeEmpty he => simp [Spends, he]
  | offerNew opened size he hst hsend =>
    rw [offerNew_sent hsend]
    simp [Spends, he, LockedSendData.new, FileTracker.room, Nat.add_comm]
  | offerContinue opened size he hst =>
    rw [FileTracker.offerContinue]
    split
    · next hs =>
      obtain ⟨rfl, -⟩ := Section.send_cases hs
      simp [Spends, he, LockedSendData.new, FileTracker.room, LockedSendData.withStatus,
        Nat.add_comm]
    · next hs =>
      obtain ⟨rfl, -⟩ := Section.send_cases hs
      simp [Spends, he]
  | complete outcome he hsent => simp [Spends, he]
  | reset reason he => simp [Spends, resetAndStop, he, FileTracker.room]
  | interrupt he hdata => simp [Spends, he, FileTracker.room]
  | @failOnce _ s he =>
    have hle : FileTracker.room limit id (failedOnce s).pendingFile ≤ _ := room_failedOnce s
    simp [Spends, he]
    omega
  | drop hdrops he => simp [Spends, he]
  | verify _ _ he => simp [Spends, he]
  | start _ he => simp [Spends, he]
  | continueAt _ _ he => simp [Spends, he]
  | acknowledge _ he => simp [Spends, he, FileTracker.room, LockedSendData.withStatus]
  | @window _ s _ he =>
    obtain ⟨-, hentered⟩ := sendNextChunk_effects env s sec id
    simp [Spends, he, hentered]
  | done _ he => simp [Spends, he]
  | cancelSlot he => simp [Spends, he]
  | @cancelQueue queue _ selected he =>
    have hle :
        ((queue.filter fun file => !selected file).map (FileTracker.room limit id)).sum ≤ _ :=
      sum_filter_le (fun file => !selected file) queue
    simp [Spends, he]
    omega

theorem Steps.room {on} (h : Steps env on sec sec') : Spends limit id sec sec' :=
  h.lift (fun _ => Nat.le_refl _)
    (fun h₁ h₂ => by
      rw [Spends] at h₁ h₂ ⊢
      omega) Micro.room

/-- A file that was struck and put back has one retry less. -/
theorem roomIn_of_counts {status} (hid : s.pendingFile.id = id)
    (hle : s.pendingFile.retryCount + 1 ≤ limit) :
    roomIn limit id (some ⟨queue ++ [{ s.pendingFile with
        status := status, retryCount := s.pendingFile.retryCount + 1 }], none⟩) + 1 =
      roomIn limit id (some ⟨queue, some s⟩) := by
  simp only [roomIn_some, FileTracker.room, List.map_append, List.map_cons, List.map_nil,
    List.sum_append, List.sum_cons, List.sum_nil, Option.elim_none, Option.elim_some, hid, if_true]
  omega

end Room

/-! ### Runs -/

/-- The event is a fault that strikes a file of a peer and does not end it. -/
def World.putsBack (w w' : World) (p : PeerId) (id : FylesId) (e : Event) : Bool :=
  (w.fault e).any (fun f => f.1 = p) &&
    (slotOf (w.tracker.files.lookup p)).any (fun s => s.pendingFile.id = id) &&
    !((w'.tracker.historyOf p).drop (w.tracker.historyOf p).length).contains
      (.notified (.fileFailed id))

/-- How often the faults of a run put a file of a peer back. -/
def resetsOf (p : PeerId) (id : FylesId) : World → List (Event × Env) → ℕ
  | _, [] => 0
  | w, e :: events =>
    match w.step e with
    | none => 0
    | some w' => (w.putsBack w' p id e.1).toNat + resetsOf p id w' events

/-- The file of a peer is no larger than some size when it is in the slot. -/
def World.SizeAtMost (w : World) (p : PeerId) (id : FylesId) (size : ℕ) : Prop :=
  ∀ s ∈ slotOf (w.tracker.files.lookup p), s.pendingFile.id = id →
    s.sendManager.fileSizeBytes ≤ size

instance (w : World) (p : PeerId) (id : FylesId) (size : ℕ) : Decidable (w.SizeAtMost p id size) :=
  inferInstanceAs (Decidable (∀ s ∈ slotOf (w.tracker.files.lookup p), s.pendingFile.id = id →
    s.sendManager.fileSizeBytes ≤ size))

theorem World.room_step (hstep : w.step e = some w') (limit : ℕ) (id : FylesId) :
    roomIn limit id (w'.tracker.files.lookup p) +
        limit * enteredBy (w.tracker.historyOf p) id ≤
      roomIn limit id (w.tracker.files.lookup p) +
        limit * enteredBy (w'.tracker.historyOf p) id := by
  rcases World.step_steps hstep with rfl | ⟨on, q, sec', hsteps, htracker⟩
  · exact Nat.le_refl _
  · rw [htracker]
    by_cases hq : p = q
    · subst hq
      have hspends : Spends limit id (w.tracker.enter p) sec' := hsteps.room
      simp only [Spends, CoreFileTracker.enter, enteredBy_nil, Nat.mul_zero, Nat.add_zero]
        at hspends
      rw [CoreFileTracker.lookup_leave_self, CoreFileTracker.historyOf_leave_self,
        enteredBy_append, Nat.mul_add]
      omega
    · rw [CoreFileTracker.lookup_leave_ne hq, CoreFileTracker.historyOf_leave_ne hq]

theorem maxAllowedFailures_mono {m n : ℕ} (h : m ≤ n) :
    maxAllowedFailures m ≤ maxAllowedFailures n :=
  Nat.add_le_add_left (Nat.div_le_div_right h) 1

/-- A fault that puts a file back uses one of its retries up. -/
theorem World.room_putsBack (hstep : w.step e = some w') (hlimits : w.Limits e.1) {id} {size : ℕ}
    (hsize : w.SizeAtMost p id size) (hback : w.putsBack w' p id e.1 = true) :
    roomIn (maxAllowedFailures size) id (w'.tracker.files.lookup p) + 1 ≤
        roomIn (maxAllowedFailures size) id (w.tracker.files.lookup p) ∧
      enteredBy (w.tracker.historyOf p) id ≤ enteredBy (w'.tracker.historyOf p) id := by
  simp only [World.putsBack, Bool.and_eq_true, Option.any_eq_true, decide_eq_true_eq,
    Bool.not_eq_true'] at hback
  obtain ⟨⟨⟨⟨q, fault⟩, hf, rfl⟩, s, hs, hid⟩, hnot⟩ := hback
  obtain ⟨⟨queue, slot⟩, he, hslot⟩ := Option.bind_eq_some_iff.mp hs
  obtain rfl : slot = some s := hslot
  obtain ⟨sec', htracker, hcounts⟩ := (World.counted_iff hstep).mpr hlimits _ fault queue s hf he
  rw [htracker, CoreFileTracker.historyOf_leave_self, List.drop_left] at hnot
  rw [htracker, CoreFileTracker.historyOf_leave_self, enteredBy_append,
    CoreFileTracker.lookup_leave_self, he]
  refine ⟨?_, Nat.le_add_right _ _⟩
  rw [Counts] at hcounts
  split at hcounts
  · -- the file has failed, and that was reported
    obtain ⟨effects, heffects⟩ := completeFile_effects ⟨queue, none⟩ s.pendingFile.id .failed
      (w.tracker.enter q)
    rw [hcounts, heffects, CoreFileTracker.enter, List.nil_append, hid, FileOutcome.action] at hnot
    simp at hnot
  · next hmax =>
    obtain ⟨status, hentry⟩ := hcounts
    have hle := maxAllowedFailures_mono (hsize s hs hid)
    rw [hentry]
    exact Nat.le_of_eq (roomIn_of_counts hid (by omega))

/-- The faults of a run use up the retries of the files that were there and that have entered. -/
theorem resetsOf_le {id} {size : ℕ} {events} (hrun : runFrom World.step w events = some w')
    (hok : Admitted World.step (fun w e => w.Limits e.1 ∧ w.SizeAtMost p id size) w events) :
    resetsOf p id w events + maxAllowedFailures size * enteredBy (w.tracker.historyOf p) id ≤
      roomIn (maxAllowedFailures size) id (w.tracker.files.lookup p) +
        maxAllowedFailures size * enteredBy (w'.tracker.historyOf p) id := by
  induction events generalizing w with
  | nil =>
    obtain rfl : w = w' := by simpa using hrun
    simp [resetsOf]
  | cons e events ih =>
    obtain ⟨u, hu, hrest⟩ := Option.bind_eq_some_iff.mp hrun
    obtain ⟨⟨hlimits, hsize⟩, hadm⟩ := hok
    have hmain := ih hrest (hadm u hu)
    rw [resetsOf, hu]
    dsimp only
    cases hback : w.putsBack u p id e.1 with
    | false =>
      have hroom := World.room_step (p := p) hu (maxAllowedFailures size) id
      simp only [Bool.toNat_false, Nat.zero_add]
      omega
    | true =>
      obtain ⟨hroom, hentered⟩ := World.room_putsBack hu hlimits hsize hback
      have hmul := Nat.mul_le_mul_left (maxAllowedFailures size) hentered
      simp only [Bool.toNat_true]
      omega

/-- **Faults that count, and how many there are.** A fault counts once, and ends a file that is
beyond its limit, exactly under the condition. If all faults of a run meet the condition, then the
faults put a file of at most some size back no more than `1 + size / 10 ^ 9` times for each time
that the tracker has accepted it. -/
theorem faults_counted_and_bounded (p : PeerId) (id : FylesId) (size : ℕ) :
    (∀ (w w' : World) e, w.step e = some w' → (w.Counted e w' ↔ w.Limits e.1)) ∧
    ∀ events (w : World), runFrom World.step .new events = some w →
      Admitted World.step (fun w e => w.Limits e.1 ∧ w.SizeAtMost p id size) .new events →
      resetsOf p id .new events ≤
        (1 + size / 1000000000) * enteredBy (w.tracker.historyOf p) id := by
  refine ⟨fun w w' e hstep => World.counted_iff hstep, fun events w hrun hok => ?_⟩
  exact Nat.le_trans (Nat.le_add_right _ _) ((resetsOf_le hrun hok).trans (by
    rw [show (World.new.tracker.files.lookup p) = none from rfl]
    simp [maxAllowedFailures]))

/-- The peer reports two violations of the protocol for a file of ten bytes. The first one puts it
back, and the second one ends it. -/
theorem faults_counted_and_bounded_violations : ∃ w, runFrom World.step .new
        [sampleAdd .pending (sampleEnv fun _ => true), sampleTrigger (sampleEnv fun _ => true),
          (.call (.receiveResponse ⟨"peer"⟩ none (some 0) .protocolViolation),
            sampleEnv fun _ => true), sampleTrigger (sampleEnv fun _ => true),
          (.call (.receiveResponse ⟨"peer"⟩ none (some 1) .protocolViolation),
            sampleEnv fun _ => true)] = some w ∧
      finishedBy w.tracker.effects ⟨"file"⟩ = 1 ∧
      resetsOf ⟨"peer"⟩ ⟨"file"⟩ .new
        [sampleAdd .pending (sampleEnv fun _ => true), sampleTrigger (sampleEnv fun _ => true),
          (.call (.receiveResponse ⟨"peer"⟩ none (some 0) .protocolViolation),
            sampleEnv fun _ => true), sampleTrigger (sampleEnv fun _ => true),
          (.call (.receiveResponse ⟨"peer"⟩ none (some 1) .protocolViolation),
            sampleEnv fun _ => true)] ≤
        (1 + 10 / 1000000000) * enteredBy (w.tracker.historyOf ⟨"peer"⟩) ⟨"file"⟩ :=
  ⟨_, rfl, by decide, (faults_counted_and_bounded ⟨"peer"⟩ ⟨"file"⟩ 10).2 _ _ rfl (by decide)⟩

/-- The retry counts of the files that wait for a peer. -/
def World.waitingRetryCounts (w : World) (p : PeerId) : Option (List ℕ) :=
  (w.tracker.files.lookup p).map fun files => files.pending.map PendingFile.retryCount

/-- **Faults that do not count, and faults that are not limited.** A file of ten bytes may fail
once. After an error of the peer's session it waits again, and has not failed. The peer reports
three internal errors: the file waits again, and has failed three times. The peer confirms a
transfer that it has not accepted, three times: the same. -/
theorem faults_not_counted : (∃ w, runFrom World.step .new
        [sampleAdd .pending (sampleEnv fun _ => true), sampleTrigger (sampleEnv fun _ => true),
          (.call (.handleReceiveError ⟨"peer"⟩ (some 0) (.remoteError .missingSession)),
            sampleEnv fun _ => true)] = some w ∧
      w.waitingRetryCounts ⟨"peer"⟩ = some [0]) ∧
    (∃ w, runFrom World.step .new
        (sampleAdd .pending (sampleEnv fun _ => true) ::
          (List.replicate 3 [sampleTrigger (sampleEnv fun _ => true),
            (.call (.receiveResponse ⟨"peer"⟩ none (some 0) .internalError),
              sampleEnv fun _ => true)]).flatten) = some w ∧
      w.waitingRetryCounts ⟨"peer"⟩ = some [3]) ∧
    ∃ w, runFrom World.step .new
        (sampleAdd .pending (sampleEnv fun _ => true) ::
          (List.replicate 3 [sampleTrigger (sampleEnv fun _ => true),
            (.call (.receiveResponse ⟨"peer"⟩ none (some 0) .confirmDone),
              sampleEnv fun _ => true),
            (.resume 0, sampleEnv fun _ => true)]).flatten) = some w ∧
      w.waitingRetryCounts ⟨"peer"⟩ = some [3] :=
  ⟨⟨_, rfl, by decide⟩, ⟨_, rfl, by decide⟩, ⟨_, rfl, by decide⟩⟩

end FileTracker

end Fyles
