import Fyles.Internal.Lock
import Fyles.Internal.Run

/-!
# Waiting until the node is ready

`WaitForReady` and `Ready` in `core/src/core/brain/handle_action.rs`. Both handlers lock the
ephemeral data of the brain. Until the node is ready, the senders of those who wait are queued in a
list that is bounded (`core/src/library/bounded_list.rs`); `Ready` takes the list and answers them.

The handler of `WaitForReady` takes its sender, which has a lock of its own, and matches on the
queue through a guard that lives until the end of the `match`. If there is no queue any more, it
requests the lock again, to read whether the node has started, and waits for itself: it is never
answered, and nobody gets at the ephemeral data from then on. (A debug build panics after five
seconds.) What follows would request the lock of the sender again too, and would not find a sender.

Handlers run in any order, but only one at a time has the lock. So an interleaving is the order in
which the handlers get it.

## Main results

* `answered_iff` — who is answered, and when a handler waits for itself
-/

namespace Fyles.WaitForReady

/-- The part of `EphemeralBrainData` that the handlers use. A request is a number, and so is the
sender of its answer. -/
structure EphemeralBrainData where
  queuedWaitForReadyRequests : Option (List ℕ)
  successfullyStarted : Bool
  replies : List (ℕ × Bool)

/-- The bound of the queue. -/
def maxSize : ℕ := 25

/-- A new brain. -/
def EphemeralBrainData.new : EphemeralBrainData := ⟨some [], false, []⟩

/-- `BoundedList::push`. A sender that is not accepted is dropped. -/
def push (items : List ℕ) (item : ℕ) : List ℕ :=
  if items.length < maxSize then items ++ [item] else items

/-- Code with two locks: that of the `response_sender` of its request, and that of the ephemeral
data. -/
abbrev Handler := StateT (Held (Option ℕ) × Held EphemeralBrainData) Option

variable {α : Type}

/-- Code on the `response_sender`. -/
def responseSender (code : Locking (Option ℕ) α) : Handler α := fun held =>
  (code held.1).map fun r => (r.1, r.2, held.2)

/-- Code on the `ephemeral_data`. -/
def ephemeralData (code : Locking EphemeralBrainData α) : Handler α := fun held =>
  (code held.2).map fun r => (r.1, held.1, r.2)

/-- `take`, of the `response_sender`. -/
def take : Handler (Option ℕ) := responseSender (access fun sender => (none, sender))

/-- The handler of `WaitForReady`. Each guard lives until the end of what is done with the value
that it was requested for. -/
def waitForReady : Handler Unit := do
  responseSender (acquire .write)
  if let some sender ← take then
    ephemeralData (acquire .write)
    match ← ephemeralData (access fun d => (d, d.queuedWaitForReadyRequests)) with
    | some q =>
      ephemeralData (access fun d =>
        ({ d with queuedWaitForReadyRequests := some (push q sender) }, ()))
    | none =>
      ephemeralData (acquire .write)
      let started ← ephemeralData (access fun d => (d, d.successfullyStarted))
      ephemeralData release
      responseSender (acquire .write)
      if let some sender ← take then
        ephemeralData (access fun d => ({ d with replies := d.replies ++ [(sender, started)] }, ()))
      responseSender release
    ephemeralData release
  responseSender release

/-- The handler of `Ready`, from the lock of the ephemeral data on. -/
def ready : Handler Unit := ephemeralData do
  acquire .write
  access fun d =>
    (⟨none, true, d.replies ++ (d.queuedWaitForReadyRequests.getD []).map fun r => (r, true)⟩, ())
  release

/-- A handler that gets the lock. -/
inductive Action
  | waitForReady (request : ℕ)
  | ready
  deriving DecidableEq

/-- The request of an action. -/
def Action.request : Action → Option ℕ
  | .waitForReady request => some request
  | .ready => none

/-- What the action runs. -/
def Action.handler : Action → Handler Unit
  | .waitForReady _ => WaitForReady.waitForReady
  | .ready => WaitForReady.ready

/-- One handler. There is no next state if it waits for itself. -/
def step (d : EphemeralBrainData) (a : Action) : Option EphemeralBrainData :=
  (a.handler.run (⟨none, a.request⟩, ⟨none, d⟩)).map fun r => r.2.2.state

theorem push_take (l : List ℕ) (i : ℕ) : push (l.take maxSize) i = (l ++ [i]).take maxSize := by
  rw [push, List.take_append, List.length_take]
  split
  · rw [List.take_of_length_le (l := [i]) (by simp; omega)]
  · have : maxSize - l.length = 0 := by omega
    rw [this, List.take_zero, List.append_nil]

/-- When the node is ready, a request waits for itself. -/
theorem runFrom_ready (replies : List (ℕ × Bool)) (actions : List Action) :
    runFrom step ⟨none, true, replies⟩ actions =
      if ∀ a ∈ actions, a = .ready then some ⟨none, true, replies⟩ else none := by
  induction actions with
  | nil => rfl
  | cons a actions ih =>
    cases a with
    | waitForReady request => rfl
    | ready =>
      have hstep : step ⟨none, true, replies⟩ .ready = some ⟨none, true, replies ++ []⟩ := rfl
      simp [hstep, ih]

/-- Until then, the first requests are queued. -/
theorem runFrom_queued (l : List ℕ) (actions : List Action) :
    runFrom step ⟨some (l.take maxSize), false, []⟩ actions =
      if ∀ a ∈ actions.dropWhile (fun a => a ≠ .ready), a = .ready then
        let requests := (l ++ actions.filterMap Action.request).take maxSize
        some (if .ready ∈ actions then ⟨none, true, requests.map (·, true)⟩
          else ⟨some requests, false, []⟩)
      else none := by
  induction actions generalizing l with
  | nil => simp
  | cons a actions ih =>
    cases a with
    | waitForReady request =>
      have hstep : step ⟨some (l.take maxSize), false, []⟩ (.waitForReady request) =
          some ⟨some ((l ++ [request]).take maxSize), false, []⟩ := by
        rw [← push_take]
        rfl
      simp [hstep, ih, Action.request]
    | ready =>
      have hstep : step ⟨some (l.take maxSize), false, []⟩ .ready =
          some ⟨none, true, (l.take maxSize).map (·, true)⟩ := rfl
      rw [runFrom_cons, hstep, Option.bind_some, runFrom_ready]
      by_cases hready : ∀ a ∈ actions, a = .ready
      · have hnone : (Action.ready :: actions).filterMap Action.request = [] := by
          rw [List.filterMap_eq_nil_iff, List.forall_mem_cons]
          exact ⟨rfl, fun a ha => hready a ha ▸ rfl⟩
        simp [hnone]
      · simp [hready]

/-- **Who is answered.** The handlers run in any order. Each gets at the ephemeral data, and once
`Ready` has run each of the first requests, up to the bound, has been told exactly once that the
node has started, if and only if no request gets at the ephemeral data after `Ready`. -/
theorem answered_iff (actions : List Action) :
    (∃ d, runFrom step .new actions = some d ∧ d.replies =
      if .ready ∈ actions then
        ((actions.filterMap Action.request).take maxSize).map (·, true)
      else []) ↔
      ∀ a ∈ actions.dropWhile (fun a => a ≠ .ready), a = .ready := by
  have hrun := runFrom_queued [] actions
  rw [List.take_nil, List.nil_append] at hrun
  rw [EphemeralBrainData.new, hrun]
  split
  case isTrue h =>
    refine iff_of_true ⟨_, rfl, ?_⟩ h
    split <;> rfl
  case isFalse h => exact iff_of_false (by simp) h

/-- A request when the node is ready: its handler waits for itself. -/
theorem waits_for_itself : runFrom step .new [.ready, .waitForReady 0] = none := rfl

end Fyles.WaitForReady
