import Mathlib.Data.Nat.Notation
import Mathlib.Tactic.Common

/-!
# Broadcast channels

A channel that keeps the last values that were sent on it, up to its capacity. A receiver begins at
the end of what was sent before it subscribed and gets the values one by one. It is told that it
*lags* if the value at its position is not kept any more, and that the channel is *closed* if there
is no value at its position and no sender.

A receiver is its position. All values that were ever sent are listed; the ones that are kept are
the last of them. A value that is sent while there is no receiver is listed as well, which no
receiver can tell, since those that subscribe later begin behind it.

## Main definitions

* `Broadcast`, `Broadcast.send`, `Broadcast.subscribe`, `Broadcast.recv`

## Main results

* `Broadcast.recv_of_length_eq` — who has received everything waits as long as there is a sender
* `Broadcast.recv_of_append` — a value is received as long as fewer newer ones than the capacity
  were sent
-/

namespace Fyles

/-- A channel. -/
structure Broadcast (T : Type*) where
  capacity : ℕ
  /-- All values, the oldest first. -/
  sent : List T
  /-- There is no sender any more. -/
  closed : Bool

namespace Broadcast

variable {T : Type*}

/-- What a receiver gets. -/
inductive Received (T : Type*)
  | value (value : T)
  | lagged
  | closed
  /-- There is nothing yet: the receiver waits. -/
  | pending

def new (capacity : ℕ) : Broadcast T := ⟨capacity, [], false⟩

variable (c : Broadcast T)

def send (value : T) : Broadcast T := { c with sent := c.sent ++ [value] }

/-- The last sender is dropped. -/
def close : Broadcast T := { c with closed := true }

/-- The position of a new receiver. -/
def subscribe : ℕ := c.sent.length

/-- What the receiver at a position gets. -/
def recv (next : ℕ) : Received T :=
  if next + c.capacity < c.sent.length then .lagged
  else
    match c.sent[next]? with
    | some value => .value value
    | none => if c.closed then .closed else .pending

variable {c : Broadcast T} {next : ℕ}

/-- Who has received everything waits as long as there is a sender. -/
theorem recv_of_length_eq (h : c.sent.length = next) (hopen : c.closed = false) :
    c.recv next = .pending := by
  subst h
  rw [recv, if_neg (Nat.not_lt.mpr (Nat.le_add_right _ _)), List.getElem?_eq_none (Nat.le_refl _),
    hopen]
  rfl

/-- A value is received as long as fewer newer ones than the capacity were sent. -/
theorem recv_of_append {before after value} (h : c.sent = before ++ value :: after)
    (hafter : after.length < c.capacity) : c.recv before.length = .value value := by
  have hlength : c.sent.length = before.length + (after.length + 1) := by
    rw [h, List.length_append, List.length_cons]
  have hget : c.sent[before.length]? = some value := by
    rw [h, List.getElem?_append_right (Nat.le_refl _), Nat.sub_self]
    rfl
  rw [recv, if_neg (by omega), hget]

end Broadcast

end Fyles
