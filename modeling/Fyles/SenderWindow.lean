import Fyles.FileExchange
import Fyles.Internal.Ring
import Fyles.RollingNonceWindow

/-!
# The sender's window over a whole transfer

What the ring, the counters and the byte count of a send manager mean, for a file that is read to
its end while the acknowledgements of its chunks arrive in any order.

Abstractly there is a list of pieces, each sent with a request, and the set of those that were
acknowledged. All of the manager's state but its reader follows from these: the lower end of the
window is the least piece that was not acknowledged, the slot of a piece of the window says how long
the piece is and whether it was acknowledged, and the progress counts the bytes below the window.
An acknowledgement of the lowest piece makes a loop pass over all pieces that were acknowledged
before it; between two rounds the lower end is behind the least missing piece, and nothing else is
different.

## The start

A transfer starts at the beginning of the file, or a response of the receiver names an offset. Then
`set_progress` drops the read under way and moves the file there. Moving can fail, which is logged
only: the file is read on behind the piece that was dropped, but the progress starts at the offset
all the same, and adding to it can overflow.

## Main results

* `SendManager.Describes.receiveAck`, `SendManager.Describes.register` — acknowledging and sending
  do to the manager what they do abstractly
* `SenderRun.attempted_of_step` — what an attempt to send can do
* `SenderRun.Invariant.step` — so the manager follows from what was sent, after every step
* `SenderRun.sound_of_fits` — the window is sound in every state of a transfer as long as the
  offset and the bytes that were read together are a `u64`
-/

namespace Fyles

open ReplayWindow FileIntegrity

/-! ### The pieces that were sent -/

/-- What a sender has sent. -/
structure Outgoing (ID : Type) where
  /-- The bytes of the chunks, in the order of their indices. -/
  pieces : List (List UInt8)
  requests : List ID
  /-- The indices of the chunks that were acknowledged. -/
  acknowledged : Finset ℕ

namespace Outgoing

variable {ID : Type}

/-- Nothing was sent yet. -/
def empty : Outgoing ID := ⟨[], [], ∅⟩

variable (o : Outgoing ID)

/-- One more chunk is sent. -/
def send (piece : List UInt8) (id : ID) : Outgoing ID :=
  { o with pieces := o.pieces ++ [piece], requests := o.requests ++ [id] }

/-- A chunk is acknowledged. -/
def acknowledge (i : ℕ) : Outgoing ID :=
  { o with acknowledged := insert i o.acknowledged }

/-- The request is under way, with the chunk of the index `i`. -/
def Carries (id : ID) (i : ℕ) : Prop :=
  o.requests[i]? = some id ∧ i ∉ o.acknowledged

/-- The request is under way. -/
def Outstanding (id : ID) : Prop := ∃ i, o.Carries id i

/-- What the slot of an index should be. -/
def slot (i : ℕ) : Slot :=
  match o.pieces[i]? with
  | none => .empty
  | some piece =>
    if i ∈ o.acknowledged then .acknowledged piece.length else .pending piece.length

/-- The number of bytes in the chunks below an index. -/
def bytesBelow (lo : ℕ) : ℕ := (o.pieces.take lo).flatten.length

variable {i : ℕ}

theorem slot_of_none {o : Outgoing ID} (h : o.pieces[i]? = none) : o.slot i = .empty := by
  rw [slot, h]

variable {piece : List UInt8}

theorem slot_of_acknowledged {o : Outgoing ID}
    (h : o.pieces[i]? = some piece) (hi : i ∈ o.acknowledged) :
    o.slot i = .acknowledged piece.length := by
  rw [slot, h]
  exact if_pos hi

theorem slot_of_pending {o : Outgoing ID}
    (h : o.pieces[i]? = some piece) (hi : i ∉ o.acknowledged) :
    o.slot i = .pending piece.length := by
  rw [slot, h]
  exact if_neg hi

theorem slot_send {o : Outgoing ID} (piece : List UInt8) (id : ID)
    (hnew : o.pieces.length ∉ o.acknowledged) :
    (o.send piece id).slot = Function.update o.slot o.pieces.length (.pending piece.length) := by
  funext i
  rcases Nat.lt_trichotomy i o.pieces.length with hlt | rfl | hgt
  · rw [Function.update_of_ne (Nat.ne_of_lt hlt), slot, slot, send,
      List.getElem?_append_left hlt]
  · rw [Function.update_self]
    exact slot_of_pending List.getElem?_concat_length hnew
  · rw [Function.update_of_ne (Nat.ne_of_gt hgt), slot_of_none, slot_of_none]
    · exact List.getElem?_eq_none (Nat.le_of_lt hgt)
    · refine List.getElem?_eq_none ?_
      rw [send, List.length_append]
      exact hgt

theorem slot_acknowledge {o : Outgoing ID} (h : o.pieces[i]? = some piece) :
    (o.acknowledge i).slot = Function.update o.slot i (.acknowledged piece.length) := by
  funext j
  by_cases hji : j = i
  · subst hji
    rw [Function.update_self]
    exact slot_of_acknowledged h (Finset.mem_insert_self j _)
  · rw [Function.update_of_ne hji, slot, slot, acknowledge]
    simp only [Finset.mem_insert, hji, false_or]

theorem bytesBelow_succ {o : Outgoing ID}
    (h : o.pieces[i]? = some piece) : o.bytesBelow (i + 1) = o.bytesBelow i + piece.length := by
  rw [bytesBelow, Assembles.take_succ_flatten h, List.length_append, bytesBelow]

theorem bytesBelow_send {o : Outgoing ID} (piece : List UInt8) (id : ID) {lo : ℕ}
    (h : lo ≤ o.pieces.length) : (o.send piece id).bytesBelow lo = o.bytesBelow lo := by
  rw [bytesBelow, send, List.take_append_of_le_length h, bytesBelow]

theorem bytesBelow_length : o.bytesBelow o.pieces.length = o.pieces.flatten.length := by
  rw [bytesBelow, List.take_length]

theorem bytesBelow_le (lo : ℕ) : o.bytesBelow lo ≤ o.pieces.flatten.length := by
  have hsplit : o.pieces.flatten.length =
      o.bytesBelow lo + (o.pieces.drop lo).flatten.length := by
    rw [bytesBelow, ← List.length_append, ← List.flatten_append, List.take_append_drop]
  rw [hsplit]
  exact Nat.le_add_right _ _

end Outgoing

/-! ### The state of a manager -/

namespace SendManager

variable {ID : Type} [DecidableEq ID]

/-- The manager has sent `o`, starting at an offset, and the lower end of its window is `lo`. -/
structure Describes (m : SendManager ID) (o : Outgoing ID) (offset lo : ℕ) : Prop where
  ring : Shows parallelChunks m.chunksInFlight o.slot lo
  earliest : m.earliestNotSent = lo
  next : m.nextSlot = o.pieces.length
  /-- The window is not turned around. -/
  lower : lo ≤ o.pieces.length
  /-- It is not too wide. -/
  upper : o.pieces.length ≤ lo + parallelChunks
  /-- What is below was acknowledged. -/
  below : ∀ i < lo, i ∈ o.acknowledged
  /-- What was acknowledged had been sent. -/
  sent : ∀ i ∈ o.acknowledged, i < o.pieces.length
  /-- There is one request for each chunk. -/
  carried : o.requests.length = o.pieces.length
  /-- The requests that are registered are those under way. -/
  registered : ∀ id i, m.chunkToIndex.lookup id = some i ↔ o.Carries id i
  /-- The bytes below. -/
  progress : m.progressBytes = offset + o.bytesBelow lo

namespace Describes

variable {m : SendManager ID} {o : Outgoing ID} {offset lo : ℕ}

theorem new (transferId : FylesId) (fileSizeBytes position : ℕ) :
    (SendManager.new transferId fileSizeBytes position : SendManager ID).Describes .empty 0 0 where
  ring := Shows.replicate _ _ _
  earliest := rfl
  next := rfl
  lower := Nat.le_refl _
  upper := Nat.zero_le _
  below _ h := absurd h (Nat.not_lt_zero _)
  sent _ h := by cases h
  carried := rfl
  registered _ _ := ⟨nofun, fun h => nomatch h.1⟩
  progress := rfl

variable {id : ID} {i : ℕ}

/-- A request that is under way carries a chunk of the window. -/
theorem window (h : m.Describes o offset lo) (hid : o.Carries id i) :
    lo ≤ i ∧ i < o.pieces.length :=
  ⟨Nat.le_of_not_lt fun hlt => hid.2 (h.below i hlt),
    h.carried ▸ (List.getElem?_eq_some_iff.mp hid.1).1⟩

/-- **The window passes a chunk** that was acknowledged. -/
theorem pass (h : m.Describes o offset lo) (hlo : lo ∈ o.acknowledged) {piece : List UInt8}
    (hpiece : o.pieces[lo]? = some piece) : (m.pass piece.length).Describes o offset (lo + 1) where
  __ := h
  ring := by
    have hempty : o.slot (lo + parallelChunks) = .empty :=
      Outgoing.slot_of_none (List.getElem?_eq_none h.upper)
    rw [SendManager.pass, h.earliest]
    exact hempty ▸ h.ring.advance (by decide)
  earliest := congrArg (· + 1) h.earliest
  lower := h.sent lo hlo
  upper := Nat.le_trans h.upper (Nat.add_le_add_right (Nat.le_succ lo) _)
  below i hi := by
    rcases Nat.lt_succ_iff_lt_or_eq.mp hi with hlt | rfl
    · exact h.below i hlt
    · exact hlo
  progress := by
    rw [SendManager.pass, h.progress, Outgoing.bytesBelow_succ hpiece, Nat.add_assoc]

/-- **The loop of `mark_done`** ends at the least chunk that was not acknowledged. -/
theorem passAcknowledged (rounds : ℕ) (h : m.Describes o offset lo)
    (hrounds : o.pieces.length ≤ lo + rounds) :
    (m.passAcknowledged rounds).Describes o offset (leastMissing o.acknowledged) := by
  -- induction on the rounds: the lower end climbs until it meets a chunk that is missing
  induction rounds generalizing m lo with
  | zero =>
    have hmissing : lo ∉ o.acknowledged := fun hlo => by
      have := h.sent lo hlo
      omega
    rw [SendManager.passAcknowledged, leastMissing_eq_iff.mpr ⟨hmissing, h.below⟩]
    exact h
  | succ rounds ih =>
    have hslot := h.ring.slot lo (Nat.le_refl lo) (Nat.lt_add_of_pos_right (by decide))
    rw [SendManager.passAcknowledged, h.earliest, hslot]
    by_cases hlo : lo ∈ o.acknowledged
    · have hlt := h.sent lo hlo
      have hpiece : o.pieces[lo]? = some o.pieces[lo] := List.getElem?_eq_getElem hlt
      rw [Outgoing.slot_of_acknowledged hpiece hlo]
      dsimp only
      rw [if_pos (h.next ▸ hlt)]
      have hpass := h.pass hlo hpiece
      rw [SendManager.pass, h.earliest] at hpass
      exact ih hpass (by omega)
    · have hleast : leastMissing o.acknowledged = lo := leastMissing_eq_iff.mpr ⟨hlo, h.below⟩
      rw [hleast]
      cases hpiece : o.pieces[lo]? with
      | none =>
        rw [Outgoing.slot_of_none hpiece]
        exact h
      | some piece =>
        rw [Outgoing.slot_of_pending hpiece hlo]
        exact h

/-- The slot of a chunk is marked, and its request removed. -/
theorem mark (h : m.Describes o offset lo) (hid : o.Carries id i)
    {piece : List UInt8} (hpiece : o.pieces[i]? = some piece) :
    (m.acknowledge id i piece.length).Describes (o.acknowledge i) offset lo where
  __ := h
  ring := by
    obtain ⟨hlow, hhigh⟩ := h.window hid
    rw [Outgoing.slot_acknowledge hpiece]
    exact h.ring.set hlow (Nat.lt_of_lt_of_le hhigh h.upper) _
  below j hj := Finset.mem_insert_of_mem (h.below j hj)
  sent j hj := by
    rcases Finset.mem_insert.mp hj with rfl | hj
    · exact (h.window hid).2
    · exact h.sent j hj
  registered id' j := by
    have hmem : j ∉ (o.acknowledge i).acknowledged ↔ j ≠ i ∧ j ∉ o.acknowledged := by
      rw [Outgoing.acknowledge, Finset.mem_insert, not_or]
    rw [SendManager.acknowledge]
    by_cases hid' : id' = id
    · -- this request is gone, and it carried no other chunk
      subst hid'
      rw [AList.lookup_erase]
      refine ⟨nofun, fun hc => absurd ?_ (hmem.mp hc.2).1⟩
      have hj := (h.registered id' j).mpr ⟨hc.1, (hmem.mp hc.2).2⟩
      have hi := (h.registered id' i).mpr hid
      exact Option.mem_unique hj hi
    · rw [AList.lookup_erase_ne hid', h.registered]
      refine and_congr_right fun hj => ?_
      rw [hmem]
      refine ⟨fun hnot => ⟨?_, hnot⟩, And.right⟩
      rintro rfl
      exact hid' (Option.mem_unique hj hid.1)

/-- **An acknowledgement** of a request under way is taken, and marks its chunk. -/
theorem receiveAck (h : m.Describes o offset (leastMissing o.acknowledged))
    (hid : o.Carries id i) : ∃ m', m.receiveAck id = some m' ∧ m'.file = m.file ∧
      m'.Describes (o.acknowledge i) offset (leastMissing (o.acknowledge i).acknowledged) := by
  obtain ⟨hlow, hhigh⟩ := h.window hid
  have hpiece : o.pieces[i]? = some o.pieces[i] := List.getElem?_eq_getElem hhigh
  have hslot := h.ring.slot i hlow (Nat.lt_of_lt_of_le hhigh h.upper)
  rw [Outgoing.slot_of_pending hpiece hid.2] at hslot
  have hmark := h.mark hid hpiece
  rw [SendManager.receiveAck, markDone, (h.registered id i).mpr hid]
  dsimp only
  rw [if_pos ⟨h.earliest ▸ hlow, h.next ▸ Nat.le_of_lt hhigh⟩, hslot]
  dsimp only
  split
  · -- the lowest chunk of the window: the loop runs
    refine ⟨_, rfl, (passAcknowledged_frame _ _).2.1, hmark.passAcknowledged _ ?_⟩
    rw [h.next, h.earliest]
    exact Nat.le_of_eq (Nat.add_sub_of_le h.lower).symm
  · next hne =>
    have hleast : leastMissing (o.acknowledge i).acknowledged = leastMissing o.acknowledged :=
      leastMissing_insert_of_ne fun heq => hne (heq.trans h.earliest.symm)
    exact ⟨_, rfl, rfl, hleast.symm ▸ hmark⟩

/-- The reader may change. -/
theorem withFile (h : m.Describes o offset lo) (file : FileReader) :
    ({ m with file := file } : SendManager ID).Describes o offset lo :=
  ⟨h.ring, h.earliest, h.next, h.lower, h.upper, h.below, h.sent, h.carried, h.registered,
    h.progress⟩

/-- Whether there is room in the window. -/
theorem isReady_iff (h : m.Describes o offset lo) :
    m.isReady = true ↔ o.pieces.length < lo + parallelChunks := by
  have hlower := h.lower
  rw [isReady, h.next, h.earliest, decide_eq_true_iff]
  omega

/-- **A chunk is sent** with a request that is not under way. -/
theorem register (h : m.Describes o offset lo) (hready : m.isReady = true)
    (hfresh : ¬ o.Outstanding id) (piece : List UInt8) :
    (m.register id piece.length).Describes (o.send piece id) offset lo where
  ring := by
    have hnew : o.pieces.length ∉ o.acknowledged := fun hc => Nat.lt_irrefl _ (h.sent _ hc)
    rw [SendManager.register, Outgoing.slot_send piece id hnew, h.next]
    exact h.ring.set h.lower (h.isReady_iff.mp hready) _
  earliest := h.earliest
  next := by rw [SendManager.register, Outgoing.send, List.length_append, h.next]; rfl
  lower := by
    rw [Outgoing.send, List.length_append]
    exact Nat.le_add_right_of_le h.lower
  upper := by
    rw [Outgoing.send, List.length_append]
    exact h.isReady_iff.mp hready
  below := h.below
  sent i hi := by
    rw [Outgoing.send, List.length_append]
    exact Nat.lt_add_right _ (h.sent i hi)
  carried := by rw [Outgoing.send, List.length_append, List.length_append, h.carried]; rfl
  registered id' i := by
    have hnew : m.nextSlot = o.requests.length := h.next.trans h.carried.symm
    rw [SendManager.register, Outgoing.Carries, Outgoing.send]
    by_cases hid : id' = id
    · subst hid
      rw [AList.lookup_insert, hnew]
      constructor
      · intro hi
        obtain ⟨⟩ := hi
        exact ⟨List.getElem?_concat_length,
          fun hc => absurd (h.sent _ hc) (by rw [h.carried]; exact Nat.lt_irrefl _)⟩
      · rintro ⟨hi, hack⟩
        -- among the earlier chunks none is under way with this request
        rcases Nat.lt_trichotomy i o.requests.length with hlt | rfl | hgt
        · rw [List.getElem?_append_left hlt] at hi
          exact absurd ⟨i, hi, hack⟩ hfresh
        · rfl
        · rw [List.getElem?_eq_none (by rw [List.length_append]; exact hgt)] at hi
          cases hi
    · rw [AList.lookup_insert_ne hid, h.registered, Outgoing.Carries]
      refine and_congr_left fun _ => ?_
      rcases Nat.lt_or_ge i o.requests.length with hlt | hge
      · rw [List.getElem?_append_left hlt]
      · rw [List.getElem?_eq_none hge, List.getElem?_append_right hge]
        refine ⟨nofun, fun hi => absurd ?_ hid⟩
        have hmem : id' ∈ [id] := List.mem_of_getElem? hi
        exact List.mem_singleton.mp hmem
  progress := by rw [Outgoing.bytesBelow_send piece id h.lower]; exact h.progress

/-- If the window is empty, every chunk was acknowledged. -/
theorem all_acknowledged (h : m.Describes o offset (leastMissing o.acknowledged))
    (hempty : m.earliestNotSent = m.nextSlot) : ∀ i < o.pieces.length, i ∈ o.acknowledged := by
  intro i hi
  refine h.below i ?_
  rwa [← h.earliest, hempty, h.next]

end Describes

end SendManager

/-! ### Whole transfers -/

/-- How a transfer starts. -/
inductive Start
  | new
  /-- At an offset. The bytes are those of the read that is dropped; the file may or may not be
  moved. -/
  | resumed (dropped : List UInt8) (seeks : Bool) (offset : ℕ)

namespace Start

variable {ID : Type}

/-- Where the progress starts. -/
def offset : Start → ℕ
  | .new => 0
  | .resumed _ _ offset => offset

/-- Where the file is read from. -/
def position : Start → ℕ
  | .new => 0
  | .resumed dropped seeks offset => if seeks then offset else dropped.length

/-- The manager. The file was opened at its beginning. -/
def manager (transferId : FylesId) (fileSizeBytes : ℕ) : Start → SendManager ID
  | .new => .new transferId fileSizeBytes 0
  | .resumed dropped seeks offset =>
    (SendManager.new transferId fileSizeBytes 0).setProgress (.ok dropped) seeks offset

theorem describes [DecidableEq ID] (transferId : FylesId) (fileSizeBytes : ℕ) (start : Start) :
    (start.manager transferId fileSizeBytes : SendManager ID).Describes .empty start.offset 0 := by
  have hnew : (SendManager.new transferId fileSizeBytes 0 : SendManager ID).Describes .empty 0 0 :=
    .new transferId fileSizeBytes 0
  cases start with
  | new => exact hnew
  | resumed dropped seeks offset =>
    exact ⟨hnew.ring, rfl, rfl, Nat.le_refl _, Nat.zero_le _, hnew.below, hnew.sent, rfl,
      hnew.registered, rfl⟩

theorem pendingRead (transferId : FylesId) (fileSizeBytes : ℕ) (start : Start) :
    (start.manager transferId fileSizeBytes : SendManager ID).file.pendingRead =
      some start.position := by
  cases start with
  | new => rfl
  | resumed dropped seeks offset =>
    cases seeks with
    | true => rfl
    | false => exact congrArg some (Nat.zero_add _)

end Start

/-- A manager at work, what it has sent, and what its last attempt to send has returned, if nothing
happened since. -/
structure SenderRun (ID : Type) where
  manager : SendManager ID
  outgoing : Outgoing ID
  /-- What `send_next_chunk` has returned. -/
  result : Option (SendRes ID)

namespace SenderRun

variable {ID : Type} [DecidableEq ID]

/-- What can happen. -/
inductive Event (ID : Type)
  /-- An attempt to send. The read under way has returned `bytes`, and a chunk is sent with the
  request `id`. -/
  | sendNextChunk (bytes : List UInt8) (id : ID)
  | receiveAck (i : ℕ)

/-- Nothing was sent yet. -/
def start (transferId : FylesId) (fileSizeBytes : ℕ) (start : Start) : SenderRun ID :=
  ⟨start.manager transferId fileSizeBytes, .empty, none⟩

/-- One step; an acknowledgement that makes the manager panic cannot happen. -/
def step (content : List UInt8) (s : SenderRun ID) : Event ID → Option (SenderRun ID)
  | .sendNextChunk bytes id =>
    if readsSource content s.manager.file (.ok bytes) then
      let r := s.manager.sendNextChunk (.ok bytes) (fun c sent => (some id, sent ++ [c])) []
      some ⟨r.2.1, r.2.2.foldl (fun o c => o.send c.data id) s.outgoing, some r.1⟩
    else none
  | .receiveAck i =>
    (s.outgoing.requests[i]?.bind s.manager.receiveAck).map fun m =>
      ⟨m, s.outgoing.acknowledge i, none⟩

/-- The requests under way are different, and only their chunks are acknowledged. -/
def Honest (s : SenderRun ID) : Event ID → Prop
  | .sendNextChunk _ id => ∀ i < s.outgoing.requests.length, ¬ s.outgoing.Carries id i
  | .receiveAck i => i < s.outgoing.requests.length ∧ i ∉ s.outgoing.acknowledged

instance (s : SenderRun ID) (e : Event ID) : Decidable (s.Honest e) :=
  match e with
  | .sendNextChunk _ _ => inferInstanceAs (Decidable (∀ i < _, ¬ (_ ∧ _)))
  | .receiveAck _ => inferInstanceAs (Decidable (_ ∧ _))

/-- **What the window should be.** -/
structure Sound (content : List UInt8) (start : Start) (s : SenderRun ID) : Prop where
  /-- The difference that `is_ready` computes does not underflow. -/
  ordered : s.manager.earliestNotSent ≤ s.manager.nextSlot
  /-- The window is at most eight chunks wide. -/
  width : s.manager.nextSlot - s.manager.earliestNotSent ≤ 8
  length : s.manager.chunksInFlight.length = 8
  /-- The slot of a chunk of the window says how long it is and whether it was acknowledged. -/
  slots : ∀ i, s.manager.earliestNotSent ≤ i → i < s.manager.nextSlot →
    ∃ piece, s.outgoing.pieces[i]? = some piece ∧ s.manager.chunksInFlight[i % 8]? =
      some (if i ∈ s.outgoing.acknowledged then .acknowledged piece.length
        else .pending piece.length)
  /-- The other slots are empty. -/
  others : ∀ r < 8, (∀ i, s.manager.earliestNotSent ≤ i → i < s.manager.nextSlot → i % 8 ≠ r) →
    s.manager.chunksInFlight[r]? = some .empty
  /-- The chunks below the window were acknowledged, the lowest one of the window was not. -/
  earliest : (∀ i < s.manager.earliestNotSent, i ∈ s.outgoing.acknowledged) ∧
    s.manager.earliestNotSent ∉ s.outgoing.acknowledged
  /-- The progress counts the bytes below the window. -/
  progress : s.manager.progressBytes =
    start.offset + (s.outgoing.pieces.take s.manager.earliestNotSent).flatten.length
  /-- The progress is a `u64`, and the indices are `u32`. -/
  fits : s.manager.progressBytes < u64Size ∧ s.manager.nextSlot < 2 ^ 32
  /-- An acknowledgement of a chunk under way does not panic. -/
  acks : ∀ id, s.outgoing.Outstanding id → (s.manager.receiveAck id).isSome
  /-- The chunks are pieces of the file. -/
  reads : s.outgoing.pieces.flatten <+: content.drop start.position
  /-- `Done` is returned at the end of the file, once every chunk was acknowledged. -/
  done : s.result = some .done → s.outgoing.pieces.flatten = content.drop start.position ∧
    (∀ i < s.outgoing.pieces.length, i ∈ s.outgoing.acknowledged) ∧
    s.manager.progressBytes = start.offset + s.outgoing.pieces.flatten.length

/-! ### What every step keeps -/

/-- What an attempt to send can do: the window is full; the reader is at the end of the file; or a
piece is sent. -/
inductive Attempted (s : SenderRun ID) (bytes : List UInt8) (id : ID) : SenderRun ID → Prop
  | full : Attempted s bytes id ⟨s.manager, s.outgoing, some .notReady⟩
  | atEnd (result : SendRes ID) (hend : s.manager.file.pendingRead = none ∨ bytes = [])
      (hdone : result = .done → s.manager.earliestNotSent = s.manager.nextSlot) :
      Attempted s bytes id ⟨{ s.manager with file := ⟨none⟩ }, s.outgoing, some result⟩
  | piece (p : ℕ) (hready : s.manager.isReady = true) (hp : s.manager.file.pendingRead = some p) :
      Attempted s bytes id
        ⟨{ s.manager with file := ⟨some (p + bytes.length)⟩ }.register id bytes.length,
          s.outgoing.send bytes id, some (.sent id)⟩

theorem attempted_of_step {content} {s s' : SenderRun ID} {bytes id}
    (hstep : s.step content (.sendNextChunk bytes id) = some s') :
    readsSource content s.manager.file (.ok bytes) = true ∧ s.Attempted bytes id s' := by
  rw [step] at hstep
  split at hstep
  case isFalse => cases hstep
  case isTrue hread =>
    refine ⟨hread, ?_⟩
    obtain ⟨⟩ := hstep
    cases hready : s.manager.isReady with
    | false =>
      rw [SendManager.sendNextChunk_of_full hready]
      exact .full
    | true =>
      by_cases hend : s.manager.file.pendingRead = none ∨ bytes = []
      · rw [SendManager.sendNextChunk_of_end hready (hend.imp_right (congrArg Except.ok))]
        refine .atEnd _ hend fun hdone => ?_
        split at hdone
        · next hempty => exact of_decide_eq_true (Bool.and_eq_true_iff.mp hempty).1
        · cases hdone
      · obtain ⟨hp, hbytes⟩ := not_or.mp hend
        obtain ⟨p, hp⟩ := Option.ne_none_iff_exists'.mp hp
        obtain ⟨b, bs, rfl⟩ := List.exists_cons_of_ne_nil hbytes
        rw [SendManager.sendNextChunk_of_piece hready hp]
        exact .piece p hready hp

/-- The manager is described by what was sent, and its reader stands behind that. -/
structure Invariant (content : List UInt8) (offset position : ℕ) (s : SenderRun ID) : Prop where
  describes : s.manager.Describes s.outgoing offset (leastMissing s.outgoing.acknowledged)
  /-- The chunks are pieces of the file. -/
  reads : s.outgoing.pieces.flatten <+: content.drop position
  /-- The read under way starts behind them. -/
  under : ∀ p, s.manager.file.pendingRead = some p →
    p = position + s.outgoing.pieces.flatten.length
  /-- No read is under way at the end of the file only. -/
  exhausted : s.manager.file.pendingRead = none → s.outgoing.pieces.flatten = content.drop position
  /-- `Done` is returned if the window is empty and the file exhausted. -/
  done : s.result = some .done →
    s.manager.earliestNotSent = s.manager.nextSlot ∧ s.manager.file.pendingRead = none

namespace Invariant

variable {content : List UInt8} {offset position : ℕ} {s : SenderRun ID}

theorem start (content : List UInt8) (transferId : FylesId) (fileSizeBytes : ℕ) (start : Start) :
    Invariant content start.offset start.position
      (SenderRun.start transferId fileSizeBytes start : SenderRun ID) where
  describes := by
    rw [SenderRun.start, Outgoing.empty, leastMissing_empty]
    exact start.describes transferId fileSizeBytes
  reads := List.nil_prefix
  under p hp := by
    rw [SenderRun.start, start.pendingRead] at hp
    exact (Option.some.inj hp).symm
  exhausted h := by
    rw [SenderRun.start, start.pendingRead] at h
    cases h
  done h := by cases h

/-- What was read from the file extends what was sent. -/
theorem reads_append (h : Invariant content offset position s) {p : ℕ} {bytes}
    (hp : s.manager.file.pendingRead = some p)
    (hread : readsSource content s.manager.file (.ok bytes) = true) :
    s.outgoing.pieces.flatten ++ bytes <+: content.drop position := by
  rw [readsSource, hp, Bool.and_eq_true] at hread
  obtain ⟨rest, hrest⟩ := h.reads
  have hinitial := List.isPrefixOf_iff_prefix.mp hread.1
  rw [h.under p hp, ← List.drop_drop, ← hrest, List.drop_left] at hinitial
  rw [← hrest]
  exact (List.prefix_append_right_inj _).mpr hinitial

/-- An empty read means the end of the file. -/
theorem eq_drop_of_nil (h : Invariant content offset position s) {p : ℕ}
    (hp : s.manager.file.pendingRead = some p)
    (hread : readsSource content s.manager.file (.ok []) = true) :
    s.outgoing.pieces.flatten = content.drop position := by
  rw [readsSource, hp] at hread
  have hend : content.length ≤ p := by simpa using hread
  rw [h.under p hp] at hend
  refine h.reads.eq_of_length_le ?_
  rw [List.length_drop]
  omega

/-- The reader meets the end of the file. -/
theorem finish (h : Invariant content offset position s) (hend : s.outgoing.pieces.flatten =
    content.drop position) (result : SendRes ID)
    (hdone : result = .done → s.manager.earliestNotSent = s.manager.nextSlot) :
    Invariant content offset position
      ⟨{ s.manager with file := ⟨none⟩ }, s.outgoing, some result⟩ where
  describes := h.describes.withFile _
  reads := h.reads
  under p hp := by cases hp
  exhausted _ := hend
  done hresult := ⟨hdone (Option.some.inj hresult), rfl⟩

variable {s' : SenderRun ID}

theorem sendNextChunk {bytes} {id : ID} (h : Invariant content offset position s)
    (hfresh : s.Honest (.sendNextChunk bytes id))
    (hstep : s.step content (.sendNextChunk bytes id) = some s') :
    Invariant content offset position s' := by
  obtain ⟨hread, hattempt⟩ := attempted_of_step hstep
  cases hattempt with
  | full => exact ⟨h.describes, h.reads, h.under, h.exhausted, nofun⟩
  | atEnd result hend hdone =>
    refine h.finish ?_ result hdone
    cases hp : s.manager.file.pendingRead with
    | none => exact h.exhausted hp
    | some p =>
      obtain rfl := hend.resolve_left (by rw [hp]; exact Option.some_ne_none p)
      exact h.eq_drop_of_nil hp hread
  | piece p hready hp =>
    have hnot : ¬ s.outgoing.Outstanding id := fun ⟨i, hi⟩ =>
      hfresh i (List.getElem?_eq_some_iff.mp hi.1).1 hi
    have hflatten : (s.outgoing.send bytes id).pieces.flatten =
        s.outgoing.pieces.flatten ++ bytes := by
      rw [Outgoing.send, List.flatten_append, List.flatten_singleton]
    have hfile := h.describes.withFile ⟨some (p + bytes.length)⟩
    refine ⟨hfile.register hready hnot bytes, ?_, fun q hq => ?_, nofun, nofun⟩
    · exact hflatten ▸ h.reads_append hp hread
    · obtain ⟨⟩ := hq
      rw [hflatten, List.length_append, h.under p hp, Nat.add_assoc]

theorem receiveAck {i : ℕ} (h : Invariant content offset position s)
    (hcarries : s.Honest (.receiveAck i))
    (hstep : s.step content (.receiveAck i) = some s') : Invariant content offset position s' := by
  obtain ⟨hi, hack⟩ := hcarries
  have hid : s.outgoing.Carries s.outgoing.requests[i] i := ⟨List.getElem?_eq_getElem hi, hack⟩
  obtain ⟨m', hm', hfile, hdescribes⟩ := h.describes.receiveAck hid
  rw [step, hid.1, Option.bind_some, hm'] at hstep
  obtain ⟨⟩ := hstep
  exact ⟨hdescribes, h.reads, fun p hp => h.under p (hfile ▸ hp),
    fun hp => h.exhausted (hfile ▸ hp), nofun⟩

theorem step {e} (h : Invariant content offset position s) (hok : s.Honest e)
    (hstep : s.step content e = some s') : Invariant content offset position s' := by
  cases e with
  | sendNextChunk bytes id => exact h.sendNextChunk hok hstep
  | receiveAck i => exact h.receiveAck hok hstep

theorem run {transferId} {fileSizeBytes : ℕ} {start events}
    (h : Run (SenderRun.step content) SenderRun.Honest
      (SenderRun.start transferId fileSizeBytes start) events s) :
    Invariant content start.offset start.position s :=
  h.invariant (Invariant.start content transferId fileSizeBytes start)
    fun h hok hstep => h.step hok hstep

/-- The progress does not overflow before the bytes that were read do. -/
theorem progress_lt (h : Invariant content offset position s)
    (hbytes : offset + s.outgoing.pieces.flatten.length < u64Size) :
    s.manager.progressBytes < u64Size := by
  have hbelow := s.outgoing.bytesBelow_le (leastMissing s.outgoing.acknowledged)
  rw [h.describes.progress]
  omega

theorem sound {start : Start} (h : Invariant content start.offset start.position s)
    (hbytes : start.offset + s.outgoing.pieces.flatten.length < u64Size)
    (hchunks : s.outgoing.pieces.length < 2 ^ 32) : s.Sound content start := by
  have hd := h.describes
  have hlower := hd.lower
  have hupper := hd.upper
  have hpieces : ∀ i, leastMissing s.outgoing.acknowledged ≤ i → i < s.outgoing.pieces.length →
      ∃ piece, s.outgoing.pieces[i]? = some piece ∧
        s.manager.chunksInFlight[i % 8]? = some (if i ∈ s.outgoing.acknowledged then
          .acknowledged piece.length else .pending piece.length) := by
    intro i hlow hhigh
    have hpiece : s.outgoing.pieces[i]? = some s.outgoing.pieces[i] :=
      List.getElem?_eq_getElem hhigh
    refine ⟨_, hpiece, (hd.ring.slot i hlow (Nat.lt_of_lt_of_le hhigh hupper)).trans ?_⟩
    rw [Outgoing.slot, hpiece]
  constructor
  case ordered => rw [hd.earliest, hd.next]; exact hlower
  case width => rw [hd.earliest, hd.next]; exact Nat.sub_le_of_le_add (Nat.add_comm _ _ ▸ hupper)
  case length => exact hd.ring.length
  case slots => rw [hd.earliest, hd.next]; exact hpieces
  case others =>
    intro r hr hother
    rw [hd.earliest, hd.next] at hother
    -- the slot belongs to an index above the chunks that were sent
    obtain ⟨i, hlow, hhigh, rfl⟩ := exists_mod_eq (leastMissing s.outgoing.acknowledged) hr
    have hge : s.outgoing.pieces.length ≤ i := Nat.le_of_not_lt fun hlt => hother i hlow hlt rfl
    exact (hd.ring.slot i hlow hhigh).trans
      (congrArg some (Outgoing.slot_of_none (List.getElem?_eq_none hge)))
  case earliest =>
    rw [hd.earliest]
    exact ⟨hd.below, leastMissing_notMem _⟩
  case progress => rw [hd.earliest]; exact hd.progress
  case fits => exact ⟨h.progress_lt hbytes, hd.next ▸ hchunks⟩
  case acks =>
    rintro id ⟨i, hid⟩
    obtain ⟨m', hm', -⟩ := hd.receiveAck hid
    rw [hm']
    rfl
  case reads => exact h.reads
  case done =>
    intro hdone
    obtain ⟨hempty, hread⟩ := h.done hdone
    refine ⟨h.exhausted hread, hd.all_acknowledged hempty, ?_⟩
    rw [hd.progress, ← hd.earliest, hempty, hd.next, Outgoing.bytesBelow_length]

end Invariant

/-- **The sender's window.** For a file of any contents, read in pieces of any size from any offset
on, and for acknowledgements of its chunks in any order, the window is sound in every state in which
the offset and the bytes that were read together are a `u64`. -/
theorem sound_of_fits {content : List UInt8} {transferId : FylesId} {fileSizeBytes : ℕ}
    {start : Start} {events : List (Event ID)} {s : SenderRun ID}
    (hbytes : start.offset + s.outgoing.pieces.flatten.length < u64Size)
    (hchunks : s.outgoing.pieces.length < 2 ^ 32)
    (hrun : Run (step content) Honest (SenderRun.start transferId fileSizeBytes start) events s) :
    s.Sound content start :=
  (Invariant.run hrun).sound hbytes hchunks

/-- Three bytes from an offset on: two chunks, of which the second is acknowledged first. -/
theorem sound_of_fits_sample : ∃ s : SenderRun ℕ,
    s.Sound [1, 2, 3, 4] (.resumed [1, 2] true 1) ∧
    s.result = some .done ∧ s.manager.progressBytes = 4 := by
  have hrun : Run (step [1, 2, 3, 4]) Honest
      (SenderRun.start ⟨"transfer"⟩ 4 (.resumed [1, 2] true 1) : SenderRun ℕ)
      [.sendNextChunk [2, 3] 0, .sendNextChunk [4] 1, .receiveAck 1, .receiveAck 0,
        .sendNextChunk [] 2] _ := Run.get_runFrom
  exact ⟨_, sound_of_fits (by decide) (by decide) hrun, rfl, rfl⟩

/-- The receiver names the largest offset of all. The file cannot be moved there and is read on
behind the piece that was dropped. The acknowledgement of the first chunk then adds its bytes to a
progress that is the largest `u64` value already. -/
theorem progress_overflows : ∃ s : SenderRun ℕ,
    Run (step [1, 2]) Honest (SenderRun.start ⟨"transfer"⟩ 2 (.resumed [1] false (2 ^ 64 - 1)))
      [.sendNextChunk [2] 0, .receiveAck 0] s ∧
    s.manager.progressBytes = u64Size ∧
    ¬ s.Sound [1, 2] (.resumed [1] false (2 ^ 64 - 1)) := by
  exact ⟨_, Run.get_runFrom, rfl, fun h => Nat.lt_irrefl _ h.fits.1⟩

end SenderRun

end Fyles
