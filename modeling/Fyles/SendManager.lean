import Fyles.DomainModels

/-!
# The sender's window

`p2p/src/file_reader.rs` and `p2p/src/event_loop/filerequest/send_manager.rs`. The reader hands
out the bytes of a file piece by piece and always has one read under way. The send manager keeps
the chunks that were sent and not yet acknowledged in a ring of eight slots.

## Reads

What a read of the file returns is a parameter. The reader only knows at which position the read
under way started; a development that speaks about the contents of the file relates the two.

## Panics

`markDone` returns `none` where the source panics: on a request id that is not registered, an
index outside the window, and a slot that is not pending. The counters of the window are natural
numbers, which is the source's `u32` for fewer than `2 ^ 32` chunks.
-/

namespace Fyles

/-- The number of chunks that may be under way at a time. -/
def parallelChunks : ℕ := 8

/-! ### Reading the file -/

/-- The reader of a file. -/
structure FileReader where
  /-- The position at which the read under way started; `none` once the end of the file or an
  error has been met. -/
  pendingRead : Option ℕ
  deriving DecidableEq, Repr

namespace FileReader

/-- A reader of a file that has been opened at a position. -/
def new (position : ℕ) : FileReader := ⟨some position⟩

/-- `read`: take the result of the read under way and start the next one. -/
def read (reader : FileReader) (result : Except IoError (List UInt8)) :
    Option (Except IoError (List UInt8)) × FileReader :=
  match reader.pendingRead with
  | none => (none, reader)
  | some position =>
    match result with
    | .error e => (some (.error e), ⟨none⟩)
    | .ok [] => (none, ⟨none⟩)
    | .ok (b :: bs) => (some (.ok (b :: bs)), ⟨some (position + (b :: bs).length)⟩)

/-- `set_progress`: drop the read under way and read from `offset` on. If seeking fails the file
stays where that read has left it. -/
def setProgress (reader : FileReader) (result : Except IoError (List UInt8)) (seeks : Bool)
    (offset : ℕ) : FileReader :=
  match reader.pendingRead with
  | none => reader
  | some position =>
    if seeks then ⟨some offset⟩ else
      match result with
      | .error _ => ⟨some position⟩
      | .ok bytes => ⟨some (position + bytes.length)⟩

theorem pendingRead_of_read_none {reader file : FileReader} {result}
    (h : reader.read result = (none, file)) : file.pendingRead = none := by
  rw [read.eq_def] at h
  split at h
  · next hp => exact (Prod.mk.inj h).2 ▸ hp
  · split at h <;> cases h
    rfl

end FileReader

/-! ### The window -/

/-- A slot of the ring. -/
inductive Slot
  | empty
  /-- A chunk was sent and not yet acknowledged. -/
  | pending (bytes : ℕ)
  /-- A chunk was acknowledged, an earlier one was not. -/
  | acknowledged (bytes : ℕ)
  deriving DecidableEq, Repr

/-- What became of an attempt to send the next chunk. -/
inductive SendRes (ID : Type)
  | notReady
  | sent (id : ID)
  | done
  | ioError (e : IoError)
  /-- Sending did not work. -/
  | interrupt
  deriving DecidableEq, Repr

/-- The window of one transfer. -/
structure SendManager (ID : Type) where
  /-- The index of the chunk that a request carried. -/
  chunkToIndex : AList fun _ : ID => ℕ
  chunksInFlight : List Slot
  /-- The first index that has not been acknowledged. -/
  earliestNotSent : ℕ
  nextSlot : ℕ
  file : FileReader
  /-- The bytes of the acknowledged chunks, from the start of the file on. -/
  progressBytes : ℕ
  fileSizeBytes : ℕ
  transferId : FylesId

namespace SendManager

variable {ID : Type} [DecidableEq ID] {σ : Type}

/-- `SendManager::new`. -/
def new (transferId : FylesId) (fileSizeBytes : ℕ) (position : ℕ) : SendManager ID where
  chunkToIndex := ∅
  chunksInFlight := List.replicate parallelChunks .empty
  earliestNotSent := 0
  nextSlot := 0
  file := .new position
  progressBytes := 0
  fileSizeBytes := fileSizeBytes
  transferId := transferId

section

variable (m : SendManager ID) (result : Except IoError (List UInt8))

/-- `set_progress`. -/
def setProgress (seeks : Bool) (offset : ℕ) : SendManager ID :=
  { m with progressBytes := offset, file := m.file.setProgress result seeks offset }

/-- `is_ready`: whether the window has room for a chunk. -/
def isReady : Bool := m.nextSlot - m.earliestNotSent < parallelChunks

/-- Whether no slot is waiting for an acknowledgement. -/
def nonePending : Bool :=
  m.chunksInFlight.all fun slot => match slot with
    | .pending _ => false
    | _ => true

/-- The window after a chunk of `bytes` bytes was sent with the request `id`. -/
def register (id : ID) (bytes : ℕ) : SendManager ID :=
  { m with
    chunkToIndex := m.chunkToIndex.insert id m.nextSlot
    chunksInFlight := m.chunksInFlight.set (m.nextSlot % parallelChunks) (.pending bytes)
    nextSlot := m.nextSlot + 1 }

/-- `send_next_chunk`. The parameter `send` is the function that the source takes; it acts on a
state `σ` of the caller. -/
def sendNextChunk (send : DataChunk → σ → Option ID × σ) (s : σ) :
    SendRes ID × SendManager ID × σ :=
  if !m.isReady then (.notReady, m, s)
  else
    match m.file.read result with
    | (none, file) =>
      if m.earliestNotSent = m.nextSlot && m.nonePending then (.done, { m with file := file }, s)
      else (.notReady, { m with file := file }, s)
    | (some (.error e), file) => (.ioError e, { m with file := file }, s)
    | (some (.ok data), file) =>
      match send ⟨m.transferId, data, m.nextSlot⟩ s with
      | (none, s) => (.interrupt, { m with file := file }, s)
      | (some id, s) => (.sent id, { m with file := file }.register id data.length, s)

end

section Outcomes

variable {m : SendManager ID} {result : Except IoError (List UInt8)}
  {send : DataChunk → σ → Option ID × σ} {s : σ}

theorem sendNextChunk_of_full (hready : m.isReady = false) :
    m.sendNextChunk result send s = (.notReady, m, s) := by
  simp [sendNextChunk, hready]

theorem sendNextChunk_of_end (hready : m.isReady = true)
    (hend : m.file.pendingRead = none ∨ result = .ok []) :
    m.sendNextChunk result send s =
      (if m.earliestNotSent = m.nextSlot && m.nonePending then .done else .notReady,
        { m with file := ⟨none⟩ }, s) := by
  have hread : m.file.read result = (none, ⟨none⟩) := by
    rw [FileReader.read.eq_def]
    split
    · next hp => rw [← hp]
    · next hp =>
      obtain rfl := hend.resolve_left (by simp [hp])
      rfl
  simp only [sendNextChunk, hready, hread, Bool.not_true, Bool.false_eq_true, if_false]
  split <;> rfl

theorem sendNextChunk_of_error {e} {position : ℕ} (hready : m.isReady = true)
    (hp : m.file.pendingRead = some position) :
    m.sendNextChunk (.error e) send s = (.ioError e, { m with file := ⟨none⟩ }, s) := by
  simp [sendNextChunk, hready, FileReader.read, hp]

theorem sendNextChunk_of_piece {b bs} {position : ℕ} (hready : m.isReady = true)
    (hp : m.file.pendingRead = some position) : m.sendNextChunk (.ok (b :: bs)) send s =
      match send ⟨m.transferId, b :: bs, m.nextSlot⟩ s with
      | (none, s) =>
        (.interrupt, { m with file := ⟨some (position + (b :: bs).length)⟩ }, s)
      | (some id, s) =>
        (.sent id, { m with file := ⟨some (position + (b :: bs).length)⟩ }.register id
          (b :: bs).length, s) := by
  simp [sendNextChunk, hready, FileReader.read, hp]

/-- The caller's state is touched by `send` only. -/
theorem sendNextChunk_state {P : σ → Prop} (hs : P s)
    (hsend : ∀ c r s', send c s = (r, s') → P s') : P (m.sendNextChunk result send s).2.2 := by
  rw [sendNextChunk]
  split
  · exact hs
  · split
    · split <;> exact hs
    · exact hs
    · split
      · next h => exact hsend _ _ _ h
      · next h => exact hsend _ _ _ h

end Outcomes

/-- The loop of `mark_done`: pass over acknowledged slots from the lower end of the window on.
The window has as many chunks as there can be rounds. -/
def passAcknowledged : ℕ → SendManager ID → SendManager ID
  | 0, m => m
  | rounds + 1, m =>
    match m.chunksInFlight[m.earliestNotSent % parallelChunks]? with
    | some (.acknowledged bytes) =>
      if m.earliestNotSent < m.nextSlot then
        passAcknowledged rounds
          { m with
            progressBytes := m.progressBytes + bytes
            chunksInFlight := m.chunksInFlight.set (m.earliestNotSent % parallelChunks) .empty
            earliestNotSent := m.earliestNotSent + 1 }
      else m
    | _ => m

/-- `mark_done`; `none` is a panic. -/
def markDone (m : SendManager ID) (id : ID) : Option (SendManager ID) :=
  match m.chunkToIndex.lookup id with
  | none => none
  | some idx =>
    if m.earliestNotSent ≤ idx ∧ idx ≤ m.nextSlot then
      match m.chunksInFlight[idx % parallelChunks]? with
      | some (.pending bytes) =>
        let m := { m with
          chunkToIndex := m.chunkToIndex.erase id
          chunksInFlight := m.chunksInFlight.set (idx % parallelChunks) (.acknowledged bytes) }
        if idx = m.earliestNotSent then
          some (m.passAcknowledged (m.nextSlot - m.earliestNotSent))
        else some m
      | _ => none
    else none

/-- `receive_ack`; `none` is a panic. -/
def receiveAck (m : SendManager ID) (id : ID) : Option (SendManager ID) := m.markDone id

variable {m m' : SendManager ID} {id : ID}

/-- The window after its lowest chunk was passed. -/
def pass (m : SendManager ID) (bytes : ℕ) : SendManager ID :=
  { m with
    progressBytes := m.progressBytes + bytes
    chunksInFlight := m.chunksInFlight.set (m.earliestNotSent % parallelChunks) .empty
    earliestNotSent := m.earliestNotSent + 1 }

/-- The window after the slot of a chunk was marked and its request removed. -/
def acknowledge (m : SendManager ID) (id : ID) (idx bytes : ℕ) : SendManager ID :=
  { m with
    chunkToIndex := m.chunkToIndex.erase id
    chunksInFlight := m.chunksInFlight.set (idx % parallelChunks) (.acknowledged bytes) }

omit [DecidableEq ID] in
/-- What passing over one chunk keeps, the loop keeps. -/
theorem passAcknowledged_induction {P : SendManager ID → Prop}
    (hpass : ∀ (m : SendManager ID) (bytes : ℕ), P m →
      m.chunksInFlight[m.earliestNotSent % parallelChunks]? = some (.acknowledged bytes) →
      m.earliestNotSent < m.nextSlot → P (m.pass bytes))
    (rounds : ℕ) (h : P m) : P (m.passAcknowledged rounds) := by
  induction rounds generalizing m with
  | zero => exact h
  | succ rounds ih =>
    rw [passAcknowledged]
    split
    · next bytes hslot =>
      split
      · next hlt => exact ih (hpass m bytes h hslot hlt)
      · exact h
    · exact h

/-- **What an acknowledgement does**: the request is registered, its chunk lies in the window and
the slot of the chunk is pending. Then the loop runs, for no rounds if an earlier chunk is
missing. -/
theorem receiveAck_eq_some (h : m.receiveAck id = some m') :
    ∃ idx bytes rounds, m.chunkToIndex.lookup id = some idx ∧ m.earliestNotSent ≤ idx ∧
      idx ≤ m.nextSlot ∧ m.chunksInFlight[idx % parallelChunks]? = some (.pending bytes) ∧
      m' = (m.acknowledge id idx bytes).passAcknowledged rounds := by
  rw [receiveAck, markDone] at h
  split at h
  · cases h
  · next idx hidx =>
    split at h
    · next hwindow =>
      split at h
      · next bytes hslot =>
        refine ⟨idx, bytes, if idx = m.earliestNotSent then m.nextSlot - m.earliestNotSent else 0,
          hidx, hwindow.1, hwindow.2, hslot, ?_⟩
        dsimp only at h
        split at h
        · next heq =>
          rw [if_pos heq]
          exact (Option.some.inj h).symm
        · next hne =>
          rw [if_neg hne]
          exact (Option.some.inj h).symm
      · cases h
    · cases h

omit [DecidableEq ID] in
/-- Acknowledgements move neither the reader nor the upper end of the window, and do not change the
transfer. -/
theorem passAcknowledged_frame (rounds : ℕ) (m : SendManager ID) :
    (m.passAcknowledged rounds).nextSlot = m.nextSlot ∧
      (m.passAcknowledged rounds).file = m.file ∧
      (m.passAcknowledged rounds).transferId = m.transferId ∧
      (m.passAcknowledged rounds).chunkToIndex = m.chunkToIndex :=
  passAcknowledged_induction
    (P := fun m' => m'.nextSlot = m.nextSlot ∧ m'.file = m.file ∧ m'.transferId = m.transferId ∧
      m'.chunkToIndex = m.chunkToIndex)
    (fun _ _ h _ _ => h) rounds ⟨rfl, rfl, rfl, rfl⟩

theorem receiveAck_frame (h : m.receiveAck id = some m') :
    m'.nextSlot = m.nextSlot ∧ m'.file = m.file ∧ m'.transferId = m.transferId := by
  obtain ⟨idx, bytes, rounds, -, -, -, -, rfl⟩ := receiveAck_eq_some h
  obtain ⟨hnext, hfile, htransfer, -⟩ := passAcknowledged_frame rounds (m.acknowledge id idx bytes)
  exact ⟨hnext, hfile, htransfer⟩

end SendManager

/-! ### The sending slot -/

/-- The file in the sending slot of a peer. -/
structure LockedSendData (ID : Type) where
  sendManager : SendManager ID
  pendingFile : PendingFile
  /-- Whether the contact at the other end has to be that of the file. -/
  mustVerifyContactId : Bool

namespace LockedSendData

variable {ID : Type}

/-- `LockedSendData::new`. The contact has to be verified until it is found to be unknown. -/
def new (pendingFile : PendingFile) (transferId : FylesId) (fileSizeBytes position : ℕ) :
    LockedSendData ID :=
  ⟨.new transferId fileSizeBytes position, pendingFile, true⟩

/-- `unlock_mut`: access to the window while talking to a contact. -/
def unlockMut (d : LockedSendData ID) (connectedContactId : Option ContactId) :
    Option (LockedSendData ID) :=
  if !d.mustVerifyContactId then some d
  else if connectedContactId = some d.pendingFile.contactId then some d
  else none

theorem unlockMut_eq {d d' : LockedSendData ID} {c} (h : d.unlockMut c = some d') : d' = d := by
  rw [unlockMut] at h
  split at h
  · exact (Option.some.inj h).symm
  · split at h
    · exact (Option.some.inj h).symm
    · cases h

/-- The slot with another status of its file. -/
def withStatus (d : LockedSendData ID) (status : SendStatus) : LockedSendData ID :=
  { d with pendingFile := { d.pendingFile with status := status } }

end LockedSendData

end Fyles
