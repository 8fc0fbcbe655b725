import Fyles.SendManager
import Fyles.Internal.ReplayWindow

/-!
# The receiver of files

`p2p/src/event_loop/filerequest/receive_manager.rs`. For every peer there is at most one incoming
transfer in memory. Its chunks are kept in a ring of eight slots until their turn comes, and are
then appended to a part file. The name of the part file (`library/util/part_file.rs`) is made of
the time at which the transfer started, the contact, the peer and the transfer id.

## Files

A file is the list of the bytes written to it, and has a number. The part files are those that
have a name; finishing a transfer takes the name away, while the transfer keeps its file open.
Opening creates a file if there is none of the name, and writing appends. A write that fails may
have written some of its bytes. Bytes are written in the background: `write_all` may report success
although some of its bytes never get into the file, and nothing asks for the outcome at the end.
What is in a file is seen by whoever opens it afterwards.

## The surroundings

`ReceiverEnv` holds what a request gets from outside: the answers of the brain, the clock, and
the outcomes of the file operations. The map of transfers drops entries that were idle for too
long; that an entry has been dropped is an event of its own, not part of a request.

## Main results

* `Assembles.store` — a chunk of the run that is being received keeps the part file a beginning of
  what the run sends
-/

namespace Fyles

/-! ### Incoming transfers -/

/-- `get_part_file_name`. -/
def getPartFileName (startedAtMs : ℤ) (transferId : FylesId) (peerId : PeerId)
    (contactId : Option ContactId) : String :=
  toString startedAtMs ++ "_" ++ (contactId.map ContactId.text).getD "unknown-contact" ++ "_" ++
    peerId.text ++ "_" ++ transferId.text ++ ".part"

/-- An incoming transfer. -/
structure ReceiveManager where
  /-- The chunks whose turn has not come. -/
  chunksInFlight : List (Option DataChunk)
  /-- The index of the next chunk to be written. -/
  earliestNotReceived : ℕ
  declaredFileSizeBytes : ℕ
  /-- The bytes in the part file. -/
  byteProgress : ℕ
  file : ℕ
  fileName : String
  transferId : FylesId
  /-- The file request that it answers. -/
  filerequestId : FylesId
  contactId : Option ContactId
  startedAtMs : ℤ
  deriving DecidableEq, Repr

/-- What became of a chunk. -/
inductive ReceiverRes
  | received
  | protocolViolation
  | ioError
  deriving DecidableEq, Repr

/-- What becomes of the bytes handed to `write_all`. -/
inductive WriteOutcome
  /-- They are in the file when it returns. -/
  | completed
  /-- It reports an error, and some of them were written. -/
  | failed (written : ℕ)
  /-- It reports success, but those behind the first few never get into the file. The error is
  reported to the next operation, or to none. -/
  | lost (written : ℕ)
  deriving DecidableEq, Repr

/-- What is reported as written is in the file. -/
def Completes (write : ℕ → WriteOutcome) : Prop := ∀ i written, write i ≠ .lost written

namespace ReceiveManager

/-- `ReceiveManager::new`. -/
def new (file : ℕ) (targetFileSize : ℕ) (fileName : String) (transferId filerequestId : FylesId)
    (contactId : Option ContactId) (startedAtMs : ℤ) : ReceiveManager where
  chunksInFlight := List.replicate parallelChunks none
  earliestNotReceived := 0
  declaredFileSizeBytes := targetFileSize
  byteProgress := 0
  file := file
  fileName := fileName
  transferId := transferId
  filerequestId := filerequestId
  contactId := contactId
  startedAtMs := startedAtMs

/-- `reset`: forget the chunks that were not written. -/
def reset (m : ReceiveManager) : ReceiveManager :=
  { m with
    chunksInFlight := m.chunksInFlight.map fun _ => none
    earliestNotReceived := 0 }

/-- The loop of `store`: write the chunks whose turn has come. A round empties a slot and fills
none, so there are no more rounds than slots. -/
def writeInOrder (write : ℕ → WriteOutcome) :
    ℕ → ReceiveManager → List UInt8 → ReceiverRes × ReceiveManager × List UInt8
  | 0, m, bytes => (.received, m, bytes)
  | rounds + 1, m, bytes =>
    match m.chunksInFlight[m.earliestNotReceived % parallelChunks]? with
    | some (some chunk) =>
      let m := { m with
        chunksInFlight := m.chunksInFlight.set (m.earliestNotReceived % parallelChunks) none }
      if m.declaredFileSizeBytes < chunk.data.length + m.byteProgress then
        (.protocolViolation, m, bytes)
      else
        let m := { m with byteProgress := m.byteProgress + chunk.data.length }
        match write chunk.idx with
        | .failed written => (.ioError, m, bytes ++ chunk.data.take written)
        | .completed =>
          writeInOrder write rounds { m with earliestNotReceived := m.earliestNotReceived + 1 }
            (bytes ++ chunk.data)
        | .lost written =>
          writeInOrder write rounds { m with earliestNotReceived := m.earliestNotReceived + 1 }
            (bytes ++ chunk.data.take written)
    | _ => (.received, m, bytes)

/-- `store`. The upper end of the window is a `u32`, which wraps; no chunk is put into the ring
then, so `earliestNotReceived` does not. -/
def store (m : ReceiveManager) (write : ℕ → WriteOutcome) (chunk : DataChunk)
    (bytes : List UInt8) : ReceiverRes × ReceiveManager × List UInt8 :=
  if (m.earliestNotReceived + parallelChunks) % 2 ^ 32 ≤ chunk.idx then
    (.protocolViolation, m, bytes)
  else if chunk.idx < m.earliestNotReceived then (.received, m, bytes)
  else
    let m := { m with
      chunksInFlight := m.chunksInFlight.set (chunk.idx % parallelChunks) (some chunk) }
    if chunk.idx % parallelChunks = m.earliestNotReceived % parallelChunks then
      writeInOrder write m.chunksInFlight.length m bytes
    else (.received, m, bytes)

end ReceiveManager

/-! ### The receiver -/

/-- The status of an incoming file, as reported to the brain. -/
inductive ReceiveStatus
  | receiving
  | failed
  deriving DecidableEq, Repr

/-- What the receiver tells the brain about an incoming file. -/
inductive ReceiveNotice
  | createIncomingFile (filerequestId transferId : FylesId) (contactId : Option ContactId)
      (peerId : PeerId) (fileName : String) (fileSizeBytes : ℕ) (startedAtMs : ℤ)
  | updateReceivedFileStatus (transferId : FylesId) (status : ReceiveStatus) (progressBytes : ℕ)
  | storeReceivedFile (transferId : FylesId) (filePath : String) (receivedAtMs : ℤ)
  deriving DecidableEq, Repr

/-- The brain's answer to a request to go on with a transfer. -/
structure FilerequestContinueResponse where
  fileName : String
  fileSizeBytes : ℕ
  startedAtMs : ℤ
  deriving DecidableEq, Repr

/-- What one request gets from outside. -/
structure ReceiverEnv where
  /-- Whether the brain allows a new transfer. -/
  requestFileDrop : Bool
  /-- What the brain knows about a transfer that is to be continued. -/
  continuation : Option FilerequestContinueResponse
  unixEpochMillis : Option ℤ
  opensPartFile : Bool
  readsMetadata : Bool
  /-- Whether the brain can record a new transfer. -/
  createsIncomingFile : Bool
  /-- The outcomes of the writes, by the index of the chunk. -/
  write : ℕ → WriteOutcome
  removesPartFile : Bool
  /-- Where the finished file is moved to, if moving a file works. -/
  finalizesPartFile : Option String
  /-- Whether the brain can record the finished file. -/
  storesReceivedFile : Bool
  /-- `FileResponse::random`. -/
  randomResponse : FileResponse

/-- The receiver, as far as one peer is concerned. -/
structure FilerequestReceiver where
  receiving : Option ReceiveManager
  files : List (List UInt8)
  parts : AList fun _ : String => ℕ
  /-- The files that were finished, with their transfers. -/
  finished : List (FylesId × ℕ)
  notices : List ReceiveNotice

namespace FilerequestReceiver

/-- Nothing was received yet. -/
def empty : FilerequestReceiver := ⟨none, [], ∅, [], []⟩

variable (r : FilerequestReceiver)

/-- The bytes of a file. -/
def bytesOf (file : ℕ) : List UInt8 := r.files.getD file []

/-- Open a part file, which is created if there is none of the name. -/
def openPart (name : String) : ℕ × FilerequestReceiver :=
  match r.parts.lookup name with
  | some file => (file, r)
  | none =>
    (r.files.length, { r with
      files := r.files ++ [[]]
      parts := r.parts.insert name r.files.length })

/-- Tell the brain something. -/
def notify (notice : ReceiveNotice) : FilerequestReceiver :=
  { r with notices := r.notices ++ [notice] }

theorem bytesOf_set {file : ℕ} (h : file < r.files.length) (bytes : List UInt8) (file' : ℕ) :
    ({ r with files := r.files.set file bytes } : FilerequestReceiver).bytesOf file' =
      if file' = file then bytes else r.bytesOf file' := by
  simp only [bytesOf, List.getD_eq_getElem?_getD, List.getElem?_set]
  by_cases hf : file = file'
  · subst hf
    simp [h]
  · simp [hf, Ne.symm hf]

variable (name : String)

/-- Opening a part file changes the contents of no file. -/
@[simp] theorem bytesOf_openPart (file : ℕ) :
    (r.openPart name).2.bytesOf file = r.bytesOf file := by
  rw [openPart]
  split
  · rfl
  · simp only [bytesOf, List.getD_eq_getElem?_getD, List.getElem?_append]
    split
    · rfl
    · next hlt =>
      rw [List.getElem?_eq_none (Nat.le_of_not_lt hlt)]
      cases file - r.files.length <;> rfl

theorem lookup_openPart : (r.openPart name).2.parts.lookup name = some (r.openPart name).1 := by
  rw [openPart]
  split
  · next h => exact h
  · exact AList.lookup_insert _

theorem lookup_openPart_of_ne {name name' : String} (h : name' ≠ name) :
    (r.openPart name).2.parts.lookup name' = r.parts.lookup name' := by
  rw [openPart]
  split
  · rfl
  · exact AList.lookup_insert_ne h

theorem length_openPart : r.files.length ≤ (r.openPart name).2.files.length := by
  rw [openPart]
  split <;> simp

variable {r} in
theorem file_lt_openPart {name : String} {file : ℕ}
    (h : ∀ name file, r.parts.lookup name = some file → file < r.files.length)
    (hf : (r.openPart name).2.parts.lookup name = some file) :
    file < (r.openPart name).2.files.length := by
  rw [openPart] at hf ⊢
  split at hf
  · exact h _ _ hf
  · rw [AList.lookup_insert] at hf
    obtain ⟨⟩ := hf
    simp

@[simp] theorem receiving_openPart :
    (r.openPart name).2.receiving = r.receiving := by
  rw [openPart]
  split <;> rfl

@[simp] theorem finished_openPart :
    (r.openPart name).2.finished = r.finished := by
  rw [openPart]
  split <;> rfl

@[simp] theorem notices_openPart : (r.openPart name).2.notices = r.notices := by
  rw [openPart]
  split <;> rfl

end FilerequestReceiver

/-! ### Reassembly -/

namespace ReceiveManager

variable (m : ReceiveManager)

/-- What does not change while chunks arrive. -/
def header : ℕ × ℕ × String × FylesId × FylesId × Option ContactId × ℤ :=
  (m.declaredFileSizeBytes, m.file, m.fileName, m.transferId, m.filerequestId, m.contactId,
    m.startedAtMs)

section

variable {m m' : ReceiveManager} (h : m'.header = m.header)

include h

theorem transferId_of_header : m'.transferId = m.transferId := congrArg (fun x => x.2.2.2.1) h

theorem contactId_of_header : m'.contactId = m.contactId := congrArg (fun x => x.2.2.2.2.2.1) h

end

variable (write : ℕ → WriteOutcome)

theorem writeInOrder_header (rounds : ℕ) (m : ReceiveManager)
    (bytes : List UInt8) : (writeInOrder write rounds m bytes).2.1.header = m.header := by
  induction rounds generalizing m bytes with
  | zero => rfl
  | succ rounds ih =>
    rw [writeInOrder]
    split
    · dsimp only
      split
      · rfl
      · split
        · rfl
        · rw [ih]
          rfl
        · rw [ih]
          rfl
    · rfl

theorem store_header (chunk : DataChunk)
    (bytes : List UInt8) : (m.store write chunk bytes).2.1.header = m.header := by
  rw [store]
  split
  · rfl
  · split
    · rfl
    · dsimp only
      split
      · rw [writeInOrder_header]
        rfl
      · rfl

/-- Writing appends. -/
theorem prefix_writeInOrder (rounds : ℕ) (m : ReceiveManager)
    (bytes : List UInt8) : bytes <+: (writeInOrder write rounds m bytes).2.2 := by
  induction rounds generalizing m bytes with
  | zero => exact List.prefix_refl bytes
  | succ rounds ih =>
    rw [writeInOrder]
    split
    · dsimp only
      split
      · exact List.prefix_refl bytes
      · split
        · exact List.prefix_append _ _
        · exact (List.prefix_append _ _).trans (ih _ _)
        · exact (List.prefix_append _ _).trans (ih _ _)
    · exact List.prefix_refl bytes

theorem prefix_store (chunk : DataChunk)
    (bytes : List UInt8) : bytes <+: (m.store write chunk bytes).2.2 := by
  rw [store]
  split
  · exact List.prefix_refl bytes
  · split
    · exact List.prefix_refl bytes
    · dsimp only
      split
      · exact prefix_writeInOrder _ _ _ _
      · exact List.prefix_refl bytes

end ReceiveManager

open ReceiveManager ReplayWindow

/-- The transfer `m` with the part file `bytes` has received the pieces of a run that started after
the bytes `start`: those below the window are in the file, those in the window may be in the
ring. -/
structure Assembles (pieces : List (List UInt8)) (start : List UInt8) (m : ReceiveManager)
    (bytes : List UInt8) : Prop where
  length : m.chunksInFlight.length = parallelChunks
  /-- A chunk in the ring is a piece of the window, in its slot. -/
  slots : ∀ {r c}, m.chunksInFlight[r]? = some (some c) → c.idx % parallelChunks = r ∧
    m.earliestNotReceived ≤ c.idx ∧ c.idx < m.earliestNotReceived + parallelChunks ∧
    pieces[c.idx]? = some c.data
  /-- What was written was sent. -/
  le : m.earliestNotReceived ≤ pieces.length
  /-- The pieces below the window are in the file. -/
  written : bytes = start ++ (pieces.take m.earliestNotReceived).flatten
  /-- The progress is the size of the file. -/
  progress : m.byteProgress = bytes.length

namespace Assembles

variable {pieces : List (List UInt8)} {start bytes : List UInt8} {m : ReceiveManager}

/-- What is in the file is a beginning of what the run sends. -/
theorem isPrefix (h : Assembles pieces start m bytes) : bytes <+: start ++ pieces.flatten := by
  rw [h.written, List.prefix_append_right_inj]
  have hsplit : pieces.flatten = (pieces.take m.earliestNotReceived).flatten ++
      (pieces.drop m.earliestNotReceived).flatten := by
    rw [← List.flatten_append, List.take_append_drop]
  rw [hsplit]
  exact List.prefix_append _ _

/-- A run may go on. -/
theorem append (h : Assembles pieces start m bytes) (more : List (List UInt8)) :
    Assembles (pieces ++ more) start m bytes where
  length := h.length
  slots hc := by
    obtain ⟨h1, h2, h3, h4⟩ := h.slots hc
    refine ⟨h1, h2, h3, ?_⟩
    rw [List.getElem?_append_left (List.getElem?_eq_some_iff.mp h4).1, h4]
  le := by
    rw [List.length_append]
    exact Nat.le_add_right_of_le h.le
  written := by
    rw [List.take_append_of_le_length h.le]
    exact h.written
  progress := h.progress

variable {c : DataChunk}

/-- The chunk in the first slot of the window is the next one. -/
theorem next (h : Assembles pieces start m bytes)
    (hc : m.chunksInFlight[m.earliestNotReceived % parallelChunks]? = some (some c)) :
    c.idx = m.earliestNotReceived ∧ pieces[m.earliestNotReceived]? = some c.data := by
  obtain ⟨hmod, hle, hlt, hpiece⟩ := h.slots hc
  have hpos : 0 < parallelChunks := by decide
  have hidx : c.idx = m.earliestNotReceived :=
    eq_of_mod_eq hle hlt (Nat.le_refl _) (Nat.lt_add_of_pos_right hpos) hmod
  exact ⟨hidx, hidx ▸ hpiece⟩

theorem take_succ_flatten {e : ℕ} {data} (hpiece : pieces[e]? = some data) :
    (pieces.take (e + 1)).flatten = (pieces.take e).flatten ++ data := by
  rw [List.take_add_one, hpiece, List.flatten_append]
  simp

/-- Writing the next chunk. -/
theorem write (h : Assembles pieces start m bytes)
    (hc : m.chunksInFlight[m.earliestNotReceived % parallelChunks]? = some (some c)) :
    Assembles pieces start { m with
      chunksInFlight := m.chunksInFlight.set (m.earliestNotReceived % parallelChunks) none
      byteProgress := m.byteProgress + c.data.length
      earliestNotReceived := m.earliestNotReceived + 1 } (bytes ++ c.data) := by
  obtain ⟨hidx, hpiece⟩ := h.next hc
  refine ⟨by simp [h.length], fun {r c'} hc' => ?_, ?_, ?_, ?_⟩
  · have hne : m.earliestNotReceived % parallelChunks ≠ r := by
      rintro rfl
      simp [List.getElem?_set] at hc'
    rw [List.getElem?_set_ne hne] at hc'
    obtain ⟨h1, h2, h3, h4⟩ := h.slots hc'
    have hidx' : c'.idx ≠ m.earliestNotReceived := fun heq => hne (heq ▸ h1)
    exact ⟨h1, by dsimp only; omega, by dsimp only; omega, h4⟩
  · exact (List.getElem?_eq_some_iff.mp hpiece).1
  · rw [take_succ_flatten hpiece, ← List.append_assoc, ← h.written]
  · rw [List.length_append, ← h.progress]

/-- A write that fails leaves a beginning of the next chunk behind. -/
theorem isPrefix_take (h : Assembles pieces start m bytes)
    (hc : m.chunksInFlight[m.earliestNotReceived % parallelChunks]? = some (some c)) (n : ℕ) :
    bytes ++ c.data.take n <+: start ++ pieces.flatten := by
  have hall : bytes ++ c.data <+: start ++ pieces.flatten := (h.write hc).isPrefix
  exact ((List.prefix_append_right_inj bytes).mpr (List.take_prefix n c.data)).trans hall

variable {outcome : ℕ → WriteOutcome}

/-- **The loop of `store`.** As long as chunks are received the file grows by pieces of the run;
whatever happens, it remains a beginning of what the run sends. -/
theorem writeInOrder (hwrite : Completes outcome) (rounds : ℕ)
    (h : Assembles pieces start m bytes) :
    ((m.writeInOrder outcome rounds bytes).1 = .received →
      Assembles pieces start (m.writeInOrder outcome rounds bytes).2.1
        (m.writeInOrder outcome rounds bytes).2.2) ∧
    (m.writeInOrder outcome rounds bytes).2.2 <+: start ++ pieces.flatten := by
  induction rounds generalizing m bytes with
  | zero => exact ⟨fun _ => h, h.isPrefix⟩
  | succ rounds ih =>
    rw [ReceiveManager.writeInOrder]
    split
    · next c hc =>
      dsimp only
      split
      · exact ⟨nofun, h.isPrefix⟩
      · split
        · exact ⟨nofun, h.isPrefix_take hc _⟩
        · exact ih (h.write hc)
        · next hlost => exact absurd hlost (hwrite _ _)
    · exact ⟨fun _ => h, h.isPrefix⟩

/-- **Receiving a chunk of the run.** A chunk below the window changes nothing and one above it is
refused, so only a chunk inside the window has to be the piece with its index. -/
theorem store (hwrite : Completes outcome) (h : Assembles pieces start m bytes)
    (hpiece : m.earliestNotReceived ≤ c.idx → c.idx < m.earliestNotReceived + parallelChunks →
      pieces[c.idx]? = some c.data) : ((m.store outcome c bytes).1 = .received →
      Assembles pieces start (m.store outcome c bytes).2.1 (m.store outcome c bytes).2.2) ∧
    (m.store outcome c bytes).2.2 <+: start ++ pieces.flatten := by
  rw [ReceiveManager.store]
  split
  · exact ⟨nofun, h.isPrefix⟩
  · next hlt =>
    split
    · exact ⟨fun _ => h, h.isPrefix⟩
    · next hle =>
      have hhigh : c.idx < m.earliestNotReceived + parallelChunks :=
        Nat.lt_of_lt_of_le (Nat.lt_of_not_le hlt) (Nat.mod_le _ _)
      have hc := hpiece (by omega) hhigh
      -- The chunk takes the place of whatever was in its slot.
      have hput : Assembles pieces start { m with
          chunksInFlight := m.chunksInFlight.set (c.idx % parallelChunks) (some c) } bytes := by
        refine ⟨by simp [h.length], fun {r c'} hc' => ?_, h.le, h.written, h.progress⟩
        by_cases hr : c.idx % parallelChunks = r
        · subst hr
          have hmod : c.idx % parallelChunks < m.chunksInFlight.length := by
            rw [h.length]
            exact Nat.mod_lt _ (by decide)
          rw [List.getElem?_set_self hmod] at hc'
          obtain rfl : c = c' := by simpa using hc'
          exact ⟨rfl, by dsimp only; omega, hhigh, hc⟩
        · rw [List.getElem?_set_ne hr] at hc'
          exact h.slots hc'
      dsimp only
      split
      · exact hput.writeInOrder hwrite _
      · exact ⟨fun _ => hput, hput.isPrefix⟩

/-- A transfer that has written nothing of a run yet. -/
theorem start_run (hlen : m.chunksInFlight = List.replicate parallelChunks none)
    (hearliest : m.earliestNotReceived = 0) (hprogress : m.byteProgress = bytes.length) :
    Assembles [] bytes m bytes where
  length := by simp [hlen]
  slots hc := by
    rw [hlen, List.getElem?_replicate] at hc
    split at hc <;> simp at hc
  le := by simp [hearliest]
  written := by simp
  progress := hprogress

end Assembles

end Fyles
