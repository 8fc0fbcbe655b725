import Fyles.Brain

/-!
# What the tracker reports can be stored

The statuses that the tracker reports end in the columns of `pending_files`. A status has to be one
that is stored at all, its byte counts have to be in the range of signed integers, where the `CHECK`
expects them, and its progress should not exceed the size of the file. If one of these fails the
brain panics, or a later start reads nonsense.

The progress comes from two sources. It counts the bytes of acknowledged chunks, and it starts at
the offset that the peer names when it agrees to continue a transfer. The tracker takes this offset
as it is, also as an answer to the offer of a new transfer, so a peer can end the process with an
offset beyond the range (`offset_not_storable`). Otherwise the progress stays within the
size if the window was empty when the offset was taken, the reader could go there, and the file has
not grown since its size was read.

## Main results

* `statuses_persistable` — in every run of such steps every notification can be stored
-/

namespace Fyles

open FileTracker OutgoingTables

/-! ### The window -/

/-- The bytes that a slot of the ring stands for. -/
def Slot.bytes : Slot → ℕ
  | .empty => 0
  | .pending bytes | .acknowledged bytes => bytes

theorem sum_map_set_add (f : Slot → ℕ) (slots : List Slot) {index : ℕ} {old} (new : Slot)
    (h : slots[index]? = some old) :
    ((slots.set index new).map f).sum + f old = (slots.map f).sum + f new := by
  induction slots generalizing index with
  | nil => cases h
  | cons slot slots ih =>
    cases index with
    | zero =>
      obtain ⟨⟩ := h
      simp only [List.set_cons_zero, List.map_cons, List.sum_cons]
      omega
    | succ index =>
      have hrest := ih (show slots[index]? = some old from h)
      simp only [List.set_cons_succ, List.map_cons, List.sum_cons]
      omega

namespace SendManager

variable {ID : Type} [DecidableEq ID] {m m' : SendManager ID}

/-- The bytes that were sent and not yet added to the progress. -/
def inFlightBytes (m : SendManager ID) : ℕ := (m.chunksInFlight.map Slot.bytes).sum

/-- An acknowledgement loses no bytes: passing over a chunk moves its bytes from the window to the
progress. -/
theorem receiveAck_bytes {id} (h : m.receiveAck id = some m') :
    m'.progressBytes + m'.inFlightBytes = m.progressBytes + m.inFlightBytes := by
  obtain ⟨idx, bytes, rounds, -, -, -, hslot, rfl⟩ := receiveAck_eq_some h
  refine passAcknowledged_induction (P := fun m' =>
    m'.progressBytes + m'.inFlightBytes = m.progressBytes + m.inFlightBytes) ?_ rounds ?_
  · intro m' bytes' h' hslot' _
    have hsum := sum_map_set_add Slot.bytes m'.chunksInFlight .empty hslot'
    simp only [inFlightBytes, pass, Slot.bytes] at h' hsum ⊢
    omega
  · have hsum := sum_map_set_add Slot.bytes m.chunksInFlight (.acknowledged bytes) hslot
    simp only [inFlightBytes, acknowledge, Slot.bytes] at hsum ⊢
    omega

theorem register_bytes (m : SendManager ID) (id : ID) (bytes : ℕ) :
    (m.register id bytes).inFlightBytes ≤ m.inFlightBytes + bytes := by
  simp only [inFlightBytes, register]
  cases hslot : m.chunksInFlight[m.nextSlot % parallelChunks]? with
  | none =>
    rw [List.set_eq_of_length_le (List.getElem?_eq_none_iff.mp hslot)]
    exact Nat.le_add_right _ _
  | some old =>
    have hsum := sum_map_set_add Slot.bytes m.chunksInFlight (.pending bytes) hslot
    simp only [Slot.bytes] at hsum
    omega

/-- The window is within a size: all bytes that were read and not lost lie before the reader and
before the end of the file. -/
structure Within (m : SendManager ID) (size : ℕ) : Prop where
  size : m.progressBytes + m.inFlightBytes ≤ size
  reader : ∀ position, m.file.pendingRead = some position →
    m.progressBytes + m.inFlightBytes ≤ position

omit [DecidableEq ID] in
theorem Within.new (transferId : FylesId) (fileSizeBytes position size : ℕ) :
    (SendManager.new transferId fileSizeBytes position : SendManager ID).Within size where
  size := Nat.zero_le _
  reader _ _ := Nat.zero_le _

variable {size : ℕ}

theorem Within.receiveAck {id} (hm : m.Within size) (h : m.receiveAck id = some m') :
    m'.Within size := by
  obtain ⟨-, hfile, -⟩ := receiveAck_frame h
  refine ⟨?_, fun position hp => ?_⟩ <;> rw [receiveAck_bytes h]
  · exact hm.size
  · exact hm.reader position (hfile ▸ hp)

omit [DecidableEq ID] in
theorem Within.of_end (hm : m.Within size) :
    ({ m with file := ⟨none⟩ } : SendManager ID).Within size where
  size := hm.size
  reader _ h := by cases h

theorem Within.register {position bytes : ℕ} (hm : m.Within size)
    (hp : m.file.pendingRead = some position) (hbytes : position + bytes ≤ size) (id : ID) :
    ({ m with file := ⟨some (position + bytes)⟩ }.register id bytes : SendManager ID).Within
      size := by
  have hsum :=
    register_bytes ({ m with file := ⟨some (position + bytes)⟩ } : SendManager ID) id bytes
  have hreader := hm.reader position hp
  have hwindow : ({ m with file := ⟨some (position + bytes)⟩ } : SendManager ID).inFlightBytes =
    m.inFlightBytes := rfl
  have hprogress : ({ m with file := ⟨some (position + bytes)⟩ }.register id bytes :
    SendManager ID).progressBytes = m.progressBytes := rfl
  refine ⟨by omega, ?_⟩
  rintro _ ⟨⟩
  omega

/-- An attempt to send keeps the window within the size, if what it reads lies within. -/
theorem Within.sendNextChunk {σ : Type} (hm : m.Within size)
    (result : Except IoError (List UInt8)) (send : DataChunk → σ → Option ID × σ) (s : σ)
    (hread : m.isReady = true → ∀ position bytes, m.file.pendingRead = some position →
      result = .ok bytes → position + bytes.length ≤ size) :
    (m.sendNextChunk result send s).2.1.Within size := by
  cases hready : m.isReady with
  | false =>
    rw [sendNextChunk_of_full hready]
    exact hm
  | true =>
    cases hp : m.file.pendingRead with
    | none =>
      rw [sendNextChunk_of_end hready (.inl hp)]
      exact hm.of_end
    | some position =>
      cases result with
      | error e =>
        rw [sendNextChunk_of_error hready hp]
        exact hm.of_end
      | ok bytes =>
        cases bytes with
        | nil =>
          rw [sendNextChunk_of_end hready (.inr rfl)]
          exact hm.of_end
        | cons b bs =>
          have hbytes := hread hready position _ hp rfl
          rw [sendNextChunk_of_piece hready hp]
          split
          · refine ⟨hm.size, ?_⟩
            rintro _ ⟨⟩
            exact Nat.le_add_right_of_le (hm.reader position hp)
          · exact hm.register hp hbytes _

omit [DecidableEq ID] in
/-- The transfer goes on from an offset: the window is empty, and the reader goes there. -/
theorem Within.setProgress {offset : ℕ} (result : Except IoError (List UInt8))
    (hempty : m.inFlightBytes = 0) (hoffset : offset ≤ size) :
    (m.setProgress result true offset).Within size := by
  have hwindow : (m.setProgress result true offset).inFlightBytes = 0 := hempty
  refine ⟨?_, fun position hp => ?_⟩ <;> rw [hwindow]
  · exact hoffset
  · rw [SendManager.setProgress, FileReader.setProgress] at hp
    split at hp
    · next hnone => cases hnone.symm.trans hp
    · obtain ⟨⟩ := hp
      exact Nat.le_refl _

end SendManager

/-! ### What can be stored -/

/-- Progress within the size, and the size in the range of the column. -/
def TransferData.Fits (data : TransferData) : Prop :=
  data.progressBytes ≤ data.fileSizeBytes ∧ data.fileSizeBytes < maxStored

instance (data : TransferData) : Decidable data.Fits := inferInstanceAs (Decidable (_ ∧ _))

/-- What the transfer data of a status should be. -/
def SendStatus.Fits (status : SendStatus) : Prop := ∀ data ∈ status.transferData, data.Fits

instance (status : SendStatus) : Decidable status.Fits :=
  inferInstanceAs (Decidable (∀ data ∈ status.transferData, data.Fits))

namespace Brain

/-- **What a notification should carry**: a status that may be stored, with progress within the size
and both in the range of the columns, so that no row breaks the `CHECK` with it. -/
def Persistable (action : NetworkNodeAction) : Prop :=
  action.sendStatus.Fits ∧ ∃ tag, action.sendStatus.statusTag = .ok tag ∧
    ∀ row : PendingFileRow, row.Check →
      (row.withStatus tag action.sendStatus.transferData action.retryCount).Check

/-- A transfer that has been accepted, with data that fits. -/
def InTransit (status : SendStatus) : Prop :=
  status.Fits ∧ ∃ data, status = .inProgress ⟨.sending, data⟩ ∨
    status = .inProgress ⟨.interrupted, data⟩

/-- What the tracker reports. -/
def Reported : NetworkNodeAction → Prop
  | .fileSending _ status => InTransit status
  | .fileSendReset _ status retryCount _ =>
    (status = .pending ∧ retryCount.isSome) ∨ InTransit status
  | _ => True

variable {data : TransferData}

theorem fits_interrupted (h : data.Fits) : InTransit (.inProgress ⟨.interrupted, data⟩) :=
  ⟨by rintro _ ⟨⟩; exact h, data, .inr rfl⟩

theorem fits_sending (h : data.Fits) : InTransit (.inProgress ⟨.sending, data⟩) :=
  ⟨by rintro _ ⟨⟩; exact h, data, .inl rfl⟩

/-- The data still fit when the transfer is interrupted. -/
theorem fits_of_sending {status : SendStatus}
    (hst : status = .inProgress ⟨.sending, data⟩) (h : status.Fits) :
    SendStatus.Fits (.inProgress ⟨.interrupted, data⟩) := by
  subst hst
  exact h

/-- The columns of a status of a transfer under way satisfy the `CHECK`. -/
theorem check_of_fits (h : data.Fits) {tag} (htag : tag = .sending ∨ tag = .interrupted)
    (retryCount : Option ℕ) (row : PendingFileRow) :
    (row.withStatus tag (some data) retryCount).Check := by
  have hprogress : toI64 data.progressBytes = data.progressBytes :=
    toI64_of_lt (Nat.lt_of_le_of_lt h.1 h.2)
  have hsize : toI64 data.fileSizeBytes = data.fileSizeBytes := toI64_of_lt h.2
  have hcolumns : ((row.withStatus tag (some data) retryCount).progressBytes = some
        (data.progressBytes : ℤ) ∧ (row.withStatus tag (some data) retryCount).fileSizeBytes =
        some (data.fileSizeBytes : ℤ)) ∧
      (row.withStatus tag (some data) retryCount).transferId = some data.transferId := by
    rw [← hprogress, ← hsize]
    cases retryCount <;> exact ⟨⟨rfl, rfl⟩, rfl⟩
  obtain ⟨⟨hp, hs⟩, ht⟩ := hcolumns
  have hall : ∀ n : ℕ, ∀ k ∈ some (n : ℤ), 0 ≤ k := by
    rintro n _ ⟨⟩
    exact Int.natCast_nonneg n
  rw [PendingFileRow.Check, PendingFileRow.withStatus_status, hp, hs, ht]
  rcases htag with rfl | rfl <;> exact ⟨⟨rfl, hall _⟩, ⟨rfl, hall _⟩, rfl⟩

theorem InTransit.check {status} (h : InTransit status) (retryCount : Option ℕ) :
    ∃ tag, status.statusTag = .ok tag ∧ ∀ row : PendingFileRow,
      (row.withStatus tag status.transferData retryCount).Check := by
  obtain ⟨hfits, data, rfl | rfl⟩ := h
  · exact ⟨.sending, rfl, check_of_fits (hfits data rfl) (.inl rfl) retryCount⟩
  · exact ⟨.interrupted, rfl, check_of_fits (hfits data rfl) (.inr rfl) retryCount⟩

/-- A terminal status satisfies the `CHECK`, whatever the other columns hold. -/
theorem check_of_isTerminal {tag} (htag : tag.isTerminal = true) (data : Option TransferData)
    (retryCount : Option ℕ) (row : PendingFileRow) :
    (row.withStatus tag data retryCount).Check := by
  rw [PendingFileRow.Check, PendingFileRow.withStatus_status]
  cases tag with
  | pending | sending | interrupted => cases htag
  | sent | rejected | failed => trivial

/-- **What the tracker reports can be stored.** -/
theorem Reported.persistable {action} (h : Reported action) : Persistable action := by
  cases action with
  | fileSending id status =>
    obtain ⟨tag, htag, hcheck⟩ := h.check none
    exact ⟨h.1, tag, htag, fun row _ => hcheck row⟩
  | fileSendReset id status retryCount reason =>
    rcases h with ⟨rfl, hcount⟩ | h
    · obtain ⟨count, rfl⟩ := Option.isSome_iff_exists.mp hcount
      exact ⟨nofun, .pending, rfl, fun row _ => ⟨rfl, rfl, rfl⟩⟩
    · obtain ⟨tag, htag, hcheck⟩ := h.check retryCount
      exact ⟨h.1, tag, htag, fun row _ => hcheck row⟩
  | _ =>
    exact ⟨nofun, _, rfl, fun row _ => check_of_isTerminal rfl _ _ row⟩

/-- A notification that can be stored is stored, unless its file has been deleted. -/
theorem Persistable.update {action} (h : Persistable action) (t : OutgoingTables) {error}
    (hup : t.updatePendingFileStatus action.file action.sendStatus action.retryCount =
      .error error) : error = .noRows := by
  obtain ⟨-, tag, htag, hcheck⟩ := h
  rcases t.updatePendingFileStatus_cases action.file action.sendStatus action.retryCount with
    ⟨e, herror, -⟩ | ⟨tag', htag', ⟨-, hfail⟩ | ⟨row, hrow, ⟨hfail, -⟩ | ⟨-, t', hok, -⟩⟩⟩
  · cases herror.symm.trans htag
  · exact (Except.error.inj (hup.symm.trans hfail))
  · obtain rfl := Except.ok.inj (htag'.symm.trans htag)
    exact absurd (hcheck row (t.checks row (mem_of_row hrow).1)) hfail
  · cases hup.symm.trans hok

/-! ### The custody -/

open FileTracker (Custody InCustody slotOf acceptedSlot continuedAt afterRead)

/-- Progress stays within the size. -/
def withinSize : Custody where
  file f := f.status.Fits
  slot s := ∃ stage data, s.pendingFile.status = .inProgress ⟨stage, data⟩ ∧ data.Fits ∧
    s.sendManager.Within data.fileSizeBytes
  notice := Reported
  message _ _ := True

/-- The sizes of the files that are opened are in the range of the column. -/
def SizesFit (env : FileTracker.Env) : Prop :=
  ∀ request opened size, env.openFileForReading request = some opened →
    opened.metadata = .ok size → size < maxStored

/-- The status with which a file goes back to the queue, when its data fits. -/
theorem reported_computeResetStatus {stage} (h : data.Fits) :
    computeResetStatus (.inProgress ⟨stage, data⟩) = .pending ∨
      InTransit (computeResetStatus (.inProgress ⟨stage, data⟩)) := by
  cases stage with
  | prepared =>
    rw [computeResetStatus]
    split
    · exact .inr (fits_interrupted h)
    · exact .inl rfl
  | _ => exact .inr (fits_interrupted h)

theorem withinSize_closed {env} (hsizes : SizesFit env) : withinSize.Closed env where
  skipped _ := ⟨trivial, trivial, trivial⟩
  offered _ _ hopen hmeta :=
    ⟨⟨_, _, rfl, ⟨Nat.zero_le _, hsizes _ _ _ hopen hmeta⟩, .new _ _ _ _⟩, trivial⟩
  resumed size position hf hst := by
    have hfits := hf _ (by rw [hst]; rfl)
    exact ⟨⟨⟨_, _, rfl, hfits, .new _ _ _ _⟩, trivial⟩, by rw [hst]; exact fits_interrupted hfits⟩
  completed outcome _ := by cases outcome <;> trivial
  reset := by
    rintro s reason ⟨stage, data, hst, hfits, -⟩
    have hreset : computeResetStatus (.inProgress ⟨stage, data⟩) = .pending ∨
        InTransit (computeResetStatus (.inProgress ⟨stage, data⟩)) :=
      reported_computeResetStatus hfits
    rw [← hst] at hreset
    refine ⟨?_, ?_⟩
    · rcases hreset with h | h
      · show SendStatus.Fits (computeResetStatus s.pendingFile.status)
        rw [h]
        exact nofun
      · exact h.1
    · exact hreset.imp_left fun h => ⟨h, rfl⟩
  failed h := h
  verified result h _ := by
    obtain ⟨stage, data, hst, hfits, hwithin⟩ := h
    exact ⟨stage, data, by rw [noteVerification_pendingFile]; exact hst, hfits,
      by rw [noteVerification_sendManager]; exact hwithin⟩
  acknowledged := by
    rintro s data id m ⟨stage, data', hst', hfits, hwithin⟩ hst hack
    obtain ⟨rfl, rfl⟩ := InProgress.mk.inj (SendStatus.inProgress.inj (hst'.symm.trans hst))
    have hwithin' := hwithin.receiveAck hack
    have hfits' : TransferData.Fits { data' with progressBytes := m.progressBytes } :=
      ⟨Nat.le_trans (Nat.le_add_right _ _) hwithin'.size, hfits.2⟩
    exact ⟨⟨_, _, rfl, hfits', hwithin'⟩, fits_sending hfits'⟩

theorem withinSize_doneSlot {s} (h : withinSize.slot s) :
    withinSize.slot (doneSlot s) := by
  obtain ⟨stage, data, hst, hfits, hwithin⟩ := h
  refine ⟨if stage = .sending then .pendingSent else stage, data, ?_, hfits, hwithin⟩
  show statusAfterDone s.pendingFile.status = _
  rw [hst]
  cases stage <;> rfl

/-! ### Steps within bounds -/

/-- The peer goes on from an offset within the file, while nothing is in the window and the reader
can follow. -/
def OffsetFits (w : FileTracker.World) (env : FileTracker.Env) : Event → Prop
  | .network (.call (.receiveResponse peer _ _ (.acceptContinueTransfer offset))) =>
    ∀ s ∈ slotOf (w.tracker.files.lookup peer), ∀ data ∈ s.pendingFile.status.transferData,
      s.pendingFile.status = .inProgress ⟨.prepared, data⟩ →
      offset ≤ data.fileSizeBytes ∧ env.seeks = true ∧ s.sendManager.inFlightBytes = 0
  | _ => True

/-- A round reads nothing beyond the size of the file. -/
def ReadFits (w : FileTracker.World) (env : FileTracker.Env) : Event → Prop
  | .network (.resume index) =>
    ∀ task ∈ w.tasks[index]?, ∀ s ∈ slotOf (w.tracker.files.lookup task.1),
      ∀ data ∈ s.pendingFile.status.transferData,
      ∀ position ∈ s.sendManager.file.pendingRead, ∀ bytes ∈ env.read.toOption,
      s.sendManager.isReady = true → position + bytes.length ≤ data.fileSizeBytes
  | _ => True

instance (w : FileTracker.World) (env : FileTracker.Env) (e : Event) :
    Decidable (OffsetFits w env e) := by
  rw [OffsetFits.eq_def]
  split <;> infer_instance

instance (w : FileTracker.World) (env : FileTracker.Env) (e : Event) :
    Decidable (ReadFits w env e) := by
  rw [ReadFits.eq_def]
  split <;> infer_instance

/-- **The steps that keep to the size of a file.** -/
structure InBounds (s : Service) (e : Event × Surroundings) : Prop where
  sizes : SizesFit e.2.env
  offset : OffsetFits s.node e.2.env e.1
  read : ReadFits s.node e.2.env e.1

/-- A row whose progress is within the size. -/
def RowFits (row : PendingFileRow) : Prop :=
  ∀ progress size, row.progressBytes = some progress → row.fileSizeBytes = some size →
    progress ≤ size

theorem rowFits_new (id : FylesId) (filePath : String) (target : FylesId) :
    RowFits (.new id filePath target) := nofun

theorem rowFits_withStatus {row} (h : RowFits row) (tag : StatusTag) {data}
    (hdata : ∀ d ∈ data, d.Fits) (retryCount : Option ℕ) :
    RowFits (row.withStatus tag data retryCount) := by
  cases data with
  | none =>
    cases retryCount with
    | none => exact h
    | some count => exact nofun
  | some d =>
    have hfits := hdata d rfl
    have hprogress : toI64 d.progressBytes = d.progressBytes :=
      toI64_of_lt (Nat.lt_of_le_of_lt hfits.1 hfits.2)
    have hsize : toI64 d.fileSizeBytes = d.fileSizeBytes := toI64_of_lt hfits.2
    have hcolumns : (row.withStatus tag (some d) retryCount).progressBytes = some
          (d.progressBytes : ℤ) ∧ (row.withStatus tag (some d) retryCount).fileSizeBytes = some
          (d.fileSizeBytes : ℤ) := by
      rw [← hprogress, ← hsize]
      cases retryCount <;> exact ⟨rfl, rfl⟩
    rw [RowFits, hcolumns.1, hcolumns.2]
    rintro _ _ ⟨⟩ ⟨⟩
    exact Int.ofNat_le.mpr hfits.1

/-- A row whose progress is within the size is read as a status that fits. -/
theorem fits_sendStatus {row} (h : RowFits row) (hcounts : row.Counts) : row.sendStatus.Fits := by
  intro data hdata
  obtain ⟨progress, size, hp, hs, hprogress, hsize⟩ := row.transferData_sendStatus hcounts hdata
  obtain ⟨hs0, hlt⟩ := hcounts.2 size hs
  have hle := h progress size hp hs
  rw [TransferData.Fits, hprogress, hsize]
  omega

/-- What is known of the jobs that wait. -/
def JobFits : Job → Prop
  | .report action => Reported action
  | .readyReset done todo => (∀ p ∈ done, p.1.status.Fits) ∧ ∀ p ∈ todo, p.1.status.Fits
  | .initialFiles files => ∀ f ∈ files, f.status.Fits
  | _ => True

/-- Everything in the service is within the size of its file. -/
structure Bounded (s : Service) : Prop where
  node : InCustody (fun _ => withinSize) s.node
  rows : ∀ row ∈ s.tables.pendingFiles, RowFits row
  jobs : ∀ job ∈ s.jobs, JobFits job
  reported : ∀ action ∈ s.reported, Reported action

namespace Bounded

variable {s s' : Service} {x : Surroundings} {parse : String → Option PeerId}

theorem withNode (h : Bounded s) {e w}
    (hadmits : Custody.Admits (fun _ => withinSize) s.node e x.env)
    (hstep : s.node.step (e, x.env) = some w) : Bounded (s.withNode e w) := by
  obtain ⟨hnode, hreports⟩ := reports_of_step h.node hadmits hstep
  refine ⟨hnode, h.rows, fun job hjob => ?_, fun action haction => ?_⟩
  · rcases List.mem_append.mp hjob with hjob | hjob
    · exact h.jobs job hjob
    · obtain ⟨a, ha, rfl⟩ := List.mem_map.mp hjob
      exact (hreports a ha).elim fun _ => id
  · rcases List.mem_append.mp haction with haction | haction
    · exact h.reported action haction
    · exact (hreports action haction).elim fun _ => id

theorem command (h : Bounded s) {e w} (hcommand : e.fromNetwork = false) (hsizes : SizesFit x.env)
    (hfile : ∀ p file, e = .call (.addPendingFile p file) → file.status.Fits)
    (hstep : s.node.step (e, x.env) = some w) : Bounded (s.withNode e w) :=
  h.withNode (admits_command hcommand (fun _ => withinSize_closed hsizes) hfile) hstep

theorem update (h : Bounded s) {id target status retryCount tables} (hfits : status.Fits)
    (hup : s.tables.updatePendingFileStatus id status retryCount = .ok (target, tables)) :
    Bounded { s with tables } := by
  obtain ⟨tag, row, -, -, -, hrows⟩ := updatePendingFileStatus_ok hup
  exact ⟨h.node, forall_updated hrows h.rows fun row _ hrow =>
    rowFits_withStatus hrow tag hfits retryCount, h.jobs, h.reported⟩

theorem recoverable (h : Bounded s) (remotes : List RemoteFilerequest) {files}
    (hget : s.tables.getAllPendingFiles = .ok files) :
    ∀ p ∈ recoverable remotes files, p.1.status.Fits := by
  intro p hp
  obtain ⟨file, hfile, hpair⟩ := List.mem_filterMap.mp hp
  obtain ⟨r, -, rfl⟩ := Option.map_eq_some_iff.mp hpair
  rw [s.tables.getAllPendingFiles_eq] at hget
  obtain rfl := Except.ok.inj hget
  obtain ⟨⟨row, r'⟩, hjoined, rfl⟩ := List.mem_map.mp (List.mem_of_mem_filter hfile)
  obtain ⟨row, hrow, hmap⟩ := List.mem_filterMap.mp hjoined
  obtain ⟨_, -, heq⟩ := Option.map_eq_some_iff.mp hmap
  obtain ⟨rfl, rfl⟩ := Prod.mk.inj heq
  exact fits_sendStatus (h.rows row hrow) (s.tables.counts row hrow)

theorem does (h : Bounded s) (hsizes : SizesFit x.env) {job : Job} (hjob : JobFits job) {next}
    (hdoes : Does parse x s job s' next) : Bounded s' ∧ ∀ job' ∈ next, JobFits job' := by
  cases hdoes with
  | report hup =>
    exact ⟨h.update (Reported.persistable hjob).1 hup,
      forall_followUp (fun _ => trivial) fun _ => trivial⟩
  | addReason hup =>
    obtain ⟨-, hrows⟩ := addInterruptionReason_ok hup
    exact ⟨⟨h.node, forall_updated hrows h.rows fun _ _ hrow => hrow, h.jobs,
      h.reported⟩, fun _ h => (nomatch h)⟩
  | insertFiles hcreate =>
    obtain ⟨-, hrows⟩ := createPendingFiles_ok hcreate
    refine ⟨⟨h.node, fun row hrow => ?_, h.jobs, h.reported⟩,
      List.forall_mem_singleton.mpr trivial⟩
    rw [hrows] at hrow
    rcases List.mem_append.mp hrow with hrow | hrow
    · exact h.rows row hrow
    · obtain ⟨f, -, rfl⟩ := List.mem_map.mp hrow
      exact rowFits_new _ _ _
  | sendFile hp hstep =>
    refine ⟨h.command rfl hsizes ?_ hstep, List.forall_mem_singleton.mpr trivial⟩
    rintro p file ⟨⟩
    exact nofun
  | cancelFile hstep => exact ⟨h.command rfl hsizes (fun _ _ he => by cases he) hstep,
      List.forall_mem_singleton.mpr trivial⟩
  | cancelRequest hp hstep => exact ⟨h.command rfl hsizes (fun _ _ he => by cases he) hstep,
      List.forall_mem_singleton.mpr trivial⟩
  | removeFile | removeRequest =>
    exact ⟨⟨h.node, fun row hrow => h.rows row (List.mem_of_mem_filter hrow), h.jobs, h.reported⟩,
      fun _ h => (nomatch h)⟩
  | readyFiles hget =>
    exact ⟨h, List.forall_mem_singleton.mpr ⟨fun _ h => (nomatch h), h.recoverable _ hget⟩⟩
  | readyDone =>
    refine ⟨h, List.forall_mem_singleton.mpr fun f hf => ?_⟩
    obtain ⟨p, hp, rfl⟩ := List.mem_map.mp hf
    exact hjob.1 p hp
  | readyReset hst hup =>
    obtain ⟨hdone, htodo⟩ := hjob
    have hfits' := fits_of_sending hst (htodo _ List.mem_cons_self)
    exact ⟨h.update hfits' hup, List.forall_mem_singleton.mpr
      ⟨List.forall_mem_append.mpr ⟨hdone, List.forall_mem_singleton.mpr hfits'⟩,
        fun p hp => htodo p (List.mem_cons_of_mem _ hp)⟩⟩
  | readyKeep hst =>
    obtain ⟨hdone, htodo⟩ := hjob
    exact ⟨h, List.forall_mem_singleton.mpr
      ⟨List.forall_mem_append.mpr
        ⟨hdone, List.forall_mem_singleton.mpr (htodo _ List.mem_cons_self)⟩,
        fun p hp => htodo p (List.mem_cons_of_mem _ hp)⟩⟩
  | initialFile hp hstep =>
    refine ⟨h.command rfl hsizes ?_ hstep,
      List.forall_mem_singleton.mpr fun f hf => hjob f (List.mem_cons_of_mem _ hf)⟩
    rintro p file ⟨⟩
    exact hjob _ List.mem_cons_self
  | removeSource => exact ⟨⟨h.node, h.rows, h.jobs, h.reported⟩, fun _ h => (nomatch h)⟩
  | sweepRemove =>
    exact ⟨⟨h.node, h.rows, h.jobs, h.reported⟩, List.forall_mem_singleton.mpr trivial⟩
  | ends => exact ⟨h, fun _ h => (nomatch h)⟩
  | _ => exact ⟨h, List.forall_mem_singleton.mpr trivial⟩

/-- **A step within bounds** keeps everything within the sizes. -/
theorem step {e} (h : Bounded s) (hbounds : InBounds s e) (hstep : s.next parse e = some s') :
    Bounded s' := by
  obtain ⟨e, x⟩ := e
  cases happens_of_step (Service.next_eq_some.mp hstep) with
  | act action =>
    refine ⟨h.node, h.rows, List.forall_mem_append.mpr ⟨h.jobs, ?_⟩, h.reported⟩
    cases action <;> exact List.forall_mem_singleton.mpr trivial
  | resume hjob hdoes =>
    rename_i index _ _ _
    have herase : Bounded { s with jobs := s.jobs.eraseIdx index } :=
      ⟨h.node, h.rows, fun job hmem => h.jobs job (List.mem_of_mem_eraseIdx hmem), h.reported⟩
    obtain ⟨h', hnext⟩ := herase.does hbounds.sizes (h.jobs _ (List.mem_of_getElem? hjob)) hdoes
    exact ⟨h'.node, h'.rows, List.forall_mem_append.mpr ⟨h'.jobs, hnext⟩, h'.reported⟩
  | network hnet hw =>
    refine h.withNode ⟨fun _ => withinSize_closed hbounds.sizes, ?_, ?_,
      fun _ _ _ _ _ => ⟨trivial, fun _ _ _ _ => trivial⟩, ?_⟩ hw
    · rintro p file rfl
      cases hnet
    · rintro p contactId requestId response slot data rfl haccepts hslot hst
      obtain ⟨stage, data', hst', hfits, hwithin⟩ := h.node.slot hslot
      obtain ⟨rfl, rfl⟩ := InProgress.mk.inj (SendStatus.inProgress.inj (hst'.symm.trans hst))
      cases response with
      | acceptContinueTransfer offset =>
        obtain ⟨hoffset, hseeks, hempty⟩ := hbounds.offset slot hslot data' (by rw [hst]; rfl) hst
        refine ⟨_, _, rfl, ⟨hoffset, hfits.2⟩, ?_⟩
        rw [acceptedSlot, continuedAt, hseeks]
        exact .setProgress _ hempty hoffset
      | _ => exact ⟨_, _, rfl, hfits, hwithin⟩
    · rintro index p contactId slot rfl htask hslot -
      obtain ⟨stage, data, hst, hfits, hwithin⟩ := h.node.slot hslot
      have hread : withinSize.slot (afterRead x.env (s.node.tracker.enter p) slot) := by
        refine ⟨stage, data, hst, hfits, hwithin.sendNextChunk _ _ _ ?_⟩
        intro hready position bytes hp hread
        exact hbounds.read _ htask slot hslot data (by rw [hst]; rfl) position hp bytes
          (by rw [hread]; rfl) hready
      refine ⟨hread, fun _ => trivial, ⟨withinSize_doneSlot hread, trivial⟩, fun data' hdata => ?_⟩
      rw [hst] at hdata
      obtain ⟨⟩ := hdata
      exact ⟨(fits_interrupted hfits).1, .inr (fits_interrupted hfits)⟩
  | createRemoteFilerequest hcreate =>
    obtain ⟨-, -, hrows⟩ := createRemoteFilerequest_ok hcreate
    exact ⟨h.node, fun row hrow => h.rows row (hrows ▸ hrow), h.jobs, h.reported⟩
  | updateRemoteFilerequest id name => exact ⟨h.node, h.rows, h.jobs, h.reported⟩
  | storeSource filePath modified => exact ⟨h.node, h.rows, h.jobs, h.reported⟩
  | restart =>
    exact ⟨InCustody.new, h.rows, fun _ h => (nomatch h), fun _ h => (nomatch h)⟩
  | nothing => exact h

theorem start (sources : List (String × ℤ)) : Bounded (.start .empty sources) where
  node := InCustody.new
  rows _ h := nomatch h
  jobs _ h := nomatch h
  reported _ h := nomatch h

end Bounded

/-! ### Every run -/

/-- **What the tracker reports can be stored.** In every run from a new database whose steps keep to
the sizes of the files, every notification carries a status that can be stored, and the brain fails
to store it only if the file has been deleted. -/
theorem statuses_persistable {parse : String → Option PeerId} {sources : List (String × ℤ)}
    {events : List (Event × Surroundings)} {s : Service}
    (h : Run (Service.next parse) InBounds (.start .empty sources) events s) :
    (∀ action ∈ s.reported, Persistable action) ∧
    ∀ index action x id error, s.jobs[index]? = some (.report action) →
      s.step parse (.resume index, x) = .error (.report id error) → error = .noRows := by
  have hbounded : Bounded s := h.invariant (.start sources) Bounded.step
  refine ⟨fun action haction => (hbounded.reported action haction).persistable, ?_⟩
  intro index action x id error hjob hstep
  have hreported : Reported action := hbounded.jobs _ (List.mem_of_getElem? hjob)
  exact hreported.persistable.update s.tables (error_of_report hjob hstep)

/-- The peer accepts the file of the sample, a piece of it is sent and acknowledged. -/
def sampleTransfer : List (Event × Surroundings) :=
  [.network (.call (.triggerInteractionWith ⟨"peer"⟩)),
    .network (.call (.receiveResponse ⟨"peer"⟩ (some ⟨"contact"⟩) (some 0) .acceptNewTransfer)),
    .network (.resume 0),
    .network (.call (.receiveResponse ⟨"peer"⟩ (some ⟨"contact"⟩) (some 1) .confirmChunk))].map
    fun e => (e, sampleSurroundings [1, 2, 3] "")

theorem sizesFit_sample : ∀ e ∈ sampleSetup ++ sampleTransfer, SizesFit e.2.env := by
  have hsizes : ∀ read id, SizesFit (sampleSurroundings read id).env := by
    rintro read id request opened size ⟨⟩ ⟨⟩
    decide
  intro e he
  rcases List.mem_append.mp he with he | he
  all_goals
    obtain ⟨e, -, rfl⟩ := List.mem_map.mp he
    exact hsizes _ _

/-- A report of progress in the sample. -/
theorem statuses_persistable_sample : ∃ s,
    Run (Service.next sampleParse) InBounds (.start .empty []) (sampleSetup ++ sampleTransfer) s ∧
    .fileSending ⟨"file0"⟩ (.inProgress ⟨.sending, ⟨3, 10, ⟨"transfer"⟩⟩⟩) ∈ s.reported ∧
    ∀ action ∈ s.reported, Persistable action := by
  have hadmitted : Admitted (Service.next sampleParse)
      (fun s e => OffsetFits s.node e.2.env e.1 ∧ ReadFits s.node e.2.env e.1) (.start .empty [])
      (sampleSetup ++ sampleTransfer) := by decide
  exact Run.exists_and (Run.get_runFrom (by decide)
    (hadmitted.imp fun s e he hok => ⟨sizesFit_sample e he, hok.1, hok.2⟩))
    fun hrun => ⟨by decide, (statuses_persistable hrun).1⟩

/-- **A peer ends the process.** It answers an offer with an offset beyond the range of the column.
When the file goes back to the queue, the brain fails to store its progress. -/
theorem offset_not_storable : ∃ s,
    Run (Service.next sampleParse) (fun _ _ => True) (.start .empty []) (sampleSetup ++
      [.network (.call (.triggerInteractionWith ⟨"peer"⟩)),
        .network (.call (.receiveResponse ⟨"peer"⟩ (some ⟨"contact"⟩) (some 0)
          (.acceptContinueTransfer (2 ^ 63)))),
        .network (.call (.handleReceiveError ⟨"peer"⟩ (some 0) (.localError .timeout)))].map
        fun e => (e, sampleSurroundings [] "")) s ∧
    (∃ action ∈ s.reported, ¬ Persistable action) ∧
    s.step sampleParse (.resume 0, sampleSurroundings [] "") =
      .error (.report ⟨"file0"⟩ .constraint) := by
  refine ⟨_, Run.get_runFrom, ⟨.fileSendReset ⟨"file0"⟩
    (.inProgress ⟨.interrupted, ⟨2 ^ 63, 10, ⟨"transfer"⟩⟩⟩) (some 0) (some "Request timeout"),
    by decide, fun h => absurd h.1 (by decide)⟩, by rfl⟩

end Brain

end Fyles
