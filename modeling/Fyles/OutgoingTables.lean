import Fyles.DomainModels

/-!
# The tables of outgoing files

The tables `remote_filerequests` and `pending_files` (`core/src/library/sqlite/schema.rs`) and the
statements on them (`core/src/library/sqlite/actor.rs`). The actor of the database takes one request
after the other, so a statement, or a transaction, is one step.

## Constraints

The tables carry what SQLite enforces: primary keys, the foreign key of `pending_files`, which
deletes the pending files of a deleted remote file request, and the `CHECK` that ties the status of
a pending file to the columns of its transfer. A statement that would break one of them fails and
changes nothing. That all columns for bytes hold byte counts is not a constraint of the schema, but
it follows from the statements, and reading depends on it.

Byte counts are `u64` in the service and signed 64-bit integers in a column. They are written with
`as i64`, which wraps (`toI64`), and read with a conversion that fails for negative numbers. Tags
that the `CHECK` on `status` does not allow are left out, and with them the branches of
`from_db_columns` that read them; so are display names and time stamps. Errors of the disk are left
out as well.

## Main results

* `OutgoingTables.updatePendingFileStatus_cases` — it changes one row, or says why it does not
* `OutgoingTables.getAllPendingFiles_eq` — all rows can be read
-/

namespace Fyles

/-! ### Columns -/

/-- `as i64`: the signed integer that is stored for a `u64`. -/
def toI64 (n : ℕ) : ℤ := (BitVec.ofNat 64 n).toInt

/-- The range in which a byte count is stored as it is. -/
def maxStored : ℕ := 2 ^ 63

theorem toI64_of_lt {n : ℕ} (h : n < maxStored) : toI64 n = n := by
  rw [maxStored] at h
  rw [toI64, BitVec.toInt_ofNat']
  exact Int.bmod_eq_of_le (by omega) (by omega)

theorem toI64_lt (n : ℕ) : toI64 n < maxStored := by
  have h := BitVec.toInt_lt (x := BitVec.ofNat 64 n)
  rw [toI64, maxStored]
  omega

/-- A column of bytes that is read as a `u64`; `none` if the number is negative. -/
def readU64 : Option ℤ → Option (Option ℕ)
  | none => some none
  | some (.ofNat n) => some (some n)
  | some (.negSucc _) => none

/-- A column holds a byte count, in the range of signed integers. -/
def IsCount (column : Option ℤ) : Prop := ∀ n ∈ column, 0 ≤ n ∧ n < maxStored

instance (column : Option ℤ) : Decidable (IsCount column) :=
  inferInstanceAs (Decidable (∀ n ∈ column, _))

theorem isCount_none : IsCount none := nofun

theorem readU64_of_isCount {column} (h : IsCount column) :
    readU64 column = some (column.map Int.toNat) := by
  cases column with
  | none => rfl
  | some n =>
    cases n with
    | ofNat n => rfl
    | negSucc n => exact absurd (h _ rfl).1 (by simp)

/-- The status of a row of `pending_files`. -/
inductive StatusTag
  | pending
  | sending
  | interrupted
  | sent
  | rejected
  | failed
  deriving DecidableEq, Repr

/-- The statuses in which nothing more is to be done for a file. -/
def StatusTag.isTerminal : StatusTag → Bool
  | .sent | .rejected | .failed => true
  | .pending | .sending | .interrupted => false

/-- `status_tag`, or why a status must not be stored. -/
def SendStatus.statusTag : SendStatus → Except String StatusTag
  | .pending => .ok .pending
  | .inProgress progress =>
    match progress.status with
    | .prepared => .error "Prepared is an ephemeral status and must not be persisted"
    | .sending => .ok .sending
    | .interrupted => .ok .interrupted
    | .pendingSent => .error "PendingSent is an ephemeral status and must not be persisted"
  | .sent => .ok .sent
  | .rejected => .ok .rejected
  | .failed => .ok .failed
  | .unknown s => .error ("Unknown status '" ++ s ++ "' must not be persisted")

/-- The transfer data of a row, if all columns of it are there. -/
def columnsTransferData (progressBytes fileSizeBytes : Option ℕ) (transferId : Option FylesId) :
    Option TransferData :=
  match progressBytes, fileSizeBytes, transferId with
  | some progressBytes, some fileSizeBytes, some transferId =>
    some ⟨progressBytes, fileSizeBytes, transferId⟩
  | _, _, _ => none

/-- `from_db_columns`. -/
def SendStatus.fromDbColumns (tag : StatusTag) (progressBytes fileSizeBytes : Option ℕ)
    (transferId : Option FylesId) : Except String SendStatus :=
  match tag with
  | .pending => .ok .pending
  | .sending =>
    match columnsTransferData progressBytes fileSizeBytes transferId with
    | some data => .ok (.inProgress ⟨.sending, data⟩)
    | none => .error "Sending status requires transfer data but columns are NULL"
  | .interrupted =>
    match columnsTransferData progressBytes fileSizeBytes transferId with
    | some data => .ok (.inProgress ⟨.interrupted, data⟩)
    | none => .error "Interrupted status requires transfer data but columns are NULL"
  | .sent => .ok .sent
  | .rejected => .ok .rejected
  | .failed => .ok .failed

theorem columnsTransferData_eq_some {progressBytes fileSizeBytes transferId data}
    (h : columnsTransferData progressBytes fileSizeBytes transferId = some data) :
    progressBytes = some data.progressBytes ∧ fileSizeBytes = some data.fileSizeBytes ∧
      transferId = some data.transferId := by
  rw [columnsTransferData.eq_def] at h
  split at h
  · obtain ⟨⟩ := h
    exact ⟨rfl, rfl, rfl⟩
  · cases h

/-- The transfer data of a status that was read are those of the columns. -/
theorem SendStatus.transferData_fromDbColumns
    {tag progressBytes fileSizeBytes transferId status data}
    (h : SendStatus.fromDbColumns tag progressBytes fileSizeBytes transferId = .ok status)
    (hdata : status.transferData = some data) :
    columnsTransferData progressBytes fileSizeBytes transferId = some data := by
  cases tag with
  | pending | sent | rejected | failed =>
    obtain rfl := Except.ok.inj h
    cases hdata
  | sending | interrupted =>
    simp only [SendStatus.fromDbColumns] at h
    split at h
    · next heq =>
      obtain rfl := Except.ok.inj h
      exact heq.trans hdata
    · cases h

/-! ### Rows -/

/-- A row of `remote_filerequests`: a file request of a peer, as the user has entered it. Nobody
checks that `peerId` is the text of a peer id. -/
structure RemoteFilerequest where
  id : FylesId
  /-- `PeerIdWrapper`. -/
  peerId : String
  /-- The id that the peer has given to the file request. -/
  filerequestId : FylesId
  name : String
  contactId : ContactId
  deriving DecidableEq, Repr

/-- A row of `pending_files`. -/
structure PendingFileRow where
  id : FylesId
  filePath : String
  /-- The row of `remote_filerequests`. -/
  targetFilerequestId : FylesId
  status : StatusTag
  retryCount : ℕ
  progressBytes : Option ℤ
  fileSizeBytes : Option ℤ
  transferId : Option FylesId
  interruptionReasons : List String
  deriving DecidableEq, Repr

namespace PendingFileRow

variable (row : PendingFileRow)

/-- The `CHECK` of `pending_files`. -/
def Check : Prop :=
  match row.status with
  | .pending => row.progressBytes = none ∧ row.fileSizeBytes = none ∧ row.transferId = none
  | .sending | .interrupted =>
    (row.progressBytes.isSome ∧ ∀ n ∈ row.progressBytes, 0 ≤ n) ∧
      (row.fileSizeBytes.isSome ∧ ∀ n ∈ row.fileSizeBytes, 0 ≤ n) ∧ row.transferId.isSome
  | .sent | .rejected | .failed => True

instance (row : PendingFileRow) : Decidable row.Check :=
  match h : row.status with
  | .pending => decidable_of_iff
      (row.progressBytes = none ∧ row.fileSizeBytes = none ∧ row.transferId = none)
      (by rw [Check, h])
  | .sending | .interrupted => decidable_of_iff
      ((row.progressBytes.isSome ∧ ∀ n ∈ row.progressBytes, 0 ≤ n) ∧
        (row.fileSizeBytes.isSome ∧ ∀ n ∈ row.fileSizeBytes, 0 ≤ n) ∧ row.transferId.isSome)
      (by rw [Check, h])
  | .sent | .rejected | .failed => .isTrue (by rw [Check, h]; trivial)

/-- The columns of the transfer hold byte counts. -/
def Counts : Prop := IsCount row.progressBytes ∧ IsCount row.fileSizeBytes

instance (row : PendingFileRow) : Decidable row.Counts :=
  inferInstanceAs (Decidable (_ ∧ _))

theorem counts_of_null {row : PendingFileRow} (hprogress : row.progressBytes = none)
    (hsize : row.fileSizeBytes = none) : row.Counts := by
  rw [Counts, hprogress, hsize]
  exact ⟨isCount_none, isCount_none⟩

/-- The row that `handle_create_pending_files` inserts. -/
def new (id : FylesId) (filePath : String) (target : FylesId) : PendingFileRow where
  id := id
  filePath := filePath
  targetFilerequestId := target
  status := .pending
  retryCount := 0
  progressBytes := none
  fileSizeBytes := none
  transferId := none
  interruptionReasons := []

theorem new_check (id : FylesId) (filePath : String) (target : FylesId) :
    (new id filePath target).Check :=
  ⟨rfl, rfl, rfl⟩

theorem new_counts (id : FylesId) (filePath : String) (target : FylesId) :
    (new id filePath target).Counts :=
  counts_of_null rfl rfl

/-- The status that is read from a row. -/
def readStatus : Option (Except String SendStatus) :=
  match readU64 row.progressBytes, readU64 row.fileSizeBytes with
  | some progressBytes, some fileSizeBytes =>
    some (SendStatus.fromDbColumns row.status progressBytes fileSizeBytes row.transferId)
  | _, _ => none

/-- The status of a row that can be read. -/
def sendStatus : SendStatus :=
  match row.readStatus with
  | some (.ok status) => status
  | _ => .unknown ""

/-- **Every row can be read.** -/
theorem readStatus_eq {row : PendingFileRow} (hcheck : row.Check) (hcounts : row.Counts) :
    row.readStatus = some (.ok row.sendStatus) := by
  have hread : ∃ status, row.readStatus = some (.ok status) := by
    rw [readStatus, readU64_of_isCount hcounts.1, readU64_of_isCount hcounts.2]
    have hdata : row.progressBytes.isSome → row.fileSizeBytes.isSome → row.transferId.isSome →
        ∃ data, columnsTransferData (row.progressBytes.map Int.toNat)
          (row.fileSizeBytes.map Int.toNat) row.transferId = some data := by
      intro hp hs ht
      obtain ⟨p, hp⟩ := Option.isSome_iff_exists.mp hp
      obtain ⟨s, hs⟩ := Option.isSome_iff_exists.mp hs
      obtain ⟨t, ht⟩ := Option.isSome_iff_exists.mp ht
      exact ⟨_, by rw [hp, hs, ht]; rfl⟩
    rw [Check] at hcheck
    cases hst : row.status with
    | pending | sent | rejected | failed => exact ⟨_, rfl⟩
    | sending | interrupted =>
      rw [hst] at hcheck
      obtain ⟨data, hdata⟩ := hdata hcheck.1.1 hcheck.2.1.1 hcheck.2.2
      exact ⟨_, by simp only [SendStatus.fromDbColumns, hdata]; rfl⟩
  obtain ⟨status, hread⟩ := hread
  rw [sendStatus, hread]

/-- The transfer data of the status of a row are those of its columns. -/
theorem transferData_sendStatus {row : PendingFileRow} (hcounts : row.Counts) {data}
    (h : row.sendStatus.transferData = some data) :
    ∃ progress size, row.progressBytes = some progress ∧ row.fileSizeBytes = some size ∧
      data.progressBytes = progress.toNat ∧ data.fileSizeBytes = size.toNat := by
  rw [sendStatus] at h
  split at h
  · next status hread =>
    rw [readStatus, readU64_of_isCount hcounts.1, readU64_of_isCount hcounts.2] at hread
    obtain ⟨hp, hs, -⟩ := columnsTransferData_eq_some
      (SendStatus.transferData_fromDbColumns (Option.some.inj hread) h)
    obtain ⟨progress, hprogress, heq⟩ := Option.map_eq_some_iff.mp hp
    obtain ⟨size, hsize, heq'⟩ := Option.map_eq_some_iff.mp hs
    exact ⟨progress, size, hprogress, hsize, heq.symm, heq'.symm⟩
  · cases h

/-- The columns that `handle_update_pending_file_status` sets. With a retry counter it sets all of
them; without one it leaves those out for which the status has no data. -/
def withStatus (tag : StatusTag) (data : Option TransferData) (retryCount : Option ℕ)
    (row : PendingFileRow) : PendingFileRow :=
  match retryCount, data with
  | some count, data =>
    { row with
      status := tag
      retryCount := count
      progressBytes := data.map fun d => toI64 d.progressBytes
      fileSizeBytes := data.map fun d => toI64 d.fileSizeBytes
      transferId := data.map fun d => d.transferId }
  | none, some data =>
    { row with
      status := tag
      progressBytes := some (toI64 data.progressBytes)
      fileSizeBytes := some (toI64 data.fileSizeBytes)
      transferId := some data.transferId }
  | none, none => { row with status := tag }

section WithStatus

variable {tag : StatusTag} {data : Option TransferData} {retryCount : Option ℕ}
  {row : PendingFileRow}

@[simp] theorem withStatus_id : (row.withStatus tag data retryCount).id = row.id := by
  rw [withStatus.eq_def]
  split <;> rfl

@[simp] theorem withStatus_target :
    (row.withStatus tag data retryCount).targetFilerequestId = row.targetFilerequestId := by
  rw [withStatus.eq_def]
  split <;> rfl

@[simp] theorem withStatus_filePath :
    (row.withStatus tag data retryCount).filePath = row.filePath := by
  rw [withStatus.eq_def]
  split <;> rfl

@[simp] theorem withStatus_status : (row.withStatus tag data retryCount).status = tag := by
  rw [withStatus.eq_def]
  split <;> rfl

end WithStatus

/-- A status with transfer data is one of a transfer under way. -/
theorem tag_of_transferData {status : SendStatus} {tag data} (htag : status.statusTag = .ok tag)
    (hdata : status.transferData = some data) : tag = .sending ∨ tag = .interrupted := by
  cases status with
  | inProgress progress =>
    obtain ⟨stage, data⟩ := progress
    cases stage with
    | prepared | pendingSent => cases htag
    | sending => exact .inl (Except.ok.inj htag).symm
    | interrupted => exact .inr (Except.ok.inj htag).symm
  | _ => cases hdata

/-- The constraint keeps negative numbers out: a row gets new numbers only together with a status
for which they are checked. -/
theorem withStatus_counts {row : PendingFileRow} {status : SendStatus} {tag retryCount}
    (htag : status.statusTag = .ok tag) (hrow : row.Counts)
    (hcheck : (row.withStatus tag status.transferData retryCount).Check) :
    (row.withStatus tag status.transferData retryCount).Counts := by
  cases hdata : status.transferData with
  | some data =>
    have hsigns : (∀ n ∈ (row.withStatus tag (some data) retryCount).progressBytes, 0 ≤ n) ∧
        ∀ n ∈ (row.withStatus tag (some data) retryCount).fileSizeBytes, 0 ≤ n := by
      rw [hdata, Check, withStatus_status] at hcheck
      rcases tag_of_transferData htag hdata with rfl | rfl <;> exact ⟨hcheck.1.2, hcheck.2.1.2⟩
    have hcolumns : (row.withStatus tag (some data) retryCount).progressBytes =
          some (toI64 data.progressBytes) ∧
        (row.withStatus tag (some data) retryCount).fileSizeBytes =
          some (toI64 data.fileSizeBytes) := by
      cases retryCount <;> exact ⟨rfl, rfl⟩
    rw [hcolumns.1, hcolumns.2] at hsigns
    rw [Counts, hcolumns.1, hcolumns.2]
    constructor
    · rintro _ ⟨⟩
      exact ⟨hsigns.1 _ rfl, toI64_lt _⟩
    · rintro _ ⟨⟩
      exact ⟨hsigns.2 _ rfl, toI64_lt _⟩
  | none =>
    cases retryCount with
    | none => exact hrow
    | some count => exact counts_of_null rfl rfl

end PendingFileRow

/-! ### The tables -/

/-- Why a statement on the tables fails. -/
inductive TableError
  | noRows
  | constraint
  /-- A value has no column representation. -/
  | dataConversion (message : String)
  /-- A column does not fit the type that it is read as. -/
  | outOfRange
  deriving DecidableEq, Repr

/-- The two tables, with what SQLite enforces. -/
structure OutgoingTables where
  remoteFilerequests : List RemoteFilerequest
  pendingFiles : List PendingFileRow
  /-- The primary keys. -/
  remote_ids : (remoteFilerequests.map RemoteFilerequest.id).Nodup
  pending_ids : (pendingFiles.map PendingFileRow.id).Nodup
  /-- The foreign key. -/
  references : ∀ row ∈ pendingFiles,
    row.targetFilerequestId ∈ remoteFilerequests.map RemoteFilerequest.id
  checks : ∀ row ∈ pendingFiles, row.Check
  counts : ∀ row ∈ pendingFiles, row.Counts

namespace OutgoingTables

/-- The tables of a new database. -/
def empty : OutgoingTables where
  remoteFilerequests := []
  pendingFiles := []
  remote_ids := List.nodup_nil
  pending_ids := List.nodup_nil
  references _ h := by cases h
  checks _ h := by cases h
  counts _ h := by cases h

/-- The row of a pending file. -/
def row (t : OutgoingTables) (id : FylesId) : Option PendingFileRow :=
  t.pendingFiles.find? fun row => row.id = id

/-- The row of a remote file request: `handle_get_remote_filerequest`. -/
def getRemoteFilerequest (t : OutgoingTables) (id : FylesId) : Option RemoteFilerequest :=
  t.remoteFilerequests.find? fun r => r.id = id

/-- `handle_get_all_remote_filerequests`. -/
def getAllRemoteFilerequests (t : OutgoingTables) : List RemoteFilerequest := t.remoteFilerequests

/-! ### Statements on remote file requests -/

/-- `handle_create_remote_filerequest`, for the id that is drawn. -/
def createRemoteFilerequest (t : OutgoingTables) (r : RemoteFilerequest) :
    Except TableError OutgoingTables :=
  if h : r.id ∈ t.remoteFilerequests.map RemoteFilerequest.id then .error .constraint
  else .ok {
    t with
    remoteFilerequests := t.remoteFilerequests ++ [r]
    remote_ids := by
      rw [List.map_append]
      refine List.nodup_append.mpr ⟨t.remote_ids, List.nodup_singleton _, ?_⟩
      rintro a ha b hb rfl
      rw [List.mem_singleton.mp hb] at ha
      exact h ha
    references := fun row hrow => by
      rw [List.map_append]
      exact List.mem_append_left _ (t.references row hrow) }

/-- `handle_update_remote_filerequest`, which changes the name only. -/
def updateRemoteFilerequest (t : OutgoingTables) (id : FylesId) (name : String) : OutgoingTables :=
  have hmap : (t.remoteFilerequests.map fun r => if r.id = id then { r with name } else r).map
      RemoteFilerequest.id = t.remoteFilerequests.map RemoteFilerequest.id := by
    rw [List.map_map]
    refine List.map_congr_left fun r _ => ?_
    simp only [Function.comp_apply]
    split <;> rfl
  { t with
    remoteFilerequests := t.remoteFilerequests.map fun r => if r.id = id then { r with name } else r
    remote_ids := hmap ▸ t.remote_ids
    references := fun row hrow => hmap ▸ t.references row hrow }

/-- `handle_delete_remote_filerequest`. The pending files of the row are deleted with it. -/
def deleteRemoteFilerequest (t : OutgoingTables) (id : FylesId) : OutgoingTables where
  remoteFilerequests := t.remoteFilerequests.filter fun r => r.id ≠ id
  pendingFiles := t.pendingFiles.filter fun row => row.targetFilerequestId ≠ id
  remote_ids := t.remote_ids.sublist (List.filter_sublist.map _)
  pending_ids := t.pending_ids.sublist (List.filter_sublist.map _)
  references row hrow := by
    obtain ⟨hrow, hne⟩ := List.mem_filter.mp hrow
    obtain ⟨r, hr, heq⟩ := List.mem_map.mp (t.references row hrow)
    refine List.mem_map.mpr ⟨r, List.mem_filter.mpr ⟨hr, ?_⟩, heq⟩
    rw [heq]
    exact hne
  checks row hrow := t.checks row (List.mem_of_mem_filter hrow)
  counts row hrow := t.counts row (List.mem_of_mem_filter hrow)

/-! ### Statements on pending files -/

variable {f : PendingFileRow → PendingFileRow}

/-- One of the inserts of `handle_create_pending_files`. -/
def insertPendingFile (t : OutgoingTables) (id : FylesId) (filePath : String) (target : FylesId) :
    Except TableError OutgoingTables :=
  if h : id ∉ t.pendingFiles.map PendingFileRow.id ∧
      target ∈ t.remoteFilerequests.map RemoteFilerequest.id then
    .ok {
      t with
      pendingFiles := t.pendingFiles ++ [.new id filePath target]
      pending_ids := by
        rw [List.map_append]
        refine List.nodup_append.mpr ⟨t.pending_ids, List.nodup_singleton _, ?_⟩
        rintro a ha b hb rfl
        rw [List.mem_singleton.mp hb] at ha
        exact h.1 ha
      references := List.forall_mem_append.mpr ⟨t.references, List.forall_mem_singleton.mpr h.2⟩
      checks := List.forall_mem_append.mpr
        ⟨t.checks, List.forall_mem_singleton.mpr (PendingFileRow.new_check id filePath target)⟩
      counts := List.forall_mem_append.mpr
        ⟨t.counts, List.forall_mem_singleton.mpr (PendingFileRow.new_counts id filePath target)⟩ }
  else .error .constraint

/-- `handle_create_pending_files`, for the ids that are drawn: one transaction. -/
def createPendingFiles (t : OutgoingTables) (target : FylesId) :
    List (FylesId × String) → Except TableError OutgoingTables
  | [] => .ok t
  | (id, filePath) :: files =>
    match t.insertPendingFile id filePath target with
    | .error e => .error e
    | .ok t => t.createPendingFiles target files

/-- `handle_delete_pending_file`. -/
def deletePendingFile (t : OutgoingTables) (id : FylesId) : OutgoingTables where
  remoteFilerequests := t.remoteFilerequests
  pendingFiles := t.pendingFiles.filter fun row => row.id ≠ id
  remote_ids := t.remote_ids
  pending_ids := t.pending_ids.sublist (List.filter_sublist.map _)
  references row hrow := t.references row (List.mem_of_mem_filter hrow)
  checks row hrow := t.checks row (List.mem_of_mem_filter hrow)
  counts row hrow := t.counts row (List.mem_of_mem_filter hrow)

/-- The rows after an update of one of them. -/
def updated (rows : List PendingFileRow) (id : FylesId) (f : PendingFileRow → PendingFileRow) :
    List PendingFileRow :=
  rows.map fun row => if row.id = id then f row else row

/-- A row after the update. -/
theorem mem_updated {rows id row'} (h : row' ∈ updated rows id f) :
    (row' ∈ rows ∧ row'.id ≠ id) ∨ ∃ row ∈ rows, row.id = id ∧ row' = f row := by
  obtain ⟨row, hrow, heq⟩ := List.mem_map.mp h
  split at heq
  · next hid => exact .inr ⟨row, hrow, hid, heq.symm⟩
  · next hid =>
    subst heq
    exact .inl ⟨hrow, hid⟩

theorem ids_updated {rows id} (hid : ∀ row, (f row).id = row.id) :
    (updated rows id f).map PendingFileRow.id = rows.map PendingFileRow.id := by
  rw [updated, List.map_map]
  refine List.map_congr_left fun row _ => ?_
  simp only [Function.comp_apply]
  split
  · exact hid row
  · rfl

/-- An `UPDATE` of one row that changes neither its key nor its reference. -/
def updateRow (t : OutgoingTables) (id : FylesId) (f : PendingFileRow → PendingFileRow)
    (hid : ∀ row, (f row).id = row.id)
    (htarget : ∀ row, (f row).targetFilerequestId = row.targetFilerequestId)
    (hcounts : ∀ row, row.Counts → (f row).Check → (f row).Counts) :
    Except TableError (FylesId × OutgoingTables) :=
  match t.row id with
  | none => .error .noRows
  | some row =>
    if h : ∀ row ∈ t.pendingFiles, row.id = id → (f row).Check then
      .ok (row.targetFilerequestId, {
        t with
        pendingFiles := updated t.pendingFiles id f
        pending_ids := by
          rw [ids_updated hid]
          exact t.pending_ids
        references := fun row' hrow' => by
          rcases mem_updated hrow' with ⟨hrow, -⟩ | ⟨row, hrow, -, rfl⟩
          · exact t.references row' hrow
          · rw [htarget]
            exact t.references row hrow
        checks := fun row' hrow' => by
          rcases mem_updated hrow' with ⟨hrow, -⟩ | ⟨row, hrow, heq, rfl⟩
          · exact t.checks row' hrow
          · exact h row hrow heq
        counts := fun row' hrow' => by
          rcases mem_updated hrow' with ⟨hrow, -⟩ | ⟨row, hrow, heq, rfl⟩
          · exact t.counts row' hrow
          · exact hcounts row (t.counts row hrow) (h row hrow heq) })
    else .error .constraint

/-- `handle_update_pending_file_status`. Returns the remote file request of the file. -/
def updatePendingFileStatus (t : OutgoingTables) (id : FylesId) (status : SendStatus)
    (retryCount : Option ℕ) : Except TableError (FylesId × OutgoingTables) :=
  match htag : status.statusTag with
  | .error e => .error (.dataConversion ("Failed to convert status to tag: " ++ e))
  | .ok tag =>
    t.updateRow id (PendingFileRow.withStatus tag status.transferData retryCount)
      (fun _ => PendingFileRow.withStatus_id) (fun _ => PendingFileRow.withStatus_target)
      (fun _ => PendingFileRow.withStatus_counts htag)

/-- `handle_add_interruption_reason`. -/
def addInterruptionReason (t : OutgoingTables) (id : FylesId) (reason : String) :
    Except TableError (FylesId × OutgoingTables) :=
  t.updateRow id
    (fun row => { row with interruptionReasons := row.interruptionReasons ++ [reason] })
    (fun _ => rfl) (fun _ => rfl) (fun _ h _ => h)

/-- `handle_count_non_terminal_pending_files_for_path`: the other files with the path of a file for
which something is to be done. -/
def countNonTerminalPendingFilesForPath (t : OutgoingTables) (id : FylesId) : ℕ :=
  match t.row id with
  | none => 0
  | some row => t.pendingFiles.countP fun other =>
      other.filePath = row.filePath && other.id ≠ id && !other.status.isTerminal

/-! ### Reading pending files -/

/-- The file of a row and its remote file request. The contact is that of the remote file
request. -/
def readPendingFile (row : PendingFileRow) (r : RemoteFilerequest) :
    Except TableError PendingFile :=
  match row.readStatus with
  | none => .error .outOfRange
  | some (.error e) => .error (.dataConversion ("Failed to parse send status: " ++ e))
  | some (.ok status) =>
    .ok ⟨row.id, r.contactId, row.filePath, row.retryCount, row.targetFilerequestId, status⟩

/-- `handle_get_pending_file`. -/
def getPendingFile (t : OutgoingTables) (id : FylesId) : Except TableError PendingFile :=
  match t.row id with
  | none => .error .noRows
  | some row =>
    match t.getRemoteFilerequest row.targetFilerequestId with
    | none => .error .noRows
    | some r => readPendingFile row r

/-- The rows of `pending_files`, joined with their remote file requests. -/
def joined (t : OutgoingTables) : List (PendingFileRow × RemoteFilerequest) :=
  t.pendingFiles.filterMap fun row =>
    (t.getRemoteFilerequest row.targetFilerequestId).map fun r => (row, r)

/-- `handle_get_all_pending_files`. -/
def getAllPendingFiles (t : OutgoingTables) : Except TableError (List PendingFile) :=
  t.joined.mapM fun p => readPendingFile p.1 p.2

/-! ### Looking rows up -/

variable {t t' : OutgoingTables} {id : FylesId} {row : PendingFileRow}

theorem mem_of_row (h : t.row id = some row) : row ∈ t.pendingFiles ∧ row.id = id :=
  ⟨List.mem_of_find?_eq_some h, by simpa using List.find?_some h⟩

/-- A row is found by its key. -/
theorem row_of_mem (h : row ∈ t.pendingFiles) : t.row row.id = some row := by
  have hkey : ∀ {a b : PendingFileRow}, a ∈ t.pendingFiles → b ∈ t.pendingFiles → a.id = b.id →
      a = b := fun ha hb => List.inj_on_of_nodup_map t.pending_ids ha hb
  cases hfound : t.row row.id with
  | none =>
    have hnone := List.find?_eq_none.mp hfound row h
    simp at hnone
  | some row' =>
    obtain ⟨hmem, hid⟩ := mem_of_row hfound
    rw [hkey hmem h hid]

theorem row_iff : t.row id = some row ↔ row ∈ t.pendingFiles ∧ row.id = id := by
  refine ⟨mem_of_row, ?_⟩
  rintro ⟨hmem, rfl⟩
  exact row_of_mem hmem

theorem row_eq_none : t.row id = none ↔ id ∉ t.pendingFiles.map PendingFileRow.id := by
  rw [row, List.find?_eq_none]
  simp only [decide_eq_true_eq, List.mem_map, not_exists, not_and]

theorem mem_of_getRemoteFilerequest {r} (h : t.getRemoteFilerequest id = some r) :
    r ∈ t.remoteFilerequests ∧ r.id = id :=
  ⟨List.mem_of_find?_eq_some h, by simpa using List.find?_some h⟩

/-- The remote file request of a pending file exists. -/
theorem exists_remote (h : row ∈ t.pendingFiles) :
    ∃ r, t.getRemoteFilerequest row.targetFilerequestId = some r := by
  refine Option.isSome_iff_exists.mp (List.find?_isSome.mpr ?_)
  obtain ⟨r, hr, heq⟩ := List.mem_map.mp (t.references row h)
  exact ⟨r, hr, by simpa using heq⟩

/-! ### What the statements do -/

variable {target : FylesId}

/-- What an update does: it changes the columns of the row, or fails. -/
theorem updateRow_cases {hid htarget hcounts} (t : OutgoingTables) (id : FylesId) :
    (t.row id = none ∧ t.updateRow id f hid htarget hcounts = .error .noRows) ∨
    ∃ row, t.row id = some row ∧
      ((¬ (f row).Check ∧ t.updateRow id f hid htarget hcounts = .error .constraint) ∨
        ((f row).Check ∧ ∃ t', t.updateRow id f hid htarget hcounts =
          .ok (row.targetFilerequestId, t') ∧ t'.remoteFilerequests = t.remoteFilerequests ∧
          t'.pendingFiles = updated t.pendingFiles id f)) := by
  rw [updateRow]
  cases hrow : t.row id with
  | none => exact .inl ⟨rfl, rfl⟩
  | some row =>
    refine .inr ⟨row, rfl, ?_⟩
    have hsole : ∀ row' ∈ t.pendingFiles, row'.id = id → row' = row := by
      intro row' hmem hid'
      exact Option.some.inj ((row_iff.mpr ⟨hmem, hid'⟩).symm.trans hrow)
    dsimp only
    split
    · next hcheck =>
      obtain ⟨hmem, hid'⟩ := mem_of_row hrow
      exact .inr ⟨hcheck row hmem hid', _, rfl, rfl, rfl⟩
    · next hcheck =>
      refine .inl ⟨fun hok => hcheck fun row' hmem hid' => ?_, rfl⟩
      rw [hsole row' hmem hid']
      exact hok

/-- **What a status report does to the tables.** It fails because the status must not be stored,
because there is no row, or because the `CHECK` does not hold; otherwise it changes the columns of
the row. -/
theorem updatePendingFileStatus_cases (t : OutgoingTables) (id : FylesId) (status : SendStatus)
    (retryCount : Option ℕ) :
    (∃ e, status.statusTag = .error e ∧ t.updatePendingFileStatus id status retryCount =
      .error (.dataConversion ("Failed to convert status to tag: " ++ e))) ∨
    ∃ tag, status.statusTag = .ok tag ∧
      ((t.row id = none ∧ t.updatePendingFileStatus id status retryCount = .error .noRows) ∨
      ∃ row, t.row id = some row ∧
        ((¬ (row.withStatus tag status.transferData retryCount).Check ∧
          t.updatePendingFileStatus id status retryCount = .error .constraint) ∨
        ((row.withStatus tag status.transferData retryCount).Check ∧
          ∃ t', t.updatePendingFileStatus id status retryCount =
            .ok (row.targetFilerequestId, t') ∧ t'.remoteFilerequests = t.remoteFilerequests ∧
            t'.pendingFiles = updated t.pendingFiles id
              (PendingFileRow.withStatus tag status.transferData retryCount)))) := by
  rw [updatePendingFileStatus]
  split
  · next e htag => exact .inl ⟨e, htag, rfl⟩
  · next tag htag => exact .inr ⟨tag, htag, updateRow_cases t id⟩

/-- The same for a report that is stored. -/
theorem updatePendingFileStatus_ok {status retryCount}
    (h : t.updatePendingFileStatus id status retryCount = .ok (target, t')) :
    ∃ tag row, status.statusTag = .ok tag ∧ t.row id = some row ∧
      t'.remoteFilerequests = t.remoteFilerequests ∧ t'.pendingFiles = updated t.pendingFiles id
        (PendingFileRow.withStatus tag status.transferData retryCount) := by
  rcases updatePendingFileStatus_cases t id status retryCount with
    ⟨e, -, herror⟩ |
    ⟨tag, htag, ⟨-, herror⟩ | ⟨row, hrow, ⟨-, herror⟩ | ⟨-, t₁, hok, hremote, hrows⟩⟩⟩
  · cases h.symm.trans herror
  · cases h.symm.trans herror
  · cases h.symm.trans herror
  · obtain ⟨-, rfl⟩ := Prod.mk.inj (Except.ok.inj (h.symm.trans hok))
    exact ⟨tag, row, htag, hrow, hremote, hrows⟩

theorem addInterruptionReason_ok {reason : String}
    (h : t.addInterruptionReason id reason = .ok (target, t')) :
    t'.remoteFilerequests = t.remoteFilerequests ∧
      t'.pendingFiles = updated t.pendingFiles id fun row =>
        { row with interruptionReasons := row.interruptionReasons ++ [reason] } := by
  rcases updateRow_cases t id (f := fun row =>
      { row with interruptionReasons := row.interruptionReasons ++ [reason] }) with
    ⟨-, herror⟩ | ⟨row, -, ⟨-, herror⟩ | ⟨-, t₁, hok, hremote, hrows⟩⟩
  · cases h.symm.trans herror
  · cases h.symm.trans herror
  · obtain ⟨-, rfl⟩ := Prod.mk.inj (Except.ok.inj (h.symm.trans hok))
    exact ⟨hremote, hrows⟩

/-- What holds for all rows and is kept by an update holds for all rows afterwards. -/
theorem forall_updated {P : PendingFileRow → Prop}
    (hrows : t'.pendingFiles = updated t.pendingFiles id f) (h : ∀ row ∈ t.pendingFiles, P row)
    (hf : ∀ row ∈ t.pendingFiles, P row → P (f row)) : ∀ row ∈ t'.pendingFiles, P row := by
  intro row' hrow'
  rw [hrows] at hrow'
  rcases mem_updated hrow' with ⟨hrow, -⟩ | ⟨row, hrow, -, rfl⟩
  · exact h row' hrow
  · exact hf row hrow (h row hrow)

/-- The rows after an update, by key. -/
theorem row_updated (hid : ∀ row, (f row).id = row.id)
    (h : t'.pendingFiles = updated t.pendingFiles id f) (id' : FylesId) :
    t'.row id' = (t.row id').map fun row => if id' = id then f row else row := by
  cases hrow : t.row id' with
  | none =>
    refine row_eq_none.mpr ?_
    rw [h, ids_updated hid]
    exact row_eq_none.mp hrow
  | some row =>
    obtain ⟨hmem, rfl⟩ := mem_of_row hrow
    have hmem' : (if row.id = id then f row else row) ∈ t'.pendingFiles := by
      rw [h]
      exact List.mem_map_of_mem hmem
    refine row_iff.mpr ⟨hmem', ?_⟩
    split
    · exact hid row
    · rfl

theorem row_deletePendingFile (t : OutgoingTables) (id id' : FylesId) :
    (t.deletePendingFile id).row id' = if id' = id then none else t.row id' := by
  split
  · next heq =>
    rw [row_eq_none, heq]
    intro hmem
    obtain ⟨row, hrow, hid⟩ := List.mem_map.mp hmem
    have hne := (List.mem_filter.mp hrow).2
    rw [hid] at hne
    simp at hne
  · next hne =>
    refine Option.ext fun row => ?_
    rw [row_iff, row_iff]
    constructor
    · rintro ⟨hmem, rfl⟩
      exact ⟨List.mem_of_mem_filter hmem, rfl⟩
    · rintro ⟨hmem, rfl⟩
      exact ⟨List.mem_filter.mpr ⟨hmem, by simpa using hne⟩, rfl⟩

theorem row_deleteRemoteFilerequest (t : OutgoingTables) (id id' : FylesId) :
    (t.deleteRemoteFilerequest id).row id' =
      (t.row id').filter fun row => row.targetFilerequestId ≠ id := by
  refine Option.ext fun row => ?_
  rw [row_iff, Option.filter_eq_some_iff, row_iff]
  constructor
  · rintro ⟨hmem, hid⟩
    obtain ⟨hmem, hne⟩ := List.mem_filter.mp hmem
    exact ⟨⟨hmem, hid⟩, hne⟩
  · rintro ⟨⟨hmem, hid⟩, hne⟩
    exact ⟨List.mem_filter.mpr ⟨hmem, hne⟩, hid⟩

theorem createRemoteFilerequest_ok {r} (h : t.createRemoteFilerequest r = .ok t') :
    r.id ∉ t.remoteFilerequests.map RemoteFilerequest.id ∧
      t'.remoteFilerequests = t.remoteFilerequests ++ [r] ∧ t'.pendingFiles = t.pendingFiles := by
  rw [createRemoteFilerequest] at h
  split at h
  · cases h
  · next hfresh =>
    obtain rfl := Except.ok.inj h
    exact ⟨hfresh, rfl, rfl⟩

/-- A remote file request may get another name. -/
theorem getRemoteFilerequest_update (t : OutgoingTables) (id id' : FylesId) (name : String) :
    (t.updateRemoteFilerequest id name).getRemoteFilerequest id' =
      (t.getRemoteFilerequest id').map fun r => if r.id = id then { r with name } else r := by
  have hkey : ((fun r : RemoteFilerequest => decide (r.id = id')) ∘
      fun r : RemoteFilerequest => if r.id = id then { r with name } else r) =
      fun r => decide (r.id = id') := by
    funext r
    simp only [Function.comp_apply]
    split <;> rfl
  rw [getRemoteFilerequest, updateRemoteFilerequest, List.find?_map, hkey, getRemoteFilerequest]

/-- What inserting a row does. -/
theorem insertPendingFile_cases (t : OutgoingTables) (id : FylesId) (filePath : String)
    (target : FylesId) :
    t.insertPendingFile id filePath target = .error .constraint ∨
    (t.row id = none ∧ ∃ t', t.insertPendingFile id filePath target = .ok t' ∧
      t'.remoteFilerequests = t.remoteFilerequests ∧
      t'.pendingFiles = t.pendingFiles ++ [.new id filePath target]) := by
  rw [insertPendingFile]
  split
  · next h => exact .inr ⟨row_eq_none.mpr h.1, _, rfl, rfl, rfl⟩
  · exact .inl rfl

/-- **What creating pending files does**: it inserts a new row for each of them, or nothing. -/
theorem createPendingFiles_ok {files} (h : t.createPendingFiles target files = .ok t') :
    t'.remoteFilerequests = t.remoteFilerequests ∧
    t'.pendingFiles = t.pendingFiles ++ files.map fun f => .new f.1 f.2 target := by
  induction files generalizing t with
  | nil =>
    obtain rfl := Except.ok.inj h
    exact ⟨rfl, by simp⟩
  | cons file files ih =>
    obtain ⟨id, filePath⟩ := file
    rw [createPendingFiles] at h
    rcases insertPendingFile_cases t id filePath target with
      hfail | ⟨-, t₁, hok, hremote, hpending⟩
    · rw [hfail] at h
      cases h
    · rw [hok] at h
      obtain ⟨hremote', hpending'⟩ := ih h
      refine ⟨hremote'.trans hremote, ?_⟩
      rw [hpending', hpending, List.map_cons, List.append_assoc, List.singleton_append]

/-- The keys of the new rows are new. -/
theorem row_of_createPendingFiles {files} (h : t.createPendingFiles target files = .ok t') {f}
    (hf : f ∈ files) : t.row f.1 = none := by
  obtain ⟨-, hrows⟩ := createPendingFiles_ok h
  have hids := t'.pending_ids
  rw [hrows, List.map_append, List.nodup_append] at hids
  rw [row_eq_none]
  intro hmem
  exact hids.2.2 f.1 hmem f.1 (List.mem_map.mpr ⟨_, List.mem_map_of_mem hf, rfl⟩) rfl

/-- The file of a row. -/
def pendingFileOf (row : PendingFileRow) (r : RemoteFilerequest) : PendingFile :=
  ⟨row.id, r.contactId, row.filePath, row.retryCount, row.targetFilerequestId, row.sendStatus⟩

theorem readPendingFile_eq (h : row ∈ t.pendingFiles) (r : RemoteFilerequest) :
    readPendingFile row r = .ok (pendingFileOf row r) := by
  rw [readPendingFile, PendingFileRow.readStatus_eq (t.checks row h) (t.counts row h)]
  rfl

/-- A file that is looked up. -/
theorem getPendingFile_ok {file} (h : t.getPendingFile id = .ok file) :
    ∃ row r, t.row id = some row ∧ file = pendingFileOf row r := by
  rw [getPendingFile] at h
  cases hrow : t.row id with
  | none =>
    rw [hrow] at h
    cases h
  | some row =>
    rw [hrow] at h
    obtain ⟨hmem, -⟩ := mem_of_row hrow
    obtain ⟨r, hr⟩ := exists_remote hmem
    simp only [hr, readPendingFile_eq hmem] at h
    exact ⟨row, r, rfl, (Except.ok.inj h).symm⟩

/-- **All rows can be read.** -/
theorem getAllPendingFiles_eq (t : OutgoingTables) :
    t.getAllPendingFiles = .ok (t.joined.map fun p => pendingFileOf p.1 p.2) := by
  have hread : ∀ p ∈ t.joined, readPendingFile p.1 p.2 = .ok (pendingFileOf p.1 p.2) := by
    intro p hp
    obtain ⟨row, hrow, hmap⟩ := List.mem_filterMap.mp hp
    obtain ⟨r, -, rfl⟩ := Option.map_eq_some_iff.mp hmap
    exact readPendingFile_eq hrow r
  rw [getAllPendingFiles]
  generalize t.joined = pairs at hread
  induction pairs with
  | nil => rfl
  | cons p pairs ih =>
    rw [List.mapM_cons, hread p List.mem_cons_self,
      ih fun q hq => hread q (List.mem_cons_of_mem p hq)]
    rfl

end OutgoingTables

end Fyles
