import Fyles.ContactStore
import Fyles.PartFiles

/-!
# The tables of incoming files

The tables `filerequests` and `received_files` (`core/src/library/sqlite/schema.rs`), the statements
on them (`core/src/library/sqlite/actor.rs`), and what the brain reads from them for the receiver
(`core/src/core/brain/handle_action.rs`).

The tables carry what SQLite enforces: the primary keys, that a transfer has one row, and that the
file request of a row exists; deleting a file request deletes its rows. No statement looks at the
status that a row has, except for the one that lists the stale rows. Titles and descriptions of
file requests are left out. Bytes are stored with `as i64` and read with `as u64`, so a number comes
back as it was.

## Main results

* `IncomingTables.row_update`, `IncomingTables.row_insert`, `IncomingTables.row_filter` — the row of
  a transfer after a statement
-/

namespace Fyles

open PartFiles

/-! ### Rows -/

/-- The status of a row of `received_files`. -/
inductive ReceivedTag
  | receiving
  | interrupted
  | completed
  | failed
  deriving DecidableEq, Repr

/-- `status_tag`. -/
def ReceiveStatus.statusTag : ReceiveStatus → ReceivedTag
  | .receiving => .receiving
  | .failed => .failed

/-- A row of `received_files`. -/
structure ReceivedFile where
  id : FylesId
  contactId : Option ContactId
  peerId : PeerId
  filerequestId : FylesId
  /-- Rows that are older than the column have none. -/
  transferId : Option FylesId
  fileName : String
  filePath : Option String
  fileSizeBytes : ℕ
  progressBytes : ℕ
  status : ReceivedTag
  startedAtMs : ℤ
  receivedAtMs : Option ℤ
  deriving DecidableEq, Repr

/-- The row that `handle_create_incoming_file` inserts. -/
def ReceivedFile.new (id filerequestId transferId : FylesId) (contactId : Option ContactId)
    (peerId : PeerId) (fileName : String) (fileSizeBytes : ℕ) (startedAtMs : ℤ) : ReceivedFile where
  id := id
  contactId := contactId
  peerId := peerId
  filerequestId := filerequestId
  transferId := some transferId
  fileName := fileName
  filePath := none
  fileSizeBytes := fileSizeBytes
  progressBytes := 0
  status := .receiving
  startedAtMs := startedAtMs
  receivedAtMs := none

/-- The columns that `handle_update_received_file_status` sets. -/
def ReceivedFile.withStatus (status : ReceivedTag) (progressBytes : ℕ) (row : ReceivedFile) :
    ReceivedFile :=
  { row with
    status := status
    progressBytes := progressBytes }

/-- The columns that `handle_complete_received_file` sets. -/
def ReceivedFile.complete (filePath : String) (receivedAtMs : ℤ) (row : ReceivedFile) :
    ReceivedFile :=
  { row with
    filePath := some filePath
    receivedAtMs := some receivedAtMs
    status := .completed }

/-! ### Tables -/

/-- The tables. -/
@[ext] structure IncomingTables where
  /-- The file requests with their audiences, by their ids. -/
  filerequests : AList fun _ : FylesId => Filerequest
  receivedFiles : List ReceivedFile
  /-- The primary key. -/
  ids_nodup : (receivedFiles.map ReceivedFile.id).Nodup
  /-- `UNIQUE`; a row without a transfer id does not count. -/
  transferIds_nodup : (receivedFiles.filterMap ReceivedFile.transferId).Nodup
  /-- The foreign key. -/
  references : ∀ row ∈ receivedFiles, row.filerequestId ∈ filerequests

namespace IncomingTables

variable (t : IncomingTables)

/-- No file request, and nothing received. -/
def empty : IncomingTables := ⟨∅, [], .nil, .nil, fun _ h => nomatch h⟩

/-- `handle_get_filerequest`. -/
def filerequest (id : FylesId) : Option Filerequest := t.filerequests.lookup id

/-- `handle_get_received_file_by_transfer_id`. -/
def row (transferId : FylesId) : Option ReceivedFile :=
  t.receivedFiles.find? fun row => row.transferId = some transferId

/-- Whether a row may be inserted. -/
def canInsert (id transferId filerequestId : FylesId) : Bool :=
  decide (id ∉ t.receivedFiles.map ReceivedFile.id) && (t.row transferId).isNone &&
    decide (filerequestId ∈ t.filerequests)

variable {transferId : FylesId}

theorem row_eq_none {t : IncomingTables} :
    t.row transferId = none ↔ transferId ∉ t.receivedFiles.filterMap ReceivedFile.transferId := by
  rw [row, List.find?_eq_none]
  simp only [decide_eq_true_eq, List.mem_filterMap, not_exists, not_and]

variable {row : ReceivedFile}

theorem transferId_of_row {t : IncomingTables}
    (h : t.row transferId = some row) : row.transferId = some transferId := by
  have hfound := List.find?_some h
  exact of_decide_eq_true hfound

/-- A transfer id leads to its row. -/
theorem row_of_mem {t : IncomingTables}
    (hrow : row ∈ t.receivedFiles) (hid : row.transferId = some transferId) :
    t.row transferId = some row := by
  have aux : ∀ rows : List ReceivedFile, (rows.filterMap ReceivedFile.transferId).Nodup →
      row ∈ rows → rows.find? (fun row => row.transferId = some transferId) = some row := by
    intro rows hnodup hrow
    induction rows with
    | nil => cases hrow
    | cons first rest ih =>
      rw [List.find?_cons]
      obtain rfl | hrest := List.mem_cons.mp hrow
      · rw [decide_eq_true hid]
      · have hne : first.transferId ≠ some transferId := by
          intro hfirst
          rw [List.filterMap_cons_some hfirst, List.nodup_cons, List.mem_filterMap] at hnodup
          exact hnodup.1 ⟨row, hrest, hid⟩
        rw [decide_eq_false hne]
        refine ih ?_ hrest
        rw [List.filterMap_cons] at hnodup
        split at hnodup
        · exact hnodup
        · exact (List.nodup_cons.mp hnodup).2
  exact aux t.receivedFiles t.transferIds_nodup hrow

/-! ### Inserting -/

variable {id : FylesId}

/-- `handle_create_incoming_file`. -/
def createIncomingFile (id filerequestId transferId : FylesId) (contactId : Option ContactId)
    (peerId : PeerId) (fileName : String) (fileSizeBytes : ℕ) (startedAtMs : ℤ) :
    Option IncomingTables :=
  if h : t.canInsert id transferId filerequestId = true then
    some { t with
      receivedFiles := t.receivedFiles ++ [.new id filerequestId transferId contactId peerId
        fileName fileSizeBytes startedAtMs]
      ids_nodup := by
        rw [canInsert, Bool.and_eq_true, Bool.and_eq_true, decide_eq_true_eq] at h
        rw [List.map_append]
        exact t.ids_nodup.append (List.nodup_singleton _)
          (by simpa [ReceivedFile.new, List.disjoint_singleton] using h.1.1)
      transferIds_nodup := by
        rw [canInsert, Bool.and_eq_true, Bool.and_eq_true, Option.isNone_iff_eq_none,
          row_eq_none] at h
        rw [List.filterMap_append]
        refine t.transferIds_nodup.append (List.nodup_singleton transferId) ?_
        exact List.disjoint_singleton.mpr h.1.2
      references := by
        rw [canInsert, Bool.and_eq_true, decide_eq_true_eq] at h
        intro row hrow
        obtain hold | hnew := List.mem_append.mp hrow
        · exact t.references row hold
        · obtain rfl := List.mem_singleton.mp hnew
          exact h.2 }
  else none

/-- The row of a transfer after an insertion. -/
theorem row_insert {t t' : IncomingTables} {filerequestId contactId peerId} {fileName : String}
    {fileSizeBytes : ℕ} {startedAtMs : ℤ}
    (h : t.createIncomingFile id filerequestId transferId contactId peerId
      fileName fileSizeBytes startedAtMs = some t') :
    t.row transferId = none ∧ (∃ row, t'.row transferId = some row ∧ row.status = .receiving) ∧
    ∀ other ≠ transferId, t'.row other = t.row other := by
  rw [createIncomingFile] at h
  split at h
  · next hinsert =>
    rw [canInsert, Bool.and_eq_true, Bool.and_eq_true, Option.isNone_iff_eq_none] at hinsert
    obtain ⟨⟩ := h
    refine ⟨hinsert.1.2, ⟨_, row_of_mem (List.mem_append_right _ (List.mem_singleton_self _)) rfl,
      rfl⟩, fun other hother => ?_⟩
    rw [row, row, List.find?_append]
    have hnot : ¬ (some transferId = some other) := fun heq => hother (Option.some.inj heq).symm
    simp [ReceivedFile.new, hnot]
  · cases h

/-- Inserting works if it is allowed. -/
theorem createIncomingFile_isSome {t : IncomingTables} {filerequestId}
    (h : t.canInsert id transferId filerequestId = true) (contactId : Option ContactId)
    (peerId : PeerId) (fileName : String) (fileSizeBytes : ℕ) (startedAtMs : ℤ) :
    ∃ t', t.createIncomingFile id filerequestId transferId contactId peerId fileName fileSizeBytes
      startedAtMs = some t' :=
  ⟨_, dif_pos h⟩

/-! ### Updating -/

/-- What no update changes. -/
def KeepsKeys (f : ReceivedFile → ReceivedFile) : Prop :=
  ∀ row, (f row).id = row.id ∧ (f row).transferId = row.transferId ∧
    (f row).filerequestId = row.filerequestId

theorem keepsKeys_withStatus {status} {progressBytes : ℕ} :
    KeepsKeys (.withStatus status progressBytes) :=
  fun _ => ⟨rfl, rfl, rfl⟩

theorem keepsKeys_complete {filePath : String} {receivedAtMs : ℤ} :
    KeepsKeys (.complete filePath receivedAtMs) :=
  fun _ => ⟨rfl, rfl, rfl⟩

/-- Change the row of a transfer. -/
def update (transferId : FylesId) (f : ReceivedFile → ReceivedFile) (hf : KeepsKeys f) :
    IncomingTables where
  filerequests := t.filerequests
  receivedFiles := t.receivedFiles.map fun row =>
    if row.transferId = some transferId then f row else row
  ids_nodup := by
    rw [List.map_map]
    refine (List.map_congr_left fun row _ => ?_ : _ = t.receivedFiles.map _) ▸ t.ids_nodup
    dsimp only [Function.comp]
    split
    · exact (hf row).1.symm
    · rfl
  transferIds_nodup := by
    rw [List.filterMap_map]
    refine (List.filterMap_congr fun row _ => ?_ : _ = t.receivedFiles.filterMap _) ▸
      t.transferIds_nodup
    dsimp only [Function.comp]
    split
    · exact (hf row).2.1.symm
    · rfl
  references := by
    intro row' hrow'
    obtain ⟨row, hrow, rfl⟩ := List.mem_map.mp hrow'
    split
    · rw [(hf row).2.2]
      exact t.references row hrow
    · exact t.references row hrow

/-- The row of a transfer after an update. -/
theorem row_update {t : IncomingTables} {f : ReceivedFile → ReceivedFile}
    (hf : KeepsKeys f) (other : FylesId) : (t.update transferId f hf).row other =
      (t.row other).map fun row => if other = transferId then f row else row := by
  rw [row, row, update, List.find?_map]
  have hkey : (fun row : ReceivedFile => decide (row.transferId = some other)) ∘
      (fun row => if row.transferId = some transferId then f row else row) =
      fun row => decide (row.transferId = some other) := by
    funext row
    dsimp only [Function.comp]
    split
    · rw [(hf row).2.1]
    · rfl
  rw [hkey]
  cases hrow : t.receivedFiles.find? fun row => decide (row.transferId = some other) with
  | none => rfl
  | some row =>
    have hid : row.transferId = some other := transferId_of_row hrow
    simp only [Option.map_some, hid, Option.some.injEq]

/-- `handle_update_received_file_status`, or `none` if there is no row. -/
def updateReceivedFileStatus (transferId : FylesId) (status : ReceivedTag) (progressBytes : ℕ) :
    Option IncomingTables :=
  if (t.row transferId).isSome then
    some (t.update transferId (.withStatus status progressBytes) keepsKeys_withStatus)
  else none

/-- `handle_complete_received_file`, or `none` if there is no row. -/
def completeReceivedFile (transferId : FylesId) (filePath : String) (receivedAtMs : ℤ) :
    Option IncomingTables :=
  if (t.row transferId).isSome then
    some (t.update transferId (.complete filePath receivedAtMs) keepsKeys_complete)
  else none

/-- The row of a transfer after a new status. -/
theorem row_updateReceivedFileStatus {t : IncomingTables} {status} {progressBytes : ℕ}
    (other : FylesId) :
    ((t.updateReceivedFileStatus transferId status progressBytes).getD t).row other =
      (t.row other).map fun row =>
        if other = transferId then row.withStatus status progressBytes else row := by
  rw [updateReceivedFileStatus]
  split
  · exact row_update keepsKeys_withStatus other
  · next hnone =>
    cases hrow : t.row other with
    | none => exact hrow
    | some row =>
      have hother : other ≠ transferId := by
        rintro rfl
        exact hnone (Option.isSome_of_eq_some hrow)
      rw [Option.map_some, if_neg hother]
      exact hrow

/-- The row of a transfer after it was completed. -/
theorem row_completeReceivedFile {t t' : IncomingTables} {filePath : String}
    {receivedAtMs : ℤ} (h : t.completeReceivedFile transferId filePath receivedAtMs = some t')
    (other : FylesId) : t'.row other = (t.row other).map fun row =>
      if other = transferId then row.complete filePath receivedAtMs else row := by
  rw [completeReceivedFile] at h
  split at h
  · obtain ⟨⟩ := h
    exact row_update keepsKeys_complete other
  · cases h

/-! ### Deleting and listing -/

/-- Keep some of the rows, with the file requests that they need. -/
def filter (filerequests : AList fun _ : FylesId => Filerequest) (kept : ReceivedFile → Bool)
    (h : ∀ row ∈ t.receivedFiles, kept row = true → row.filerequestId ∈ filerequests) :
    IncomingTables where
  filerequests := filerequests
  receivedFiles := t.receivedFiles.filter kept
  ids_nodup := t.ids_nodup.sublist (List.filter_sublist.map _)
  transferIds_nodup := t.transferIds_nodup.sublist (List.filter_sublist.filterMap _)
  references row hrow := h row (List.mem_filter.mp hrow).1 (List.mem_filter.mp hrow).2

/-- The row of a transfer after a deletion. -/
theorem row_filter {t : IncomingTables} {filerequests : AList fun _ : FylesId => Filerequest}
    {kept : ReceivedFile → Bool}
    {h : ∀ row ∈ t.receivedFiles, kept row = true → row.filerequestId ∈ filerequests}
    (transferId : FylesId) :
    (t.filter filerequests kept h).row transferId = (t.row transferId).filter kept := by
  cases hrow : t.row transferId with
  | none =>
    rw [row_eq_none] at hrow
    refine row_eq_none.mpr fun hmem => ?_
    exact hrow ((List.filter_sublist.filterMap _).subset hmem)
  | some row =>
    have hid := transferId_of_row hrow
    have hmem : row ∈ t.receivedFiles := List.mem_of_find?_eq_some hrow
    rw [Option.filter_some]
    split
    · next hkept => exact row_of_mem (List.mem_filter.mpr ⟨hmem, hkept⟩) hid
    · next hgone =>
      rw [row_eq_none]
      intro hin
      obtain ⟨row', hrow', hid'⟩ := List.mem_filterMap.mp hin
      obtain ⟨hmem', hkept'⟩ := List.mem_filter.mp hrow'
      obtain rfl := Option.some.inj (hrow.symm.trans (row_of_mem hmem' hid'))
      exact hgone hkept'

/-- `handle_delete_received_file`. -/
def deleteReceivedFile (id : FylesId) : IncomingTables :=
  t.filter t.filerequests (fun row => row.id ≠ id) fun row hrow _ => t.references row hrow

/-- `handle_delete_filerequest`. -/
def deleteFilerequest (id : FylesId) : IncomingTables :=
  t.filter (t.filerequests.erase id) (fun row => row.filerequestId ≠ id) fun row hrow hkept =>
    AList.mem_erase.mpr ⟨of_decide_eq_true hkept, t.references row hrow⟩

/-- Deleting changes no row. -/
theorem row_of_deleteReceivedFile {t : IncomingTables}
    (h : (t.deleteReceivedFile id).row transferId = some row) : t.row transferId = some row := by
  rw [deleteReceivedFile, row_filter] at h
  exact (Option.filter_eq_some_iff.mp h).1

theorem row_of_deleteFilerequest {t : IncomingTables}
    (h : (t.deleteFilerequest id).row transferId = some row) : t.row transferId = some row := by
  rw [deleteFilerequest, row_filter] at h
  exact (Option.filter_eq_some_iff.mp h).1

/-- A file request is created, or changed. -/
def putFilerequest (id : FylesId) (filerequest : Filerequest) : IncomingTables where
  filerequests := t.filerequests.insert id filerequest
  receivedFiles := t.receivedFiles
  ids_nodup := t.ids_nodup
  transferIds_nodup := t.transferIds_nodup
  references row hrow := (AList.mem_insert _).mpr (.inr (t.references row hrow))

/-- `handle_get_stale_received_files`. -/
def staleReceivedFiles (olderThanMs : ℤ) : List ReceivedFile :=
  t.receivedFiles.filter fun row =>
    (row.status = .receiving ∨ row.status = .interrupted) ∧ row.startedAtMs < olderThanMs

/-! ### The brain's answers -/

/-- `RequestFileTransferContinuation`: whether a transfer may go on. The status of the row is not
looked at. -/
def requestFileTransferContinuation (filerequestId transferId : FylesId) (peerId : PeerId)
    (contactId : Option ContactId) : Option FilerequestContinueResponse :=
  match t.filerequest filerequestId, t.row transferId with
  | some filerequest, some rf =>
    if !filerequest.isActive then none
    else if !filerequest.access.isAccessibleBy contactId then none
    else if rf.peerId ≠ peerId then none
    else if rf.contactId ≠ contactId then none
    else some ⟨rf.fileName, rf.fileSizeBytes, rf.startedAtMs⟩
  | _, _ => none

end IncomingTables

end Fyles
