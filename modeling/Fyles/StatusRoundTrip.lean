import Fyles.OutgoingTables

/-!
# Statuses that are stored and read again

A status of a pending file is stored with `handle_update_pending_file_status` and read with
`handle_get_pending_file` (`core/src/library/sqlite/actor.rs`). Numbers of the service are `u64` and
`usize`; a column has signed integers. The bytes of a transfer are written with a conversion that
wraps, and the `CHECK` refuses the negative numbers that come of it. The retry counter is converted
by the driver of the database, which refuses what does not fit.

## Main results

* `sendStatus_withStatus` — what the columns of a status are read as
* `read_back` — after any updates, the last ones that were accepted are read
-/

namespace Fyles

/-- The arguments of `handle_update_pending_file_status`. -/
structure StatusUpdate where
  status : SendStatus
  retryCount : Option ℕ

/-- All numbers are less than a bound. -/
def StatusUpdate.Below (bound : ℕ) (u : StatusUpdate) : Prop :=
  (∀ data ∈ u.status.transferData, data.progressBytes < bound ∧ data.fileSizeBytes < bound) ∧
    ∀ count ∈ u.retryCount, count < bound

theorem lt_of_toI64_nonneg {n : ℕ} (h : 0 ≤ toI64 n) (hn : n < 2 ^ 64) : n < maxStored := by
  rw [toI64, BitVec.toInt_ofNat', Int.bmod] at h
  rw [maxStored]
  split at h <;> omega

/-- The bytes of a status that passes the `CHECK` fit into their columns. -/
theorem PendingFileRow.lt_of_check {row : PendingFileRow} {status : SendStatus} {tag retryCount}
    (htag : status.statusTag = .ok tag)
    (hcheck : (row.withStatus tag status.transferData retryCount).Check) {data}
    (hdata : status.transferData = some data)
    (hbound : data.progressBytes < 2 ^ 64 ∧ data.fileSizeBytes < 2 ^ 64) :
    data.progressBytes < maxStored ∧ data.fileSizeBytes < maxStored := by
  rw [hdata, Check, withStatus_status] at hcheck
  have hsigns : 0 ≤ toI64 data.progressBytes ∧ 0 ≤ toI64 data.fileSizeBytes := by
    rcases tag_of_transferData htag hdata with rfl | rfl <;>
      cases retryCount <;> exact ⟨hcheck.1.2 _ rfl, hcheck.2.1.2 _ rfl⟩
  exact ⟨lt_of_toI64_nonneg hsigns.1 hbound.1, lt_of_toI64_nonneg hsigns.2 hbound.2⟩

/-- **One status.** What is stored for it is read as the same status. -/
theorem PendingFileRow.sendStatus_withStatus {row : PendingFileRow} {status tag retryCount}
    (htag : status.statusTag = .ok tag)
    (hcounts : (row.withStatus tag status.transferData retryCount).Counts)
    (hfits : ∀ data ∈ status.transferData,
      data.progressBytes < maxStored ∧ data.fileSizeBytes < maxStored) :
    (row.withStatus tag status.transferData retryCount).sendStatus = status := by
  rw [sendStatus, readStatus, readU64_of_isCount hcounts.1, readU64_of_isCount hcounts.2,
    withStatus_status]
  cases status with
  | pending | sent | rejected | failed =>
    obtain rfl := Except.ok.inj htag
    rfl
  | unknown s => cases htag
  | inProgress progress =>
    obtain ⟨stage, data⟩ := progress
    obtain ⟨hp, hs⟩ := hfits data rfl
    have hcolumns : columnsTransferData
        ((row.withStatus tag (some data) retryCount).progressBytes.map Int.toNat)
        ((row.withStatus tag (some data) retryCount).fileSizeBytes.map Int.toNat)
        (row.withStatus tag (some data) retryCount).transferId = some data := by
      cases retryCount <;> simp [withStatus, columnsTransferData, toI64_of_lt hp, toI64_of_lt hs]
    cases stage with
    | prepared | pendingSent => cases htag
    | sending | interrupted =>
      obtain rfl := Except.ok.inj htag
      simp only [SendStatus.transferData, SendStatus.fromDbColumns, hcolumns]

namespace OutgoingTables

/-- `handle_update_pending_file_status`, with the driver's conversion of the retry counter. -/
def handleUpdatePendingFileStatus (t : OutgoingTables) (id : FylesId) (u : StatusUpdate) :
    Except TableError (FylesId × OutgoingTables) :=
  if u.status.statusTag.isOk ∧ ¬ ∀ count ∈ u.retryCount, count < maxStored then .error .outOfRange
  else t.updatePendingFileStatus id u.status u.retryCount

/-- One update after the other: the tables, and the updates that were accepted. -/
def updateAll (t : OutgoingTables) (id : FylesId) :
    List StatusUpdate → OutgoingTables × List StatusUpdate
  | [] => (t, [])
  | u :: us =>
    match t.handleUpdatePendingFileStatus id u with
    | .error _ => t.updateAll id us
    | .ok (_, t) => ((t.updateAll id us).1, u :: (t.updateAll id us).2)

variable {t t' : OutgoingTables} {id target : FylesId} {file : PendingFile} {u : StatusUpdate}

/-- An update that is accepted. -/
theorem getPendingFile_of_accepted (hfile : t.getPendingFile id = .ok file) (hu : u.Below (2 ^ 64))
    (h : t.handleUpdatePendingFileStatus id u = .ok (target, t')) :
    t'.getPendingFile id = .ok { file with
      status := u.status
      retryCount := u.retryCount.getD file.retryCount } ∧ u.Below maxStored := by
  rw [handleUpdatePendingFileStatus] at h
  split at h
  · cases h
  next hfits =>
  rcases updatePendingFileStatus_cases t id u.status u.retryCount with
    ⟨e, -, herror⟩ |
    ⟨tag, htag, ⟨-, herror⟩ | ⟨row, hrow, ⟨-, herror⟩ | ⟨hcheck, t₁, hok, hremote, hrows⟩⟩⟩
  · cases h.symm.trans herror
  · cases h.symm.trans herror
  · cases h.symm.trans herror
  obtain ⟨-, rfl⟩ := Prod.mk.inj (Except.ok.inj (h.symm.trans hok))
  have hbelow : ∀ data ∈ u.status.transferData, _ := fun data hdata =>
    PendingFileRow.lt_of_check htag hcheck hdata (hu.1 data hdata)
  have hrow' := row_updated (fun _ => PendingFileRow.withStatus_id) hrows id
  rw [hrow, Option.map_some, if_pos rfl] at hrow'
  obtain ⟨hmem, -⟩ := mem_of_row hrow
  obtain ⟨hmem', -⟩ := mem_of_row hrow'
  obtain ⟨r, hr⟩ := exists_remote hmem
  have hread := PendingFileRow.sendStatus_withStatus htag (t'.counts _ hmem') hbelow
  refine ⟨?_, hbelow, ?_⟩
  · simp only [getPendingFile, hrow, hr, readPendingFile_eq hmem] at hfile
    obtain rfl := Except.ok.inj hfile
    rw [getRemoteFilerequest, ← hremote, ← getRemoteFilerequest] at hr
    simp only [getPendingFile, hrow', PendingFileRow.withStatus_target, hr,
      readPendingFile_eq hmem', pendingFileOf, hread, PendingFileRow.withStatus_id,
      PendingFileRow.withStatus_filePath]
    cases hc : u.retryCount <;> cases hd : u.status.transferData <;> rfl
  · by_contra hlarge
    exact hfits ⟨by rw [htag]; rfl, hlarge⟩

/-- **Reading back.** After any updates, a file is read with the status of the last update that was
accepted, and with the last retry counter of those that were accepted and had one. What does not fit
into a column is not accepted. -/
theorem read_back (hfile : t.getPendingFile id = .ok file) (us : List StatusUpdate)
    (hus : ∀ u ∈ us, u.Below (2 ^ 64)) :
    (t.updateAll id us).1.getPendingFile id = .ok { file with
      status := ((t.updateAll id us).2.map StatusUpdate.status).getLast?.getD file.status
      retryCount := ((t.updateAll id us).2.filterMap StatusUpdate.retryCount).getLast?.getD
        file.retryCount } ∧
    ∀ u ∈ (t.updateAll id us).2, u.Below maxStored := by
  induction us generalizing t file with
  | nil => exact ⟨hfile, nofun⟩
  | cons u us ih =>
    obtain ⟨hu, hus⟩ := List.forall_mem_cons.mp hus
    rw [updateAll]
    cases h : t.handleUpdatePendingFileStatus id u with
    | error e => exact ih hfile hus
    | ok r =>
      obtain ⟨target, t'⟩ := r
      obtain ⟨hread, hbelow⟩ := getPendingFile_of_accepted hfile hu h
      obtain ⟨hlast, hall⟩ := ih hread hus
      refine ⟨?_, List.forall_mem_cons.mpr ⟨hbelow, hall⟩⟩
      rw [hlast]
      cases hc : u.retryCount <;> simp [List.getLast?_cons, hc]

/-- A size that does not fit is refused; then the file is sent, and fails. -/
theorem read_back_failed : ∃ (t : OutgoingTables) (file : PendingFile),
    t.getPendingFile ⟨"file"⟩ = .ok file ∧
    (t.updateAll ⟨"file"⟩ [⟨.inProgress ⟨.sending, ⟨0, 2 ^ 63, ⟨"a"⟩⟩⟩, none⟩,
      ⟨.inProgress ⟨.sending, ⟨3, 7, ⟨"b"⟩⟩⟩, some 2⟩, ⟨.failed, none⟩]).1.getPendingFile ⟨"file"⟩ =
      .ok { file with status := .failed, retryCount := 2 } :=
  have hfile : (⟨[⟨⟨"r"⟩, "peer", ⟨"q"⟩, "", ⟨"alice"⟩⟩], [.new ⟨"file"⟩ "path" ⟨"r"⟩], by decide,
    by decide, by decide, by decide, by decide⟩ : OutgoingTables).getPendingFile ⟨"file"⟩ = .ok _ :=
    rfl
  ⟨_, _, hfile, (read_back hfile _ (by simp [StatusUpdate.Below, SendStatus.transferData])).1⟩

end OutgoingTables

end Fyles
