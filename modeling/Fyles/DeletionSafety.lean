import Fyles.FileHoldings

/-!
# Deleting files while the tracker reports about them

The brain stores what the tracker reports about a file with an `expect`: if the row of the file is
gone, the process ends. Rows go away when a file or a remote file request is deleted. The handlers
of these two actions cancel the files first, but a report that the tracker has made before waits in
a task of its own, and nothing makes the deletion wait for it. Cancelling also misses files: if the
slot of a peer holds a file of the remote file request, its other files stay in the queue.

What is safe is to delete the row of a file that is known nowhere else. Then each file that the
tracker knows or that a report is about has its row, in every reachable state.

## Main results

* `reports_find_rows` — no status handler fails on a missing row, if files are deleted that way
* `report_after_delete` — a report that is handled after its file is deleted ends the process
-/

namespace Fyles.Brain

variable {parse : String → Option PeerId} {s s' : Service}

/-- Each file that is known outside the database has its row. -/
def Backed (s : Service) : Prop := ∀ id ∈ s.fileIds, (s.tables.row id).isSome

/-- The job that goes on deletes no row of a file that is known elsewhere. -/
def DeletesUnknown (s : Service) (e : Event × Surroundings) : Prop :=
  match e.1.job s with
  | some (.removeFile id) => id ∉ s.fileIds
  | some (.removeRequest id) =>
    ∀ row ∈ s.tables.pendingFiles, row.targetFilerequestId = id → row.id ∉ s.fileIds
  | _ => True

instance (s : Service) (e : Event × Surroundings) : Decidable (DeletesUnknown s e) := by
  rw [DeletesUnknown]
  split <;> infer_instance

theorem DeletesUnknown.not_deletes {e x} (h : DeletesUnknown s (e, x)) {job}
    (hjob : e.job s = some job) {id} (hid : id ∈ s.fileIds) : ¬ job.deletes s.tables id := by
  simp only [DeletesUnknown, hjob] at h
  rintro (rfl | ⟨row, hrow, rfl⟩)
  · exact h hid
  · obtain ⟨hmem, rfl⟩ := OutgoingTables.mem_of_row hrow
    exact h row hmem rfl hid

/-- The step lemma. -/
theorem Backed.step {e} (h : Backed s) (hdel : DeletesUnknown s e)
    (hstep : s.next parse e = some s') : Backed s' := by
  intro id hid
  have hhappens := happens_of_step (Service.next_eq_some.mp hstep)
  rcases hhappens.fileIds hid with hold | ⟨hrow, -⟩
  · refine (hhappens.row (h id hold)).resolve_right ?_
    rintro ⟨job, hjob, hdeletes⟩
    exact hdel.not_deletes hjob hold hdeletes
  · exact hrow

/-- **Status handlers find their rows.** In every run from any database in which rows are deleted
only of files that are known nowhere else, no status handler fails on a missing row. -/
theorem reports_find_rows {tables : OutgoingTables} {sources : List (String × ℤ)}
    {events : List (Event × Surroundings)}
    (h : Run (Service.next parse) DeletesUnknown (.start tables sources) events s) :
    ∀ index action x id, s.jobs[index]? = some (.report action) →
      s.step parse (.resume index, x) ≠ .error (.report id .noRows) := by
  have hbacked : Backed s := h.invariant (fun _ hid => (nomatch hid)) Backed.step
  intro index action x id hjob hstep
  have hrow : (s.tables.row action.file).isSome :=
    hbacked _ (mem_fileIds_of_job (List.mem_of_getElem? hjob) (List.mem_singleton_self _))
  rcases OutgoingTables.updatePendingFileStatus_cases s.tables action.file action.sendStatus
    action.retryCount with ⟨e, -, hup⟩ | ⟨tag, -, ⟨hnone, -⟩ | ⟨row, -, ⟨-, hup⟩ | ⟨-, t, hup, -⟩⟩⟩
  · cases (error_of_report hjob hstep).symm.trans hup
  · rw [hnone] at hrow
    cases hrow
  · cases (error_of_report hjob hstep).symm.trans hup
  · cases (error_of_report hjob hstep).symm.trans hup

/-- The sample file is offered, rejected and deleted after the rejection has been stored. Another
file is created, and its offer is not answered. -/
def sampleDeletion : List (Event × Surroundings) :=
  [.network (.call (.triggerInteractionWith ⟨"peer"⟩)),
    .network (.call (.receiveResponse ⟨"peer"⟩ (some ⟨"contact"⟩) (some 0) .rejectNewTransfer)),
    .resume 0, .resume 0, .act (.deletePendingFile ⟨"file0"⟩), .resume 1, .resume 1,
    .act (.createPendingFiles ⟨"row"⟩ ["other"]), .resume 1, .resume 1, .resume 1,
    .network (.call (.triggerInteractionWith ⟨"peer"⟩)),
    .network (.call (.handleReceiveError ⟨"peer"⟩ (some 1) (.localError .timeout)))].map
    fun e => (e, sampleSurroundings [] "other")

/-- A report that waits after the deletion of another file. -/
theorem reports_find_rows_sample : ∃ s,
    Run (Service.next sampleParse) DeletesUnknown (.start .empty []) (sampleSetup ++ sampleDeletion)
      s ∧
    s.tables.row ⟨"file0"⟩ = none ∧
    (∃ action, s.jobs[2]? = some (.report action) ∧ action.file = ⟨"other0"⟩) ∧
    s.step sampleParse (.resume 2, sampleSurroundings [] "") ≠
      .error (.report ⟨"other0"⟩ .noRows) := by
  exact Run.exists_and Run.get_runFrom fun hrun =>
    ⟨by decide, ⟨_, rfl, by decide⟩, reports_find_rows hrun 2 _ _ _ rfl⟩

/-- **A deletion ends the process.** The file is rejected and deleted before the brain stores the
rejection. -/
theorem report_after_delete : ∃ s,
    Run (Service.next sampleParse) (fun _ _ => True) (.start .empty []) (sampleSetup ++
      [.network (.call (.triggerInteractionWith ⟨"peer"⟩)),
        .network (.call (.receiveResponse ⟨"peer"⟩ (some ⟨"contact"⟩) (some 0)
          .rejectNewTransfer)),
        .act (.deletePendingFile ⟨"file0"⟩), .resume 1, .resume 1, .resume 1].map
        fun e => (e, sampleSurroundings [] "")) s ∧
    s.jobs[0]? = some (.report (.fileRejected ⟨"file0"⟩)) ∧
    s.step sampleParse (.resume 0, sampleSurroundings [] "") =
      .error (.report ⟨"file0"⟩ .noRows) := by
  exact ⟨_, Run.get_runFrom, by decide, by rfl⟩

end Fyles.Brain
