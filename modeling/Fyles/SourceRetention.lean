import Fyles.FileHoldings

/-!
# Removing the temporary copies of source files

Some source files are temporary copies. After a file is finished, `try_cleanup_source_file` looks
its path up, counts the other files with this path that are not finished, and removes the copy if
there are none. A cleanup that runs every few hours removes copies that are old enough.

Between the count and the removal the path may be given to a new file. The old copies are removed
without a look at the database. If both are avoided, and a finished file is neither reopened nor
deleted while the clean-up after it runs, no copy is removed that an unfinished file needs.

## Main results

* `sources_retained` — no step of such a run removes a copy that is needed
* `source_removed` — a copy is removed after its path was given to a new file, and one because it
  is old
-/

namespace Fyles.Brain

open OutgoingTables

variable {parse : String → Option PeerId} {x : Surroundings} {s s' : Service}

/-- The copies that a job is going to remove. -/
def Job.removes : Job → List String
  | .removeSource filePath => [filePath]
  | .sweepRemove filePaths => filePaths
  | _ => []

variable (t : OutgoingTables)

/-- A path that no unfinished file refers to. -/
def Unneeded (filePath : String) : Prop :=
  ∀ row ∈ t.pendingFiles, row.filePath = filePath → row.status.isTerminal = true

instance (t : OutgoingTables) (filePath : String) : Decidable (Unneeded t filePath) :=
  inferInstanceAs (Decidable (∀ row ∈ t.pendingFiles, _))

/-- Whether the status of a report is one of an unfinished file. -/
def SendStatus.isOpen (status : SendStatus) : Bool :=
  match status.statusTag with
  | .ok tag => !tag.isTerminal
  | .error _ => false

/-- The row of a file is finished. -/
def Finished (id : FylesId) : Prop :=
  ∀ row ∈ t.row id, row.status.isTerminal = true

/-- What is known of the jobs that wait: no unfinished file needs what is going to be removed, and a
clean-up is for a finished file, which is still there once its path was read. -/
def Job.Harmless (job : Job) : Prop :=
  (∀ filePath ∈ job.removes, Unneeded t filePath) ∧
  match job with
  | .cleanup id => Finished t id
  | .countForPath id filePath =>
    ∃ row, t.row id = some row ∧ row.filePath = filePath ∧ row.status.isTerminal = true
  | _ => True

/-- The file with whose path the others are being counted. -/
def Job.counting : Job → Option FylesId
  | .countForPath id _ => some id
  | _ => none

/-- **The jobs that respect the removals that are under way.** Files are inserted with paths that
nobody is going to remove, and with ids that are not those of clean-ups. A finished file is not
reported as unfinished. A file is not deleted while the files with its path are counted. And the old
copies are those of no unfinished file. -/
def Job.Careful (s : Service) (x : Surroundings) : Job → Prop
  | .insertFiles _ filePaths => ∀ f ∈ drawIds x.newId filePaths, ∀ job ∈ s.jobs,
      f.2 ∉ job.removes ∧ job ≠ .cleanup f.1
  | .report action => SendStatus.isOpen action.sendStatus = true →
      ∀ row ∈ s.tables.row action.file, row.status.isTerminal = false
  | .readyReset _ (({ id, status := .inProgress ⟨.sending, _⟩, .. }, _) :: _) =>
      ∀ row ∈ s.tables.row id, row.status.isTerminal = false
  | .removeFile id => ∀ job ∈ s.jobs, job.counting ≠ some id
  | .removeRequest id => ∀ job ∈ s.jobs, ∀ id' ∈ job.counting, ∀ row ∈ s.tables.row id',
      row.targetFilerequestId ≠ id
  | .sweep threshold => ∀ source ∈ s.sources, source.2 < threshold → Unneeded s.tables source.1
  | _ => True

instance (s : Service) (x : Surroundings) (job : Job) : Decidable (job.Careful s x) := by
  rw [Job.Careful.eq_def]
  split <;> infer_instance

/-- The steps that do such jobs. -/
def Careful (s : Service) (e : Event × Surroundings) : Prop := ∀ job ∈ e.1.job s, job.Careful s e.2

instance (s : Service) (e : Event × Surroundings) : Decidable (Careful s e) :=
  inferInstanceAs (Decidable (∀ job ∈ e.1.job s, _))

/-- The invariant. -/
def Retaining (s : Service) : Prop := ∀ job ∈ s.jobs, job.Harmless s.tables

/-! ### What the statements on the tables keep -/

section Tables

variable {t t' : OutgoingTables} {job : Job}

/-- A job that removes nothing and cleans nothing up. -/
theorem harmless_of_plain (hremoves : job.removes = []) (hcleanup : ∀ id, job ≠ .cleanup id)
    (hcount : ∀ id filePath, job ≠ .countForPath id filePath) : job.Harmless t := by
  refine ⟨?_, ?_⟩
  · rw [hremoves]
    exact fun _ h => (nomatch h)
  · cases job with
    | cleanup id => exact absurd rfl (hcleanup id)
    | countForPath id filePath => exact absurd rfl (hcount id filePath)
    | _ => trivial

/-- An update of a row that does not reopen a finished file. -/
theorem Job.Harmless.update {id} {f : PendingFileRow → PendingFileRow} (h : job.Harmless t)
    (hid : ∀ row, (f row).id = row.id) (hpath : ∀ row, (f row).filePath = row.filePath)
    (hopen : ∀ row ∈ t.row id, row.status.isTerminal = true → (f row).status.isTerminal = true)
    (hrows : t'.pendingFiles = updated t.pendingFiles id f) : job.Harmless t' := by
  have hrow : ∀ id', t'.row id' = (t.row id').map fun row => if id' = id then f row else row :=
    row_updated hid hrows
  have hterminal : ∀ id' row, t.row id' = some row → row.status.isTerminal = true →
      (if id' = id then f row else row).status.isTerminal = true := by
    intro id' row hrow' hterminal
    split
    · next heq =>
      subst heq
      exact hopen row hrow' hterminal
    · exact hterminal
  refine ⟨fun filePath hremoves row' hrow' hfilePath => ?_, ?_⟩
  · rw [hrows] at hrow'
    rcases mem_updated hrow' with ⟨hold, -⟩ | ⟨row, hold, heq, rfl⟩
    · exact h.1 filePath hremoves row' hold hfilePath
    · exact hopen row (row_iff.mpr ⟨hold, heq⟩)
        (h.1 filePath hremoves row hold ((hpath row).symm.trans hfilePath))
  · have hkind := h.2
    cases job with
    | cleanup id' =>
      intro row' hrow'
      rw [hrow, Option.mem_def] at hrow'
      obtain ⟨row, hold, rfl⟩ := Option.map_eq_some_iff.mp hrow'
      exact hterminal id' row hold (hkind row hold)
    | countForPath id' filePath =>
      obtain ⟨row, hold, hfilePath, hdone⟩ := hkind
      refine ⟨_, by rw [hrow, hold, Option.map_some], ?_, hterminal id' row hold hdone⟩
      split
      · exact (hpath row).trans hfilePath
      · exact hfilePath
    | _ => trivial

/-- Statements that take rows away, but none whose path is being counted. -/
theorem Job.Harmless.sublist (h : job.Harmless t)
    (hrows : ∀ row ∈ t'.pendingFiles, row ∈ t.pendingFiles)
    (hkeep : ∀ id filePath row, job = .countForPath id filePath → t.row id = some row →
      t'.row id = some row) : job.Harmless t' := by
  refine ⟨fun filePath hremoves row hrow => h.1 filePath hremoves row (hrows row hrow), ?_⟩
  have hkind := h.2
  cases job with
  | cleanup id =>
    intro row hrow
    obtain ⟨hmem, hid⟩ := mem_of_row hrow
    exact hkind row (row_iff.mpr ⟨hrows row hmem, hid⟩)
  | countForPath id filePath =>
    obtain ⟨row, hold, hrest⟩ := hkind
    exact ⟨row, hkeep id filePath row rfl hold, hrest⟩
  | _ => trivial

/-- New rows, with paths that the job does not remove. -/
theorem Job.Harmless.append {rows} (h : job.Harmless t)
    (hrows : t'.pendingFiles = t.pendingFiles ++ rows)
    (hnew : ∀ row ∈ rows, row.filePath ∉ job.removes ∧ job ≠ .cleanup row.id) :
    job.Harmless t' := by
  have hrow : ∀ id row, t.row id = some row → t'.row id = some row := by
    intro id row hold
    obtain ⟨hmem, hid⟩ := mem_of_row hold
    refine row_iff.mpr ⟨?_, hid⟩
    rw [hrows]
    exact List.mem_append_left _ hmem
  refine ⟨fun filePath hremoves row hmem hfilePath => ?_, ?_⟩
  · rw [hrows] at hmem
    rcases List.mem_append.mp hmem with hmem | hmem
    · exact h.1 filePath hremoves row hmem hfilePath
    · rw [← hfilePath] at hremoves
      exact absurd hremoves (hnew row hmem).1
  · have hkind := h.2
    cases job with
    | cleanup id =>
      intro row hrow'
      obtain ⟨hmem, rfl⟩ := mem_of_row hrow'
      rw [hrows] at hmem
      rcases List.mem_append.mp hmem with hmem | hmem
      · exact hkind row (row_of_mem hmem)
      · exact absurd rfl (hnew row hmem).2
    | countForPath id filePath =>
      obtain ⟨row, hold, hrest⟩ := hkind
      exact ⟨row, hrow id row hold, hrest⟩
    | _ => trivial

end Tables

/-! ### Steps -/

/-- A report that may be stored does not reopen a finished file. -/
theorem withStatus_terminal {t : OutgoingTables} {id status tag retryCount}
    (htag : status.statusTag = .ok tag)
    (hopen : SendStatus.isOpen status = true → ∀ row ∈ t.row id, row.status.isTerminal = false) :
    ∀ row ∈ t.row id, row.status.isTerminal = true →
      (row.withStatus tag status.transferData retryCount).status.isTerminal = true := by
  intro row hrow hterminal
  rw [PendingFileRow.withStatus_status]
  cases htagged : tag.isTerminal with
  | true => rfl
  | false =>
    have hisOpen : SendStatus.isOpen status = true := by
      simp [SendStatus.isOpen, htag, htagged]
    rw [hopen hisOpen row hrow] at hterminal
    cases hterminal

theorem Does.keeps_harmless {job job' : Job} {next jobs} (hdoes : Does parse x s job s' next)
    (hcareful : job.Careful { s with jobs } x) (hmem : job' ∈ jobs) (h : job'.Harmless s.tables) :
    job'.Harmless s'.tables := by
  cases hdoes with
  | report hup =>
    obtain ⟨tag, row, htag, -, -, hrows⟩ := updatePendingFileStatus_ok hup
    exact h.update (fun _ => PendingFileRow.withStatus_id)
      (fun _ => PendingFileRow.withStatus_filePath) (withStatus_terminal htag hcareful) hrows
  | @readyReset _ file _ _ _ _ _ hst hup =>
    obtain ⟨tag, row, htag, -, -, hrows⟩ := updatePendingFileStatus_ok hup
    have hopen : ∀ row ∈ s.tables.row file.id, row.status.isTerminal = false := by
      cases file
      cases hst
      exact hcareful
    exact h.update (fun _ => PendingFileRow.withStatus_id)
      (fun _ => PendingFileRow.withStatus_filePath) (withStatus_terminal htag fun _ => hopen) hrows
  | addReason hup =>
    obtain ⟨-, hrows⟩ := addInterruptionReason_ok hup
    refine h.update (fun row => ?_) (fun row => ?_) (fun row _ hterminal => ?_) hrows
    · rfl
    · rfl
    · exact hterminal
  | insertFiles hcreate =>
    obtain ⟨-, hrows⟩ := createPendingFiles_ok hcreate
    refine h.append hrows fun row hrow => ?_
    obtain ⟨f, hf, rfl⟩ := List.mem_map.mp hrow
    exact hcareful f hf job' hmem
  | @removeFile id =>
    refine h.sublist (fun row hrow => List.mem_of_mem_filter hrow) ?_
    rintro id' filePath row rfl hrow
    have hne : id' ≠ id := fun heq => hcareful _ hmem (by rw [Job.counting, heq])
    rw [row_deletePendingFile, if_neg hne]
    exact hrow
  | @removeRequest id =>
    refine h.sublist (fun row hrow => List.mem_of_mem_filter hrow) ?_
    rintro id' filePath row rfl hrow
    have hne := hcareful _ hmem id' rfl row hrow
    rw [row_deleteRemoteFilerequest, hrow]
    simp [hne]
  | _ => exact h

/-- The files with the path of a finished file are all finished, if there are no others. -/
theorem unneeded_of_count {t id row} (hrow : t.row id = some row)
    (hterminal : row.status.isTerminal = true)
    (hcount : t.countNonTerminalPendingFilesForPath id = 0) : Unneeded t row.filePath := by
  intro row' hrow' hpath
  rw [countNonTerminalPendingFilesForPath, hrow] at hcount
  have hnone := List.countP_eq_zero.mp hcount row' hrow'
  by_cases hid : row'.id = id
  · obtain rfl := Option.some.inj (hrow.symm.trans (row_iff.mpr ⟨hrow', hid⟩))
    exact hterminal
  · simpa [hpath, hid] using hnone

theorem Does.next_harmless {job next jobs} (hdoes : Does parse x s job s' next)
    (hcareful : job.Careful { s with jobs } x) (h : job.Harmless s.tables) :
    ∀ job' ∈ next, job'.Harmless s'.tables := by
  cases hdoes with
  | report hup =>
    obtain ⟨tag, row, htag, hrow, -, hrows⟩ := updatePendingFileStatus_ok hup
    -- the file of a final report is finished
    refine forall_followUp (fun _ => harmless_of_plain rfl nofun nofun) fun hterminal =>
      ⟨fun _ h => (nomatch h), fun row' hrow' => ?_⟩
    rw [row_updated (fun _ => PendingFileRow.withStatus_id) hrows, hrow, Option.map_some,
      if_pos rfl, Option.mem_some_iff] at hrow'
    rw [← hrow', PendingFileRow.withStatus_status]
    exact hterminal tag htag
  | @cleanup id file hget =>
    obtain ⟨row, r, hrow, rfl⟩ := getPendingFile_ok hget
    exact List.forall_mem_singleton.mpr
      ⟨fun _ h => (nomatch h), row, hrow, rfl, h.2 row hrow⟩
  | @countForPath id filePath hcount =>
    obtain ⟨row, hrow, rfl, hterminal⟩ := h.2
    exact List.forall_mem_singleton.mpr
      ⟨List.forall_mem_singleton.mpr (unneeded_of_count hrow hterminal hcount), trivial⟩
  | sweep =>
    refine List.forall_mem_singleton.mpr ⟨fun filePath hmem => ?_, trivial⟩
    obtain ⟨source, hsource, rfl⟩ := List.mem_map.mp hmem
    obtain ⟨hsource, hold⟩ := List.mem_filter.mp hsource
    exact hcareful source hsource (of_decide_eq_true hold)
  | sweepRemove =>
    exact List.forall_mem_singleton.mpr ⟨(List.forall_mem_cons.mp h.1).2, trivial⟩
  | addReason | removeSource | removeFile | removeRequest | ends => exact fun _ h => (nomatch h)
  | _ =>
    exact List.forall_mem_singleton.mpr (harmless_of_plain rfl nofun nofun)

theorem Retaining.step {e} (h : Retaining s) (hcareful : Careful s e)
    (hstep : s.next parse e = some s') : Retaining s' := by
  obtain ⟨e, x⟩ := e
  have hreports : ∀ (actions : List NetworkNodeAction) (t : OutgoingTables),
      ∀ job ∈ actions.map Job.report, job.Harmless t := by
    intro actions t job hjob
    obtain ⟨action, -, rfl⟩ := List.mem_map.mp hjob
    exact harmless_of_plain rfl (by simp) (by simp)
  have hhappens := happens_of_step (Service.next_eq_some.mp hstep)
  cases hhappens with
  | act action =>
    refine List.forall_mem_append.mpr ⟨h, List.forall_mem_singleton.mpr ?_⟩
    cases action <;> exact harmless_of_plain rfl (by simp [Action.job]) (by simp [Action.job])
  | @resume index job s₁ next hjob hdoes =>
    have hcareful := hcareful job hjob
    have hjob := List.mem_of_getElem? hjob
    obtain ⟨actions, hjobs⟩ := hdoes.jobs_eq
    refine List.forall_mem_append.mpr ⟨?_, hdoes.next_harmless hcareful (h job hjob)⟩
    rw [hjobs]
    refine List.forall_mem_append.mpr ⟨fun job' hjob' => ?_, hreports actions _⟩
    have hmem := List.mem_of_mem_eraseIdx hjob'
    exact hdoes.keeps_harmless hcareful hmem (h job' hmem)
  | network hnet hw => exact List.forall_mem_append.mpr ⟨h, hreports _ _⟩
  | createRemoteFilerequest hcreate =>
    obtain ⟨-, -, hrows⟩ := createRemoteFilerequest_ok hcreate
    intro job hjob
    refine (h job hjob).sublist (fun row hrow => hrows ▸ hrow) fun id filePath row _ hrow => ?_
    rw [OutgoingTables.row, hrows]
    exact hrow
  | restart => rintro _ ⟨⟩
  | _ => exact h

/-- Copies are removed by the two jobs. -/
theorem Happens.sources {e} (h : Happens parse x s e s') {source} (hsource : source ∈ s.sources)
    (hremoved : source.1 ∉ s'.sources.map Prod.fst) : ∃ job ∈ e.job s, source.1 ∈ job.removes := by
  have hkept : s'.sources = s.sources → ∃ job ∈ e.job s, source.1 ∈ job.removes := by
    intro heq
    rw [heq] at hremoved
    exact absurd (List.mem_map_of_mem hsource) hremoved
  have hfiltered : ∀ filePath, s'.sources = s.sources.filter (fun f => f.1 ≠ filePath) →
      source.1 = filePath := by
    intro filePath heq
    by_contra hne
    rw [heq] at hremoved
    exact hremoved (List.mem_map_of_mem (List.mem_filter.mpr ⟨hsource, by simpa using hne⟩))
  cases h with
  | @resume index job s₁ next hjob hdoes =>
    cases hdoes with
    | removeSource => exact ⟨_, hjob, by rw [hfiltered _ rfl]; exact List.mem_singleton_self _⟩
    | sweepRemove => exact ⟨_, hjob, by rw [hfiltered _ rfl]; exact List.mem_cons_self⟩
    | _ => exact hkept rfl
  | storeSource filePath modified =>
    refine absurd ?_ hremoved
    by_cases heq : source.1 = filePath
    · rw [heq]
      exact List.mem_cons_self
    · exact List.mem_cons_of_mem _
        (List.mem_map_of_mem (List.mem_filter.mpr ⟨hsource, by simpa using heq⟩))
  | _ =>
    exact hkept rfl

/-- **Needed copies are retained.** In every run from any database whose steps respect the removals
under way, no step removes a copy to which an unfinished file refers. -/
theorem sources_retained {tables : OutgoingTables} {sources : List (String × ℤ)}
    {events : List (Event × Surroundings)}
    (h : Run (Service.next parse) Careful (.start tables sources) events s) :
    ∀ e s', s.step parse e = .ok s' → ∀ source ∈ s.sources,
      source.1 ∉ s'.sources.map Prod.fst → Unneeded s.tables source.1 := by
  have hretaining : Retaining s := h.invariant (fun _ h => (nomatch h)) Retaining.step
  rintro ⟨e, x⟩ s' hstep source hsource hremoved
  obtain ⟨job, hjob, hremoves⟩ := (happens_of_step hstep).sources hsource hremoved
  have hmem : job ∈ s.jobs := by
    cases e with
    | resume index => exact List.mem_of_getElem? hjob
    | _ => cases hjob
  exact (hretaining job hmem).1 _ hremoves

/-- The sample file is rejected, and its copy is about to be removed. -/
def sampleCleanup : List (Event × Surroundings) :=
  [.storeSource "path" 5, .network (.call (.triggerInteractionWith ⟨"peer"⟩)),
    .network (.call (.receiveResponse ⟨"peer"⟩ (some ⟨"contact"⟩) (some 0) .rejectNewTransfer)),
    .resume 0, .resume 0, .resume 0].map fun e => (e, sampleSurroundings [] "")

/-- The copy of a file that is finished is removed. -/
theorem sources_retained_sample : ∃ s s',
    Run (Service.next sampleParse) Careful (.start .empty []) (sampleSetup ++ sampleCleanup) s ∧
    s.step sampleParse (.resume 0, sampleSurroundings [] "") = .ok s' ∧
    ("path", 5) ∈ s.sources ∧ s'.sources = [] ∧ Unneeded s.tables "path" := by
  have hrun : Run (Service.next sampleParse) Careful (.start .empty [])
      (sampleSetup ++ sampleCleanup) _ := Run.get_runFrom
  exact ⟨_, _, hrun, rfl, by decide, by decide,
    sources_retained hrun (.resume 0, sampleSurroundings [] "") _ rfl ("path", 5) (by decide)
      (by decide)⟩

/-- **Needed copies are removed.** A file is created with the path of a copy that is about to be
removed. And an old copy is removed, although its file still waits. -/
theorem source_removed :
    (∃ s s', Run (Service.next sampleParse) (fun _ _ => True) (.start .empty [])
        (sampleSetup ++ sampleCleanup ++ [.act (.createPendingFiles ⟨"row"⟩ ["path"]), .resume 1,
          .resume 1].map fun e => (e, sampleSurroundings [] "other")) s ∧
      s.step sampleParse (.resume 0, sampleSurroundings [] "") = .ok s' ∧
      ("path", 5) ∈ s.sources ∧ s'.sources = [] ∧ ¬ Unneeded s.tables "path") ∧
    ∃ s s', Run (Service.next sampleParse) (fun _ _ => True) (.start .empty [])
        (sampleSetup ++ [.storeSource "path" 5, .act (.cleanup 6), .resume 0].map
          fun e => (e, sampleSurroundings [] "")) s ∧
      s.step sampleParse (.resume 0, sampleSurroundings [] "") = .ok s' ∧
      ("path", 5) ∈ s.sources ∧ s'.sources = [] ∧ ¬ Unneeded s.tables "path" := by
  refine ⟨⟨_, _, Run.get_runFrom, rfl, by decide, by decide, by decide⟩, ?_⟩
  exact ⟨_, _, Run.get_runFrom, rfl, by decide, by decide, by decide⟩

end Fyles.Brain
