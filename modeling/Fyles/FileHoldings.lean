import Fyles.Brain

/-!
# Which files the service is busy with

A file has a row in the database, and it is known in other places: the tracker has it in a queue or
a slot or still has to report about it, and jobs of the brain are about to store its status or to
hand it to the tracker. This module says how a step changes these places. The tracker invents no
file, a job of the brain takes files from the database only, and rows go away by the two jobs that
delete them.

## Main results

* `World.fileIds_step` — the tracker invents no file
* `Happens.fileIds`, `Happens.row` — how a step of the service changes the two
-/

namespace Fyles

open OutgoingTables

/-! ### The tracker -/

namespace FileTracker

/-- The files of a peer: the one that is being sent, and those that wait. -/
def PeerFiles.fileIds (files : PeerFiles) : List FylesId :=
  (files.sending.map fun s => s.pendingFile.id).toList ++ files.pending.map PendingFile.id

/-- The files about which a waiting handler has something to report. -/
def Task.fileIds : Task → List FylesId
  | .reportInterrupt id _ => [id]
  | _ => []

/-- The files that the tracker knows. -/
def World.fileIds (w : World) : List FylesId :=
  (w.tracker.files.entries.flatMap fun e => e.2.fileIds) ++ w.tasks.flatMap fun t => t.2.fileIds

/-- All files have a property that only depends on their ids. -/
def holding (P : FylesId → Prop) : Custody where
  file g := P g.id
  slot s := P s.pendingFile.id
  notice a := P a.file
  message _ _ := True

variable {P : FylesId → Prop} {w w' : World} {e : Event} {env : Env}

theorem holding_closed (P : FylesId → Prop) (env : Env) : (holding P).Closed env where
  skipped h := ⟨h, h, h⟩
  offered h _ _ _ := ⟨h, trivial⟩
  resumed _ _ h _ := ⟨⟨h, trivial⟩, h⟩
  completed outcome h := by cases outcome <;> exact h
  reset _ h := ⟨h, h⟩
  failed h := h
  verified result h _ := by
    simp only [holding, noteVerification_pendingFile] at h ⊢
    exact h
  acknowledged h _ _ := ⟨h, h⟩

theorem mem_fileIds_of_lookup {p files id} (hf : w.tracker.files.lookup p = some files)
    (hid : id ∈ files.fileIds) : id ∈ w.fileIds :=
  List.mem_append_left _ (List.mem_flatMap.mpr ⟨⟨p, files⟩, AList.mem_lookup_iff.mp hf, hid⟩)

theorem mem_fileIds_of_slot {p s} (hs : slotOf (w.tracker.files.lookup p) = some s) :
    s.pendingFile.id ∈ w.fileIds := by
  obtain ⟨files, hf, hs⟩ := Option.bind_eq_some_iff.mp hs
  refine mem_fileIds_of_lookup hf (List.mem_append_left _ ?_)
  rw [hs]
  exact List.mem_singleton_self _

theorem inCustody_holding : InCustody (fun _ => holding P) w ↔ ∀ id ∈ w.fileIds, P id := by
  constructor
  · intro h id hid
    rcases List.mem_append.mp hid with hid | hid
    · obtain ⟨⟨p, files⟩, hmem, hid⟩ := List.mem_flatMap.mp hid
      have hkeeps := h.entries p files (AList.mem_lookup_iff.mpr hmem)
      rcases List.mem_append.mp hid with hid | hid
      · obtain ⟨s, hs, rfl⟩ := Option.map_eq_some_iff.mp (Option.mem_toList.mp hid)
        exact hkeeps.slot s hs
      · obtain ⟨g, hg, rfl⟩ := List.mem_map.mp hid
        exact hkeeps.queue g hg
    · obtain ⟨⟨p, task⟩, hmem, hid⟩ := List.mem_flatMap.mp hid
      cases task with
      | reportInterrupt id' status =>
        obtain rfl := List.mem_singleton.mp hid
        exact h.tasks p _ hmem
      | _ => cases hid
  · refine fun h => ⟨fun p files hf => ⟨fun g hg => ?_, fun s hs => ?_⟩, fun p task ht => ?_⟩
    · exact h _ (mem_fileIds_of_lookup hf (List.mem_append_right _ (List.mem_map_of_mem hg)))
    · exact h _ (mem_fileIds_of_slot (by rw [hf]; exact hs))
    · cases task with
      | reportInterrupt id status =>
        exact h id (List.mem_append_right _
          (List.mem_flatMap.mpr ⟨_, ht, List.mem_singleton_self _⟩))
      | _ => trivial

/-- Whether an event hands a file over. -/
def Event.adds (e : Event) (id : FylesId) : Prop :=
  ∃ p file, e = .call (.addPendingFile p file) ∧ file.id = id

/-- **The tracker invents no file.** What it knows after a step, and what it reports, it knew before
or was handed. -/
theorem World.fileIds_step (h : w.step (e, env) = some w') :
    (∀ id ∈ w'.fileIds, id ∈ w.fileIds ∨ e.adds id) ∧
      ∀ p a, (p, a) ∈ w.news w' → a.file ∈ w.fileIds ∨ e.adds a.file := by
  have hcustody : InCustody (fun _ => holding fun id => id ∈ w.fileIds ∨ e.adds id) w :=
    inCustody_holding.mpr fun id hid => .inl hid
  have hadmits : Custody.Admits (fun _ => holding fun id => id ∈ w.fileIds ∨ e.adds id) w e env :=
    { closed := fun _ => holding_closed _ env
      file := fun p file he _ => .inr ⟨p, file, he, rfl⟩
      accepts := fun p _ _ response s _ _ _ hs _ => by
        have hid : s.pendingFile.id ∈ w.fileIds ∨ e.adds s.pendingFile.id := hcustody.slot hs
        cases response <;> exact hid
      response := fun _ _ _ _ _ => ⟨trivial, fun _ _ _ _ => trivial⟩
      round := fun _ p _ s _ _ hs _ => by
        have hid : s.pendingFile.id ∈ w.fileIds ∨ e.adds s.pendingFile.id := hcustody.slot hs
        exact ⟨hid, fun _ => trivial, ⟨hid, trivial⟩, fun _ _ => ⟨hid, hid⟩⟩ }
  have hkept := hcustody.step hadmits h
  exact ⟨inCustody_holding.mp hkept.custody, hkept.notices⟩

end FileTracker

/-! ### The service -/

namespace Brain

/-- The files whose status a job stores, or that it hands to the tracker. -/
def Job.fileIds : Job → List FylesId
  | .report action => [action.file]
  | .sendFiles files | .initialFiles files => files.map FileToSend.id
  | .readyReset done todo => (done ++ todo).map fun p => p.1.id
  | _ => []

/-- The files that are known outside the database. -/
def Service.fileIds (s : Service) : List FylesId :=
  s.node.fileIds ++ s.jobs.flatMap Job.fileIds

variable {parse : String → Option PeerId} {x : Surroundings} {s s' : Service} {id : FylesId}

theorem mem_fileIds_of_job {job} (hjob : job ∈ s.jobs) (hid : id ∈ job.fileIds) : id ∈ s.fileIds :=
  List.mem_append_right _ (List.mem_flatMap.mpr ⟨job, hjob, hid⟩)

theorem mem_fileIds_withNode {e w} (hstep : s.node.step (e, x.env) = some w)
    (h : id ∈ (s.withNode e w).fileIds) : id ∈ s.fileIds ∨ e.adds id := by
  obtain ⟨hnode, hnews⟩ := FileTracker.World.fileIds_step hstep
  rcases List.mem_append.mp h with h | h
  · exact (hnode id h).imp_left (List.mem_append_left _)
  · obtain ⟨job, hjob, hid⟩ := List.mem_flatMap.mp h
    rcases List.mem_append.mp hjob with hjob | hjob
    · exact .inl (mem_fileIds_of_job hjob hid)
    · obtain ⟨a, ha, rfl⟩ := List.mem_map.mp hjob
      obtain ⟨⟨p, a⟩, hmem, rfl⟩ := List.mem_map.mp ha
      obtain rfl := List.mem_singleton.mp hid
      exact (hnews p a hmem).imp_left (List.mem_append_left _)

/-- The file of a row that `Ready` has read. -/
theorem row_of_recoverable {t : OutgoingTables} {remotes files}
    (hget : t.getAllPendingFiles = .ok files) {p} (hp : p ∈ recoverable remotes files) :
    ∃ row r, t.row p.1.id = some row ∧ t.getRemoteFilerequest row.targetFilerequestId = some r ∧
      p.1 = pendingFileOf row r ∧ isContinuable p.1.status = true ∧
      p.2 ∈ remotes ∧ p.2.id = row.targetFilerequestId := by
  obtain ⟨file, hfile, hpair⟩ := List.mem_filterMap.mp hp
  obtain ⟨r', hr', rfl⟩ := Option.map_eq_some_iff.mp hpair
  rw [t.getAllPendingFiles_eq] at hget
  obtain rfl := Except.ok.inj hget
  obtain ⟨hfile, hcont⟩ := List.mem_filter.mp hfile
  obtain ⟨⟨row, r⟩, hjoined, rfl⟩ := List.mem_map.mp hfile
  obtain ⟨row, hrow, hmap⟩ := List.mem_filterMap.mp hjoined
  obtain ⟨r, hr, heq⟩ := Option.map_eq_some_iff.mp hmap
  obtain ⟨rfl, rfl⟩ := Prod.mk.inj heq
  have htarget := List.find?_some hr'
  exact ⟨row, r, row_of_mem hrow, hr, rfl, hcont, List.mem_of_find?_eq_some hr',
    of_decide_eq_true htarget⟩

/-- **Where a job takes files from**: from what is known, or from the database. It has inserted the
row, or `Ready` has read it. -/
theorem Does.fileIds {job : Job} {next} (h : Does parse x s job s' next)
    (hid : id ∈ s'.fileIds ++ next.flatMap Job.fileIds) :
    id ∈ s.fileIds ∨ id ∈ job.fileIds ∨ ((s'.tables.row id).isSome ∧
      (s.tables.row id = none ∨ ∃ remotes, job = .readyFiles remotes)) := by
  -- jobs that change no place and go on with nothing, or with the files of `job`
  have hsame : ∀ {t : Service} {jobs : List Job}, t.node = s.node → t.jobs = s.jobs →
      (∀ id ∈ jobs.flatMap Job.fileIds, id ∈ job.fileIds) →
      id ∈ t.fileIds ++ jobs.flatMap Job.fileIds → id ∈ s.fileIds ∨ id ∈ job.fileIds := by
    intro t jobs hnode hjobs hnext hid
    rcases List.mem_append.mp hid with hid | hid
    · rw [Service.fileIds, hnode, hjobs] at hid
      exact .inl hid
    · exact .inr (hnext id hid)
  -- commands to the tracker
  have hcommand : ∀ {e : FileTracker.Event} {w : FileTracker.World} {jobs : List Job},
      s.node.step (e, x.env) = some w → (∀ id, e.adds id → id ∈ job.fileIds) →
      (∀ id ∈ jobs.flatMap Job.fileIds, id ∈ job.fileIds) →
      id ∈ (s.withNode e w).fileIds ++ jobs.flatMap Job.fileIds →
      id ∈ s.fileIds ∨ id ∈ job.fileIds := by
    intro e w jobs hstep hadds hnext hid
    rcases List.mem_append.mp hid with hid | hid
    · exact (mem_fileIds_withNode hstep hid).imp_right (hadds id)
    · exact .inr (hnext id hid)
  rw [← or_assoc]
  cases h with
  | report hup =>
    refine .inl (hsame rfl rfl (fun id hid => ?_) hid)
    obtain ⟨job, hjob, hid⟩ := List.mem_flatMap.mp hid
    revert job
    exact forall_followUp (fun _ => nofun) fun _ => nofun
  | sendFile hp hstep =>
    refine .inl (hcommand hstep ?_ ?_ hid)
    · rintro _ ⟨_, _, ⟨⟩, rfl⟩
      exact List.mem_cons_self
    · intro id hid
      simp only [List.flatMap_cons, List.flatMap_nil, List.append_nil] at hid
      exact List.mem_cons_of_mem _ hid
  | initialFile hp hstep =>
    refine .inl (hcommand hstep ?_ ?_ hid)
    · rintro _ ⟨_, _, ⟨⟩, rfl⟩
      exact List.mem_cons_self
    · intro id hid
      simp only [List.flatMap_cons, List.flatMap_nil, List.append_nil] at hid
      exact List.mem_cons_of_mem _ hid
  | cancelFile hstep | cancelRequest _ hstep =>
    refine .inl (hcommand hstep ?_ (by simp [Job.fileIds]) hid)
    rintro _ ⟨_, _, ⟨⟩, -⟩
  | @insertFiles r _ _ hcreate =>
    rcases List.mem_append.mp hid with hid | hid
    · exact .inl (.inl hid)
    · simp only [List.flatMap_cons, List.flatMap_nil, List.append_nil, Job.fileIds,
        List.map_map] at hid
      obtain ⟨f, hf, rfl⟩ := List.mem_map.mp hid
      obtain ⟨-, hrows⟩ := createPendingFiles_ok hcreate
      refine .inr ⟨Option.isSome_iff_exists.mpr ⟨.new f.1 f.2 r.id, ?_⟩,
        .inl (row_of_createPendingFiles hcreate hf)⟩
      refine row_iff.mpr ⟨?_, rfl⟩
      rw [hrows]
      exact List.mem_append_right _ (List.mem_map.mpr ⟨f, hf, rfl⟩)
  | readyFiles hget =>
    rcases List.mem_append.mp hid with hid | hid
    · exact .inl (.inl hid)
    · simp only [List.flatMap_cons, List.flatMap_nil, List.append_nil, Job.fileIds,
        List.nil_append] at hid
      obtain ⟨p, hp, rfl⟩ := List.mem_map.mp hid
      obtain ⟨row, -, hrow, -⟩ := row_of_recoverable hget hp
      exact .inr ⟨by rw [hrow]; rfl, .inr ⟨_, rfl⟩⟩
  | readyDone =>
    refine .inl (hsame rfl rfl (fun id hid => ?_) hid)
    simpa [Job.fileIds, FileToSend.ofRecovered] using hid
  | readyReset hst hup =>
    refine .inl (hsame rfl rfl (fun id hid => ?_) hid)
    simpa [Job.fileIds] using hid
  | readyKeep hst =>
    refine .inl (hsame rfl rfl (fun id hid => ?_) hid)
    simpa [Job.fileIds] using hid
  | _ =>
    exact .inl (hsame rfl rfl (by simp [Job.fileIds]) hid)

/-- The row of a file is deleted by a job. -/
def Job.deletes (t : OutgoingTables) (job : Job) (id : FylesId) : Prop :=
  job = .removeFile id ∨
    ∃ row ∈ t.row id, job = .removeRequest row.targetFilerequestId

/-- **Rows go away by the two jobs that delete them.** -/
theorem Does.row {job next} (h : Does parse x s job s' next) (hrow : (s.tables.row id).isSome) :
    (s'.tables.row id).isSome ∨ job.deletes s.tables id := by
  have hupdated : ∀ {t : OutgoingTables} {id' : FylesId} {f : PendingFileRow → PendingFileRow},
      (∀ row, (f row).id = row.id) →
      t.pendingFiles = updated s.tables.pendingFiles id' f → (t.row id).isSome := by
    intro t id' f hf hrows
    rw [row_updated hf hrows, Option.isSome_map]
    exact hrow
  cases h with
  | report hup =>
    obtain ⟨tag, row, -, -, -, hrows⟩ := updatePendingFileStatus_ok hup
    exact .inl (hupdated (fun _ => PendingFileRow.withStatus_id) hrows)
  | readyReset hst hup =>
    obtain ⟨tag, row, -, -, -, hrows⟩ := updatePendingFileStatus_ok hup
    exact .inl (hupdated (fun _ => PendingFileRow.withStatus_id) hrows)
  | addReason hup =>
    obtain ⟨-, hrows⟩ := addInterruptionReason_ok hup
    exact .inl (hupdated (by intro row; rfl) hrows)
  | insertFiles hcreate =>
    obtain ⟨-, hrows⟩ := createPendingFiles_ok hcreate
    obtain ⟨row, hrow⟩ := Option.isSome_iff_exists.mp hrow
    obtain ⟨hmem, hid⟩ := mem_of_row hrow
    refine .inl (Option.isSome_iff_exists.mpr ⟨row, row_iff.mpr ⟨?_, hid⟩⟩)
    rw [hrows]
    exact List.mem_append_left _ hmem
  | @removeFile id' =>
    by_cases hid : id = id'
    · exact .inr (.inl (by rw [hid]))
    · refine .inl ?_
      rw [row_deletePendingFile, if_neg hid]
      exact hrow
  | @removeRequest id' =>
    obtain ⟨row, hsome⟩ := Option.isSome_iff_exists.mp hrow
    by_cases htarget : row.targetFilerequestId = id'
    · exact .inr (.inr ⟨row, hsome, by rw [htarget]⟩)
    · refine .inl ?_
      rw [row_deleteRemoteFilerequest, hsome]
      simp [htarget]
  | _ => exact .inl hrow

/-- The jobs that wait after a job: those before and new reports. -/
theorem Does.jobs_eq {job next} (h : Does parse x s job s' next) :
    ∃ actions : List NetworkNodeAction, s'.jobs = s.jobs ++ actions.map .report := by
  cases h with
  | sendFile | cancelFile | cancelRequest | initialFile => exact ⟨_, rfl⟩
  | _ =>
    exact ⟨[], (List.append_nil _).symm⟩

/-- The jobs that a step does. -/
def Event.job (s : Service) : Event → Option Job
  | .resume index => s.jobs[index]?
  | _ => none

theorem Happens.fileIds {e} (h : Happens parse x s e s') (hid : id ∈ s'.fileIds) :
    id ∈ s.fileIds ∨ ((s'.tables.row id).isSome ∧
      (s.tables.row id = none ∨ ∃ remotes, e.job s = some (.readyFiles remotes))) := by
  cases h with
  | act action =>
    rcases List.mem_append.mp hid with hid | hid
    · exact .inl (List.mem_append_left _ hid)
    · rw [List.flatMap_append] at hid
      rcases List.mem_append.mp hid with hid | hid
      · exact .inl (List.mem_append_right _ hid)
      · cases action <;> exact nomatch hid
  | @resume index job s₁ next hjob hdoes =>
    have hid' : id ∈ s₁.fileIds ++ next.flatMap Job.fileIds := by
      simp only [Service.fileIds, List.flatMap_append, List.append_assoc] at hid ⊢
      exact hid
    rcases hdoes.fileIds hid' with hold | hold | hrow
    · rcases List.mem_append.mp hold with hold | hold
      · exact .inl (List.mem_append_left _ hold)
      · obtain ⟨job', hjob', hmem⟩ := List.mem_flatMap.mp hold
        exact .inl (mem_fileIds_of_job (List.mem_of_mem_eraseIdx hjob') hmem)
    · exact .inl (mem_fileIds_of_job (List.mem_of_getElem? hjob) hold)
    · refine .inr ⟨hrow.1, hrow.2.imp_right ?_⟩
      rintro ⟨remotes, rfl⟩
      exact ⟨remotes, hjob⟩
  | network hnet hw =>
    refine .inl ((mem_fileIds_withNode hw hid).resolve_right ?_)
    rintro ⟨_, _, rfl, -⟩
    cases hnet
  | restart => exact nomatch hid
  | _ => exact .inl hid

theorem Happens.row {e} (h : Happens parse x s e s') (hrow : (s.tables.row id).isSome) :
    (s'.tables.row id).isSome ∨ ∃ job ∈ e.job s, job.deletes s.tables id := by
  cases h with
  | @resume index job s₁ next hjob hdoes =>
    exact (hdoes.row hrow).imp_right fun hdel => ⟨job, hjob, hdel⟩
  | createRemoteFilerequest hcreate =>
    obtain ⟨-, -, hrows⟩ := createRemoteFilerequest_ok hcreate
    refine .inl ?_
    rw [OutgoingTables.row, hrows]
    exact hrow
  | _ => exact .inl hrow

end Brain

end Fyles
