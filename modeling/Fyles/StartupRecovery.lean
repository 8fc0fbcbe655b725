import Fyles.Internal.Lists
import Fyles.Deliveries

/-!
# Handing the pending files to the tracker at startup

When the network node is ready, the brain reads the remote file requests and the pending files,
stores that those which were being sent are interrupted, and hands every file that is not finished
to the tracker. A user may create files in the meantime; these are inserted and handed to the
tracker by a task of their own.

Each file is to be handed over once. The book of deliveries has to agree with the rows of the
database, those at the start as far as `Ready` has read them and those that were inserted since. It
does, as long as `Ready` does not read rows that `CreatePendingFiles` has inserted. Nothing in the
code prevents that, and then a file is handed over twice. The brain moreover fails to hand over a
file for a remote file request whose peer id is no peer id, at every startup.

## Main results

* `files_recovered` — in every run of such steps `Ready` does not fail, and in the end the tracker
  has accepted every file once, as it was stored
* `recovery_disturbed` — a file that is accepted twice, and a database on which `Ready` fails
-/

namespace Fyles.Brain

open OutgoingTables

variable {parse : String → Option PeerId} {x : Surroundings} {s s' : Service}
  {t : OutgoingTables}

/-! ### Until the pending files are read -/

/-- The ids of the files of a database. -/
def ids (t : OutgoingTables) : List FylesId := t.pendingFiles.map PendingFileRow.id

/-- All remote file requests are of peers. -/
def HasPeers (parse : String → Option PeerId) (t : OutgoingTables) : Prop :=
  ∀ r ∈ t.remoteFilerequests, (parse r.peerId).isSome = true

instance : Decidable (HasPeers parse t) := inferInstanceAs (Decidable (∀ _ ∈ _, _))

/-- `Ready` has not read the pending files yet. Until then the rows of the database at the start are
as they were, and nobody else knows their files; the rows that were inserted are those of remote
file requests that `Ready` has not listed. -/
structure Unread (t : OutgoingTables) (s : Service) : Prop where
  once : s.jobs.countP Job.isReading = 1
  rows : ∃ rows, s.tables.pendingFiles = t.pendingFiles ++ rows ∧ (.ready ∈ s.jobs → rows = []) ∧
    ∀ remotes, .readyFiles remotes ∈ s.jobs → ∀ row ∈ rows,
      (remotes.find? fun r => r.id = row.targetFilerequestId) = none
  remotes : ∀ row ∈ t.pendingFiles, ∀ r ∈ t.getRemoteFilerequest row.targetFilerequestId,
    ∃ name, s.tables.getRemoteFilerequest row.targetFilerequestId = some { r with name := name }
  listed : ∀ remotes, .readyFiles remotes ∈ s.jobs → ∀ row ∈ t.pendingFiles,
    ∀ r ∈ t.getRemoteFilerequest row.targetFilerequestId,
      ∃ name, (remotes.find? fun r => r.id = row.targetFilerequestId) = some { r with name := name }
  unknown : ∀ id ∈ s.fileIds, id ∉ ids t
  reasons : ∀ id reason, .addReason id reason ∈ s.jobs → id ∉ ids t

/-- Whether a job is going to read the rows of a remote file request. -/
def Job.mayRead (id : FylesId) : Job → Bool
  | .ready => true
  | .readyFiles remotes => remotes.any fun r => r.id = id
  | _ => false

theorem updated_append {old new id} (h : id ∉ old.map PendingFileRow.id)
    (f : PendingFileRow → PendingFileRow) :
    updated (old ++ new) id f = old ++ updated new id f := by
  rw [updated, List.map_append]
  congr 1
  refine (List.map_congr_left fun row hrow => ?_).trans (List.map_id _)
  have hne : row.id ≠ id := fun heq => h (heq ▸ List.mem_map_of_mem hrow)
  rw [if_neg hne]
  rfl

/-- The rows of the start are still there. Another row is for a remote file request for which there
was one before, or which `Ready` is not going to read. -/
def Extends (t : OutgoingTables) (s : Service) (rows : List PendingFileRow) (t' : OutgoingTables) :
    Prop :=
  ∃ rows', t'.pendingFiles = t.pendingFiles ++ rows' ∧
    ∀ row' ∈ rows', (∃ row ∈ rows, row.targetFilerequestId = row'.targetFilerequestId) ∨
      ∀ job ∈ s.jobs, job.mayRead row'.targetFilerequestId = false

namespace Unread

variable {job : Job} {jobs next : List Job}

theorem perm (h : Unread t s) (hperm : s.jobs.Perm jobs) : Unread t { s with jobs } where
  once := by
    rw [← hperm.countP_eq]
    exact h.once
  rows := by
    obtain ⟨rows, hrows, hready, hlisted⟩ := h.rows
    exact ⟨rows, hrows, fun hmem => hready (hperm.mem_iff.mpr hmem),
      fun remotes hmem => hlisted remotes (hperm.mem_iff.mpr hmem)⟩
  remotes := h.remotes
  listed remotes hmem := h.listed remotes (hperm.mem_iff.mpr hmem)
  unknown id hid := by
    refine h.unknown id ?_
    rw [Service.fileIds, List.mem_append] at hid ⊢
    exact hid.imp_right fun hid => (hperm.flatMap_right _).mem_iff.mpr hid
  reasons id reason hmem := h.reasons id reason (hperm.mem_iff.mpr hmem)

/-- Rows that are inserted change nothing for those at the start. -/
theorem row_none (h : Unread t s) {id} (hrow : s.tables.row id = none) : id ∉ ids t := by
  obtain ⟨rows, hrows, -⟩ := h.rows
  rw [row_eq_none, hrows, List.map_append, List.mem_append, not_or] at hrow
  exact hrow.1

/-- A step that keeps the rows of the start and the remote file requests. -/
theorem keep {s₁ : Service} (h : Unread t { s with jobs := job :: s.jobs })
    (hjob : job.isReading = false) (hjobs : ∀ job' ∈ jobs, job' ∈ s.jobs ∨ job'.isReading = false)
    (hcount : jobs.countP Job.isReading = s.jobs.countP Job.isReading)
    (hrows : ∀ rows, s.tables.pendingFiles = t.pendingFiles ++ rows → Extends t s rows s₁.tables)
    (hremotes : s₁.tables.remoteFilerequests = s.tables.remoteFilerequests)
    (hids : ∀ id ∈ ({ s₁ with jobs } : Service).fileIds, id ∉ ids t)
    (hreasons : ∀ id reason, .addReason id reason ∈ jobs → id ∉ ids t) :
    Unread t { s₁ with jobs } := by
  have hreading : ∀ job' ∈ jobs, job'.isReading = true → job' ∈ s.jobs := fun job' hmem hread =>
    (hjobs job' hmem).resolve_right (by simp [hread])
  obtain ⟨rows, hold, hready, hlisted⟩ := h.rows
  obtain ⟨rows', hnew, htargets⟩ := hrows rows hold
  refine ⟨?_, ⟨rows', hnew, fun hmem => ?_, fun remotes hmem row' hrow' => ?_⟩, ?_, ?_, hids,
    hreasons⟩
  · have honce := h.once
    simp only [List.countP_cons, hjob] at honce
    rw [hcount]
    simpa using honce
  · -- before the remote file requests are listed nothing is inserted
    have hmem := hreading _ hmem rfl
    refine List.eq_nil_iff_forall_not_mem.mpr fun row' hrow' => ?_
    rcases htargets row' hrow' with ⟨row, hrow, -⟩ | hnone
    · rw [hready (List.mem_cons_of_mem _ hmem)] at hrow
      cases hrow
    · cases hnone _ hmem
  · have hmem := hreading _ hmem rfl
    rcases htargets row' hrow' with ⟨row, hrow, heq⟩ | hnone
    · rw [← heq]
      exact hlisted remotes (List.mem_cons_of_mem _ hmem) row hrow
    · have hany := hnone _ hmem
      rw [Job.mayRead, List.any_eq_false] at hany
      exact List.find?_eq_none.mpr hany
  · intro row hrow r hr
    obtain ⟨name, hname⟩ := h.remotes row hrow r hr
    refine ⟨name, ?_⟩
    rw [getRemoteFilerequest, hremotes]
    exact hname
  · exact fun remotes hmem => h.listed remotes (List.mem_cons_of_mem _ (hreading _ hmem rfl))

/-- What the rows become by a job that reads none of them. -/
theorem rows_of_does (h : Unread t { s with jobs := job :: s.jobs })
    (hdoes : Does parse x s job s' next) (hdeletes : job.isDeletion = false)
    (hinsert : ∀ r filePaths, job = .insertFiles r filePaths →
      ∀ job' ∈ s.jobs, job'.mayRead r.id = false) {rows}
    (hrows : s.tables.pendingFiles = t.pendingFiles ++ rows) : Extends t s rows s'.tables := by
  have hupdated : ∀ {t' : OutgoingTables} {id : FylesId} {f : PendingFileRow → PendingFileRow},
      id ∉ ids t → (∀ row, (f row).targetFilerequestId = row.targetFilerequestId) →
      t'.pendingFiles = updated s.tables.pendingFiles id f → Extends t s rows t' := by
    intro t' id f hid hf hupdated
    refine ⟨updated rows id f, ?_, fun row' hrow' => .inl ?_⟩
    · rw [hupdated, hrows, updated_append hid]
    · rcases mem_updated hrow' with ⟨hrow, -⟩ | ⟨row, hrow, -, rfl⟩
      · exact ⟨row', hrow, rfl⟩
      · exact ⟨row, hrow, (hf row).symm⟩
  have hfile : ∀ id ∈ job.fileIds, id ∉ ids t := fun id hid =>
    h.unknown id (mem_fileIds_of_job List.mem_cons_self hid)
  have hsame : Extends t s rows s.tables := ⟨rows, hrows, fun row hrow => .inl ⟨row, hrow, rfl⟩⟩
  cases hdoes with
  | report hup =>
    obtain ⟨tag, row, -, -, -, hnew⟩ := updatePendingFileStatus_ok hup
    exact hupdated (hfile _ List.mem_cons_self) (fun _ => PendingFileRow.withStatus_target) hnew
  | readyReset hst hup =>
    obtain ⟨tag, row, -, -, -, hnew⟩ := updatePendingFileStatus_ok hup
    refine hupdated (hfile _ ?_) (fun _ => PendingFileRow.withStatus_target) hnew
    rw [Job.fileIds, List.map_append]
    exact List.mem_append_right _ List.mem_cons_self
  | addReason hup =>
    obtain ⟨-, hnew⟩ := addInterruptionReason_ok hup
    exact hupdated (h.reasons _ _ List.mem_cons_self) (by intro row; rfl) hnew
  | @insertFiles r filePaths tables hcreate =>
    obtain ⟨-, hnew⟩ := createPendingFiles_ok hcreate
    refine ⟨_, by rw [hnew, hrows, List.append_assoc], fun row' hrow' => ?_⟩
    rcases List.mem_append.mp hrow' with hrow' | hrow'
    · exact .inl ⟨row', hrow', rfl⟩
    · obtain ⟨f, -, rfl⟩ := List.mem_map.mp hrow'
      exact .inr (hinsert r filePaths rfl)
  | sendFile | initialFile | cleanup | countForPath | removeSource | createFiles | ready
  | readyFiles | readyDone | readyKeep | sweep | sweepRemove | ends => exact hsame
  | _ => cases hdeletes

/-- What a job leaves that is unread, unless it reads. -/
theorem does (h : Unread t { s with jobs := job :: s.jobs }) (hdoes : Does parse x s job s' next)
    (hdeletes : job.isDeletion = false)
    (hinsert : ∀ r filePaths, job = .insertFiles r filePaths →
      ∀ job' ∈ s.jobs, job'.mayRead r.id = false)
    (hremotes : s'.tables.remoteFilerequests = s.tables.remoteFilerequests)
    (hread : ∀ remotes, job ≠ .readyFiles remotes) :
    Unread t { s' with jobs := s'.jobs ++ next } := by
  obtain ⟨actions, hjobs⟩ := hdoes.jobs_eq
  have hids : ∀ id ∈ ({ s' with jobs := s'.jobs ++ next } : Service).fileIds, id ∉ ids t := by
    intro id hid
    have hid' : id ∈ s'.fileIds ++ next.flatMap Job.fileIds := by
      simp only [Service.fileIds, List.flatMap_append, List.append_assoc] at hid ⊢
      exact hid
    rcases hdoes.fileIds hid' with hold | hold | ⟨-, hnone | ⟨remotes, heq⟩⟩
    · refine h.unknown id ?_
      rcases List.mem_append.mp hold with hold | hold
      · exact List.mem_append_left _ hold
      · exact List.mem_append_right _ (List.mem_append_right _ hold)
    · exact h.unknown id (mem_fileIds_of_job List.mem_cons_self hold)
    · exact h.row_none hnone
    · exact absurd heq (hread remotes)
  have hreasons : ∀ id reason, .addReason id reason ∈ s'.jobs ++ next → id ∉ ids t := by
    intro id reason hmem
    rw [hjobs] at hmem
    rcases List.mem_append.mp hmem with hmem | hmem
    · rcases List.mem_append.mp hmem with hmem | hmem
      · exact h.reasons id reason (List.mem_cons_of_mem _ hmem)
      · obtain ⟨_, -, heq⟩ := List.mem_map.mp hmem
        cases heq
    · exact h.unknown id (mem_fileIds_of_job List.mem_cons_self
        ((hdoes.kind _ hmem).2.2 id reason rfl))
  by_cases hready : job = .ready
  · -- the remote file requests are listed
    subst hready
    cases hdoes with
    | ends hends => cases hends
    | ready =>
      obtain ⟨rows, hrows, hempty, -⟩ := h.rows
      have hnil : rows = [] := hempty List.mem_cons_self
      have hcount : s.jobs.countP Job.isReading = 0 := by
        have honce := h.once
        simp only [List.countP_cons, Job.isReading] at honce
        simpa using honce
      have hnone : ∀ job ∈ s.jobs, ¬ job.isReading = true := List.countP_eq_zero.mp hcount
      refine ⟨?_, ⟨rows, hrows, fun _ => hnil, ?_⟩, h.remotes, ?_, hids, hreasons⟩
      · rw [List.countP_append, hcount]
        rfl
      · rw [hnil]
        simp
      · intro remotes hmem row hrow r hr
        rcases List.mem_append.mp hmem with hmem | hmem
        · exact absurd rfl (hnone _ hmem)
        · obtain rfl := Job.readyFiles.inj (List.mem_singleton.mp hmem)
          exact h.remotes row hrow r hr
  · have hjob : job.isReading = false := by
      cases job with
      | ready => exact absurd rfl hready
      | readyFiles remotes => exact absurd rfl (hread remotes)
      | _ => rfl
    have hnext : ∀ job' ∈ next, ¬ job'.isReading = true := fun job' hmem hreading => by
      rw [(hdoes.kind job' hmem).1 hreading] at hjob
      cases hjob
    have hreports : ∀ job' ∈ actions.map Job.report, ¬ job'.isReading = true := by
      intro job' hmem
      obtain ⟨_, -, rfl⟩ := List.mem_map.mp hmem
      rintro ⟨⟩
    refine h.keep hjob (fun job' hmem => ?_) ?_
      (fun rows hrows => h.rows_of_does hdoes hdeletes hinsert hrows)
      hremotes hids hreasons
    · rw [hjobs, List.append_assoc, List.mem_append, List.mem_append] at hmem
      rcases hmem with hmem | hmem | hmem
      · exact .inl hmem
      · exact .inr (by simpa using hreports job' hmem)
      · exact .inr (by simpa using hnext job' hmem)
    · rw [hjobs, List.countP_append, List.countP_append, List.countP_eq_zero.mpr hreports,
        List.countP_eq_zero.mpr hnext]
      rfl

end Unread

/-! ### The invariant -/

/-- The files that `Ready` still looks at have the status of their row at the start. Files are
created for a peer id only, and are none of those at the start. -/
def Job.Recovers (parse : String → Option PeerId) (t : OutgoingTables) : Job → Prop
  | .readyReset _ todo =>
    ∀ p ∈ todo, ∃ row ∈ t.pendingFiles, p.1.id = row.id ∧ p.1.status = row.sendStatus
  | .insertFiles r _ => (parse r.peerId).isSome = true
  | .sendFiles files => ∀ f ∈ files, f.id ∉ ids t
  | _ => True

/-- A delivery for a row that was inserted. -/
def Delivery.IsNew (d : Delivery) : Prop :=
  d.1.isSome = true ∧ d.2.status = .pending ∧ d.2.retryCount = 0

/-- What is owed for the rows at the start. -/
def Owed (parse : String → Option PeerId) (t : OutgoingTables) (s : Service)
    (old : List Delivery) : Prop :=
  (Unread t s ∧ old = []) ∨
    ((∀ job ∈ s.jobs, ¬ job.isReading = true) ∧ old = recoveries parse t)

/-- **The invariant**: the book agrees with the rows. -/
structure Recovering (parse : String → Option PeerId) (t : OutgoingTables) (s : Service) :
    Prop where
  book : ∃ old new, Owed parse t s old ∧ (s.book parse).Perm (old ++ new) ∧
    ids s.tables = ids t ++ (new.map fun d => d.2.id) ∧ ∀ d ∈ new, d.IsNew
  deletions : ∀ job ∈ s.jobs, job.isDeletion = false
  recovers : ∀ job ∈ s.jobs, job.Recovers parse t
  peers : HasPeers parse s.tables

theorem Does.recovers {job next} (h : Does parse x s job s' next) (hjob : job.Recovers parse t)
    (hread : ∀ remotes, job = .readyFiles remotes → Unread t { s with jobs := job :: s.jobs })
    (hpeers : HasPeers parse s.tables) (hids : ∀ id ∈ ids t, id ∈ ids s.tables) :
    ∀ job' ∈ next, job'.Recovers parse t := by
  cases h with
  | report => exact forall_followUp (fun _ => trivial) fun _ => trivial
  | createFiles hget =>
    exact List.forall_mem_singleton.mpr (hpeers _ (mem_of_getRemoteFilerequest hget).1)
  | @insertFiles r filePaths tables hcreate =>
    refine List.forall_mem_singleton.mpr fun f hf hold => ?_
    obtain ⟨g, hg, rfl⟩ := List.mem_map.mp hf
    have hnodup := tables.pending_ids
    rw [(createPendingFiles_ok hcreate).2, List.map_append, List.map_map, List.nodup_append]
      at hnodup
    exact hnodup.2.2 _ (hids _ hold) _ (List.mem_map_of_mem hg) rfl
  | @readyFiles remotes files hget =>
    have hunread := hread remotes rfl
    obtain ⟨rows, hrows, -, hlisted⟩ := hunread.rows
    refine List.forall_mem_singleton.mpr fun p hp => ?_
    obtain ⟨row, r, hrow, -, hp₁, -, hremote, htarget⟩ := row_of_recoverable hget hp
    obtain ⟨hmem, hid⟩ := mem_of_row hrow
    rw [hrows] at hmem
    rcases List.mem_append.mp hmem with hmem | hmem
    · exact ⟨row, hmem, hid.symm, by rw [hp₁]; rfl⟩
    · have hnone := List.find?_eq_none.mp (hlisted remotes List.mem_cons_self row hmem) p.2 hremote
      rw [decide_eq_true_eq] at hnone
      exact absurd htarget hnone
  | sendFile | readyReset | readyKeep =>
    exact List.forall_mem_singleton.mpr (List.forall_mem_cons.mp hjob).2
  | addReason | removeSource | removeFile | removeRequest | ends => exact fun _ h => (nomatch h)
  | _ =>
    exact List.forall_mem_singleton.mpr trivial

/-- All that is in the book is for a peer, and can be accepted. -/
theorem Owed.acceptable {old new} (h : Owed parse t s old) (hnew : ∀ d ∈ new, d.IsNew)
    (hpeers : HasPeers parse t) :
    ∀ d ∈ old ++ new, d.1.isSome = true ∧ d.2.status.isAcceptable = true := by
  intro d hd
  rcases List.mem_append.mp hd with hd | hd
  · rcases h with ⟨-, rfl⟩ | ⟨-, rfl⟩
    · cases hd
    · obtain ⟨row, -, r, hr, rfl, -, hacceptable⟩ := mem_recoveries hd
      exact ⟨hpeers r (mem_of_getRemoteFilerequest hr).1, hacceptable⟩
  · obtain ⟨hpeer, hst, -⟩ := hnew d hd
    exact ⟨hpeer, by rw [hst]; rfl⟩

/-- The steps of `Ready` and of `CreatePendingFiles`, with all that the tracker and its reports do.
Nothing is deleted, remote file requests are created with peer ids, and no row is inserted that
`Ready` is about to read. -/
def Undisturbed (parse : String → Option PeerId) (s : Service) (e : Event × Surroundings) : Prop :=
  match e.1 with
  | .act (.createPendingFiles ..) | .act (.cleanup _) => True
  | .act (.deletePendingFile _) | .act (.deleteRemoteFilerequest _) | .act .ready | .restart =>
    False
  | .resume index =>
    match s.jobs[index]? with
    | some (.insertFiles r _) => ∀ job ∈ s.jobs, job.mayRead r.id = false
    | _ => True
  | .createRemoteFilerequest r => (parse r.peerId).isSome = true
  | _ => True

instance (s : Service) (e : Event × Surroundings) : Decidable (Undisturbed parse s e) := by
  rw [Undisturbed]
  split <;> try infer_instance
  split <;> infer_instance

namespace Recovering

theorem ids_subset (h : Recovering parse t s) : ∀ id ∈ ids t, id ∈ ids s.tables := by
  obtain ⟨old, new, -, -, hids, -⟩ := h.book
  rw [hids]
  exact fun id hid => List.mem_append_left _ hid

theorem does {job next} (h : Recovering parse t { s with jobs := job :: s.jobs })
    (hpeers : HasPeers parse t)
    (hdoes : Does parse x s job s' next) (hinsert : ∀ r filePaths, job = .insertFiles r filePaths →
      ∀ job' ∈ s.jobs, job'.mayRead r.id = false) :
    Recovering parse t { s' with jobs := s'.jobs ++ next } := by
  obtain ⟨old, new, howed, hbook, hids, hnew⟩ := h.book
  have hdeletes : job.isDeletion = false := h.deletions job List.mem_cons_self
  obtain ⟨actions, hjobs⟩ := hdoes.jobs_eq
  have hacceptable : ∀ d ∈ job.deliveries parse, d.2.status.isAcceptable = true := fun d hd =>
    (howed.acceptable hnew hpeers d
      (hbook.subset (List.mem_append_right _ (List.mem_append_left _ hd)))).2
  have hreports : ∀ job' ∈ actions.map Job.report, ¬ job'.isReading = true ∧
      job'.isDeletion = false ∧ job'.Recovers parse t := by
    intro job' hmem
    obtain ⟨_, -, rfl⟩ := List.mem_map.mp hmem
    exact ⟨by simp [Job.isReading], rfl, trivial⟩
  have hmem : ∀ {P : Job → Prop}, (∀ job' ∈ s.jobs, P job') →
      (∀ job' ∈ actions.map Job.report, P job') → (∀ job' ∈ next, P job') →
      ∀ job' ∈ s'.jobs ++ next, P job' := by
    intro P hold hreports hnext
    rw [hjobs]
    exact List.forall_mem_append.mpr ⟨List.forall_mem_append.mpr ⟨hold, hreports⟩, hnext⟩
  obtain ⟨hremotes, hcases⟩ := hdoes.book hdeletes hacceptable
  -- unless `Ready` reads, it is owed what was owed before
  have howed' : (∀ remotes, job ≠ .readyFiles remotes) →
      Owed parse t { s' with jobs := s'.jobs ++ next } old := by
    intro hread
    rcases howed with ⟨hunread, hold⟩ | ⟨hdone, hold⟩
    · exact .inl ⟨hunread.does hdoes hdeletes hinsert hremotes hread, hold⟩
    · refine .inr ⟨hmem (fun job' hjob' => hdone job' (List.mem_cons_of_mem _ hjob'))
        (fun job' hjob' => (hreports job' hjob').1) fun job' hjob' hreading => ?_, hold⟩
      exact hdone job List.mem_cons_self ((hdoes.kind job' hjob').1 hreading)
  refine ⟨?_, ?_, ?_, ?_⟩
  · rcases hcases with
      ⟨r, filePaths, rfl, hreceived, hsame, hrows, rfl⟩ | ⟨remotes, rfl, rfl, rfl⟩ |
      ⟨hread, hrows, hperm⟩
    · -- rows are inserted, and their files are to be handed over
      refine ⟨old, new ++ (drawIds x.newId filePaths).map fun f =>
        (parse r.peerId, (FileToSend.ofNew r f.1 f.2).newFile), howed' (by simp), ?_, ?_, ?_⟩
      · have hnext : ({ s' with jobs := s'.jobs ++ [.sendFiles ((drawIds x.newId filePaths).map
            fun f => .ofNew r f.1 f.2)] } : Service).book parse =
            (s.received ++ s.jobs.flatMap (Job.deliveries parse)) ++
            (drawIds x.newId filePaths).map fun f =>
              (parse r.peerId, (FileToSend.ofNew r f.1 f.2).newFile) := by
          have hreceived' : ({ s' with jobs := s'.jobs ++ [.sendFiles
              ((drawIds x.newId filePaths).map fun f => .ofNew r f.1 f.2)] } : Service).received =
              s.received := hreceived
          rw [Service.book, hreceived', hsame, List.flatMap_append, List.append_assoc]
          congr 2
          simp [Job.deliveries, FileToSend.ofNew]
        rw [hnext, ← List.append_assoc]
        exact List.Perm.append_right _ hbook
      · have hids' : ids s'.tables = ids s.tables ++ (drawIds x.newId filePaths).map Prod.fst := by
          rw [ids, ids, hrows, List.map_append, List.map_map]
          rfl
        rw [hids', hids, List.map_append, List.append_assoc, List.map_map]
        rfl
      · refine List.forall_mem_append.mpr ⟨hnew, fun d hd => ?_⟩
        obtain ⟨f, -, rfl⟩ := List.mem_map.mp hd
        exact ⟨h.recovers _ List.mem_cons_self, rfl, rfl⟩
    · -- the rows are read
      rcases howed with ⟨hunread, rfl⟩ | ⟨hdone, -⟩
      · obtain ⟨rows, hrows, -, hlisted⟩ := hunread.rows
        have hread := deliveries_readyFiles parse hrows
          (fun row hrow r hr => ⟨hunread.remotes row hrow r hr,
            hunread.listed remotes List.mem_cons_self row hrow r hr⟩)
          (hlisted remotes List.mem_cons_self)
        refine ⟨recoveries parse t, new, .inr ⟨?_, rfl⟩, ?_, hids, hnew⟩
        · have hcount : s'.jobs.countP Job.isReading = 0 := by
            have honce := hunread.once
            simp only [List.countP_cons, Job.isReading] at honce
            simpa using honce
          exact List.forall_mem_append.mpr
            ⟨List.countP_eq_zero.mp hcount, List.forall_mem_singleton.mpr (by simp [Job.isReading])⟩
        · rw [Service.book, List.flatMap_append, List.flatMap_cons, List.flatMap_nil,
            List.append_nil, hread, ← List.append_assoc]
          exact List.perm_append_comm.trans (List.Perm.append_left _ hbook)
      · exact absurd rfl (hdone _ List.mem_cons_self)
    · exact ⟨old, new, howed' hread, hperm.trans hbook, hrows.trans hids, hnew⟩
  · exact hmem (fun job' hjob' => h.deletions job' (List.mem_cons_of_mem _ hjob'))
      (fun job' hjob' => (hreports job' hjob').2.1) fun job' hjob' => by
        cases hkind : job'.isDeletion with
        | false => rfl
        | true => rw [(hdoes.kind job' hjob').2.1 hkind] at hdeletes; cases hdeletes
  · refine hmem (fun job' hjob' => h.recovers job' (List.mem_cons_of_mem _ hjob'))
      (fun job' hjob' => (hreports job' hjob').2.2) (hdoes.recovers
        (h.recovers job List.mem_cons_self) (fun remotes heq => ?_) h.peers h.ids_subset)
    rcases howed with ⟨hunread, -⟩ | ⟨hdone, -⟩
    · exact hunread
    · rw [heq] at hdone
      exact absurd rfl (hdone _ List.mem_cons_self)
  · exact fun r hr => h.peers r (hremotes ▸ hr)

theorem perm {jobs} (h : Recovering parse t s) (hperm : s.jobs.Perm jobs) :
    Recovering parse t { s with jobs } := by
  obtain ⟨old, new, howed, hbook, hids, hnew⟩ := h.book
  refine ⟨⟨old, new, ?_, ?_, hids, hnew⟩, fun job hjob => h.deletions job (hperm.mem_iff.mpr hjob),
    fun job hjob => h.recovers job (hperm.mem_iff.mpr hjob), h.peers⟩
  · exact howed.imp (fun ⟨hunread, hold⟩ => ⟨hunread.perm hperm, hold⟩)
      fun ⟨hdone, hold⟩ => ⟨fun job hjob => hdone job (hperm.mem_iff.mpr hjob), hold⟩
  · exact ((hperm.flatMap_right _).append_left _).symm.trans hbook

/-- Jobs that belong to neither task are added, and the tracker goes on. -/
theorem add (h : Recovering parse t s) (node : FileTracker.World) (sources : List (String × ℤ))
    (reported : List NetworkNodeAction) (jobs : List Job)
    (hjobs : ∀ job ∈ jobs, job.isReading = false ∧ job.isDeletion = false ∧ job.Recovers parse t ∧
      job.deliveries parse = [] ∧ ∀ id reason, job ≠ .addReason id reason)
    (hids : ∀ id ∈ ({ s with node, jobs := s.jobs ++ jobs } : Service).fileIds, id ∈ s.fileIds) :
    Recovering parse t { s with node, sources, reported, jobs := s.jobs ++ jobs } := by
  obtain ⟨old, new, howed, hbook, hnew⟩ := h.book
  have hmem : ∀ {job : Job}, job ∈ s.jobs ++ jobs → job.isReading = true → job ∈ s.jobs := by
    intro job hmem hreading
    refine (List.mem_append.mp hmem).resolve_right fun hmem => ?_
    rw [(hjobs job hmem).1] at hreading
    cases hreading
  refine ⟨⟨old, new, ?_, ?_, hnew⟩, List.forall_mem_append.mpr ⟨h.deletions, fun job hjob =>
    (hjobs job hjob).2.1⟩, List.forall_mem_append.mpr ⟨h.recovers, fun job hjob =>
    (hjobs job hjob).2.2.1⟩, h.peers⟩
  · rcases howed with ⟨hunread, hold⟩ | ⟨hdone, hold⟩
    · refine .inl ⟨⟨?_, ?_, hunread.remotes, fun remotes hlisted => hunread.listed remotes
        (hmem hlisted rfl), fun id hid => hunread.unknown id (hids id hid), ?_⟩, hold⟩
      · have hcount : jobs.countP Job.isReading = 0 :=
          List.countP_eq_zero.mpr fun job hjob => by simp [(hjobs job hjob).1]
        rw [List.countP_append, hcount]
        exact hunread.once
      · obtain ⟨rows, hrows, hready, hlisted⟩ := hunread.rows
        exact ⟨rows, hrows, fun hjob => hready (hmem hjob rfl),
          fun remotes hjob => hlisted remotes (hmem hjob rfl)⟩
      · intro id reason hjob
        rcases List.mem_append.mp hjob with hjob | hjob
        · exact hunread.reasons id reason hjob
        · exact absurd rfl ((hjobs _ hjob).2.2.2.2 id reason)
    · refine .inr ⟨List.forall_mem_append.mpr ⟨hdone, fun job hjob => ?_⟩, hold⟩
      simp [(hjobs job hjob).1]
  · have hnone : jobs.flatMap (Job.deliveries parse) = [] :=
      List.flatMap_eq_nil_iff.mpr fun job hjob => (hjobs job hjob).2.2.2.1
    rw [Service.book, List.flatMap_append, hnone, List.append_nil]
    exact hbook

/-- Statements on the remote file requests that keep those of the start, up to their names. -/
theorem remotes {tables} (h : Recovering parse t s)
    (hrows : tables.pendingFiles = s.tables.pendingFiles)
    (hremotes : ∀ id r, s.tables.getRemoteFilerequest id = some r →
      ∃ name, tables.getRemoteFilerequest id = some { r with name := name })
    (hpeers : HasPeers parse tables) : Recovering parse t { s with tables } := by
  obtain ⟨old, new, howed, hbook, hids, hnew⟩ := h.book
  refine ⟨⟨old, new, ?_, hbook, ?_, hnew⟩, h.deletions, h.recovers, hpeers⟩
  · rcases howed with ⟨hunread, hold⟩ | hdone
    · refine .inl ⟨⟨hunread.once, ?_, ?_, hunread.listed, hunread.unknown, hunread.reasons⟩, hold⟩
      · obtain ⟨rows, heq, hrest⟩ := hunread.rows
        exact ⟨rows, hrows.trans heq, hrest⟩
      · intro row hrow r hr
        obtain ⟨name, hname⟩ := hunread.remotes row hrow r hr
        obtain ⟨name', hname'⟩ := hremotes _ _ hname
        exact ⟨name', hname'⟩
    · exact .inr hdone
  · rw [ids, hrows]
    exact hids

theorem step (hpeers : HasPeers parse t) {e} (h : Recovering parse t s)
    (hok : Undisturbed parse s e) (hstep : s.next parse e = some s') : Recovering parse t s' := by
  obtain ⟨e, x⟩ := e
  have hhappens := happens_of_step (Service.next_eq_some.mp hstep)
  have hreports : ∀ (actions : List NetworkNodeAction), ∀ job ∈ actions.map Job.report,
      job.isReading = false ∧ job.isDeletion = false ∧ job.Recovers parse t ∧
      job.deliveries parse = [] ∧ ∀ id reason, job ≠ .addReason id reason := by
    intro actions job hjob
    obtain ⟨action, -, rfl⟩ := List.mem_map.mp hjob
    exact ⟨rfl, rfl, trivial, rfl, by simp⟩
  cases hhappens with
  | act action =>
    cases action with
    | createPendingFiles | cleanup =>
      refine h.add s.node s.sources s.reported _
        (List.forall_mem_singleton.mpr ⟨rfl, rfl, trivial, rfl, by simp [Action.job]⟩)
        fun id hid => ?_
      simp only [Service.fileIds, List.flatMap_append] at hid
      exact (List.append_nil _ ▸ hid : _)
    | _ => cases hok
  | @resume index job s₁ next hjob hdoes =>
    have hperm : s.jobs.Perm (job :: s.jobs.eraseIdx index) := by
      obtain ⟨hlt, rfl⟩ := List.getElem?_eq_some_iff.mp hjob
      exact (List.getElem_cons_eraseIdx_perm hlt).symm
    refine (h.perm hperm).does hpeers hdoes fun r filePaths heq job' hjob' => ?_
    simp only [Undisturbed, hjob, heq] at hok
    exact hok job' (List.mem_of_mem_eraseIdx hjob')
  | @network event w hnet hw =>
    have haccepts : Service.accepts event = [] := by
      cases event with
      | resume => rfl
      | call handler => cases handler <;> first | rfl | cases hnet
    have hnode := h.add w s.sources (s.reported ++ Service.reports s.node w) _
      (hreports (Service.reports s.node w)) fun id hid => ?_
    · rw [Service.withNode, haccepts, List.append_nil]
      exact hnode
    · refine (mem_fileIds_withNode hw hid).resolve_right ?_
      rintro ⟨_, _, rfl, -⟩
      cases hnet
  | createRemoteFilerequest hcreate =>
    obtain ⟨-, hremotes, hrows⟩ := createRemoteFilerequest_ok hcreate
    refine h.remotes hrows (fun id r hr => ⟨r.name, ?_⟩) ?_
    · rw [getRemoteFilerequest, hremotes, List.find?_append]
      rw [getRemoteFilerequest] at hr
      rw [hr]
      rfl
    · rw [HasPeers, hremotes]
      exact List.forall_mem_append.mpr ⟨h.peers, List.forall_mem_singleton.mpr hok⟩
  | updateRemoteFilerequest id name =>
    refine h.remotes rfl (fun id' r hr => ?_) fun r hr => ?_
    · rw [getRemoteFilerequest_update, hr, Option.map_some]
      split
      · exact ⟨name, rfl⟩
      · exact ⟨r.name, rfl⟩
    · obtain ⟨r, hmem, rfl⟩ := List.mem_map.mp hr
      have hpeer := h.peers r hmem
      split <;> exact hpeer
  | storeSource filePath modified =>
    have hsources := h.add s.node ((filePath, modified) :: s.sources.filter fun f => f.1 ≠ filePath)
      s.reported [] (by simp) fun id hid => by rwa [List.append_nil] at hid
    rw [List.append_nil] at hsources
    exact hsources
  | restart => cases hok
  | nothing => exact h

end Recovering

/-! ### Exactly once -/

/-- The service is started and told that the node is ready. -/
def Service.recovering (tables : OutgoingTables) (sources : List (String × ℤ)) : Service :=
  { Service.start tables sources with jobs := [.ready] }

/-- What the tracker has accepted under an id. -/
def Service.acceptedAs (s : Service) (id : FylesId) : List (PeerId × PendingFile) :=
  s.accepted.filter fun a => a.2.id = id

theorem recovering_start (sources : List (String × ℤ))
    (hpeers : HasPeers parse t) : Recovering parse t (.recovering t sources) := by
  refine ⟨⟨[], [], .inl ⟨⟨rfl, ⟨[], (List.append_nil _).symm, fun _ => rfl, ?_⟩, ?_, ?_, ?_, ?_⟩,
    rfl⟩, .refl _, (List.append_nil _).symm, fun _ h => (nomatch h)⟩, ?_, ?_, hpeers⟩
  · exact fun _ _ _ h => (nomatch h)
  · exact fun row _ r hr => ⟨r.name, hr⟩
  · exact fun remotes hmem => nomatch List.mem_singleton.mp hmem
  · exact fun _ h => (nomatch h)
  · exact fun id reason hmem => nomatch List.mem_singleton.mp hmem
  · exact List.forall_mem_singleton.mpr rfl
  · exact List.forall_mem_singleton.mpr trivial

/-- The tracker has accepted what the rows of a database ask for, and has accepted or is going to be
told of new files. -/
structure Recovered (parse : String → Option PeerId) (t : OutgoingTables) (s : Service)
    (new : List Delivery) : Prop where
  book : (s.book parse).Perm (recoveries parse t ++ new)
  waiting : ∀ d ∈ s.jobs.flatMap (Job.deliveries parse), d.2.id ∉ ids t
  ids_eq : ids s.tables = ids t ++ new.map fun d => d.2.id
  isNew : ∀ d ∈ new, d.IsNew

namespace Recovering

theorem ids_disjoint {new : List Delivery}
    (hids : ids s.tables = ids t ++ new.map fun d => d.2.id) :
    (new.map fun d => d.2.id).Nodup ∧ ∀ id ∈ ids t, id ∉ new.map fun d => d.2.id := by
  have hnodup : (ids s.tables).Nodup := s.tables.pending_ids
  rw [hids, List.nodup_append] at hnodup
  exact ⟨hnodup.2.1, fun id hold hnew => hnodup.2.2 id hold id hnew rfl⟩

/-- Interrupting a file that was being sent at the start can be stored. -/
theorem interrupt (h : Recovering parse t s) {row} (hrow : row ∈ t.pendingFiles) {data}
    (hst : row.sendStatus = .inProgress ⟨.sending, data⟩) :
    ∃ target tables, s.tables.updatePendingFileStatus row.id (.inProgress ⟨.interrupted, data⟩)
      none = .ok (target, tables) := by
  obtain ⟨old, new, -, -, hids, -⟩ := h.book
  have hrow' : ∃ row', s.tables.row row.id = some row' := by
    have hmem : row.id ∈ ids s.tables := by
      rw [hids]
      exact List.mem_append_left _ (List.mem_map_of_mem hrow)
    obtain ⟨row', hmem, hid⟩ := List.mem_map.mp hmem
    exact ⟨row', row_iff.mpr ⟨hmem, hid⟩⟩
  obtain ⟨row', hrow'⟩ := hrow'
  have hcounts := t.counts row hrow
  obtain ⟨progress, size, hprogress, hsize, hdata⟩ :=
    PendingFileRow.transferData_sendStatus hcounts
      (show row.sendStatus.transferData = some data by rw [hst]; rfl)
  have hprogress := hcounts.1 progress hprogress
  have hsize := hcounts.2 size hsize
  have hsigns : 0 ≤ toI64 data.progressBytes ∧ 0 ≤ toI64 data.fileSizeBytes := by
    rw [toI64_of_lt (by omega), toI64_of_lt (by omega)]
    omega
  have hcheck : (row'.withStatus .interrupted (some data) none).Check := by
    refine ⟨⟨rfl, ?_⟩, ⟨rfl, ?_⟩, rfl⟩
    · rintro _ ⟨⟩
      exact hsigns.1
    · rintro _ ⟨⟩
      exact hsigns.2
  rcases updatePendingFileStatus_cases s.tables row.id
    (.inProgress ⟨.interrupted, data⟩) none with
    ⟨e, htag, -⟩ | ⟨tag, htag, ⟨hnone, -⟩ | ⟨row₁, hrow₁, ⟨hfails, -⟩ | ⟨-, t', hok, -⟩⟩⟩
  · cases htag
  · rw [hrow'] at hnone
    cases hnone
  · obtain rfl := Except.ok.inj htag
    exact absurd hcheck hfails
  · exact ⟨_, t', hok⟩

theorem stepNode_addPendingFile {α : Type} {peer : PeerId} {file : PendingFile}
    {env : FileTracker.Env} (f : Service → α) :
    ∃ r, (s.stepNode (.call (.addPendingFile peer file)) env).map f = .ok r := by
  have hreturned : ∀ sec, (FileTracker.addPendingFile file sec).2 = .returned := by
    intro sec
    rw [FileTracker.addPendingFile]
    split <;> rfl
  have hstep : s.node.step (.call (.addPendingFile peer file), env) = some _ :=
    FileTracker.World.step_of_returned rfl (Prod.ext rfl (hreturned (s.node.tracker.enter peer)))
  rw [Service.stepNode, hstep]
  exact ⟨_, rfl⟩

/-- Neither `Ready` nor handing over new files fails. -/
theorem no_failure (h : Recovering parse t s) (hpeers : HasPeers parse t) {index : ℕ} {job}
    (hjob : s.jobs[index]? = some job)
    (hwaits : job.isRecovery = true ∨ job.deliveries parse ≠ []) (x : Surroundings) :
    ∃ s', s.step parse (.resume index, x) = .ok s' := by
  have hmem := List.mem_of_getElem? hjob
  have hpeer : ∀ d ∈ job.deliveries parse, ∃ peer, d.1 = some peer := by
    obtain ⟨old, new, howed, hbook, -, hnew⟩ := h.book
    exact fun d hd => Option.isSome_iff_exists.mp (howed.acceptable hnew hpeers d
      (hbook.subset (List.mem_append_right _ (List.mem_flatMap.mpr ⟨job, hmem, hd⟩)))).1
  have hrun : (∃ r, runJob parse x { s with jobs := s.jobs.eraseIdx index } job = .ok r) →
      ∃ s', s.step parse (.resume index, x) = .ok s' := by
    rintro ⟨r, hr⟩
    simp only [Service.step, hjob, hr]
    exact ⟨_, rfl⟩
  apply hrun
  cases job with
  | ready => exact ⟨_, rfl⟩
  | readyFiles remotes =>
    simp only [runJob, getAllPendingFiles_eq]
    exact ⟨_, rfl⟩
  | readyReset done todo =>
    cases todo with
    | nil => exact ⟨_, rfl⟩
    | cons p todo =>
      obtain ⟨row, hrow, hid, hstatus⟩ := h.recovers _ hmem _ List.mem_cons_self
      simp only [runJob]
      split
      · next data hst =>
        obtain ⟨target, tables, hup⟩ := h.interrupt hrow (hstatus.symm.trans hst)
        rw [← hid] at hup
        rw [hup]
        exact ⟨_, rfl⟩
      · exact ⟨_, rfl⟩
  | initialFiles files | sendFiles files =>
    cases files with
    | nil => exact ⟨_, rfl⟩
    | cons f files =>
      obtain ⟨peer, hpeer⟩ : ∃ peer, parse f.peerId = some peer := hpeer _ List.mem_cons_self
      simp only [runJob, hpeer]
      exact stepNode_addPendingFile _
  | _ => rcases hwaits with ⟨⟨⟩⟩ | hwaits; exact absurd rfl hwaits

/-- When no job of `Ready` waits, the tracker has accepted what the rows ask for. -/
theorem recovered (h : Recovering parse t s) (hdone : ∀ job ∈ s.jobs, job.isRecovery = false) :
    ∃ new, Recovered parse t s new := by
  obtain ⟨old, new, howed, hbook, hids, hnew⟩ := h.book
  rcases howed with ⟨hunread, -⟩ | ⟨-, rfl⟩
  · obtain ⟨job, hjob, hreading⟩ := List.countP_pos_iff.mp (by rw [hunread.once]; decide)
    have hrecovery := hdone job hjob
    cases job with
    | ready | readyFiles => cases hrecovery
    | _ => cases hreading
  · refine ⟨new, hbook, fun d hd => ?_, hids, hnew⟩
    obtain ⟨job, hjob, hd⟩ := List.mem_flatMap.mp hd
    have hrecovery := hdone job hjob
    cases job with
    | sendFiles files =>
      obtain ⟨f, hf, rfl⟩ := List.mem_map.mp hd
      exact h.recovers _ hjob f hf
    | initialFiles | readyReset => cases hrecovery
    | _ => cases hd

end Recovering

theorem acceptedAs_singleton {id d} (h : (s.received.filter fun d => d.2.id = id).Perm [d]) :
    ∃ peer, d.1 = some peer ∧ s.acceptedAs id = [(peer, d.2)] := by
  have hmap : (s.acceptedAs id).map (fun a => ((some a.1, a.2) : Delivery)) = [d] := by
    rw [← List.perm_singleton.mp h, Service.acceptedAs, Service.received, List.filter_map]
    rfl
  obtain ⟨a, hsingle, rfl⟩ := List.map_eq_singleton_iff.mp hmap
  exact ⟨a.1, rfl, hsingle⟩

namespace Recovered

variable {t : OutgoingTables} {new : List Delivery} {row : PendingFileRow}

/-- What was received under an id, if nothing waits under it. -/
theorem received_filter (h : Recovered parse t s new) (id : FylesId)
    (hnone : ∀ d ∈ s.jobs.flatMap (Job.deliveries parse), d.2.id ≠ id) :
    (s.received.filter fun d => d.2.id = id).Perm
      ((recoveries parse t).filter (fun d => d.2.id = id) ++ new.filter fun d => d.2.id = id) := by
  have hbook := h.book.filter fun d => d.2.id = id
  rwa [Service.book, List.filter_append, List.filter_append, List.filter_eq_nil_iff.mpr fun d hd =>
    mt of_decide_eq_true (hnone d hd), List.append_nil] at hbook

/-- A file of the start is among those of `Ready` only. -/
theorem received_of_row (h : Recovered parse t s new) (hrow : row ∈ t.pendingFiles) :
    (s.received.filter fun d => d.2.id = row.id).Perm
      (if isContinuable row.sendStatus then
        (t.getRemoteFilerequest row.targetFilerequestId).map fun r =>
          (parse r.peerId, recoveredFile (pendingFileOf row r) r)
      else none).toList := by
  have hkey : ∀ row : PendingFileRow, ∀ d ∈ (if isContinuable row.sendStatus then
      (t.getRemoteFilerequest row.targetFilerequestId).map fun r =>
        ((parse r.peerId, recoveredFile (pendingFileOf row r) r) : Delivery)
      else none), d.2.id = row.id := by
    intro row d hd
    split at hd
    · obtain ⟨r, -, rfl⟩ := Option.map_eq_some_iff.mp hd
      rfl
    · cases hd
  have hnone : (new.filter fun d => d.2.id = row.id) = [] := by
    rw [List.filter_eq_nil_iff]
    intro d hd heq
    exact (Recovering.ids_disjoint h.ids_eq).2 row.id (List.mem_map_of_mem hrow)
      (of_decide_eq_true heq ▸ List.mem_map_of_mem (f := fun d : Delivery => d.2.id) hd)
  have hrows := filter_filterMap_key (k := fun d : Delivery => d.2.id) hkey t.pending_ids hrow
  have hperm := h.received_filter row.id fun d hd heq =>
    h.waiting d hd (heq ▸ List.mem_map_of_mem hrow)
  rw [hnone, List.append_nil, recoveries, hrows] at hperm
  exact hperm

/-- A file that was finished at the start is not accepted. -/
theorem acceptedAs_of_terminal (h : Recovered parse t s new) (hrow : row ∈ t.pendingFiles)
    (hterminal : row.status.isTerminal = true) : s.acceptedAs row.id = [] := by
  have hperm := h.received_of_row hrow
  rcases sendStatus_cases (t.checks row hrow) (t.counts row hrow) with ⟨-, hcont⟩ | ⟨hopen, -⟩
  · rw [hcont] at hperm
    have hnil := List.perm_nil.mp hperm
    rw [Service.received, List.filter_map, List.map_eq_nil_iff] at hnil
    exact hnil
  · rw [hopen] at hterminal
    cases hterminal

/-- A file that was not finished at the start is accepted once. -/
theorem acceptedAs_of_open (h : Recovered parse t s new) (hrow : row ∈ t.pendingFiles)
    (hopen : row.status.isTerminal = false) : ∃ r peer,
      t.getRemoteFilerequest row.targetFilerequestId = some r ∧ parse r.peerId = some peer ∧
      row.sendStatus.restarted.isAcceptable = true ∧
      s.acceptedAs row.id = [(peer, ⟨row.id, r.contactId, row.filePath, row.retryCount,
        r.filerequestId, row.sendStatus.restarted⟩)] := by
  have hperm := h.received_of_row hrow
  rcases sendStatus_cases (t.checks row hrow) (t.counts row hrow) with
    ⟨hterminal, -⟩ | ⟨-, hcont, hacceptable⟩
  · rw [hopen] at hterminal
    cases hterminal
  · obtain ⟨r, hr⟩ := exists_remote hrow
    rw [if_pos hcont, hr] at hperm
    obtain ⟨peer, hpeer, haccepted⟩ := acceptedAs_singleton hperm
    exact ⟨r, peer, hr, hpeer, hacceptable, haccepted⟩

/-- A file that was created since the start is accepted once. -/
theorem acceptedAs_of_new (h : Recovered parse t s new)
    (hdone : ∀ job ∈ s.jobs, job.deliveries parse = []) (hrow : row ∈ s.tables.pendingFiles)
    (hnone : t.row row.id = none) : ∃ peer file,
      s.acceptedAs row.id = [(peer, file)] ∧ file.status = .pending ∧ file.retryCount = 0 := by
  have hmem : row.id ∈ ids s.tables := List.mem_map_of_mem hrow
  rw [h.ids_eq] at hmem
  have hnotold : row.id ∉ ids t := row_eq_none.mp hnone
  obtain ⟨d, hd, hid⟩ := List.mem_map.mp ((List.mem_append.mp hmem).resolve_left hnotold)
  have hready : ((recoveries parse t).filter fun d => d.2.id = row.id) = [] := by
    rw [List.filter_eq_nil_iff]
    intro d hd heq
    obtain ⟨row₀, hrow₀, r, -, rfl, -⟩ := mem_recoveries hd
    exact hnotold (of_decide_eq_true heq ▸ List.mem_map_of_mem hrow₀)
  have hsingle := filter_filterMap_key (f := some) (k := fun d : Delivery => d.2.id)
    (by rintro d _ ⟨⟩; rfl) (Recovering.ids_disjoint h.ids_eq).1 hd
  have hperm := h.received_filter row.id fun d hd => by
    rw [List.flatMap_eq_nil_iff.mpr hdone] at hd
    cases hd
  rw [List.filterMap_some, hid] at hsingle
  rw [hready, List.nil_append, hsingle] at hperm
  obtain ⟨peer, -, haccepted⟩ := acceptedAs_singleton hperm
  exact ⟨peer, d.2, haccepted, (h.isNew d hd).2⟩

theorem row_of_accepted (h : Recovered parse t s new) {a} (ha : a ∈ s.accepted) :
    (s.tables.row a.2.id).isSome = true := by
  have hmem : ((some a.1, a.2) : Delivery) ∈ recoveries parse t ++ new :=
    h.book.subset (List.mem_append_left _ (List.mem_map_of_mem ha))
  have hid : a.2.id ∈ ids s.tables := by
    rw [h.ids_eq]
    rcases List.mem_append.mp hmem with hmem | hmem
    · obtain ⟨row, hrow, r, -, heq, -⟩ := mem_recoveries hmem
      refine List.mem_append_left _ ?_
      rw [(Prod.mk.inj heq).2]
      exact List.mem_map_of_mem hrow
    · exact List.mem_append_right _ (List.mem_map_of_mem (f := fun d : Delivery => d.2.id) hmem)
  obtain ⟨row, hrow, hid⟩ := List.mem_map.mp hid
  exact Option.isSome_iff_exists.mpr ⟨row, row_iff.mpr ⟨hrow, hid⟩⟩

end Recovered

/-- **Startup recovery.** In every run after a start on any database with valid peer ids, in which
nothing is deleted, remote file requests are created with valid peer ids and `Ready` reads no row
that was inserted: neither `Ready` nor handing over the files that are created fails. As soon as no
job of `Ready` waits, the tracker has accepted each file of the database at the start that is not
finished exactly once, with its retry counter and with its status, or as interrupted if it was being
sent, and no finished file. When the tasks that create files are done too, it has accepted each file
that was created since exactly once. -/
theorem files_recovered {tables : OutgoingTables} {sources : List (String × ℤ)}
    {events : List (Event × Surroundings)}
    (hpeers : HasPeers parse tables)
    (h : Run (Service.next parse) (Undisturbed parse) (.recovering tables sources) events s) :
    (∀ index job x failure, s.jobs[index]? = some job →
      job.isRecovery = true ∨ job.deliveries parse ≠ [] →
      s.step parse (.resume index, x) ≠ .error failure) ∧
    ((∀ job ∈ s.jobs, job.isRecovery = false) →
      (∀ row ∈ tables.pendingFiles, row.status.isTerminal = true → s.acceptedAs row.id = []) ∧
      (∀ row ∈ tables.pendingFiles, row.status.isTerminal = false → ∃ r peer,
        tables.getRemoteFilerequest row.targetFilerequestId = some r ∧
        parse r.peerId = some peer ∧ row.sendStatus.restarted.isAcceptable = true ∧
        s.acceptedAs row.id = [(peer, ⟨row.id, r.contactId, row.filePath, row.retryCount,
          r.filerequestId, row.sendStatus.restarted⟩)]) ∧
      (∀ a ∈ s.accepted, (s.tables.row a.2.id).isSome = true) ∧
      ((∀ job ∈ s.jobs, job.deliveries parse = []) → ∀ row ∈ s.tables.pendingFiles,
        tables.row row.id = none → ∃ peer file, s.acceptedAs row.id = [(peer, file)] ∧
          file.status = .pending ∧ file.retryCount = 0)) := by
  have hrec : Recovering parse tables s :=
    h.invariant (recovering_start sources hpeers) (Recovering.step hpeers)
  refine ⟨fun index job x failure hjob hwaits hfails => ?_, fun hdone => ?_⟩
  · obtain ⟨s', hs'⟩ := hrec.no_failure hpeers hjob hwaits x
    cases hfails.symm.trans hs'
  obtain ⟨new, hrecovered⟩ := hrec.recovered hdone
  exact ⟨fun _ => hrecovered.acceptedAs_of_terminal, fun _ => hrecovered.acceptedAs_of_open,
    fun _ => hrecovered.row_of_accepted, fun hsent _ => hrecovered.acceptedAs_of_new hsent⟩

/-- The sample file is sent, and some of it is acknowledged. The process ends. -/
def sampleInterruption : List (Event × Surroundings) :=
  [.network (.call (.triggerInteractionWith ⟨"peer"⟩)),
    .network (.call (.receiveResponse ⟨"peer"⟩ (some ⟨"contact"⟩) (some 0) .acceptNewTransfer)),
    .network (.resume 0),
    .network (.call (.receiveResponse ⟨"peer"⟩ (some ⟨"contact"⟩) (some 1) .confirmChunk)),
    .resume 0, .resume 0].map fun e => (e, sampleSurroundings [1, 2, 3] "")

/-- Another file is created after `Ready` has read the pending files. -/
def sampleRecovery : List (Event × Surroundings) :=
  [.act (.createPendingFiles ⟨"row"⟩ ["other"]), .resume 0, .resume 1, .resume 0, .resume 0,
    .resume 1, .resume 0, .resume 0, .resume 1, .resume 0, .resume 0].map
    fun e => (e, sampleSurroundings [] "other")

/-- A file that was being sent, and one that is created in the meantime. -/
theorem files_recovered_sample : ∃ s₀ s,
    Run (Service.next sampleParse) (fun _ _ => True) (.start .empty [])
      (sampleSetup ++ sampleInterruption) s₀ ∧
    Run (Service.next sampleParse) (Undisturbed sampleParse) (.recovering s₀.tables [])
      sampleRecovery s ∧
    (∀ job ∈ s.jobs, job.isRecovery = false) ∧
    (∀ job ∈ s.jobs, job.deliveries sampleParse = []) ∧
    s.acceptedAs ⟨"file0"⟩ = [(⟨"peer"⟩, ⟨⟨"file0"⟩, ⟨"contact"⟩, "path", 0, ⟨"filerequest"⟩,
      .inProgress ⟨.interrupted, ⟨3, 10, ⟨"transfer"⟩⟩⟩⟩)] ∧
    (s.tables.row ⟨"other0"⟩).isSome = true ∧
    ∀ row ∈ s.tables.pendingFiles, s₀.tables.row row.id = none → ∃ peer file,
      s.acceptedAs row.id = [(peer, file)] ∧ file.status = .pending ∧ file.retryCount = 0 := by
  have h₀ : Run (Service.next sampleParse) (fun _ _ => True) (.start .empty [])
      (sampleSetup ++ sampleInterruption) _ := Run.get_runFrom
  have h : Run (Service.next sampleParse) (Undisturbed sampleParse) (.recovering _ [])
      sampleRecovery _ :=
    Run.get_runFrom (s := Service.recovering ((runFrom (Service.next sampleParse) (.start .empty [])
      (sampleSetup ++ sampleInterruption)).get (by decide)).tables []) (by decide) (by decide)
  have hall := (files_recovered (by decide) h).2 (by decide)
  exact ⟨_, _, h₀, h, by decide, by decide, by decide, by decide, hall.2.2.2 (by decide)⟩

/-- The row of a file is inserted before `Ready` reads the pending files. -/
def sampleDisturbance : List (Event × Surroundings) :=
  [.createRemoteFilerequest sampleRequest, .act (.createPendingFiles ⟨"row"⟩ ["path"]), .resume 1,
    .resume 1, .resume 0, .resume 1, .resume 1, .resume 1, .resume 0, .resume 1, .resume 0,
    .resume 0, .resume 0].map fun e => (e, sampleSurroundings [] "file")

/-- A file for a remote file request with a text that is no peer id. -/
def sampleInvalidPeer : List (Event × Surroundings) :=
  [.createRemoteFilerequest { sampleRequest with peerId := "invalid" },
    .act (.createPendingFiles ⟨"row"⟩ ["path"]), .resume 0, .resume 0].map
    fun e => (e, sampleSurroundings [] "file")

/-- **Recovery goes wrong.** A file is accepted twice, because `Ready` reads the row that
`CreatePendingFiles` has just inserted. `Ready` fails if a peer id is no peer id. -/
theorem recovery_disturbed :
    (∃ s, Run (Service.next sampleParse) (fun _ _ => True) (.recovering .empty []) sampleDisturbance
      s ∧ (∀ job ∈ s.jobs, job.isRecovery = false ∧ job.deliveries sampleParse = []) ∧
      (s.acceptedAs ⟨"file0"⟩).length = 2) ∧
    ∃ s₀ s, Run (Service.next sampleParse) (fun _ _ => True) (.start .empty []) sampleInvalidPeer
        s₀ ∧
      Run (Service.next sampleParse) (fun _ _ => True) (.recovering s₀.tables [])
        ([.resume 0, .resume 0, .resume 0, .resume 0].map
          fun e => (e, sampleSurroundings [] "")) s ∧
      (∃ files, s.jobs[0]? = some (.initialFiles files)) ∧
      s.step sampleParse (.resume 0, sampleSurroundings [] "") = .error (.peerId "invalid") := by
  refine ⟨⟨_, Run.get_runFrom, by decide, by decide⟩, ?_⟩
  exact ⟨_, _, Run.get_runFrom, Run.get_runFrom,
    ⟨_, rfl⟩, rfl⟩

end Fyles.Brain
