import Fyles.Internal.Backlog
import Fyles.Deliveries

/-!
# The order of status reports

For every report of the tracker the brain starts a task that stores the status. The statement does
not look at the status that the row has, and the tasks are executed in any order. So the status of a
finished file is set back if the task of an earlier report comes after that of the last one.

If the tasks for a file are executed in the order of the reports, if the tracker reports nothing new
about a file that is finished, and if `Ready` and `CreatePendingFiles` set no status of a file about
which there was a report, then this does not happen. A finished file stays finished, and when no
report waits, each row has the status of the last report about its file.

## Main results

* `Does.stored` — whose status a job sets
* `Ordered.step` — orderly steps keep the order
* `Ordered.final` — a step does not change the status of a finished file
-/

namespace Fyles.Brain

open OutgoingTables

variable {parse : String → Option PeerId} {x : Surroundings} {s s' : Service} {job : Job}
  {next : List Job} {id : FylesId}

/-! ### Orderly steps -/

/-- The status that a report stores, if it can be stored. -/
def tagOf (a : NetworkNodeAction) : Option StatusTag := a.sendStatus.statusTag.toOption

/-- The status of a finished file. -/
def IsFinal (status : Option StatusTag) : Prop := status.any StatusTag.isTerminal = true

instance (status : Option StatusTag) : Decidable (IsFinal status) :=
  inferInstanceAs (Decidable (_ = true))

/-- The status in the row of a file. -/
def storedStatus (t : OutgoingTables) (id : FylesId) : Option (Option StatusTag) :=
  (t.row id).map fun row => some row.status

/-- The report that a job stores. -/
def Job.action : Job → Option NetworkNodeAction
  | .report action => some action
  | _ => none

/-- The reports that wait, the oldest first. -/
def Service.waiting (s : Service) : List NetworkNodeAction := s.jobs.filterMap Job.action

/-- The files whose status a job sets without a report. -/
def Job.sets (x : Surroundings) : Job → List FylesId
  | .readyReset _ (({ id, status := .inProgress ⟨.sending, _⟩, .. }, _) :: _) => [id]
  | .insertFiles _ filePaths => (drawIds x.newId filePaths).map Prod.fst
  | _ => []

/-- A job comes in order: a report after the older ones about the file, and another status only for
files without reports. -/
def Job.InTurn (s : Service) (x : Surroundings) (index : ℕ) (job : Job) : Prop :=
  (∀ a ∈ job.action, ∀ b ∈ (s.jobs.take index).filterMap Job.action, b.file ≠ a.file) ∧
  ∀ id ∈ job.sets x, ∀ a ∈ s.reported, a.file ≠ id

instance (s : Service) (x : Surroundings) (index : ℕ) (job : Job) :
    Decidable (job.InTurn s x index) :=
  inferInstanceAs (Decidable (_ ∧ _))

/-- New reports about files that are finished, in the database or after the reports that wait or
those among them, repeat the status. -/
def Timely (s : Service) (new : List NetworkNodeAction) : Prop :=
  (∀ a ∈ new, (∀ row ∈ s.tables.row a.file, row.status.isTerminal → tagOf a = some row.status) ∧
    ∀ b ∈ s.waiting, a.file = b.file → IsFinal (tagOf b) → tagOf a = tagOf b) ∧
  new.Pairwise fun a b => IsFinal (tagOf a) → b.file = a.file → tagOf b = tagOf a

instance (s : Service) (new : List NetworkNodeAction) : Decidable (Timely s new) :=
  inferInstanceAs (Decidable (_ ∧ _))

/-- The place of the job that an event is about. -/
def Event.index : Event → Option ℕ
  | .resume index => some index
  | _ => none

/-- **Orderly steps**: the jobs that come in order, if the tracker reports in time. -/
def Orderly (parse : String → Option PeerId) (s : Service) (e : Event × Surroundings) : Prop :=
  (∀ index ∈ e.1.index, ∀ job ∈ s.jobs[index]?, job.InTurn s e.2 index) ∧
  ∀ s' ∈ s.next parse e, Timely s (s'.reported.drop s.reported.length)

instance (parse : String → Option PeerId) (s : Service) (e : Event × Surroundings) :
    Decidable (Orderly parse s e) :=
  inferInstanceAs (Decidable (_ ∧ _))

/-- What holds between orderly steps. A file that `Ready` is going to set back is not finished, if
there was no report about it. -/
structure Ordered (s : Service) : Prop where
  backlog : Backlog NetworkNodeAction.file tagOf IsFinal s.reported s.waiting
    (storedStatus s.tables)
  recovering : ∀ done todo, .readyReset done todo ∈ s.jobs → ∀ p ∈ todo,
    (∀ a ∈ s.reported, a.file ≠ p.1.id) →
    ∀ row ∈ s.tables.row p.1.id, row.status.isTerminal = false

/-! ### What a job does to statuses -/

theorem storedStatus_some {t status} :
    storedStatus t id = some status ↔ ∃ row, t.row id = some row ∧ some row.status = status :=
  Option.map_eq_some_iff

theorem storedStatus_updated {t t' id' tag data retryCount} (h : t'.pendingFiles =
      updated t.pendingFiles id' (.withStatus tag data retryCount)) (id : FylesId) :
    storedStatus t' id =
      if id = id' then (t.row id).map fun _ => some tag else storedStatus t id := by
  rw [storedStatus, row_updated (fun _ => PendingFileRow.withStatus_id) h,
    Option.map_map]
  split
  · next heq => simp only [Function.comp_def, PendingFileRow.withStatus_status]
  · rfl

theorem row_createPendingFiles {t t' : OutgoingTables} {target files}
    (h : t.createPendingFiles target files = .ok t') :
    t'.row id = t.row id ∨ id ∈ files.map Prod.fst ∧ t.row id = none ∧
      ∃ row, t'.row id = some row ∧ row.status = .pending := by
  obtain ⟨-, hrows⟩ := createPendingFiles_ok h
  by_cases hid : id ∈ files.map Prod.fst
  · obtain ⟨f, hf, rfl⟩ := List.mem_map.mp hid
    refine .inr ⟨hid, row_of_createPendingFiles h hf, .new f.1 f.2 target, ?_, rfl⟩
    refine row_iff.mpr ⟨?_, rfl⟩
    rw [hrows]
    exact List.mem_append_right _ (List.mem_map.mpr ⟨f, hf, rfl⟩)
  · refine .inl (Option.ext fun row => ?_)
    rw [row_iff, row_iff, hrows, List.mem_append, or_and_right]
    refine or_iff_left ?_
    rintro ⟨hnew, rfl⟩
    obtain ⟨f, hf, rfl⟩ := List.mem_map.mp hnew
    exact hid (List.mem_map_of_mem hf)

theorem Does.stored_report {a} (h : Does parse x s (.report a) s' next) :
    storedStatus s'.tables a.file = some (tagOf a) ∧
      ∀ id ≠ a.file, storedStatus s'.tables id = storedStatus s.tables id := by
  cases h with
  | report hup =>
    obtain ⟨tag, row, htag, hrow, -, hrows⟩ := updatePendingFileStatus_ok hup
    refine ⟨?_, fun id hid => ?_⟩
    · rw [storedStatus_updated hrows, if_pos rfl, hrow, tagOf, htag]
      rfl
    · rw [storedStatus_updated hrows, if_neg hid]
  | ends h => cases h

/-- **Whose status a job sets**, in addition to a report. -/
theorem Does.stored (h : Does parse x s job s' next) (id : FylesId) :
    storedStatus s'.tables id = storedStatus s.tables id ∨ storedStatus s'.tables id = none ∨
    (∃ a, job = .report a ∧ a.file = id) ∨
    (id ∈ job.sets x ∧ (storedStatus s.tables id = none ∨
        ∃ done p todo, job = .readyReset done (p :: todo) ∧ p.1.id = id) ∧
      ∃ tag, storedStatus s'.tables id = some (some tag) ∧ tag.isTerminal = false) := by
  cases h with
  | @report action target tables hup =>
    obtain rfl | hne := eq_or_ne id action.file
    · exact .inr (.inr (.inl ⟨action, rfl, rfl⟩))
    · exact .inl ((stored_report (.report hup : Does parse x s _ _ _)).2 id hne)
  | @readyReset done file r todo data target tables hst hup =>
    obtain ⟨tag, row, htag, hrow, -, hrows⟩ := updatePendingFileStatus_ok hup
    have hstored := storedStatus_updated hrows id
    split at hstored
    · next heq =>
      subst heq
      obtain rfl := Except.ok.inj htag
      rw [hrow] at hstored
      refine .inr (.inr (.inr ⟨?_, .inr ⟨done, (file, r), todo, rfl, rfl⟩, _, hstored, rfl⟩))
      obtain ⟨fileId, contactId, filePath, retryCount, targetId, status⟩ := file
      obtain rfl : status = .inProgress ⟨.sending, data⟩ := hst
      exact List.mem_singleton_self _
    · exact .inl hstored
  | addReason hup =>
    obtain ⟨-, hrows⟩ := addInterruptionReason_ok hup
    left
    rw [storedStatus, row_updated (by intro row; rfl) hrows, Option.map_map]
    refine congrArg (fun f => Option.map f _) (funext fun row => ?_)
    split <;> rfl
  | insertFiles hcreate =>
    obtain hsame | ⟨hid, hnone, row, hrow, hpending⟩ := @row_createPendingFiles id _ _ _ _ hcreate
    · exact .inl (congrArg (Option.map _) hsame)
    · refine .inr (.inr (.inr ⟨hid, .inl (congrArg (Option.map _) hnone), .pending, ?_, rfl⟩))
      exact storedStatus_some.mpr ⟨row, hrow, congrArg some hpending⟩
  | @removeFile id' =>
    by_cases hid : id = id'
    · refine .inr (.inl ?_)
      rw [storedStatus, row_deletePendingFile, if_pos hid]
      rfl
    · left
      rw [storedStatus, row_deletePendingFile, if_neg hid]
      rfl
  | @removeRequest id' =>
    rw [storedStatus, storedStatus, row_deleteRemoteFilerequest]
    cases s.tables.row id with
    | none => exact .inl rfl
    | some row =>
      rw [Option.filter_some]
      split
      · exact .inl rfl
      · exact .inr (.inl rfl)
  | _ => exact .inl rfl

theorem Does.reported (h : Does parse x s job s' next) :
    ∃ new, s'.jobs = s.jobs ++ new.map .report ∧ s'.reported = s.reported ++ new ∧
      (new ≠ [] → s'.tables = s.tables ∧ job.action = none) := by
  cases h with
  | sendFile | cancelFile | cancelRequest | initialFile => exact ⟨_, rfl, rfl, fun _ => ⟨rfl, rfl⟩⟩
  | _ =>
    exact ⟨[], (List.append_nil _).symm, (List.append_nil _).symm, fun h => absurd rfl h⟩

/-- The jobs that follow store no reports, and the files that `Ready` has to set back were
unfinished when it has read them. -/
theorem Does.followUps (h : Does parse x s job s' next) :
    next.filterMap Job.action = [] ∧ ∀ done todo, .readyReset done todo ∈ next → ∀ p ∈ todo,
      (∃ done' todo', job = .readyReset done' todo' ∧ p ∈ todo') ∨
      (s'.tables = s.tables ∧ ∀ row ∈ s.tables.row p.1.id, row.status.isTerminal = false) := by
  cases h with
  | report =>
    refine ⟨List.filterMap_eq_nil_iff.mpr (forall_followUp (fun _ => rfl) fun _ => rfl), ?_⟩
    exact fun done todo hmem => absurd rfl (forall_followUp
      (P := fun job => job ≠ .readyReset done todo) (fun _ => nofun) (fun _ => nofun) _ hmem)
  | readyFiles hget =>
    refine ⟨rfl, fun done todo hmem p hp => .inr ⟨rfl, fun row hrow => ?_⟩⟩
    obtain ⟨rfl, rfl⟩ := Job.readyReset.inj (List.mem_singleton.mp hmem)
    obtain ⟨row', r, hrow', -, heq, hcont, -⟩ := row_of_recoverable hget hp
    obtain rfl := Option.mem_unique hrow' hrow
    have hmem := (mem_of_row hrow').1
    rw [heq] at hcont
    obtain ⟨-, hnot⟩ | ⟨hopen, -⟩ := sendStatus_cases (s.tables.checks row' hmem)
      (s.tables.counts row' hmem)
    · exact absurd (hnot.symm.trans hcont) Bool.false_ne_true
    · exact hopen
  | @readyReset done file r todo =>
    refine ⟨rfl, fun done' todo' hmem p hp => .inl ⟨done, (file, r) :: todo, rfl, ?_⟩⟩
    obtain ⟨-, rfl⟩ := Job.readyReset.inj (List.mem_singleton.mp hmem)
    exact List.mem_cons_of_mem _ hp
  | @readyKeep done file r todo =>
    refine ⟨rfl, fun done' todo' hmem p hp => .inl ⟨done, (file, r) :: todo, rfl, ?_⟩⟩
    obtain ⟨-, rfl⟩ := Job.readyReset.inj (List.mem_singleton.mp hmem)
    exact List.mem_cons_of_mem _ hp
  | _ =>
    exact ⟨rfl, by simp⟩

/-! ### Order is kept -/

theorem filterMap_map_report (new : List NetworkNodeAction) :
    (new.map Job.report).filterMap Job.action = new := by
  rw [List.filterMap_map]
  exact List.filterMap_some

theorem eq_of_isFinal {t tag}
    (h : ∀ row ∈ t.row id, row.status.isTerminal → tag = some row.status) :
    ∀ status ∈ storedStatus t id, IsFinal status → tag = status := by
  intro status hstatus hfinal
  obtain ⟨row, hrow, rfl⟩ := storedStatus_some.mp hstatus
  exact h row hrow hfinal

theorem Ordered.emits {w e} (h : Ordered s) (htimely : Timely s (Service.reports s.node w)) :
    Ordered (s.withNode e w) where
  backlog := by
    have hwaiting : (s.withNode e w).waiting = s.waiting ++ Service.reports s.node w := by
      rw [Service.waiting, Service.withNode, List.filterMap_append, filterMap_map_report]
      rfl
    rw [hwaiting]
    refine h.backlog.emit (fun a ha => ?_) htimely.2
    exact ⟨eq_of_isFinal (htimely.1 a ha).1, (htimely.1 a ha).2⟩
  recovering done todo hmem p hp hnone := by
    refine h.recovering done todo ?_ p hp fun a ha => hnone a (List.mem_append_left _ ha)
    obtain hmem | hmem := List.mem_append.mp hmem
    · exact hmem
    · obtain ⟨a, -, heq⟩ := List.mem_map.mp hmem
      cases heq

/-- A job that comes in order finds a file unfinished that `Ready` is going to set back, and leaves
it so, if there is no report about it. -/
theorem Ordered.unfinished (h : Ordered s) {done todo} (hmem : .readyReset done todo ∈ s.jobs) {p}
    (hp : p ∈ todo) (hnone : ∀ a ∈ s.reported, a.file ≠ p.1.id) {index : ℕ}
    (hjob : s.jobs[index]? = some job) {jobs}
    (hdoes : Does parse x { s with jobs := jobs } job s' next) :
    ∀ row ∈ s'.tables.row p.1.id, row.status.isTerminal = false := by
  intro row hrow
  have hold := h.recovering done todo hmem p hp hnone
  have hrow' : storedStatus s'.tables p.1.id = some (some row.status) :=
    storedStatus_some.mpr ⟨row, hrow, rfl⟩
  obtain hsame | hgone | ⟨a, rfl, ha⟩ | ⟨-, -, tag, htag, hopen⟩ := hdoes.stored p.1.id
  · obtain ⟨row₀, hrow₀, heq⟩ := storedStatus_some.mp (hsame.symm.trans hrow')
    rw [← Option.some.inj heq]
    exact hold row₀ hrow₀
  · cases hgone.symm.trans hrow'
  · have hwaits : a ∈ s.waiting :=
      List.mem_filterMap.mpr ⟨_, List.mem_of_getElem? hjob, rfl⟩
    exact absurd ha (hnone a (h.backlog.mem_emitted hwaits))
  · rw [← Option.some.inj (Option.mem_unique htag hrow')]
    exact hopen

theorem Ordered.does (h : Ordered s) {index : ℕ} (hjob : s.jobs[index]? = some job)
    (hturn : job.InTurn s x index)
    (hdoes : Does parse x { s with jobs := s.jobs.eraseIdx index } job s' next)
    (htimely : Timely s (s'.reported.drop s.reported.length)) :
    Ordered { s' with jobs := s'.jobs ++ next } := by
  obtain ⟨new, hjobs, hreported, hnew⟩ := hdoes.reported
  obtain ⟨hnext, hrecovers⟩ := hdoes.followUps
  have hwaiting : ({ s' with jobs := s'.jobs ++ next } : Service).waiting =
      (s.jobs.eraseIdx index).filterMap Job.action ++ new := by
    rw [Service.waiting, List.filterMap_append, hnext, hjobs, List.filterMap_append,
      filterMap_map_report, List.append_nil]
  have hdrop : s'.reported.drop s.reported.length = new := by
    rw [hreported]
    exact List.drop_left
  rw [hdrop] at htimely
  refine ⟨?_, ?_⟩
  · rw [hwaiting]
    rw [hreported]
    have hbacklog := h.backlog
    cases haction : job.action with
    | some a =>
      obtain rfl : new = [] := by
        by_contra hne
        cases haction.symm.trans (hnew hne).2
      obtain rfl : job = .report a := by
        cases job with
        | report action => exact congrArg Job.report (Option.some.inj haction)
        | _ => cases haction
      obtain ⟨hwaits, herased⟩ := filterMap_eraseIdx_of_some hjob haction
      rw [Service.waiting, hwaits] at hbacklog
      obtain ⟨hself, hother⟩ := hdoes.stored_report
      rw [herased, List.append_nil, List.append_nil]
      exact hbacklog.execute (hturn.1 a rfl)
        (fun v hv => (Option.mem_unique hself hv).symm) hother
    | none =>
      rw [filterMap_eraseIdx_of_none hjob haction]
      have hstored : Backlog NetworkNodeAction.file tagOf IsFinal s.reported s.waiting
          (storedStatus s'.tables) := by
        refine hbacklog.store fun id v hv => ?_
        obtain hsame | hgone | ⟨a, rfl, -⟩ | ⟨hsets, -⟩ := hdoes.stored id
        · exact .inl (hsame ▸ hv)
        · rw [hgone] at hv
          cases hv
        · cases haction
        · exact .inr (hturn.2 id hsets)
      refine hstored.emit (fun a ha => ?_) htimely.2
      obtain ⟨htables, -⟩ := hnew (List.ne_nil_of_mem ha)
      rw [htables]
      exact ⟨eq_of_isFinal (htimely.1 a ha).1, (htimely.1 a ha).2⟩
  · intro done todo hmem p hp hnone
    have hnone' : ∀ a ∈ s.reported, a.file ≠ p.1.id := by
      intro a ha
      refine hnone a ?_
      rw [hreported]
      exact List.mem_append_left _ ha
    change ∀ row ∈ s'.tables.row p.1.id, row.status.isTerminal = false
    obtain hmem | hmem := List.mem_append.mp hmem
    · rw [hjobs] at hmem
      obtain hmem | hmem := List.mem_append.mp hmem
      · exact h.unfinished (List.mem_of_mem_eraseIdx hmem) hp hnone' hjob hdoes
      · obtain ⟨a, -, heq⟩ := List.mem_map.mp hmem
        cases heq
    · obtain ⟨done', todo', rfl, hp'⟩ | ⟨htables, hopen⟩ := hrecovers done todo hmem p hp
      · exact h.unfinished (List.mem_of_getElem? hjob) hp' hnone' hjob hdoes
      · rw [htables]
        exact hopen

theorem Ordered.start (tables : OutgoingTables) (sources : List (String × ℤ)) :
    Ordered (.start tables sources) where
  backlog := .nil
  recovering _ _ h := nomatch h

/-- Steps that change neither reports nor jobs nor pending files. -/
theorem Ordered.same (h : Ordered s) (hreported : s'.reported = s.reported)
    (hjobs : s'.jobs = s.jobs) (hrow : ∀ id, s'.tables.row id = s.tables.row id) : Ordered s' where
  backlog := by
    have hstored : storedStatus s'.tables = storedStatus s.tables :=
      funext fun id => congrArg (Option.map _) (hrow id)
    rw [hreported, Service.waiting, hjobs, hstored]
    exact h.backlog
  recovering done todo hmem p hp hnone := by
    rw [hjobs] at hmem
    rw [hreported] at hnone
    rw [hrow]
    exact h.recovering done todo hmem p hp hnone

/-- **Orderly steps keep the order.** -/
theorem Ordered.step {e} (h : Ordered s) (horderly : Orderly parse s e)
    (hstep : s.next parse e = some s') : Ordered s' := by
  have htimely := horderly.2 s' hstep
  obtain ⟨e, x⟩ := e
  cases happens_of_step (Service.next_eq_some.mp hstep) with
  | act action =>
    have haction : action.job.action = none := by cases action <;> rfl
    refine ⟨?_, fun done todo hmem p hp => ?_⟩
    · have hwaiting : ({ s with jobs := s.jobs ++ [action.job] } : Service).waiting =
          s.waiting := by
        rw [Service.waiting, List.filterMap_append, List.filterMap_cons_none haction]
        exact List.append_nil _
      rw [hwaiting]
      exact h.backlog
    · refine h.recovering done todo ?_ p hp
      obtain hmem | hmem := List.mem_append.mp hmem
      · exact hmem
      · have heq := List.mem_singleton.mp hmem
        cases action <;> cases heq
  | resume hjob hdoes => exact h.does hjob (horderly.1 _ rfl _ hjob) hdoes htimely
  | network hnet hw =>
    refine h.emits ?_
    rw [Service.withNode, List.drop_left] at htimely
    exact htimely
  | createRemoteFilerequest hcreate =>
    obtain ⟨-, -, hrows⟩ := createRemoteFilerequest_ok hcreate
    refine h.same rfl rfl fun id => ?_
    rw [OutgoingTables.row, hrows]
    rfl
  | restart => exact .start _ _
  | _ => exact h.same rfl rfl fun _ => rfl

/-- Between two states, a finished file stays as it is, or is deleted. -/
def Service.KeepsFinal (s s' : Service) : Prop := ∀ id row row', s.tables.row id = some row →
  row.status.isTerminal = true → s'.tables.row id = some row' → row'.status = row.status

/-- **A finished file stays as it is**, in an orderly step. -/
theorem Ordered.final {e} (h : Ordered s) (horderly : Orderly parse s e)
    (hstep : s.next parse e = some s') : s.KeepsFinal s' := by
  intro id row row' hrow hterminal hrow'
  obtain ⟨e, x⟩ := e
  cases happens_of_step (Service.next_eq_some.mp hstep) with
  | @resume index job s₁ next hjob hdoes =>
    have hold : storedStatus s.tables id = some (some row.status) :=
      storedStatus_some.mpr ⟨row, hrow, rfl⟩
    have hnew : storedStatus s₁.tables id = some (some row'.status) :=
      storedStatus_some.mpr ⟨row', hrow', rfl⟩
    obtain hsame | hgone | ⟨a, rfl, rfl⟩ | ⟨hsets, hfrom, -⟩ := hdoes.stored id
    · exact Option.some.inj (Option.some.inj (hnew.symm.trans (hsame.trans hold)))
    · cases hgone.symm.trans hnew
    · have hwaits : a ∈ s.waiting :=
        List.mem_filterMap.mpr ⟨_, List.mem_of_getElem? hjob, rfl⟩
      have hrepeats : tagOf a = some row.status := h.backlog.repeats a hwaits _ hold hterminal
      have hstored := hdoes.stored_report.1.symm.trans hnew
      exact Option.some.inj ((Option.some.inj hstored).symm.trans hrepeats)
    · obtain hnone | ⟨done, p, todo, rfl, rfl⟩ := hfrom
      · cases hnone.symm.trans hold
      · have hopen := h.recovering done (p :: todo) (List.mem_of_getElem? hjob) p
          List.mem_cons_self ((horderly.1 index rfl _ hjob).2 p.1.id hsets) row hrow
        cases hopen.symm.trans hterminal
  | createRemoteFilerequest hcreate =>
    obtain ⟨-, -, hrows⟩ := createRemoteFilerequest_ok hcreate
    rw [OutgoingTables.row, hrows] at hrow'
    rw [← Option.mem_unique hrow hrow']
  | _ =>
    rw [← Option.mem_unique hrow hrow']

/-- When no report waits, each row has the status of the last report about its file. -/
def Service.Settled (s : Service) : Prop := (∀ job ∈ s.jobs, job.action = none) →
  ∀ row ∈ s.tables.pendingFiles, ∀ a ∈ (ofKey NetworkNodeAction.file row.id s.reported).getLast?,
    a.sendStatus.statusTag = .ok row.status

theorem Ordered.settled (h : Ordered s) : s.Settled := by
  intro hnone row hrow a ha
  have hwaiting : s.waiting = [] := List.filterMap_eq_nil_iff.mpr hnone
  have hstored : storedStatus s.tables row.id = some (some row.status) :=
    storedStatus_some.mpr ⟨row, row_of_mem hrow, rfl⟩
  have htag : some row.status = tagOf a := by
    refine h.backlog.settled (fun b hb => ?_) a ha _ hstored
    rw [hwaiting] at hb
    cases hb
  rw [tagOf] at htag
  cases hstatus : a.sendStatus.statusTag with
  | error e =>
    rw [hstatus] at htag
    cases htag
  | ok tag =>
    rw [hstatus] at htag
    exact congrArg Except.ok (Option.some.inj htag).symm

end Fyles.Brain
