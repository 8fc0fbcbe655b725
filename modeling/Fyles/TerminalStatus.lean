import Fyles.CompletedTransfers
import Fyles.ReportOrder

/-!
# Statuses that are final

For outgoing files the order of status reports is that of `ReportOrder`. This module is about
incoming files, and puts the two together.

The receiver tells the brain the status of a transfer, and the brain starts a task for it; only the
last status, that the file is complete, is awaited. The cleanup of stale part files sets a status
as well: it lists the rows that are old enough and goes through the list later. None of the
statements looks at the status that it replaces. So a complete file becomes one that is being
received if a task was late, and a failed one if the cleanup had listed it before it was complete.

If the tasks for a transfer are executed in order, before the file is completed, and the cleanup and
the receiver are never busy with the same transfer, then a complete file stays complete, and when no
task waits, each row has the status that the brain was told last.

## Main results

* `terminal_statuses_final` — in runs of orderly steps, final statuses are final and the last
  status wins, for outgoing and for incoming files
* `terminal_statuses_replaced` — runs in which they are not
-/

namespace Fyles

open PartFiles IncomingTables

namespace Reception

variable {z : Sanitizer} {s s' : Reception} {e : Event}

/-! ### Orderly steps -/

/-- The status in the row of a transfer. -/
def storedStatus (t : IncomingTables) (id : FylesId) : Option ReceivedTag :=
  (t.row id).map ReceivedFile.status

/-- The status that a task sets. -/
def Job.status : Job → Option (FylesId × ReceivedTag)
  | .update transferId status _ => some (transferId, status.statusTag)
  | .cleanup _ => none

/-- The transfers that the cleanup is going to set to failed. -/
def Job.listed : Job → List FylesId
  | .update .. => []
  | .cleanup files => files.filterMap ReceivedFile.transferId

/-- The statuses whose tasks wait, the oldest first. -/
def waiting (s : Reception) : List (FylesId × ReceivedTag) := s.jobs.filterMap Job.status

/-- Whether the receiver waits until the brain has stored what it was told. -/
def Asked.awaits (a : Asked) : Bool :=
  match a.request with
  | .newTransfer .. | .done _ => true
  | _ => false

/-- A status is told in time: the file is not complete, and the cleanup is not about to set its
status. If the receiver waits for the brain, then no task for the transfer does. -/
def Timely (s : Reception) (a : Asked) (new : FylesId × ReceivedTag) : Prop :=
  (∀ status ∈ storedStatus s.tables new.1, status ≠ .completed) ∧
  (∀ job ∈ s.jobs, new.1 ∉ job.listed) ∧
  (a.awaits = true → ∀ b ∈ s.waiting, b.1 ≠ new.1)

instance (s : Reception) (a : Asked) (new : FylesId × ReceivedTag) : Decidable (Timely s a new) :=
  inferInstanceAs (Decidable (_ ∧ _ ∧ _))

/-- **Orderly steps.** Statuses are told in time. A task comes after the older ones for its
transfer. And the cleanup lists no transfer of which the brain was told something. -/
def Orderly (z : Sanitizer) (s : Reception) : Event → Prop
  | .request a => ∀ new ∈ (s.respond z a).emitted.drop s.emitted.length, Timely s a new
  | .resume index => ∀ job ∈ s.jobs[index]?, ∀ a ∈ job.status,
      ∀ b ∈ (s.jobs.take index).filterMap Job.status, b.1 ≠ a.1
  | .structuredPartialCleanup threshold =>
    ∀ row ∈ s.tables.staleReceivedFiles threshold, ∀ a ∈ s.emitted, row.transferId ≠ some a.1
  | _ => True

instance (z : Sanitizer) (s : Reception) (e : Event) : Decidable (Orderly z s e) := by
  rw [Orderly.eq_def]
  split <;> infer_instance

/-- What holds between orderly steps. -/
structure Ordered (s : Reception) : Prop where
  backlog : Backlog Prod.fst Prod.snd (· = ReceivedTag.completed) s.emitted s.waiting
    (storedStatus s.tables)
  /-- What the cleanup has listed is not complete, and nobody tells the brain about it. -/
  listed : ∀ job ∈ s.jobs, ∀ id ∈ job.listed, (∀ a ∈ s.emitted, a.1 ≠ id) ∧
    ∀ status ∈ storedStatus s.tables id, status ≠ .completed

/-! ### What a step does to statuses -/

theorem storedStatus_update {t transferId status} {progressBytes : ℕ} (id : FylesId) :
    storedStatus ((t.updateReceivedFileStatus transferId status progressBytes).getD t) id =
      if id = transferId then (storedStatus t id).map fun _ => status else storedStatus t id := by
  rw [storedStatus, row_updateReceivedFileStatus, Option.map_map, storedStatus]
  split
  · rw [Option.map_map]
    rfl
  · rfl

theorem ne_completed_of_waiting {a} (ha : a ∈ s.waiting) : a.2 ≠ .completed := by
  obtain ⟨job, -, hjob⟩ := List.mem_filterMap.mp ha
  cases job with
  | cleanup files => cases hjob
  | update transferId status progressBytes =>
    obtain ⟨⟩ := hjob
    cases status <;> exact nofun

theorem storedStatus_of_stale {t} {threshold : ℤ} {row id}
    (hrow : row ∈ t.staleReceivedFiles threshold) (hid : row.transferId = some id) :
    ∀ status ∈ storedStatus t id, status ≠ .completed := by
  intro status hstatus heq
  obtain ⟨hmem, hstale⟩ := List.mem_filter.mp hrow
  rw [storedStatus, row_of_mem hmem hid] at hstatus
  obtain ⟨⟩ := hstatus
  obtain h | h := (of_decide_eq_true hstale).1
  · cases h.symm.trans heq
  · cases h.symm.trans heq

/-! ### Order is kept -/

/-- Steps after which there are no other statuses and jobs. -/
theorem Ordered.same (h : Ordered s) (hemitted : s'.emitted = s.emitted) (hjobs : s'.jobs = s.jobs)
    (hstored : ∀ id, ∀ status ∈ storedStatus s'.tables id, status ∈ storedStatus s.tables id) :
    Ordered s' where
  backlog := by
    rw [hemitted, waiting, hjobs]
    exact h.backlog.store fun id status hstatus => .inl (hstored id status hstatus)
  listed := by
    rw [hemitted, hjobs]
    intro job hjob id hid
    obtain ⟨hnone, hopen⟩ := h.listed job hjob id hid
    exact ⟨hnone, fun status hstatus => hopen status (hstored id status hstatus)⟩

/-- A status is told in time, and stored at once. -/
theorem Ordered.awaited {a id status} (h : Ordered s) (htimely : Timely s a (id, status))
    (hawaits : a.awaits = true) (hemitted : s'.emitted = s.emitted ++ [(id, status)])
    (hjobs : s'.jobs = s.jobs) (hself : ∀ status' ∈ storedStatus s'.tables id, status' = status)
    (hother : ∀ other ≠ id, storedStatus s'.tables other = storedStatus s.tables other) :
    Ordered s' where
  backlog := by
    rw [hemitted, waiting, hjobs]
    exact h.backlog.await (htimely.2.2 hawaits) hself hother
  listed := by
    rw [hemitted, hjobs]
    intro job hjob id' hid'
    obtain ⟨hnone, hopen⟩ := h.listed job hjob id' hid'
    have hne : id' ≠ id := by
      rintro rfl
      exact htimely.2.1 job hjob hid'
    refine ⟨fun b hb => ?_, ?_⟩
    · obtain hb | hb := List.mem_append.mp hb
      · exact hnone b hb
      · obtain rfl := List.mem_singleton.mp hb
        exact hne.symm
    · rw [hother id' hne]
      exact hopen

theorem Ordered.respond {a} (h : Ordered s) (horderly : Orderly z s (.request a)) :
    Ordered (s.respond z a) := by
  have htold := told (z := z) (s := s) (a := a)
  generalize (s.respond z a).heldId a.peer = held at htold
  have htimely : ∀ new, (s.respond z a).emitted = s.emitted ++ [new] → Timely s a new := by
    intro new hnew
    refine horderly new ?_
    rw [hnew, List.drop_left]
    exact List.mem_singleton_self _
  generalize s.respond z a = s' at htold htimely
  obtain ⟨receivers, tables, jobs, emitted⟩ := s'
  dsimp only at htold htimely
  cases htold with
  | quiet | resumed => exact h.same rfl rfl fun _ _ hstatus => hstatus
  | created hrequest hcreate =>
    obtain ⟨-, ⟨row, hrow, hstatus⟩, hother⟩ := row_insert hcreate
    refine h.awaited (htimely _ rfl) (by rw [Asked.awaits, hrequest]) rfl rfl ?_ ?_
    · intro status hmem
      rw [storedStatus, hrow] at hmem
      rw [← Option.some.inj hmem, hstatus]
    · exact fun other hne => congrArg (Option.map _) (hother other hne)
  | @updated _ id status progressBytes =>
    have ht := htimely _ rfl
    refine ⟨?_, fun job hjob id' hid' => ?_⟩
    · have hwaiting : waiting ⟨receivers, s.tables,
          s.jobs ++ [.update id status progressBytes], s.emitted ++ [(id, status.statusTag)]⟩ =
          s.waiting ++ [(id, status.statusTag)] := by
        rw [waiting, List.filterMap_append]
        rfl
      rw [hwaiting]
      refine h.backlog.emit (fun new hnew => ?_) (List.pairwise_singleton _ _)
      obtain rfl := List.mem_singleton.mp hnew
      exact ⟨fun v hv hfinal => absurd hfinal (ht.1 v hv),
        fun b hb _ hfinal => absurd hfinal (ne_completed_of_waiting hb)⟩
    · obtain hjob | hjob := List.mem_append.mp hjob
      · obtain ⟨hnone, hopen⟩ := h.listed job hjob id' hid'
        refine ⟨fun b hb => ?_, hopen⟩
        obtain hb | hb := List.mem_append.mp hb
        · exact hnone b hb
        · obtain rfl := List.mem_singleton.mp hb
          rintro rfl
          exact ht.2.1 job hjob hid'
      · obtain rfl := List.mem_singleton.mp hjob
        cases hid'
  | completed hrequest _ hcomplete =>
    have hrows := row_completeReceivedFile hcomplete
    refine h.awaited (htimely _ rfl) (by rw [Asked.awaits, hrequest]) rfl rfl ?_ ?_
    · intro status hmem
      obtain ⟨row', hrow', rfl⟩ := Option.map_eq_some_iff.mp hmem
      rw [hrows] at hrow'
      obtain ⟨row, -, rfl⟩ := Option.map_eq_some_iff.mp hrow'
      rw [if_pos rfl]
      rfl
    · intro other hne
      rw [storedStatus, hrows, Option.map_map]
      simp only [if_neg hne]
      rfl

theorem Ordered.resume {index : ℕ} {job} (h : Ordered s) (horderly : Orderly z s (.resume index))
    (hjob : s.jobs[index]? = some job) :
    Ordered (execute z { s with jobs := s.jobs.eraseIdx index } job) := by
  have herased : ∀ job' ∈ s.jobs.eraseIdx index, job' ∈ s.jobs := fun _ => List.mem_of_mem_eraseIdx
  cases job with
  | update id status progressBytes =>
    obtain ⟨hwaits, hrest⟩ := filterMap_eraseIdx_of_some (f := Job.status) hjob rfl
    have hwaiting : (id, status.statusTag) ∈ s.waiting :=
      List.mem_filterMap.mpr ⟨_, List.mem_of_getElem? hjob, rfl⟩
    refine ⟨?_, fun job' hjob' id' hid' => ?_⟩
    · have hbacklog := h.backlog
      rw [waiting, hwaits] at hbacklog
      change Backlog _ _ _ s.emitted ((s.jobs.eraseIdx index).filterMap Job.status) _
      rw [hrest]
      refine hbacklog.execute (horderly _ hjob _ rfl) (fun status' hstatus' => ?_)
        fun other hother => ?_
      · rw [execute, storedStatus_update, if_pos rfl] at hstatus'
        obtain ⟨-, -, rfl⟩ := Option.map_eq_some_iff.mp hstatus'
        rfl
      · rw [execute, storedStatus_update, if_neg hother]
    · obtain ⟨hnone, hopen⟩ := h.listed job' (herased job' hjob') id' hid'
      refine ⟨hnone, ?_⟩
      have hne : id' ≠ id := fun heq => hnone _ (h.backlog.mem_emitted hwaiting) heq.symm
      rw [execute, storedStatus_update, if_neg hne]
      exact hopen
  | cleanup files =>
    have hrest : (s.jobs.eraseIdx index).filterMap Job.status = s.waiting :=
      filterMap_eraseIdx_of_none hjob rfl
    have hlisted := h.listed _ (List.mem_of_getElem? hjob)
    cases files with
    | nil =>
      refine ⟨?_, fun job' hjob' => h.listed job' (herased job' hjob')⟩
      change Backlog _ _ _ s.emitted ((s.jobs.eraseIdx index).filterMap Job.status) _
      rw [hrest]
      exact h.backlog
    | cons file files =>
      have hnext : (s.jobs.eraseIdx index ++ [Job.cleanup files]).filterMap Job.status =
          s.waiting := by
        rw [List.filterMap_append, hrest]
        exact List.append_nil _
      -- the rest of the list was listed before
      have hlists : ∀ job' ∈ s.jobs.eraseIdx index ++ [.cleanup files], ∀ id ∈ job'.listed,
          (∀ a ∈ s.emitted, a.1 ≠ id) ∧
            ∀ status ∈ storedStatus s.tables id, status ≠ .completed := by
        intro job' hjob' id hid
        obtain hjob' | hjob' := List.mem_append.mp hjob'
        · exact h.listed job' (herased job' hjob') id hid
        · obtain rfl := List.mem_singleton.mp hjob'
          refine hlisted id ?_
          exact ((List.sublist_cons_self file files).filterMap _).subset hid
      rw [execute]
      cases htransfer : file.transferId with
      | none =>
        refine ⟨?_, hlists⟩
        change Backlog _ _ _ s.emitted
          ((s.jobs.eraseIdx index ++ [Job.cleanup files]).filterMap Job.status) _
        rw [hnext]
        exact h.backlog
      | some id =>
        have hid : id ∈ (Job.cleanup (file :: files)).listed :=
          List.mem_filterMap.mpr ⟨file, List.mem_cons_self, htransfer⟩
        refine ⟨?_, fun job' hjob' id' hid' => ⟨(hlists job' hjob' id' hid').1, ?_⟩⟩
        · change Backlog _ _ _ s.emitted
            ((s.jobs.eraseIdx index ++ [Job.cleanup files]).filterMap Job.status) _
          rw [hnext]
          refine h.backlog.store fun other status hstatus => ?_
          rw [storedStatus_update] at hstatus
          split at hstatus
          · next heq =>
            rw [heq]
            exact .inr (hlisted id hid).1
          · exact .inl hstatus
        · intro status hstatus
          rw [storedStatus_update] at hstatus
          split at hstatus
          · obtain ⟨-, -, rfl⟩ := Option.map_eq_some_iff.mp hstatus
            simp
          · exact (hlists job' hjob' id' hid').2 status hstatus

theorem Ordered.start (receivers : Receivers) (tables : IncomingTables) :
    Ordered (.start receivers tables) where
  backlog := .nil
  listed _ h := nomatch h

/-- **Orderly steps keep the order.** -/
theorem Ordered.step (h : Ordered s) (horderly : Orderly z s e) (hstep : s.step z e = some s') :
    Ordered s' := by
  cases e with
  | request a =>
    obtain ⟨⟩ := hstep
    exact h.respond horderly
  | resume index =>
    obtain ⟨job, hjob, rfl⟩ := Option.map_eq_some_iff.mp hstep
    exact h.resume horderly hjob
  | structuredPartialCleanup threshold =>
    obtain ⟨⟩ := hstep
    refine ⟨?_, fun job hjob id hid => ?_⟩
    · have hwaiting : (s.jobs ++ [Job.cleanup (s.tables.staleReceivedFiles threshold)]).filterMap
          Job.status = s.waiting := by
        rw [List.filterMap_append]
        exact List.append_nil _
      rw [waiting, hwaiting]
      exact h.backlog
    · obtain hjob | hjob := List.mem_append.mp hjob
      · exact h.listed job hjob id hid
      · obtain rfl := List.mem_singleton.mp hjob
        obtain ⟨row, hrow, hid⟩ := List.mem_filterMap.mp hid
        refine ⟨fun a ha heq => ?_, storedStatus_of_stale hrow hid⟩
        exact horderly row hrow a ha (hid.trans (congrArg some heq.symm))
  | deleteFilerequest id =>
    obtain ⟨⟩ := hstep
    refine h.same rfl rfl fun id' status hstatus => ?_
    obtain ⟨row, hrow, rfl⟩ := Option.map_eq_some_iff.mp hstatus
    exact Option.map_eq_some_iff.mpr ⟨row, row_of_deleteFilerequest hrow, rfl⟩
  | deleteReceivedFile id =>
    obtain ⟨⟩ := hstep
    refine h.same rfl rfl fun id' status hstatus => ?_
    obtain ⟨row, hrow, rfl⟩ := Option.map_eq_some_iff.mp hstatus
    exact Option.map_eq_some_iff.mpr ⟨row, row_of_deleteReceivedFile hrow, rfl⟩
  | restart =>
    obtain ⟨⟩ := hstep
    exact .start _ _
  | _ =>
    obtain ⟨⟩ := hstep
    exact h.same rfl rfl fun _ _ hstatus => hstatus

/-! ### What follows -/

/-- Between two states, a complete file stays so, or is deleted. -/
def KeepsFinal (s s' : Reception) : Prop := ∀ id row row', s.tables.row id = some row →
  row.status = .completed → s'.tables.row id = some row' → row'.status = .completed

/-- When no task waits, each row has the status that the brain was told last. -/
def Settled (s : Reception) : Prop := (∀ job ∈ s.jobs, job.status = none) →
  ∀ row ∈ s.tables.receivedFiles, ∀ id ∈ row.transferId,
    ∀ a ∈ (ofKey Prod.fst id s.emitted).getLast?, row.status = a.2

theorem Ordered.settled (h : Ordered s) : s.Settled := by
  intro hnone row hrow id hid a ha
  have hwaiting : s.waiting = [] := List.filterMap_eq_nil_iff.mpr hnone
  refine h.backlog.settled (fun b hb => ?_) a ha row.status ?_
  · rw [hwaiting] at hb
    cases hb
  · rw [storedStatus, row_of_mem hrow hid]
    rfl

/-- **A complete file stays complete**, in an orderly step. -/
theorem Ordered.final (h : Ordered s) (hstep : s.step z e = some s') : s.KeepsFinal s' := by
  intro id row row' hrow hcompleted hrow'
  have hstored : storedStatus s.tables id = some .completed := by
    rw [storedStatus, hrow, Option.map_some, hcompleted]
  -- Steps after which the row has the status of before.
  have hkeeps : storedStatus s'.tables id = storedStatus s.tables id →
      row'.status = .completed := by
    intro hsame
    rw [hstored, storedStatus, hrow'] at hsame
    exact Option.some.inj hsame
  cases e with
  | request a =>
    obtain ⟨⟩ := hstep
    have htold := told (z := z) (s := s) (a := a)
    generalize (s.respond z a).heldId a.peer = held at htold
    generalize s.respond z a = s' at htold hrow' hkeeps
    obtain ⟨receivers, tables, jobs, emitted⟩ := s'
    cases htold with
    | quiet | resumed | updated => exact hkeeps rfl
    | created hrequest hcreate =>
      obtain ⟨hnone, -, hother⟩ := row_insert hcreate
      refine hkeeps (congrArg (Option.map _) (hother id ?_))
      rintro rfl
      cases hnone.symm.trans hrow
    | completed hrequest _ hcomplete =>
      rw [row_completeReceivedFile hcomplete, hrow] at hrow'
      obtain ⟨⟩ := hrow'
      split
      · rfl
      · exact hcompleted
  | resume index =>
    obtain ⟨job, hjob, rfl⟩ := Option.map_eq_some_iff.mp hstep
    have hmem := List.mem_of_getElem? hjob
    cases job with
    | update id' status progressBytes =>
      refine hkeeps ?_
      rw [execute, storedStatus_update, if_neg]
      rintro rfl
      have hwaits : (id, status.statusTag) ∈ s.waiting := List.mem_filterMap.mpr ⟨_, hmem, rfl⟩
      exact ne_completed_of_waiting hwaits (h.backlog.repeats _ hwaits _ hstored rfl)
    | cleanup files =>
      cases files with
      | nil => exact hkeeps rfl
      | cons file files =>
        refine hkeeps ?_
        rw [execute]
        cases htransfer : file.transferId with
        | none => rfl
        | some id' =>
          rw [storedStatus_update, if_neg]
          rintro rfl
          have hid : id ∈ (Job.cleanup (file :: files)).listed :=
            List.mem_filterMap.mpr ⟨file, List.mem_cons_self, htransfer⟩
          exact (h.listed _ hmem id hid).2 _ hstored rfl
  | deleteFilerequest id' =>
    obtain ⟨⟩ := hstep
    have hold := row_of_deleteFilerequest hrow'
    exact Option.mem_unique hrow hold ▸ hcompleted
  | deleteReceivedFile id' =>
    obtain ⟨⟩ := hstep
    have hold := row_of_deleteReceivedFile hrow'
    exact Option.mem_unique hrow hold ▸ hcompleted
  | _ =>
    obtain ⟨⟩ := hstep
    exact hkeeps rfl

end Reception

/-! ### Both sides -/

/-- **Final statuses are final, and the last status wins.** In every run of orderly steps of the
sending side no orderly step changes the status of a finished file, and when no report waits each
row has the status of the last report about it. In every run of orderly steps of the receiving side
no step changes the status of a complete file, and when no task waits each row has the status that
the brain was told last. -/
theorem terminal_statuses_final (parse : String → Option PeerId) (z : Sanitizer) :
    (∀ (tables : OutgoingTables) (sources : List (String × ℤ))
      (events : List (Brain.Event × Brain.Surroundings)) (s : Brain.Service),
      Run (Brain.Service.next parse) (Brain.Orderly parse) (.start tables sources) events s →
      (∀ e s', Brain.Orderly parse s e → s.next parse e = some s' → s.KeepsFinal s') ∧
        s.Settled) ∧
    ∀ (receivers : Receivers) (tables : IncomingTables)
      (events : List Reception.Event) (s : Reception),
      Run (Reception.step z) (Reception.Orderly z) (.start receivers tables) events s →
      (∀ e s', s.step z e = some s' → s.KeepsFinal s') ∧ s.Settled := by
  constructor
  · intro tables sources events s hrun
    have hordered : Brain.Ordered s := hrun.invariant (Brain.Ordered.start tables sources)
      fun h horderly hstep => h.step horderly hstep
    exact ⟨fun e s' horderly hstep => hordered.final horderly hstep, hordered.settled⟩
  · intro receivers tables events s hrun
    have hordered : Reception.Ordered s := hrun.invariant (Reception.Ordered.start receivers tables)
      fun h horderly hstep => h.step horderly hstep
    exact ⟨fun e s' hstep => hordered.final hstep, hordered.settled⟩

/-- A first attempt to send a file fails, and the second one is rejected. -/
def Brain.sampleReports : List (Brain.Event × Brain.Surroundings) :=
  [.network (.call (.triggerInteractionWith ⟨"peer"⟩)),
    .network (.call (.handleReceiveError ⟨"peer"⟩ (some 0) (.localError .timeout))),
    .network (.call (.triggerInteractionWith ⟨"peer"⟩)),
    .network (.call (.receiveResponse ⟨"peer"⟩ (some ⟨"contact"⟩) (some 1)
      .rejectNewTransfer))].map fun e => (e, Brain.sampleSurroundings [] "")

/-- The tasks are executed in order. -/
theorem terminal_statuses_final_sample :
    (∃ s, Run (Brain.Service.next Brain.sampleParse) (Brain.Orderly Brain.sampleParse)
        (.start .empty []) (Brain.sampleSetup ++ Brain.sampleReports ++ [.resume 0, .resume 0].map
          fun e => (e, Brain.sampleSurroundings [] "")) s ∧
      (s.tables.row ⟨"file0"⟩).map PendingFileRow.status = some .rejected ∧ s.Settled) ∧
    ∃ s, Run (Reception.step .sample) (Reception.Orderly .sample)
        (.start .new Reception.sampleTables) (Reception.sampleSent ++ [.resume 0,
          .request (Reception.sampleAsked (.done ⟨"transfer"⟩))]) s ∧
      (s.tables.row ⟨"transfer"⟩).map ReceivedFile.status = some .completed ∧ s.Settled := by
  constructor
  · exact Run.exists_and Run.get_runFrom fun hrun =>
      ⟨by decide, ((terminal_statuses_final _ .sample).1 _ _ _ _ hrun).2⟩
  · exact Run.exists_and Run.get_runFrom fun hrun =>
      ⟨by decide, ((terminal_statuses_final Brain.sampleParse _).2 _ _ _ _ hrun).2⟩

/-- **Final statuses are replaced.** The report of the rejection is stored before that of the first
attempt, and the file is pending again. The task of the last chunk comes after the end of a
transfer, and the file is being received again. And the cleanup makes a complete file a failed
one, which it has listed before. -/
theorem terminal_statuses_replaced :
    (∃ s s', Run (Brain.Service.next Brain.sampleParse) (fun _ _ => True) (.start .empty [])
        (Brain.sampleSetup ++ Brain.sampleReports ++
          [(.resume 1, Brain.sampleSurroundings [] "")]) s ∧
      (s.tables.row ⟨"file0"⟩).map PendingFileRow.status = some .rejected ∧
      s.next Brain.sampleParse (.resume 0, Brain.sampleSurroundings [] "") = some s' ∧
      (s'.tables.row ⟨"file0"⟩).map PendingFileRow.status = some .pending ∧
      (∀ job ∈ s'.jobs, job.action = none) ∧
      s'.reported.getLast? = some (.fileRejected ⟨"file0"⟩)) ∧
    (∃ s s', Run (Reception.step .sample) (fun _ _ => True) (.start .new Reception.sampleTables)
        (Reception.sampleSent ++ [.request (Reception.sampleAsked (.done ⟨"transfer"⟩))]) s ∧
      (s.tables.row ⟨"transfer"⟩).map ReceivedFile.status = some .completed ∧
      s.step .sample (.resume 0) = some s' ∧
      (s'.tables.row ⟨"transfer"⟩).map ReceivedFile.status = some .receiving ∧ s'.jobs = []) ∧
    ∃ s s', Run (Reception.step .sample) (fun _ _ => True) (.start .new Reception.sampleTables)
        (Reception.sampleSent ++ [.resume 0, .structuredPartialCleanup 1,
          .request (Reception.sampleAsked (.done ⟨"transfer"⟩))]) s ∧
      (s.tables.row ⟨"transfer"⟩).map ReceivedFile.status = some .completed ∧
      s.step .sample (.resume 0) = some s' ∧
      (s'.tables.row ⟨"transfer"⟩).map ReceivedFile.status = some .failed :=
  ⟨⟨_, _, Run.get_runFrom, by decide, rfl, by decide, by decide,
      by decide⟩,
    ⟨_, _, Run.get_runFrom, by decide, rfl, by decide, by decide⟩,
    _, _, Run.get_runFrom, by decide, rfl, by decide⟩

end Fyles
