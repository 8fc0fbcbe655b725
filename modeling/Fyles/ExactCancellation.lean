import Fyles.Internal.Lists
import Fyles.FileHoldings

/-!
# What is cancelled when a remote file request is deleted

Before the row of a remote file request is deleted, the tracker is told to cancel its files. The
brain names them by the peer and by the id that the request has there, `cancel_file_by_target` looks
for files of that peer with that id. The database knows better: a pending file names the row that it
was created for.

The two do not fit together. Two rows may have the same peer and the same id there, and then the
files of both are cancelled. If the file that is being sent has the id, only that one is cancelled,
and the queue is left alone but for what `send_next` does with it: the next file is sent, even if it
is one of those to be cancelled, files at the front that cannot be opened are given up, and a file
that was interrupted is lost if its offer cannot be sent.

## Main results

* `cancelledExactly_iff` — for every state of the service
* `cancellation_inexact` — files of the request are sent on, files of another one are cancelled
-/

namespace Fyles

/-! ### Parts of a list -/

namespace FileTracker

/-! ### The next file -/

/-- Whether `send_next` reports a file instead of offering it. -/
def unsendable (env : Env) (file : PendingFile) : Bool :=
  match progressOf file.status with
  | none => true
  | some progress =>
    match env.openFileForReading ⟨file.filePath, file.id, progress⟩ with
    | none => true
    | some opened =>
      match opened.metadata with
      | .error _ => true
      | .ok _ =>
        match file.status with
        | .pending | .inProgress ⟨.interrupted, _⟩ => false
        | _ => true

/-- Whether the offer to go on with a file cannot be sent; `send_next` then forgets the file. -/
def unofferable (env : Env) (file : PendingFile) : Bool :=
  match file.status with
  | .inProgress ⟨.interrupted, data⟩ =>
    !env.sends (.continueTransfer file.targetFilerequestId data.transferId)
  | _ => false

/-- The files that `send_next` drops from the front of a queue. -/
def givenUp (env : Env) : List PendingFile → List PendingFile
  | [] => []
  | file :: rest =>
    if unsendable env file then file :: givenUp env rest
    else if unofferable env file then [file] else []

/-- The other files of the queue. -/
def remaining (env : Env) : List PendingFile → List PendingFile
  | [] => []
  | file :: rest =>
    if unsendable env file then remaining env rest
    else if unofferable env file then rest else file :: rest

theorem givenUp_append_remaining (env : Env) (queue : List PendingFile) :
    givenUp env queue ++ remaining env queue = queue := by
  induction queue with
  | nil => rfl
  | cons file rest ih =>
    rw [givenUp, remaining]
    split
    · rw [List.cons_append, ih]
    · split <;> rfl

/-- The files of an entry. -/
def entryIds (entry : Option PeerFiles) : List FylesId := entry.elim [] PeerFiles.fileIds

/-- The files that the tracker has for a peer. -/
def World.filesAt (w : World) (p : PeerId) : List FylesId := entryIds (w.tracker.files.lookup p)

theorem announce_ids (sec : Section) (file : PendingFile) :
    entryIds (announce sec file).entry = entryIds sec.entry := by
  rw [announce]
  split <;> rfl

/-- `send_next` on a peer without a file in its slot. -/
theorem sendNextFrom_ids (env : Env) (queue : List PendingFile) (sec : Section) :
    entryIds (sendNextFrom env none queue sec).entry =
      (remaining env queue).map PendingFile.id := by
  induction queue generalizing sec with
  | nil => rfl
  | cons file rest ih =>
    rw [sendNextFrom, remaining, unsendable]
    cases hprogress : progressOf file.status with
    | none => exact ih _
    | some progress =>
      cases hopen : env.openFileForReading ⟨file.filePath, file.id, progress⟩ with
      | none =>
        simp only [hopen]
        exact ih _
      | some opened =>
        cases hmeta : opened.metadata with
        | error e =>
          simp only [hopen, hmeta]
          exact ih _
        | ok size =>
          rcases hst : file.status with - | ⟨stage, data⟩ | - | - | - | text
          · simp only [offerNew, unofferable, hst, Section.send]
            by_cases hsends : env.sends (.newTransfer file.targetFilerequestId opened.fileName size
              env.transferUuid)
            · simp only [hopen, hmeta, hsends, if_true, announce_ids]
              rfl
            · simp only [hopen, hmeta, hsends]
              rfl
          · cases stage with
            | interrupted =>
              simp only [offerContinue, unofferable, hst, Section.send]
              by_cases hsends : env.sends (.continueTransfer file.targetFilerequestId
                data.transferId)
              · simp only [hopen, hmeta, hsends, if_true, announce_ids]
                rfl
              · simp only [hopen, hmeta, hsends, Bool.false_eq_true, if_false, announce_ids]
                rfl
            | _ =>
              simp only [hopen, hmeta]
              exact ih _
          all_goals
            simp only [hopen, hmeta]
            exact ih _

/-- What `cancel_file_by_target` and `cancel_file` leave. -/
theorem cancelSection_ids (env : Env) (selected : PendingFile → Bool) (sec : Section) :
    entryIds (cancelSection env selected sec).2.entry = match sec.entry with
      | none => []
      | some files =>
        match files.sending.filter fun s => selected s.pendingFile with
        | some _ => (remaining env files.pending).map PendingFile.id
        | none => (files.sending.map fun s => s.pendingFile.id).toList ++
            (files.pending.filter fun file => !selected file).map PendingFile.id := by
  rw [cancelSection]
  cases hentry : sec.entry with
  | none =>
    simp only [hentry]
    rfl
  | some files =>
    cases hslot : files.sending.filter fun s => selected s.pendingFile with
    | some sending =>
      simp only [hslot, sendNext]
      exact sendNextFrom_ids env files.pending _
    | none =>
      simp only [hslot]
      rfl

end FileTracker

namespace Brain

open FileTracker

/-! ### Files and the rows that they are created for -/

variable (t : OutgoingTables)

/-- A file was created for a row of the remote file requests. -/
def createdFor (target id : FylesId) : Bool :=
  (t.row id).any fun row => row.targetFilerequestId = target

/-- A file was created for another row. -/
def createdForOther (target id : FylesId) : Bool :=
  (t.row id).any fun row => row.targetFilerequestId ≠ target

theorem isSome_of_createdForOther {t target id} (h : createdForOther t target id = true) :
    (t.row id).isSome = true := by
  rw [createdForOther] at h
  cases hrow : t.row id with
  | none =>
    rw [hrow] at h
    cases h
  | some row => rfl

/-- A file with a row was created for the one or for another. -/
theorem createdForOther_iff {t target id} :
    ((t.row id).isSome = true → createdForOther t target id = true) ↔
      ¬ createdFor t target id = true := by
  rw [createdForOther, createdFor]
  cases t.row id with
  | none => simp
  | some row => simp

/-- **Exact cancellation.** Of the files that the tracker had for a peer it has those that were
created for other rows, in the same order, and none that was created for the row. Nothing is said of
files that have no row. -/
def CancelledExactly (target : FylesId) (w w' : World) : Prop :=
  ∀ p, (w'.filesAt p).filter (fun id => (t.row id).isSome) =
    (w.filesAt p).filter (createdForOther t target)

/-! ### The handler -/

/-- A task that nothing interrupts. -/
def runTask (parse : String → Option PeerId) (x : Surroundings) :
    ℕ → Service → Job → Except Failure Service
  | 0, s, _ => .ok s
  | rounds + 1, s, job =>
    match runJob parse x s job with
    | .error failure => .error failure
    | .ok (s, []) => .ok s
    | .ok (s, job :: _) => runTask parse x rounds s job

/-- `DeleteRemoteFilerequest` looks the row up, cancels and deletes. -/
def deleteRemoteFilerequest (parse : String → Option PeerId) (x : Surroundings) (s : Service)
    (id : FylesId) : Except Failure Service :=
  runTask parse x 3 s (.deleteRequest id)

variable {parse : String → Option PeerId} {x : Surroundings} {s s' : Service} {id : FylesId}
  {r : RemoteFilerequest}

theorem node_of_deleteRemoteFilerequest (hr : s.tables.getRemoteFilerequest id = some r)
    (h : deleteRemoteFilerequest parse x s id = .ok s') : ∃ p, parse r.peerId = some p ∧
      s.node.step (.call (.cancelFileByTarget r.filerequestId p), x.env) = some s'.node := by
  simp only [deleteRemoteFilerequest, runTask, runJob, hr] at h
  cases hp : parse r.peerId with
  | none =>
    simp only [hp] at h
    cases h
  | some p =>
    simp only [hp, Service.stepNode] at h
    cases hstep : s.node.step (.call (.cancelFileByTarget r.filerequestId p), x.env) with
    | none =>
      simp only [hstep] at h
      cases h
    | some w =>
      simp only [hstep, Except.map] at h
      obtain rfl := Except.ok.inj h
      exact ⟨p, rfl, hstep⟩

/-- The files that are cancelled at the peer of a request are those of its row. If the file in the
slot is cancelled, it is one of them, no file of another row is given up, and none of the row is
left. -/
def SeparableAt (env : Env) (t : OutgoingTables) (r : RemoteFilerequest) (files : PeerFiles) :
    Prop :=
  match files.sending.filter fun s => s.pendingFile.targetFilerequestId = r.filerequestId with
  | some s =>
    ¬ createdForOther t r.id s.pendingFile.id = true ∧
    (∀ g ∈ givenUp env files.pending, ¬ createdForOther t r.id g.id = true) ∧
    ∀ g ∈ remaining env files.pending, ¬ createdFor t r.id g.id = true
  | none =>
    (∀ s ∈ files.sending, ¬ createdFor t r.id s.pendingFile.id = true) ∧
    ∀ g ∈ files.pending,
      if g.targetFilerequestId = r.filerequestId then ¬ createdForOther t r.id g.id = true
      else ¬ createdFor t r.id g.id = true

instance (env : Env) (t : OutgoingTables) (r : RemoteFilerequest) (files : PeerFiles) :
    Decidable (SeparableAt env t r files) := by
  rw [SeparableAt]
  split <;> infer_instance

/-- When exactly the files of a row are cancelled: moreover no other peer has any of them. -/
def Separable (parse : String → Option PeerId) (env : Env) (s : Service) (r : RemoteFilerequest) :
    Prop :=
  ∀ e ∈ s.node.tracker.files.entries,
    if parse r.peerId = some e.1 then SeparableAt env s.tables r e.2
    else ∀ id ∈ e.2.fileIds, ¬ createdFor s.tables r.id id = true

instance (parse : String → Option PeerId) (env : Env) (s : Service) (r : RemoteFilerequest) :
    Decidable (Separable parse env s r) :=
  inferInstanceAs (Decidable (∀ e ∈ s.node.tracker.files.entries, _))

theorem filesAt_cancelFileByTarget {w w' : World} {env target p}
    (h : w.step (.call (.cancelFileByTarget target p), env) = some w') (q : PeerId) :
    w'.filesAt q = if q = p then match w.tracker.files.lookup p with
      | none => []
      | some files =>
        match files.sending.filter fun s => s.pendingFile.targetFilerequestId = target with
        | some _ => (remaining env files.pending).map PendingFile.id
        | none => (files.sending.map fun s => s.pendingFile.id).toList ++
            (files.pending.filter fun g => !(g.targetFilerequestId = target : Bool)).map
              PendingFile.id
      else w.filesAt q := by
  have hran := World.ran_of_call rfl h
  rw [World.filesAt, hran.tracker]
  split
  · next hq =>
    subst hq
    rw [CoreFileTracker.lookup_leave_self]
    exact cancelSection_ids env (fun g => g.targetFilerequestId = target) (w.tracker.enter q)
  · next hq =>
    rw [CoreFileTracker.lookup_leave_ne hq]
    rfl

theorem filter_cancelled_iff (env : Env) (t : OutgoingTables) (r : RemoteFilerequest)
    (files : PeerFiles) :
    List.filter (fun id => (t.row id).isSome)
      (match files.sending.filter fun s => s.pendingFile.targetFilerequestId = r.filerequestId with
      | some _ => (remaining env files.pending).map PendingFile.id
      | none => (files.sending.map fun s => s.pendingFile.id).toList ++
          (files.pending.filter fun g => !(g.targetFilerequestId = r.filerequestId : Bool)).map
            PendingFile.id) = files.fileIds.filter (createdForOther t r.id) ↔
      SeparableAt env t r files := by
  obtain ⟨pending, sending⟩ := files
  have hother : ∀ id, createdForOther t r.id id = true → (t.row id).isSome = true :=
    fun _ => isSome_of_createdForOther
  rw [SeparableAt]
  cases hslot : sending.filter fun s => s.pendingFile.targetFilerequestId = r.filerequestId with
  | some s =>
    obtain ⟨hs, -⟩ := Option.filter_eq_some_iff.mp hslot
    obtain rfl := hs
    have hids : (s.pendingFile.id :: (givenUp env pending).map PendingFile.id) ++
        (remaining env pending).map PendingFile.id = PeerFiles.fileIds ⟨pending, some s⟩ := by
      rw [List.cons_append, ← List.map_append, givenUp_append_remaining]
      rfl
    have hsub : ((remaining env pending).map PendingFile.id).Sublist
        (PeerFiles.fileIds ⟨pending, some s⟩) := by
      rw [← hids]
      exact List.sublist_append_right _ _
    rw [filter_eq_filter_iff hother hsub (.of_eq hids)]
    simp only [createdForOther_iff, List.forall_mem_map, List.forall_mem_cons]
    exact ⟨fun h => ⟨h.2.1, h.2.2, h.1⟩, fun h => ⟨h.2.2, h.1, h.2.1⟩⟩
  | none =>
    have hsub : ((sending.map fun s => s.pendingFile.id).toList ++
        (pending.filter fun g => !(g.targetFilerequestId = r.filerequestId : Bool)).map
          PendingFile.id).Sublist (PeerFiles.fileIds ⟨pending, sending⟩) :=
      (List.filter_sublist.map _).append_left _
    have hperm : ((pending.filter fun g => g.targetFilerequestId = r.filerequestId).map
        PendingFile.id ++ ((sending.map fun s => s.pendingFile.id).toList ++
        (pending.filter fun g => !(g.targetFilerequestId = r.filerequestId : Bool)).map
          PendingFile.id)).Perm (PeerFiles.fileIds ⟨pending, sending⟩) := by
      refine (List.perm_append_comm_assoc _ _ _).trans (List.Perm.append_left _ ?_)
      rw [← List.map_append]
      exact (List.filter_append_perm _ _).map _
    rw [filter_eq_filter_iff hother hsub hperm]
    simp only [createdForOther_iff, List.forall_mem_append, List.forall_mem_map]
    constructor
    · rintro ⟨⟨hsending, hkept⟩, hremoved⟩
      refine ⟨fun s hs => hsending _ (by simp [Option.mem_def.mp hs]), fun g hg => ?_⟩
      split
      · next hkey => exact hremoved g (List.mem_filter.mpr ⟨hg, by simpa using hkey⟩)
      · next hkey => exact hkept g (List.mem_filter.mpr ⟨hg, by simpa using hkey⟩)
    · rintro ⟨hsending, hpending⟩
      refine ⟨⟨fun id hid => ?_, fun g hg => ?_⟩, fun g hg => ?_⟩
      · obtain ⟨s, hs, rfl⟩ := Option.map_eq_some_iff.mp (Option.mem_toList.mp hid)
        exact hsending s hs
      · obtain ⟨hg, hkey⟩ := List.mem_filter.mp hg
        have := hpending g hg
        rwa [if_neg (by simpa using hkey)] at this
      · obtain ⟨hg, hkey⟩ := List.mem_filter.mp hg
        have := hpending g hg
        rwa [if_pos (by simpa using hkey)] at this

/-- **When exactly the files of a remote file request are cancelled**, in every state of the service
in which the request is deleted. -/
theorem cancelledExactly_iff (hr : s.tables.getRemoteFilerequest id = some r)
    (h : deleteRemoteFilerequest parse x s id = .ok s') :
    CancelledExactly s.tables id s.node s'.node ↔ Separable parse x.env s r := by
  obtain ⟨-, rfl⟩ := OutgoingTables.mem_of_getRemoteFilerequest hr
  obtain ⟨p, hp, hstep⟩ := node_of_deleteRemoteFilerequest hr h
  have hfiles := filesAt_cancelFileByTarget hstep
  -- at another peer nothing changes
  have hne : ∀ q files, s.node.tracker.files.lookup q = some files → q ≠ p →
      ((s'.node.filesAt q).filter (fun id => (s.tables.row id).isSome) =
        (s.node.filesAt q).filter (createdForOther s.tables r.id) ↔
      ∀ id ∈ files.fileIds, ¬ createdFor s.tables r.id id = true) := by
    intro q files hlookup hq
    rw [hfiles, if_neg hq, filter_eq_filter_iff (fun _ => isSome_of_createdForOther)
      (List.Sublist.refl _) (List.Perm.refl ([] ++ s.node.filesAt q)), World.filesAt, hlookup]
    simp only [createdForOther_iff, entryIds, Option.elim_some]
    exact ⟨fun h => h.1, fun h => ⟨h, fun _ h => (nomatch h)⟩⟩
  constructor
  · intro hexact e he
    have hlookup : s.node.tracker.files.lookup e.1 = some e.2 := AList.mem_lookup_iff.mpr he
    split
    · next hpe =>
      obtain rfl := Option.mem_unique hp hpe
      have := hexact e.1
      rw [hfiles, if_pos rfl, hlookup, World.filesAt, hlookup] at this
      exact (filter_cancelled_iff x.env s.tables r e.2).mp this
    · next hpe =>
      exact (hne e.1 e.2 hlookup fun heq => hpe (heq ▸ hp)).mp (hexact e.1)
  · intro hsep q
    cases hlookup : s.node.tracker.files.lookup q with
    | none =>
      rw [hfiles, World.filesAt, hlookup]
      by_cases hq : q = p
      · rw [if_pos hq, ← hq, hlookup]
        rfl
      · rw [if_neg hq]
        rfl
    | some files =>
      have he := hsep ⟨q, files⟩ (AList.mem_lookup_iff.mp hlookup)
      by_cases hq : q = p
      · subst hq
        rw [if_pos hp] at he
        rw [hfiles, if_pos rfl, hlookup, World.filesAt, hlookup]
        exact (filter_cancelled_iff x.env s.tables r files).mpr he
      · rw [if_neg fun heq => hq (Option.some.inj (heq.symm.trans hp))] at he
        exact (hne q files hlookup hq).mpr he

/-- Two files for the sample request, the first of which is being sent. -/
def sampleTwoFiles : List (Event × Surroundings) :=
  [.createRemoteFilerequest sampleRequest, .act (.createPendingFiles ⟨"row"⟩ ["path", "second"]),
    .resume 0, .resume 0, .resume 0, .resume 0,
    .network (.call (.triggerInteractionWith ⟨"peer"⟩))].map
    fun e => (e, sampleSurroundings [] "file")

/-- A second request with a file, at the same peer and with an id of its own there. -/
def sampleSecondRequest (id : FylesId) : List (Event × Surroundings) :=
  [.createRemoteFilerequest { sampleRequest with id := ⟨"second"⟩, filerequestId := id },
    .act (.createPendingFiles ⟨"second"⟩ ["path"]),
    .resume 0, .resume 0, .resume 0].map fun e => (e, sampleSurroundings [] "other")

/-- Two requests with different ids at the peer. -/
theorem cancelledExactly_iff_sample : ∃ s,
    Run (Service.next sampleParse) (fun _ _ => True) (.start .empty [])
      (sampleSetup ++ sampleSecondRequest ⟨"another"⟩) s ∧
    s.node.filesAt ⟨"peer"⟩ = [⟨"file0"⟩, ⟨"other0"⟩] ∧
    ∃ s', deleteRemoteFilerequest sampleParse (sampleSurroundings [] "") s ⟨"row"⟩ = .ok s' ∧
    s'.node.filesAt ⟨"peer"⟩ = [⟨"other0"⟩] ∧
    CancelledExactly s.tables ⟨"row"⟩ s.node s'.node := by
  refine ⟨_, Run.get_runFrom, by decide, _, rfl, by decide, ?_⟩
  exact (@cancelledExactly_iff sampleParse (sampleSurroundings [] "") _ _ _ sampleRequest
    (by decide) rfl).mpr (by decide)

/-- **Cancelling is not exact.** The second file of a request is offered to the peer, although the
request is deleted. A file of another request is cancelled, if that has the same id at the peer. -/
theorem cancellation_inexact :
    (∃ s, Run (Service.next sampleParse) (fun _ _ => True) (.start .empty []) sampleTwoFiles s ∧
      ∃ s', deleteRemoteFilerequest sampleParse (sampleSurroundings [] "") s ⟨"row"⟩ = .ok s' ∧
      createdFor s.tables ⟨"row"⟩ ⟨"file1"⟩ = true ∧ s'.node.filesAt ⟨"peer"⟩ = [⟨"file1"⟩] ∧
      ¬ CancelledExactly s.tables ⟨"row"⟩ s.node s'.node) ∧
    ∃ s, Run (Service.next sampleParse) (fun _ _ => True) (.start .empty [])
        (sampleSetup ++ sampleSecondRequest ⟨"filerequest"⟩) s ∧
      ∃ s', deleteRemoteFilerequest sampleParse (sampleSurroundings [] "") s ⟨"second"⟩ = .ok s' ∧
      createdFor s.tables ⟨"row"⟩ ⟨"file0"⟩ = true ∧ ⟨"file0"⟩ ∈ s.node.filesAt ⟨"peer"⟩ ∧
      s'.node.filesAt ⟨"peer"⟩ = [] ∧
      ¬ CancelledExactly s.tables ⟨"second"⟩ s.node s'.node := by
  refine ⟨⟨_, Run.get_runFrom, _, rfl, by decide, by decide, fun h => ?_⟩,
    ⟨_, Run.get_runFrom, _, rfl, by decide, by decide, by decide,
      fun h => ?_⟩⟩
  · exact absurd (h ⟨"peer"⟩) (by decide)
  · exact absurd (h ⟨"peer"⟩) (by decide)

end Brain

end Fyles
