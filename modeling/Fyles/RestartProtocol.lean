import Fyles.Custody
import Fyles.SlotOccupancy

/-!
# Starting over

A peer that cannot go on with an interrupted transfer answers `ContinueTransfer` with
`RestartContinueTransfer`, "in which case we simply continue with `NewTransfer`"
(`p2p/src/types.rs`). At this point the peer has no record of the transfer.

`receive_response` has one branch for this answer and for `AcceptNewTransfer`, so the file is
treated as accepted: its status becomes `Sending`, and chunks are sent from the position at which
the file was opened. `NewTransfer` is not sent. The file starts over in one case only, which is not
meant for it: if the contact is not the one that the file is for, and no byte of the file was
acknowledged, then the file goes back to the queue as if it had never been offered.

The statement is about every state of the tracker and everything that can happen afterwards, with
the conditions of `Fyles.TransferOrder` for this file: no loop that was started for something else
sends chunks of it, and an acceptance answers its `NewTransfer`.

## Main results

* `startsOver_iff` — when a file starts over
* `restart_sends_chunks` — a verified peer gets a chunk instead
-/

namespace Fyles

/-- Whether a request sends something of a file. -/
def FileRequest.isContent : FileRequest → Bool
  | .chunk _ | .done _ => true
  | _ => false

/-- Whether a request is a `NewTransfer` for the transfer data that are kept. -/
def FileRequest.isAnew : FileRequest → Option TransferData → Bool
  | .newTransfer _ _ size transferUuid, some data =>
    data.fileSizeBytes = size && data.transferId = transferUuid
  | _, _ => false

namespace FileTracker

/-! ### What is said -/

/-- What a peer is told about a file, and what it answers. -/
inductive Talk
  /-- A message of the transfer of a file was sent. The last argument is the transfer data that the
  tracker then keeps for the file. -/
  | message (file : FylesId) (request : FileRequest) (requestId : ℕ) (data : Option TransferData)
  /-- A response came while the file was in the slot. -/
  | answered (file : FylesId) (requestId : Option ℕ) (response : FileResponse)
  deriving DecidableEq

/-- The tracker, with what was said since some state of it. -/
structure Overheard where
  world : World
  talk : PeerId → List Talk

namespace Overheard

/-- Nothing was said since. -/
def ofWorld (w : World) : Overheard := ⟨w, fun _ => []⟩

/-- What a peer answers in a step. -/
def heard (w : World) (e : Event) (p : PeerId) : List Talk :=
  match e with
  | .call (.receiveResponse peer _ requestId response) =>
    if peer = p then
      ((slotOf (w.tracker.files.lookup p)).map fun s =>
        .answered s.pendingFile.id requestId response).toList
    else []
  | _ => []

/-- What is said to a peer in a step. It is said for the file that is then in the slot. -/
def spoken (w w' : World) (p : PeerId) : List Talk :=
  match slotOf (w'.tracker.files.lookup p) with
  | none => []
  | some s => (w.said w' p).map fun m =>
    .message s.pendingFile.id m.1 m.2 s.pendingFile.status.transferData

/-- A step of the tracker. -/
def step (o : Overheard) (e : Event × Env) : Option Overheard :=
  (o.world.step e).map fun w' =>
    ⟨w', fun p => o.talk p ++ heard o.world e.1 p ++ spoken o.world w' p⟩

end Overheard

/-! ### Starting over -/

/-- Whether something was said for a file. -/
def Talk.isFor (f : FylesId) : Talk → Bool
  | .message file .. => file = f
  | .answered .. => false

/-- The id of the request, if it is a `NewTransfer` for a file. -/
def Talk.offersAnew (f : FylesId) : Talk → Option ℕ
  | .message file (.newTransfer ..) requestId _ => if file = f then some requestId else none
  | _ => none

/-- The peer has accepted a `NewTransfer` of the file. -/
def AcceptedAnew (f : FylesId) (talk : List Talk) : Prop :=
  ∃ t ∈ talk, ∃ id ∈ t.offersAnew f, .answered f (some id) .acceptNewTransfer ∈ talk

instance (f : FylesId) (talk : List Talk) : Decidable (AcceptedAnew f talk) :=
  inferInstanceAs (Decidable (∃ t ∈ talk, ∃ id ∈ t.offersAnew f, _))

/-- What may be said, given what was said before: first a `NewTransfer` with the size and the
transfer id that are kept for the file, and contents only after one was accepted. -/
def Talk.Due (f : FylesId) (pre : List Talk) : Talk → Prop
  | .message file request _ data => file = f →
    ((∀ t ∈ pre, t.isFor f = false) → request.isAnew data = true) ∧
      (request.isContent = true → AcceptedAnew f pre)
  | .answered .. => True

instance (f : FylesId) (pre : List Talk) (t : Talk) : Decidable (t.Due f pre) :=
  match t with
  | .message .. => inferInstanceAs (Decidable (_ → _ ∧ _))
  | .answered .. => .isTrue trivial

/-- **A file starts over.** -/
def StartsOver (f : FylesId) (talk : List Talk) : Prop := AtEvery (Talk.Due f) talk

instance (f : FylesId) (talk : List Talk) : Decidable (StartsOver f talk) :=
  inferInstanceAs (Decidable (AtEvery _ talk))

/-- The conditions on what happens to a file afterwards: it is not handed over once more; a response
that accepts an offer and finds the file offered is an acceptance of its `NewTransfer`; and a round
of `send_chunks_loop` that finds the file finds it being sent. -/
def Conduct (p : PeerId) (f : FylesId) (o : Overheard) (e : Event × Env) : Prop :=
  match e.1 with
  | .call (.addPendingFile peer file) => peer = p → file.id ≠ f
  | .call (.receiveResponse peer _ requestId response) =>
    peer = p → response.starts = true →
    ∀ s ∈ slotOf (o.world.tracker.files.lookup p), s.pendingFile.id = f →
      stageOf s.pendingFile.status = some .prepared →
      response = .acceptNewTransfer ∧ ∃ t ∈ o.talk p, ∃ id ∈ t.offersAnew f, requestId = some id
  | .resume index =>
    ∀ task ∈ o.world.tasks[index]?, task.1 = p →
    ∀ s ∈ slotOf (o.world.tracker.files.lookup p), s.pendingFile.id = f →
      match task.2 with
      | .sendChunksLoop contactId =>
        (s.unlockMut contactId).isSome → stageOf s.pendingFile.status = some .sending
      | _ => True
  | _ => True

instance (p : PeerId) (f : FylesId) (o : Overheard) (e : Event × Env) :
    Decidable (Conduct p f o e) := by
  have hround : ∀ (task : Task) (s : LockedSendData ℕ), Decidable (match task with
      | .sendChunksLoop contactId =>
        (s.unlockMut contactId).isSome → stageOf s.pendingFile.status = some .sending
      | _ => True) := fun task s => by split <;> infer_instance
  rw [Conduct.eq_def]
  split <;> infer_instance

/-! ### The file that goes back as if it had never been offered -/

variable {p : PeerId} {f : FylesId} {env : Env}

/-- The file is in the queue as if it had never been offered, or is offered with a `NewTransfer`. -/
def unstarted (f : FylesId) : Custody where
  file g := g.id = f → g.status = .pending
  slot s := s.pendingFile.id = f → ∃ data, s.pendingFile.status = .inProgress ⟨.prepared, data⟩ ∧
    data.progressBytes = 0
  notice _ := True
  message s q := s.pendingFile.id = f →
    q.isAnew s.pendingFile.status.transferData = true

/-- A custody of one peer. -/
def Custody.only (p : PeerId) (c : Custody) : PeerId → Custody :=
  fun q => if q = p then c
    else { file _ := True, slot _ := True, notice _ := True, message _ _ := True }

theorem unstarted_closed (f : FylesId) (env : Env) : (unstarted f).Closed env where
  skipped _ := ⟨trivial, trivial, trivial⟩
  offered _ _ _ _ := by
    refine ⟨fun _ => ⟨_, rfl, rfl⟩, fun _ => ?_⟩
    simp [FileRequest.isAnew, offeredSlot, LockedSendData.new, SendStatus.transferData]
  resumed _ _ hf hst := by
    refine ⟨⟨fun hid => ?_, fun hid => ?_⟩, trivial⟩ <;> cases hst.symm.trans (hf hid)
  completed _ _ := trivial
  reset _ hs := by
    refine ⟨fun hid => ?_, trivial⟩
    obtain ⟨data, hst, hzero⟩ := hs hid
    show computeResetStatus _ = _
    rw [hst, computeResetStatus, hzero, if_neg (Nat.lt_irrefl 0)]
  failed hs := hs
  verified result hs _ := by
    simp only [unstarted, noteVerification_pendingFile] at hs ⊢
    exact hs
  acknowledged hs hst _ := by
    refine ⟨fun hid => ?_, trivial⟩
    obtain ⟨data, hst', -⟩ := hs hid
    cases hst.symm.trans hst'

theorem only_closed {c} (hc : c.Closed env) (q : PeerId) : (Custody.only p c q).Closed env := by
  rw [Custody.only]
  split
  · exact hc
  · constructor <;> simp

/-! ### What is said afterwards -/

variable {talk : List Talk}

theorem Talk.due_of_isAnew {pre file q} {requestId : ℕ} {data}
    (h : file = f → q.isAnew data = true) : (Talk.message file q requestId data).Due f pre := by
  intro hfile
  refine ⟨fun _ => h hfile, fun hcontent => ?_⟩
  have hanew := h hfile
  cases q with
  | chunk | done => cases hanew
  | _ => cases hcontent

/-- Once a `NewTransfer` was accepted, everything may be said. -/
theorem AcceptedAnew.due {pre} (h : AcceptedAnew f pre) (t : Talk) : t.Due f pre := by
  cases t with
  | answered => trivial
  | message file q requestId data =>
    rintro rfl
    refine ⟨fun hnone => ?_, fun _ => h⟩
    obtain ⟨t, ht, id, hid, -⟩ := h
    have hfor := hnone t ht
    cases t with
    | answered => cases hid
    | message file' q' requestId' data' =>
      cases q' with
      | newTransfer =>
        rw [Talk.offersAnew] at hid
        split at hid
        · next heq =>
          rw [Talk.isFor] at hfor
          simp [heq] at hfor
        · cases hid
      | _ => cases hid

theorem AcceptedAnew.append (h : AcceptedAnew f talk) (more : List Talk) :
    AcceptedAnew f (talk ++ more) := by
  obtain ⟨t, ht, id, hid, hmem⟩ := h
  exact ⟨t, List.mem_append_left _ ht, id, hid, List.mem_append_left _ hmem⟩

theorem StartsOver.append_accepted (h : StartsOver f talk)
    (hacc : AcceptedAnew f talk) (more : List Talk) : StartsOver f (talk ++ more) := by
  induction more generalizing talk with
  | nil => simpa using h
  | cons t more ih =>
    have hrest := ih (atEvery_concat.mpr ⟨h, hacc.due t⟩) (hacc.append [t])
    rwa [List.append_assoc, List.singleton_append] at hrest

theorem StartsOver.append_heard (h : StartsOver f talk) (w : World) (e : Event)
    (q : PeerId) : StartsOver f (talk ++ Overheard.heard w e q) := by
  refine AtEvery.append h fun t ht pre => ?_
  rw [Overheard.heard.eq_def] at ht
  split at ht
  · split at ht
    · obtain ⟨s, -, rfl⟩ := Option.map_eq_some_iff.mp (Option.mem_toList.mp ht)
      trivial
    · cases ht
  · cases ht

/-- What is known after the file went back: it starts over, and a `NewTransfer` was accepted, or the
file is still unstarted. -/
structure Restarting (p : PeerId) (f : FylesId) (o : Overheard) : Prop where
  startsOver : StartsOver f (o.talk p)
  progress : AcceptedAnew f (o.talk p) ∨ InCustody (Custody.only p (unstarted f)) o.world

namespace Restarting

variable {o o' : Overheard} {e : Event}

theorem only_self (c : Custody) : Custody.only p c p = c := if_pos rfl

/-- The steps in which the peer does not accept an offer of the file. -/
theorem admits (hcustody : InCustody (Custody.only p (unstarted f)) o.world)
    (hconduct : Conduct p f o (e, env))
    (haccepts : ∀ contactId requestId response s,
      e = .call (.receiveResponse p contactId requestId response) → response.starts = true →
      slotOf (o.world.tracker.files.lookup p) = some s →
      stageOf s.pendingFile.status = some .prepared → s.pendingFile.id ≠ f) :
    Custody.Admits (Custody.only p (unstarted f)) o.world e env where
  closed := only_closed (unstarted_closed f env)
  file q file he _ := by
    subst he
    rw [Custody.only]
    split
    · next hq => exact fun hid => absurd hid (hconduct hq)
    · trivial
  accepts q contactId requestId response s data he haccept hs hst := by
    rw [Custody.only]
    split
    · next hq =>
      subst hq
      intro hid
      have hid' : s.pendingFile.id = f := by
        cases response <;> exact hid
      exact absurd hid' (haccepts contactId requestId response s he haccept hs (by rw [hst]; rfl))
    · trivial
  response q contactId requestId response _ := by
    rw [Custody.only]
    split <;> exact ⟨trivial, fun _ _ _ _ => trivial⟩
  round index q contactId s he htask hs hu := by
    rw [Custody.only]
    split
    · next hq =>
      subst hq he
      have hne : s.pendingFile.id ≠ f := by
        intro hid
        have hsending := hconduct (q, .sendChunksLoop contactId) htask rfl s hs hid
          (by rw [hu]; rfl)
        have hslot := hcustody.slot hs
        rw [only_self] at hslot
        obtain ⟨data, hst, -⟩ := hslot hid
        rw [hst] at hsending
        cases hsending
      exact ⟨fun h => absurd h hne, fun _ h => absurd h hne,
        ⟨fun h => absurd h hne, fun h => absurd h hne⟩, fun _ _ => ⟨fun h => absurd h hne, trivial⟩⟩
    · exact ⟨trivial, fun _ => trivial, ⟨trivial, trivial⟩, fun _ _ => ⟨trivial, trivial⟩⟩

/-- **A step keeps to it.** -/
theorem step (h : Restarting p f o) (hconduct : Conduct p f o (e, env))
    (hstep : o.step (e, env) = some o') : Restarting p f o' := by
  obtain ⟨w', hw, rfl⟩ := Option.map_eq_some_iff.mp hstep
  have hheard := h.startsOver.append_heard o.world e p
  rcases h.progress with hacc | hcustody
  · have hacc' := hacc.append (Overheard.heard o.world e p)
    exact ⟨hheard.append_accepted hacc' _, .inl (hacc'.append _)⟩
  · by_cases haccepts : ∀ contactId requestId response s,
        e = .call (.receiveResponse p contactId requestId response) → response.starts = true →
        slotOf (o.world.tracker.files.lookup p) = some s →
        stageOf s.pendingFile.status = some .prepared → s.pendingFile.id ≠ f
    · have hkept := hcustody.step (admits hcustody hconduct haccepts) hw
      refine ⟨AtEvery.append hheard fun t ht pre => ?_, .inr hkept.custody⟩
      -- what is said for the file is a `NewTransfer`
      rw [Overheard.spoken] at ht
      split at ht
      · cases ht
      · next s hs =>
        obtain ⟨m, hm, rfl⟩ := List.mem_map.mp ht
        obtain ⟨s', hs', hmessage⟩ := hkept.said hm
        obtain rfl := Option.mem_unique hs hs'
        rw [only_self] at hmessage
        exact Talk.due_of_isAnew hmessage
    · -- the peer accepts the `NewTransfer`
      push Not at haccepts
      obtain ⟨contactId, requestId, response, s, rfl, haccept, hs, hprepared, hid⟩ := haccepts
      obtain ⟨rfl, t, ht, id, hoffer, rfl⟩ := hconduct rfl haccept s hs hid hprepared
      have hanswered : Overheard.heard o.world
          (.call (.receiveResponse p contactId (some id) .acceptNewTransfer)) p =
          [.answered f (some id) .acceptNewTransfer] := by
        simp [Overheard.heard, hs, hid]
      have hacc : AcceptedAnew f (o.talk p ++ Overheard.heard o.world
          (.call (.receiveResponse p contactId (some id) .acceptNewTransfer)) p) := by
        rw [hanswered]
        exact ⟨t, List.mem_append_left _ ht, id, hoffer,
          List.mem_append_right _ List.mem_cons_self⟩
      exact ⟨hheard.append_accepted hacc _, .inl (hacc.append _)⟩

end Restarting

/-! ### What the answer does -/

variable {w w' : World} {queue : List PendingFile} {s : LockedSendData ℕ} {data : TransferData}
  {contactId : Option ContactId} {requestId : Option ℕ}

/-- Whether the contact at the other end is found to be another than that of the file. -/
def VerificationFails (env : Env) (s : LockedSendData ℕ) (contactId : Option ContactId) : Prop :=
  verifyTargetContactId env s.pendingFile.contactId contactId = some .verificationFailed

instance : Decidable (VerificationFails env s contactId) :=
  inferInstanceAs (Decidable (_ = _))

/-- **What the answer does** to an offered file: it goes back to the queue if the contact is
another, otherwise it is being sent. -/
theorem lookup_of_restart (hentry : w.tracker.files.lookup p = some ⟨queue, some s⟩)
    (hst : s.pendingFile.status = .inProgress ⟨.prepared, data⟩)
    (hstep : w.step (.call (.receiveResponse p contactId requestId .restartContinueTransfer), env) =
      some w') :
    (VerificationFails env s contactId ∧
      w'.tracker.files.lookup p = some ⟨queue ++ [resetFile s], none⟩) ∨
    (¬ VerificationFails env s contactId ∧ ∃ result, w'.tracker.files.lookup p =
      some ⟨queue, some (startedAt data (noteVerification result s))⟩) := by
  have hran := World.ran_of_call rfl hstep
  have hrun : (Handler.receiveResponse p contactId requestId .restartContinueTransfer).run env
      (w.tracker.enter p) = acceptNewTransfer env contactId (w.tracker.enter p) := rfl
  have henter : (w.tracker.enter p).entry = some ⟨queue, some s⟩ := hentry
  have hnot := hran.not_blocked
  rw [hran.tracker, CoreFileTracker.lookup_leave_self, VerificationFails]
  rw [hrun] at hnot ⊢
  rw [acceptNewTransfer] at hnot ⊢
  simp only [henter] at hnot ⊢
  cases hv : verifyTargetContactId env s.pendingFile.contactId contactId with
  | none =>
    rw [hv] at hnot
    exact absurd rfl hnot
  | some result =>
    cases result with
    | verificationFailed =>
      refine .inl ⟨rfl, ?_⟩
      simp only [resetAll, henter]
      rfl
    | internalError =>
      rw [verifyTargetContactId] at hv
      split at hv
      · cases hv
      · split at hv <;> cases hv
      · cases hv
    | verified =>
      refine .inr ⟨by simp, .verified, ?_⟩
      simp only [hst]
      rfl
    | contactIsUnknown =>
      refine .inr ⟨by simp, .contactIsUnknown, ?_⟩
      simp only [hst]
      rfl

/-! ### What can happen then -/

variable {g : PendingFile}

/-- Surroundings in which only one file can be opened. -/
def onlyOpens (f : FylesId) : Env where
  isContactKnown _ := .ok true
  openFileForReading request := if request.id = f then some ⟨"", .ok 0, 0⟩ else none
  read := .ok []
  seeks := true
  transferUuid := ⟨""⟩
  sends _ := true

/-- The files before it are passed over. -/
theorem sendNextFrom_onlyOpens {rest} (sec : Section) (hqueue : ∀ g ∈ queue, g.id ≠ f) :
    ∃ es : List Effect, (∀ e ∈ es, e.message = none) ∧
      sendNextFrom (onlyOpens f) none (queue ++ rest) sec =
        sendNextFrom (onlyOpens f) none rest { sec with effects := sec.effects ++ es } := by
  induction queue generalizing sec with
  | nil => exact ⟨[], fun _ h => (nomatch h), by simp⟩
  | cons g queue ih =>
    have hskip : ∃ es : List Effect, (∀ e ∈ es, e.message = none) ∧
        sendNextFrom (onlyOpens f) none (g :: queue ++ rest) sec =
          sendNextFrom (onlyOpens f) none (queue ++ rest)
            { sec with effects := sec.effects ++ es } := by
      rw [List.cons_append, sendNextFrom]
      cases progressOf g.status with
      | none => exact ⟨[.notified _], by simp [Effect.message], rfl⟩
      | some progress =>
        have hclosed : (onlyOpens f).openFileForReading ⟨g.filePath, g.id, progress⟩ = none :=
          if_neg (hqueue g List.mem_cons_self)
        simp only [hclosed]
        exact ⟨[.notified _, .notified _], by simp [Effect.message],
          by rw [List.append_cons]; rfl⟩
    obtain ⟨es, hes, ha⟩ := hskip
    obtain ⟨es', hes', heq⟩ := ih { sec with effects := sec.effects ++ es }
      fun g' hg' => hqueue g' (List.mem_cons_of_mem _ hg')
    refine ⟨es ++ es', List.forall_mem_append.mpr ⟨hes, hes'⟩, ?_⟩
    rw [ha, heq, List.append_assoc]

/-- An interrupted file is offered with `ContinueTransfer`. -/
theorem sendNextFrom_interrupted (sec : Section)
    (hst : g.status = .inProgress ⟨.interrupted, data⟩) :
    sendNextFrom (onlyOpens g.id) none [g] sec =
      ((sec.send (onlyOpens g.id) false (some g.contactId)
        (.continueTransfer g.targetFilerequestId data.transferId)).2.put
        ⟨[], some (resumedSlot g data 0 0)⟩).notify (.fileSending g.id g.status) := by
  have hopen : (onlyOpens g.id).openFileForReading ⟨g.filePath, g.id, data.progressBytes⟩ =
    some ⟨"", .ok 0, 0⟩ := if_pos rfl
  have hannounce : ∀ {sec : Section}, announce sec g =
      sec.notify (.fileSending g.id g.status) := by
    intro sec
    simp [announce, hst, isEphemeral]
  rw [sendNextFrom]
  simp only [hst, progressOf, hopen]
  rw [offerContinue_sent rfl, hannounce, hst]
  rfl

/-- An interrupted file at the end of the queue is offered with `ContinueTransfer`, if no other
can be opened. -/
theorem exists_continue {o : Overheard}
    (hentry : o.world.tracker.files.lookup p = some ⟨queue ++ [g], none⟩)
    (hst : g.status = .inProgress ⟨.interrupted, data⟩) (hqueue : ∀ h ∈ queue, h.id ≠ g.id)
    (htalk : o.talk p = []) : ∃ o', o.step (.call (.triggerInteractionWith p), onlyOpens g.id) =
      some o' ∧ ¬ StartsOver g.id (o'.talk p) := by
  obtain ⟨es, hes, hskip⟩ := @sendNextFrom_onlyOpens g.id queue [g]
    (o.world.tracker.enter p) hqueue
  rw [sendNextFrom_interrupted _ hst] at hskip
  generalize hsec : ((Section.send _ (onlyOpens g.id) false (some g.contactId)
    (.continueTransfer g.targetFilerequestId data.transferId)).2.put
      ⟨[], some (resumedSlot g data 0 0)⟩).notify (.fileSending g.id g.status) = sec at hskip
  have hrun : (Handler.triggerInteractionWith p).run (onlyOpens g.id) (o.world.tracker.enter p) =
      (sec, .returned) := by
    have henter : (o.world.tracker.enter p).entry = some ⟨queue ++ [g], none⟩ := hentry
    simp only [Handler.run, triggerInteractionWith, henter, sendNext, hskip]
  have hstep := @World.step_of_returned _ _ p (.triggerInteractionWith p) _ rfl hrun
  refine ⟨_, by rw [Overheard.step, hstep]; rfl, ?_⟩
  have hslot : slotOf ((o.world.tracker.leave p sec).files.lookup p) =
      some (resumedSlot g data 0 0) := by
    rw [CoreFileTracker.lookup_leave_self, ← hsec]
    rfl
  have hsaid : o.world.said ⟨o.world.tracker.leave p sec, o.world.tasks⟩ p =
      [(.continueTransfer g.targetFilerequestId data.transferId,
        o.world.tracker.nextRequestId)] := by
    have hnone : es.filterMap Effect.message = [] := List.filterMap_eq_nil_iff.mpr hes
    have heffects : sec.effects = es ++ [.requested false (some g.contactId)
        (.continueTransfer g.targetFilerequestId data.transferId)
        (some o.world.tracker.nextRequestId), .notified (.fileSending g.id g.status)] := by
      rw [← hsec]
      simp [Section.notify, Section.emit, Section.put, Section.send, onlyOpens,
        CoreFileTracker.enter]
    rw [World.said, CoreFileTracker.history_leave, List.drop_left' rfl, List.filterMap_map,
      heffects]
    simp only [Function.comp_def, if_true]
    rw [List.filterMap_append, hnone]
    rfl
  have htalk' : o.talk p ++ Overheard.heard o.world (.call (.triggerInteractionWith p)) p ++
      Overheard.spoken o.world ⟨o.world.tracker.leave p sec, o.world.tasks⟩ p =
      [.message g.id (.continueTransfer g.targetFilerequestId data.transferId)
        o.world.tracker.nextRequestId (some data)] := by
    rw [htalk, Overheard.spoken, hslot, hsaid]
    rfl
  intro hover
  simp only [htalk'] at hover
  have hdue := hover 0 (by simp) _ rfl rfl
  cases hdue.1 (by simp)

/-- A file that is being sent is put back when its request expires, and is then offered with
`ContinueTransfer`. -/
theorem exists_continue_after_timeout (env : Env)
    (hlookup : w.tracker.files.lookup p = some ⟨queue, some s⟩)
    (hreset : (resetFile s).status = .inProgress ⟨.interrupted, data⟩)
    (hqueue : ∀ g ∈ queue, g.id ≠ s.pendingFile.id) :
    ∃ events o, Run Overheard.step (Conduct p s.pendingFile.id) (.ofWorld w) events o ∧
      ¬ StartsOver s.pendingFile.id (o.talk p) := by
  have henter : (w.tracker.enter p).entry = some ⟨queue, some s⟩ := hlookup
  have hworld := @World.step_of_returned w env p
    (.handleReceiveError p none (.localError .timeout)) _ rfl
    (by simp only [Handler.run, handleReceiveError, henter]; rfl)
  generalize hw₁ : World.mk _ w.tasks = w₁ at hworld
  have hlookup₁ : w₁.tracker.files.lookup p = some ⟨queue ++ [resetFile s], none⟩ := by
    rw [← hw₁, CoreFileTracker.lookup_leave_self]
    rfl
  obtain ⟨o₁, htimeout, hworld₁, htalk₁⟩ : ∃ o₁, (Overheard.ofWorld w).step
      (.call (.handleReceiveError p none (.localError .timeout)), env) = some o₁ ∧
      o₁.world = w₁ ∧ o₁.talk p = [] := by
    refine ⟨_, by rw [Overheard.step, Overheard.ofWorld, hworld]; rfl, rfl, ?_⟩
    have hempty : slotOf (w₁.tracker.files.lookup p) = none := by
      rw [hlookup₁]
      rfl
    simp only [Overheard.spoken, hempty]
    rfl
  obtain ⟨o', ho', hbad⟩ := exists_continue (o := o₁) (g := resetFile s) (hworld₁ ▸ hlookup₁)
    hreset hqueue htalk₁
  exact ⟨[(.call (.handleReceiveError p none (.localError .timeout)), env),
    (.call (.triggerInteractionWith p), onlyOpens _)], o',
    (Run.nil.snoc trivial htimeout).snoc trivial ho', hbad⟩

/-! ### The two together -/

/-- A file at the end of the queue that was not offered starts over. -/
theorem restarting_of_pending
    (hlookup : w.tracker.files.lookup p = some ⟨queue ++ [g], none⟩) (hst : g.status = .pending)
    (hqueue : ∀ h ∈ queue, h.id ≠ g.id) : Restarting p g.id (.ofWorld w) := by
  refine ⟨AtEvery.nil, .inr ⟨fun q files hf => ?_, fun q task _ => ?_⟩⟩
  · rw [Custody.only]
    split
    · next hq =>
      subst hq
      obtain rfl := Option.mem_unique hlookup hf
      refine .queued fun g' hg' hid => ?_
      rcases List.mem_append.mp hg' with hg' | hg'
      · exact absurd hid (hqueue g' hg')
      · rw [List.mem_singleton.mp hg']
        exact hst
    · exact ⟨fun _ _ => trivial, fun _ _ => trivial⟩
  · rw [Custody.only]
    split <;> cases task <;> trivial

/-- **When a file starts over.** In every state of the tracker in which an offered file is answered
with `RestartContinueTransfer`, the file starts over, whatever happens afterwards, if and only if
the contact is another than that of the file and no byte of it was acknowledged. -/
theorem startsOver_iff (hentry : w.tracker.files.lookup p = some ⟨queue, some s⟩)
    (hst : s.pendingFile.status = .inProgress ⟨.prepared, data⟩)
    (hsole : ∀ g ∈ queue, g.id ≠ s.pendingFile.id)
    (hstep : w.step (.call (.receiveResponse p contactId requestId .restartContinueTransfer), env) =
      some w') :
    (∀ events o, Run Overheard.step (Conduct p s.pendingFile.id) (.ofWorld w') events o →
      StartsOver s.pendingFile.id (o.talk p)) ↔
    VerificationFails env s contactId ∧ data.progressBytes = 0 := by
  have hcases := lookup_of_restart hentry hst hstep
  constructor
  · intro hover
    by_contra hnot
    rcases hcases with ⟨hfails, hlookup⟩ | ⟨-, result, hlookup⟩
    · -- the file was interrupted, and its transfer is to be continued
      have hpos : 0 < data.progressBytes := Nat.pos_of_ne_zero fun h => hnot ⟨hfails, h⟩
      have hreset : (resetFile s).status = .inProgress ⟨.interrupted, data⟩ := by
        show computeResetStatus _ = _
        rw [hst, computeResetStatus, if_pos hpos]
      obtain ⟨o', ho', hbad⟩ := exists_continue (o := .ofWorld w') (g := resetFile s) hlookup hreset
        hsole rfl
      exact hbad (hover [(.call (.triggerInteractionWith p), onlyOpens _)] o'
        (Run.nil.snoc trivial ho'))
    · -- it is being sent; its request expires, and then its transfer is to be continued
      have hid : (startedAt data (noteVerification result s)).pendingFile.id =
          s.pendingFile.id := by
        rw [startedAt, LockedSendData.withStatus, noteVerification_pendingFile]
      obtain ⟨events, o, hrun, hbad⟩ :=
        exists_continue_after_timeout env hlookup rfl (hid ▸ hsole)
      rw [hid] at hrun hbad
      exact hbad (hover events o hrun)
  · rintro ⟨hfails, hzero⟩ events o hrun
    obtain ⟨-, hlookup⟩ := hcases.resolve_right fun h => h.1 hfails
    have hpending : (resetFile s).status = .pending := by
      show computeResetStatus _ = _
      rw [hst, computeResetStatus, hzero, if_neg (Nat.lt_irrefl 0)]
    have hstart : Restarting p (resetFile s).id (.ofWorld w') :=
      restarting_of_pending hlookup hpending hsole
    exact (hrun.invariant hstart fun h hok hs => h.step hok hs).startsOver

/-- An interrupted file of ten bytes. -/
def sampleInterrupted (progressBytes : ℕ) : PendingFile :=
  ⟨⟨"file"⟩, ⟨"contact"⟩, "path", 0, ⟨"filerequest"⟩,
    .inProgress ⟨.interrupted, ⟨progressBytes, 10, ⟨"transfer"⟩⟩⟩⟩

/-- The tracker takes the file over and asks the peer to go on. -/
def sampleContinues (progressBytes : ℕ) : List (Event × Env) :=
  [(.call (.addPendingFile ⟨"peer"⟩ (sampleInterrupted progressBytes)), readEnv []), triggers]

/-- Someone answers that this is not possible. -/
def sampleRestart (contactId : String) : Event × Env :=
  (.call (.receiveResponse ⟨"peer"⟩ (some ⟨contactId⟩) (some 0) .restartContinueTransfer),
    readEnv [])

/-- A stranger answers, and nothing was acknowledged yet. -/
theorem startsOver_iff_stranger : ∃ w w' s, runFrom World.step .new (sampleContinues 0) = some w ∧
    w.tracker.files.lookup ⟨"peer"⟩ = some ⟨[], some s⟩ ∧
    s.pendingFile.status = .inProgress ⟨.prepared, ⟨0, 10, ⟨"transfer"⟩⟩⟩ ∧
    w.step (sampleRestart "stranger") = some w' ∧
    VerificationFails (readEnv []) s (some ⟨"stranger"⟩) ∧
    ∀ events o, Run Overheard.step (Conduct ⟨"peer"⟩ s.pendingFile.id) (.ofWorld w') events o →
      StartsOver s.pendingFile.id (o.talk ⟨"peer"⟩) := by
  obtain ⟨w, hw⟩ : ∃ w, runFrom World.step .new (sampleContinues 0) = some w := ⟨_, rfl⟩
  have hlookup : (runFrom World.step .new (sampleContinues 0)).bind
      (fun w => w.tracker.files.lookup ⟨"peer"⟩) =
      some ⟨[], some (resumedSlot (sampleInterrupted 0) ⟨0, 10, ⟨"transfer"⟩⟩ 10 0)⟩ := rfl
  have hsome : ((runFrom World.step .new (sampleContinues 0)).bind
      fun w => w.step (sampleRestart "stranger")).isSome := by decide
  rw [hw] at hlookup hsome
  obtain ⟨w', hw'⟩ := Option.isSome_iff_exists.mp hsome
  have hfails : VerificationFails (readEnv []) (resumedSlot (sampleInterrupted 0)
    ⟨0, 10, ⟨"transfer"⟩⟩ 10 0) (some ⟨"stranger"⟩) := by decide
  exact ⟨w, w', _, hw, hlookup, rfl, hw', hfails,
    (startsOver_iff hlookup rfl (fun g hg => by cases hg) hw').mpr ⟨hfails, rfl⟩⟩

/-- **The file does not start over.** The peer of the file answers that the transfer cannot be
continued, and gets a chunk of it. -/
theorem restart_sends_chunks : ∃ w o,
    runFrom World.step .new (sampleContinues 5 ++ [sampleRestart "contact"]) = some w ∧
    Run Overheard.step (Conduct ⟨"peer"⟩ ⟨"file"⟩) (.ofWorld w) [(.resume 0, readEnv [1])] o ∧
    o.talk ⟨"peer"⟩ = [.message ⟨"file"⟩ (.chunk ⟨⟨"transfer"⟩, [1], 0⟩) 1
      (some ⟨5, 10, ⟨"transfer"⟩⟩)] ∧
    ¬ StartsOver ⟨"file"⟩ (o.talk ⟨"peer"⟩) :=
  ⟨_, _, rfl, Run.get_runFrom, by decide, by decide⟩

end FileTracker

end Fyles
