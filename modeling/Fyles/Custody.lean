import Fyles.TrackerSteps

/-!
# Files in the custody of the tracker

From the moment a file is handed to the tracker until it is reported as finished, the tracker moves
it between the queue and the slot, changes its status, sends messages of its transfer and reports
what it does. A *custody* is a property of such a file at each of these places: of a file in the
queue, of the file in the slot, of the notifications about it, of the messages that are sent for the
file in the slot and of the contacts that they are sent to. If the property survives what the tracker does with one file, it holds for all
files in every interleaving of the handlers. `Closed` lists what the tracker does with one file, and
the rest of this module shows that the list is complete.

A section sends one message of a transfer at most, and this message is for the file that is in the
slot when the section ends: an offer puts the file there, and a file for which a chunk or `Done` was
sent stays.

The small steps of `Fyles.TrackerSteps` do not serve here. They forget which status the notification
of an interrupted round carries, and from which offset a continued transfer starts, and both decide
whether what the tracker reports can be stored.

## What comes from outside

Three things are not the tracker's doing, and `Closed` does not speak about them: the file that it
is handed, the response that accepts an offer, perhaps from an offset on, and the round of
`send_chunks_loop`, which reads a piece of whichever file is in the slot. The rules for sections and
steps ask for them where they come in.

## Main results

* `Custody.run`, `Custody.runTask` — the rule for the sections of the handlers
* `InCustody.step` — the rule for steps of the tracker
-/

namespace Fyles

namespace FileTracker

/-! ### Custody -/

/-- The message of a transfer that is sent, with the id of the request. -/
def Effect.message : Effect → Option (FileRequest × ℕ)
  | .requested _ _ request (some requestId) =>
    if request.transfer.isSome then some (request, requestId) else none
  | _ => none

theorem Effect.message_requested {idempotent : Bool} {contactId q result m}
    (h : (Effect.requested idempotent contactId q result).message = some m) : m.1 = q := by
  cases result with
  | none => cases h
  | some id =>
    rw [message] at h
    split at h
    · obtain ⟨⟩ := h
      rfl
    · cases h

/-- The contact that a request is meant for. -/
def Effect.contactId : Effect → Option ContactId
  | .requested _ contactId _ _ => contactId
  | _ => none

/-- A property of the files that the tracker keeps for a peer, and of what it says about them. -/
structure Custody where
  /-- Of a file in the queue. -/
  file : PendingFile → Prop
  /-- Of the file in the slot. -/
  slot : LockedSendData ℕ → Prop
  /-- Of a notification. -/
  notice : NetworkNodeAction → Prop
  /-- Of a message for the file in the slot. -/
  message : LockedSendData ℕ → FileRequest → Prop
  /-- Of the contact that a loop sends chunks to. -/
  loop : Option ContactId → Prop := fun _ => True
  /-- Of the contact of a file that need not be verified any more. -/
  unverified : ContactId → Prop := fun _ => True

/-- The reason that is given for an interrupted round. -/
def interruptReason : String := "Send interrupted: file tracker could not send to peer"

/-- The file of the slot as `reset_and_stop` puts it back. -/
def resetFile (s : LockedSendData ℕ) : PendingFile :=
  { s.pendingFile with status := computeResetStatus s.pendingFile.status }

/-- The slot after the peer has accepted the file. -/
def startedAt (data : TransferData) (s : LockedSendData ℕ) : LockedSendData ℕ :=
  s.withStatus (.inProgress ⟨.sending, data⟩)

variable (env : Env)

/-- The slot after the peer has agreed to go on from an offset. -/
def continuedAt (data : TransferData) (offset : ℕ) (s : LockedSendData ℕ) : LockedSendData ℕ :=
  { s.withStatus (.inProgress ⟨.sending, { data with progressBytes := offset }⟩) with
    sendManager := s.sendManager.setProgress env.read env.seeks offset }

/-- The slot after a response that accepts an offer. -/
def acceptedSlot (data : TransferData) (s : LockedSendData ℕ) : FileResponse → LockedSendData ℕ
  | .acceptContinueTransfer offset => continuedAt env data offset s
  | _ => startedAt data s

/-- The slot after an acknowledgement. -/
def acknowledgedBy (m : SendManager ℕ) (data : TransferData) (s : LockedSendData ℕ) :
    LockedSendData ℕ :=
  { s with sendManager := m }.withStatus
    (.inProgress ⟨.sending, { data with progressBytes := m.progressBytes }⟩)

/-- The slot after a round has asked the window for the next chunk. -/
def afterRead (sec : Section) (s : LockedSendData ℕ) : LockedSendData ℕ :=
  { s with sendManager := (s.sendManager.sendNextChunk env.read (sendChunk env s) sec).2.1 }

/-- The slot after `Done` was sent. -/
def doneSlot (s : LockedSendData ℕ) : LockedSendData ℕ :=
  s.withStatus (statusAfterDone s.pendingFile.status)

/-- The slot of a file that is offered for the first time. -/
def offeredSlot (f : PendingFile) (size position : ℕ) : LockedSendData ℕ :=
  .new { f with status := .inProgress ⟨.prepared, ⟨0, size, env.transferUuid⟩⟩ }
    env.transferUuid size position

/-- The slot of a file that is offered to be continued. -/
def resumedSlot (f : PendingFile) (data : TransferData) (size position : ℕ) : LockedSendData ℕ :=
  (LockedSendData.new f data.transferId size position).withStatus (.inProgress ⟨.prepared, data⟩)

/-- The tracker keeps the property, whatever it does with a file. -/
structure Custody.Closed (c : Custody) (env : Env) : Prop where
  /-- A file that cannot be sent is reported and forgotten. -/
  skipped : ∀ {f}, c.file f → c.notice (.fileFailed f.id) ∧ c.notice (.fileMissing f.id) ∧
    c.notice (.openFileForReading f.id)
  /-- A file is offered for the first time. -/
  offered : ∀ {f opened size}, c.file f → f.status = .pending →
    env.openFileForReading ⟨f.filePath, f.id, 0⟩ = some opened → opened.metadata = .ok size →
    c.slot (offeredSlot env f size opened.position) ∧
      c.message (offeredSlot env f size opened.position)
        (.newTransfer f.targetFilerequestId opened.fileName size env.transferUuid)
  /-- A file is offered to be continued, and the brain is told its status. -/
  resumed : ∀ {f data} (size position : ℕ), c.file f →
    f.status = .inProgress ⟨.interrupted, data⟩ →
    (c.slot (resumedSlot f data size position) ∧ c.message (resumedSlot f data size position)
        (.continueTransfer f.targetFilerequestId data.transferId)) ∧
      c.notice (.fileSending f.id f.status)
  /-- The file of the slot is reported as finished. -/
  completed : ∀ {s} (outcome : FileOutcome), c.slot s → c.notice (outcome.action s.pendingFile.id)
  /-- The file of the slot goes back to the queue. -/
  reset : ∀ {s} (reason : String), c.slot s → c.file (resetFile s) ∧
    c.notice (.fileSendReset s.pendingFile.id (computeResetStatus s.pendingFile.status)
      (some s.pendingFile.retryCount) (some reason))
  failed : ∀ {s}, c.slot s → c.slot (failedOnce s)
  verified : ∀ {s} (result : ContactVerificationResult), c.slot s →
    (result = .contactIsUnknown → c.unverified s.pendingFile.contactId) →
    c.slot (noteVerification result s)
  acknowledged : ∀ {s data requestId m}, c.slot s →
    s.pendingFile.status = .inProgress ⟨.sending, data⟩ →
    s.sendManager.receiveAck requestId = some m →
    c.slot (acknowledgedBy m data s) ∧ c.notice (.fileSending s.pendingFile.id
      (.inProgress ⟨.sending, { data with progressBytes := m.progressBytes }⟩))

/-- A round keeps the property of the file in the slot: it reads a piece of the file, and may send
this piece or `Done`, or put the file back because the piece could not be sent. -/
structure Custody.Rounds (c : Custody) (env : Env) (sec : Section) (s : LockedSendData ℕ) :
    Prop where
  read : c.slot (afterRead env sec s)
  chunk : ∀ piece, c.message (afterRead env sec s)
    (.chunk ⟨s.sendManager.transferId, piece, s.sendManager.nextSlot⟩)
  done : c.slot (doneSlot (afterRead env sec s)) ∧
    c.message (doneSlot (afterRead env sec s))
      (.done (afterRead env sec s).sendManager.transferId)
  interrupted : ∀ data, s.pendingFile.status.transferData = some data →
    c.file { s.pendingFile with status := .inProgress ⟨.interrupted, data⟩ } ∧
    c.notice (.fileSendReset s.pendingFile.id (.inProgress ⟨.interrupted, data⟩) none
      (some interruptReason))

namespace Custody

/-- All files of an entry have the property. -/
structure Keeps (c : Custody) (files : PeerFiles) : Prop where
  queue : ∀ f ∈ files.pending, c.file f
  slot : ∀ s, files.sending = some s → c.slot s

/-- All files of a section, and all notifications that it has sent, have the property, and no
message has been sent. -/
structure Holds (c : Custody) (sec : Section) : Prop where
  entry : ∀ files, sec.entry = some files → c.Keeps files
  notices : ∀ a, .notified a ∈ sec.effects → c.notice a
  silent : ∀ e ∈ sec.effects, e.message = none

/-- The same at the end of a section. What was said was said for the file in the slot. -/
structure Ends (c : Custody) (sec : Section) : Prop where
  entry : ∀ files, sec.entry = some files → c.Keeps files
  notices : ∀ a, .notified a ∈ sec.effects → c.notice a
  messages : ∀ e ∈ sec.effects, ∀ m, e.message = some m → ∃ s, slotOf sec.entry = some s ∧
    e.contactId = some s.pendingFile.contactId ∧ c.message s m.1

/-- A handler that goes on has nothing to report, or something with the property. -/
def Goes (c : Custody) : Control → Prop
  | .next (.reportInterrupt id status) =>
    c.notice (.fileSendReset id status none (some interruptReason))
  | .next (.sendChunksLoop contactId) => c.loop contactId
  | _ => True

/-- What a section leaves behind. -/
def Leaves (c : Custody) (r : Section × Control) : Prop := c.Ends r.1 ∧ c.Goes r.2

variable {c : Custody} {env : Env} {sec : Section} {files : PeerFiles}

/-! ### Operations on a section -/

namespace Holds

theorem put (h : c.Holds sec) (hk : c.Keeps files) : c.Holds (sec.put files) where
  entry _ hf := by
    obtain ⟨⟩ := hf
    exact hk
  notices := h.notices
  silent := h.silent

theorem remove (h : c.Holds sec) : c.Holds sec.remove where
  entry _ hf := by cases hf
  notices := h.notices
  silent := h.silent

/-- Notifications and messages are the only effects that matter. -/
theorem extend {sec'} (h : c.Holds sec) (es : List Effect) (hentry : sec'.entry = sec.entry)
    (heffects : sec'.effects = sec.effects ++ es) (hes : ∀ a, .notified a ∈ es → c.notice a)
    (hsilent : ∀ e ∈ es, e.message = none) : c.Holds sec' where
  entry files hf := h.entry files (hentry ▸ hf)
  notices a ha := by
    rw [heffects] at ha
    rcases List.mem_append.mp ha with ha | ha
    · exact h.notices a ha
    · exact hes a ha
  silent e he := by
    rw [heffects] at he
    rcases List.mem_append.mp he with he | he
    · exact h.silent e he
    · exact hsilent e he

theorem emit (h : c.Holds sec) {e} (he : ∀ a, e = .notified a → c.notice a)
    (hsilent : e.message = none) : c.Holds (sec.emit e) :=
  h.extend [e] rfl rfl (fun a ha => he a (List.mem_singleton.mp ha).symm)
    (List.forall_mem_singleton.mpr hsilent)

theorem notify (h : c.Holds sec) {a} (ha : c.notice a) : c.Holds (sec.notify a) := by
  refine h.emit (fun _ heq => ?_) rfl
  cases heq
  exact ha

/-- A request that is no message of a transfer, or that is not sent. -/
theorem send (h : c.Holds sec) (env : Env) (idempotent : Bool) (contactId : Option ContactId)
    (q : FileRequest) (hq : q.transfer = none ∨ env.sends q = false) :
    c.Holds (sec.send env idempotent contactId q).2 := by
  refine h.extend [_] Section.send_entry Section.send_effects (fun a ha => ?_)
    (List.forall_mem_singleton.mpr ?_)
  · cases List.mem_singleton.mp ha
  · rcases hq with hq | hq
    · cases hres : (sec.send env idempotent contactId q).1 with
      | none => rfl
      | some id => simp [Effect.message, hq]
    · simp [Section.send, hq, Effect.message]

theorem cancelled (h : c.Holds sec) (ids : List FylesId) : c.Holds (emitCancelled ids sec) := by
  refine h.extend (ids.map .cancelled) rfl rfl (fun a ha => ?_) fun e he => ?_
  · obtain ⟨_, -, heq⟩ := List.mem_map.mp ha
    cases heq
  · obtain ⟨_, -, rfl⟩ := List.mem_map.mp he
    rfl

/-- A section that has sent no message can end. -/
theorem ends (h : c.Holds sec) : c.Ends sec where
  entry := h.entry
  notices := h.notices
  messages e he m hm := by cases (h.silent e he).symm.trans hm

/-- A message is sent for the file in the slot. -/
theorem say (h : c.Holds sec) (env : Env) (idempotent : Bool) {q s queue}
    (hk : c.Keeps ⟨queue, some s⟩) (hq : c.message s q) :
    c.Ends ((sec.send env idempotent (some s.pendingFile.contactId) q).2.put ⟨queue, some s⟩) where
  entry _ hf := by
    obtain ⟨⟩ := hf
    exact hk
  notices a ha := by
    rw [Section.put_effects, Section.send_effects] at ha
    rcases List.mem_append.mp ha with ha | ha
    · exact h.notices a ha
    · cases List.mem_singleton.mp ha
  messages e he m hm := by
    rw [Section.put_effects, Section.send_effects] at he
    refine ⟨s, rfl, ?_⟩
    rcases List.mem_append.mp he with he | he
    · cases (h.silent e he).symm.trans hm
    · obtain rfl := List.mem_singleton.mp he
      rw [Effect.message_requested hm]
      exact ⟨rfl, hq⟩

/-- A section that goes on with nothing to report. -/
theorem leaves (h : c.Holds sec) {control} (hg : c.Goes control) :
    c.Leaves (sec, control) := ⟨h.ends, hg⟩

end Holds

namespace Ends

/-- The brain is told something after the message. -/
theorem notify (h : c.Ends sec) {a} (ha : c.notice a) : c.Ends (sec.notify a) where
  entry := h.entry
  notices a' ha' := by
    rcases List.mem_append.mp ha' with ha' | ha'
    · exact h.notices a' ha'
    · cases List.mem_singleton.mp ha'
      exact ha
  messages e he m hm := by
    rcases List.mem_append.mp he with he | he
    · exact h.messages e he m hm
    · rw [List.mem_singleton.mp he] at hm
      cases hm

theorem leaves (h : c.Ends sec) {control} (hg : c.Goes control) : c.Leaves (sec, control) := ⟨h, hg⟩

end Ends

namespace Keeps

theorem queued {queue} (hq : ∀ f ∈ queue, c.file f) : c.Keeps ⟨queue, none⟩ :=
  ⟨hq, fun _ h => by cases h⟩

theorem sending {queue s} (hq : ∀ f ∈ queue, c.file f) (hs : c.slot s) :
    c.Keeps ⟨queue, some s⟩ where
  queue := hq
  slot _ h := by
    obtain ⟨⟩ := h
    exact hs

/-- Without the file of the slot. -/
theorem vacate (h : c.Keeps files) : c.Keeps { files with sending := none } := queued h.queue

/-- With another file in the slot. -/
theorem replace (h : c.Keeps files) {s} (hs : c.slot s) :
    c.Keeps { files with sending := some s } := sending h.queue hs

/-- With another file at the end of the queue. -/
theorem concat {f} (h : c.Keeps files) (hf : c.file f) :
    c.Keeps { files with pending := files.pending ++ [f] } where
  queue f' hf' := by
    rcases List.mem_append.mp hf' with hf' | hf'
    · exact h.queue f' hf'
    · rw [List.mem_singleton.mp hf']
      exact hf
  slot := h.slot

end Keeps

/-! ### Operations that the handlers share -/

variable {queue : List PendingFile} {file : PendingFile} {s : LockedSendData ℕ}

section Shared

variable (hc : c.Closed env)

include hc

theorem offerNew {opened} {size : ℕ} (h : c.Holds sec) (hk : c.Keeps ⟨file :: queue, none⟩)
    (hst : file.status = .pending)
    (hopen : env.openFileForReading ⟨file.filePath, file.id, 0⟩ = some opened)
    (hsize : opened.metadata = .ok size) :
    c.Ends (offerNew env none queue file opened size sec) := by
  have hfile := hk.queue file List.mem_cons_self
  have hrest : ∀ f ∈ queue, c.file f := fun f hf => hk.queue f (List.mem_cons_of_mem _ hf)
  by_cases hsend : env.sends (.newTransfer file.targetFilerequestId opened.fileName size
      env.transferUuid) = true
  · obtain ⟨hslot, hmessage⟩ := hc.offered hfile hst hopen hsize
    rw [offerNew_sent hsend]
    exact h.say env false (.sending hrest hslot) hmessage
  · have hsent := h.send env false (some file.contactId) (.newTransfer file.targetFilerequestId
      opened.fileName size env.transferUuid) (.inr (by simpa using hsend))
    simp only [FileTracker.offerNew, Section.send, hsend, Bool.false_eq_true, if_false] at hsent ⊢
    exact (hsent.put hk).ends

theorem offerContinue {data} (opened : OpenedFile) (size : ℕ) (h : c.Holds sec)
    (hk : c.Keeps ⟨file :: queue, none⟩) (hst : file.status = .inProgress ⟨.interrupted, data⟩) :
    c.Ends (offerContinue env none queue file data opened size sec) := by
  have hrest : ∀ f ∈ queue, c.file f := fun f hf => hk.queue f (List.mem_cons_of_mem _ hf)
  obtain ⟨⟨hslot, hmessage⟩, hnotice⟩ :=
    hc.resumed size opened.position (hk.queue file List.mem_cons_self) hst
  have hannounce : ∀ {sec : Section}, announce sec file =
      sec.notify (.fileSending file.id file.status) := by
    intro sec
    simp [announce, hst, isEphemeral]
  rw [FileTracker.offerContinue]
  split
  · next hs =>
    obtain ⟨rfl, -⟩ := Section.send_cases hs
    rw [hannounce]
    exact (h.say env false (.sending hrest hslot) hmessage).notify hnotice
  · next hs =>
    obtain ⟨rfl, hres | ⟨hres, -⟩⟩ := Section.send_cases hs
    · cases hres.2
    · rw [hannounce]
      exact (((h.send env false _ _ (.inr hres)).put (.queued hrest)).notify hnotice).ends

theorem sendNextFrom (h : c.Holds sec) (hq : ∀ f ∈ queue, c.file f) :
    c.Ends (sendNextFrom env none queue sec) := by
  induction queue generalizing sec with
  | nil => exact h.remove.ends
  | cons file queue ih =>
    obtain ⟨hfailed, hmissing, hclosed⟩ := hc.skipped (hq file List.mem_cons_self)
    have hrest : ∀ f ∈ queue, c.file f := fun f hf => hq f (List.mem_cons_of_mem _ hf)
    rw [FileTracker.sendNextFrom]
    split
    · exact ih (h.notify hfailed) hrest
    · next progress hprogress =>
      split
      · exact ih ((h.notify hclosed).notify hmissing) hrest
      · next opened hopen =>
        split
        · exact ih (h.notify hmissing) hrest
        · next size hsize =>
          split
          · next hst =>
            obtain rfl : progress = 0 := by
              rw [hst] at hprogress
              exact (Option.some.inj hprogress).symm
            exact offerNew hc h (.queued hq) hst hopen hsize
          · next hst => exact offerContinue hc opened size h (.queued hq) hst
          · exact ih (h.notify hfailed) hrest

theorem sendNext (h : c.Holds sec) (hk : c.Keeps files) (hs : files.sending = none) :
    c.Ends (sendNext env files sec) := by
  rw [FileTracker.sendNext, hs]
  exact sendNextFrom hc h hk.queue

theorem completeFile (outcome : FileOutcome) (h : c.Holds sec)
    (hk : c.Keeps files) (hs : c.slot s) :
    c.Ends (completeFile env { files with sending := none } s.pendingFile.id outcome sec) :=
  sendNext hc (h.notify (hc.completed outcome hs)) hk.vacate rfl

theorem resetAndStop (reason : String) (h : c.Holds sec) (hk : c.Keeps files) (hs : c.slot s) :
    c.Holds (resetAndStop { files with sending := none } s reason sec) := by
  obtain ⟨hfile, hnotice⟩ := hc.reset reason hs
  exact (h.notify hnotice).put (hk.vacate.concat hfile)

theorem resetAndRetry (reason : String) (h : c.Holds sec) (hk : c.Keeps files) (hs : c.slot s) :
    c.Ends (resetAndRetry env { files with sending := none } s reason sec) := by
  rw [FileTracker.resetAndRetry]
  split
  · exact completeFile hc .failed h hk hs
  · exact (resetAndStop hc reason h hk hs).ends

theorem resetAll (h : c.Holds sec) : c.Holds (resetAll sec).2 := by
  rw [FileTracker.resetAll]
  split
  · exact h
  · next files hf =>
    have hk := h.entry files hf
    split
    · exact h
    · next s hs => exact resetAndStop hc _ h hk (hk.slot s hs)

theorem increaseRetryCount (h : c.Holds sec) : c.Holds (increaseRetryCount sec) := by
  rw [FileTracker.increaseRetryCount]
  split
  · next s hf =>
    have hk := h.entry _ hf
    exact h.put (.sending hk.queue (hc.failed (hk.slot s rfl)))
  · exact h

theorem resetAllOnInternalErrorFor (h : c.Holds sec) :
    c.Leaves (resetAllOnInternalErrorFor env sec) :=
  ((resetAll hc (increaseRetryCount hc h)).send env false _ _ (.inl rfl)).leaves trivial

theorem resetAllOnProtocolViolationFor (h : c.Holds sec) :
    c.Leaves (resetAllOnProtocolViolationFor env sec) :=
  ((resetAll hc (increaseRetryCount hc h)).send env false _ _ (.inl rfl)).leaves trivial

/-! ### Rounds -/

variable {contactId : Option ContactId}

theorem finishSending (h : c.Holds sec) (hk : c.Keeps files)
    (hdone : c.slot (doneSlot s) ∧ c.message (doneSlot s) (.done s.sendManager.transferId)) :
    c.Leaves (finishSending env files s sec) := by
  rw [FileTracker.finishSending]
  split
  · next hsend =>
    obtain ⟨rfl, -⟩ := Section.send_cases hsend
    exact (h.say env false (hk.replace hdone.1) hdone.2).leaves trivial
  · next hsend =>
    obtain ⟨rfl, hres | ⟨hres, -⟩⟩ := Section.send_cases hsend
    · cases hres.2
    · have hsent := h.send env false (some s.pendingFile.contactId)
        (.done s.sendManager.transferId) (.inr hres)
      split
      · exact hsent.leaves trivial
      · exact (resetAll hc hsent).leaves trivial

omit hc in
theorem interruptSending (h : c.Holds sec) (hk : c.Keeps files)
    (hinterrupted : ∀ data, s.pendingFile.status.transferData = some data →
      c.file { s.pendingFile with status := .inProgress ⟨.interrupted, data⟩ } ∧
      c.notice (.fileSendReset s.pendingFile.id (.inProgress ⟨.interrupted, data⟩) none
        (some interruptReason))) : c.Leaves (interruptSending files s sec) := by
  rw [FileTracker.interruptSending]
  split
  · exact h.leaves trivial
  · next data hdata =>
    obtain ⟨hfile, hnotice⟩ := hinterrupted data hdata
    have hk' : c.Keeps { files with sending := none } := hk.vacate
    exact (h.put (hk'.concat hfile)).leaves hnotice

/-- What becomes of a round that has sent no chunk. -/
theorem handleSendRes {res sec₀} (hr : c.Rounds env sec₀ s) (hloop : c.loop contactId)
    (hk : c.Keeps files) (h : c.Holds sec) :
    c.Leaves (handleSendRes env contactId files (afterRead env sec₀ s) sec res) := by
  cases res with
  | notReady => exact h.leaves trivial
  | sent => exact h.leaves hloop
  | done => exact finishSending hc h hk hr.done
  | ioError e =>
    have haborted := h.send env false (some s.pendingFile.contactId)
      (.abortTransfer (some (afterRead env sec₀ s).sendManager.transferId)) (.inl rfl)
    exact (completeFile hc (.ioError e) haborted hk hr.read).leaves trivial
  | interrupt => exact interruptSending h hk hr.interrupted

/-- A round that finds a file in the slot. -/
theorem round (h : c.Holds sec) (hk : c.Keeps files) (hr : c.Rounds env sec s)
    (hloop : c.loop contactId) :
    let r := s.sendManager.sendNextChunk env.read (sendChunk env s) sec
    c.Leaves (FileTracker.handleSendRes env contactId files (afterRead env sec s)
      (r.2.2.put { files with sending := some (afterRead env sec s) }) r.1) := by
  intro r
  -- a chunk is sent, or nothing
  have hsent : (∃ id piece, r.1 = .sent id ∧ r.2.2 = (sec.send env true
        (some s.pendingFile.contactId)
        (.chunk ⟨s.sendManager.transferId, piece, s.sendManager.nextSlot⟩)).2) ∨
      c.Holds r.2.2 := by
    simp only [r, SendManager.sendNextChunk]
    split
    · exact .inr h
    · split
      · split <;> exact .inr h
      · exact .inr h
      · next piece _ _ =>
        split
        · next hsend =>
          obtain ⟨rfl, hres | ⟨hres, -⟩⟩ := Section.send_cases hsend
          · cases hres.2
          · exact .inr (h.send env true _ _ (.inr hres))
        · next id _ hsend =>
          obtain ⟨rfl, -⟩ := Section.send_cases hsend
          exact .inl ⟨id, piece, rfl, rfl⟩
  rcases hsent with ⟨id, piece, hres, hstate⟩ | hholds
  · rw [hres, hstate]
    exact (h.say env true (hk.replace hr.read) (hr.chunk piece)).leaves hloop
  · exact handleSendRes hc hr hloop hk (hholds.put (hk.replace hr.read))

theorem sendChunksLoop (h : c.Holds sec) (hloop : c.loop contactId)
    (hround : ∀ s, slotOf sec.entry = some s → s.unlockMut contactId = some s →
      c.Rounds env sec s) : c.Leaves (sendChunksLoop env contactId sec) := by
  rw [FileTracker.sendChunksLoop]
  split
  · exact h.leaves trivial
  · next files hf =>
    obtain ⟨queue, slot⟩ := files
    have hk := h.entry _ hf
    split
    · exact h.leaves trivial
    · next locked hs =>
      obtain rfl : slot = some locked := hs
      split
      · exact h.leaves trivial
      · next s hu =>
        obtain rfl := LockedSendData.unlockMut_eq hu
        exact round hc h hk (hround s (slotOf_of_entry hf) hu) hloop

/-! ### Responses -/

omit hc in
/-- A contact that is found to be unknown is not known to the brain. -/
theorem isContactKnown_of_unknown {target}
    (h : verifyTargetContactId env target contactId = some .contactIsUnknown) :
    env.isContactKnown target = .ok false := by
  rw [verifyTargetContactId] at h
  split at h
  · cases h
  · split at h <;> cases h
  · assumption

omit hc in
/-- The check of the contact and the response can be noted in either order. -/
theorem startedAt_noteVerification (result : ContactVerificationResult) (data : TransferData)
    (s : LockedSendData ℕ) :
    startedAt data (noteVerification result s) = noteVerification result (startedAt data s) := by
  simp only [noteVerification]
  split <;> rfl

omit hc in
theorem continuedAt_noteVerification (result : ContactVerificationResult) (data : TransferData)
    (offset : ℕ) (s : LockedSendData ℕ) :
    continuedAt env data offset (noteVerification result s) =
      noteVerification result (continuedAt env data offset s) := by
  simp only [noteVerification]
  split <;> rfl

theorem responds {requestId response r} (hr : Responds env contactId requestId sec response r)
    (h : c.Holds sec) (haccepts : ∀ s data, response.starts = true → slotOf sec.entry = some s →
      s.pendingFile.status = .inProgress ⟨.prepared, data⟩ →
      c.slot (acceptedSlot env data s response)) (hloop : c.loop contactId)
    (hunverified : ∀ s, response.starts = true → slotOf sec.entry = some s →
      env.isContactKnown s.pendingFile.contactId = .ok false →
      c.unverified s.pendingFile.contactId) : c.Leaves r := by
  have hunknown : ∀ {queue s result}, response.starts = true → sec.entry = some ⟨queue, some s⟩ →
      verifyTargetContactId env s.pendingFile.contactId contactId = some result →
      result = .contactIsUnknown → c.unverified s.pendingFile.contactId := by
    rintro queue s _ hstarts he hv rfl
    exact hunverified s hstarts (slotOf_of_entry he) (isContactKnown_of_unknown hv)
  cases hr with
  | ignored => exact h.leaves trivial
  | neverOffered => exact (h.send env false none _ (.inl rfl)).leaves trivial
  | resets _ ht => exact h.leaves (by rcases ht with rfl | rfl <;> trivial)
  | stuck _ hcontrol => exact h.leaves (by rcases hcontrol with rfl | rfl <;> trivial)
  | stuckEmpty _ he => exact (h.put (h.entry _ he).vacate).leaves trivial
  | otherContact => exact (resetAll hc h).leaves trivial
  | @started _ queue s result data ha he hv hr hst =>
    have hstarts : response.starts = true := by rcases ha with rfl | rfl <;> rfl
    have hunverified := hunknown hstarts he hv
    have hstarted : c.slot (startedAt data (noteVerification result s)) := by
      rw [startedAt_noteVerification]
      refine hc.verified result ?_ hunverified
      have hslot := haccepts s data hstarts (slotOf_of_entry he) hst
      rcases ha with rfl | rfl <;> exact hslot
    exact (h.put ((h.entry _ he).replace hstarted)).leaves hloop
  | @continued offset queue s result data he hv hr hst =>
    have hunverified := hunknown rfl he hv
    have hcontinued : c.slot (continuedAt env data offset (noteVerification result s)) := by
      rw [continuedAt_noteVerification]
      exact hc.verified result (haccepts s data rfl (slotOf_of_entry he) hst) hunverified
    exact (h.put ((h.entry _ he).replace hcontinued)).leaves hloop
  | notPrepared ha he hv =>
    have hk := h.entry _ he
    have hslot := hc.verified _ (hk.slot _ rfl) (hunknown ha he hv)
    exact (h.put (hk.replace hslot)).leaves trivial
  | rejected _ he =>
    have hk := h.entry _ he
    exact (completeFile hc .rejected h hk (hk.slot _ rfl)).leaves trivial
  | @acknowledged queue s data id m he hu hst hid hm =>
    have hk := h.entry _ he
    obtain ⟨hslot, hnotice⟩ := hc.acknowledged (hk.slot s rfl) hst hm
    have hemitted := h.emit (e := .acknowledged id) (fun a ha => by cases ha) rfl
    exact ((hemitted.put (hk.replace hslot)).notify hnotice).leaves hloop
  | dropped he => exact (h.put (h.entry _ he).vacate).leaves trivial
  | aborted he => exact (sendNext hc h (h.entry _ he) rfl).leaves trivial
  | confirmed he =>
    have hk := h.entry _ he
    exact (completeFile hc .sent h hk (hk.slot _ rfl)).leaves trivial
  | violated he =>
    have hk := h.entry _ he
    exact (resetAndRetry hc _ h hk (hc.failed (hk.slot _ rfl))).leaves trivial
  | failed he =>
    have hk := h.entry _ he
    exact (resetAndStop hc _ h hk (hc.failed (hk.slot _ rfl))).leaves trivial

theorem handleReceiveError (error : ReceiveError) (h : c.Holds sec) :
    c.Leaves (handleReceiveError env error sec) := by
  rcases handleReceiveError_cases env error sec with
    ⟨-, heq⟩ | ⟨queue, s, he, sec', heq, hor⟩
  · rw [heq]
    exact h.leaves trivial
  · have hk := h.entry _ he
    have hslot := hk.slot s rfl
    rw [heq]
    rcases hor with ⟨reason, rfl⟩ | ⟨reason, rfl⟩ | rfl
    · exact (resetAndRetry hc reason h hk hslot).leaves trivial
    · exact (resetAndStop hc reason h hk hslot).leaves trivial
    · exact (completeFile hc .rejected h hk hslot).leaves trivial

/-! ### The other handlers -/

omit hc in
theorem addPendingFile (h : c.Holds sec)
    (hfile : file.status = .pending ∨ (∃ data, file.status = .inProgress ⟨.interrupted, data⟩) →
      c.file file) : c.Leaves (addPendingFile file sec) := by
  have hk : c.Keeps (sec.entry.getD .default) := by
    cases hf : sec.entry with
    | none => exact .queued fun _ hf => by cases hf
    | some files => exact h.entry files hf
  have hemitted := h.emit (e := .accepted file.id) (fun a ha => by cases ha) rfl
  rw [FileTracker.addPendingFile]
  split
  · next hst => exact (hemitted.put (hk.concat (hfile (.inl hst)))).leaves trivial
  · next data hst => exact (hemitted.put (hk.concat (hfile (.inr ⟨data, hst⟩)))).leaves trivial
  · exact h.leaves trivial

theorem triggerInteractionWith (h : c.Holds sec) : c.Leaves (triggerInteractionWith env sec) := by
  rw [FileTracker.triggerInteractionWith]
  split
  · exact h.leaves trivial
  · next files hf =>
    split
    · exact h.leaves trivial
    · next hs => exact (sendNext hc h (h.entry files hf) hs).leaves trivial

theorem cancelSection (selected : PendingFile → Bool) (h : c.Holds sec) :
    c.Ends (cancelSection env selected sec).2 := by
  rw [FileTracker.cancelSection]
  split
  · exact h.ends
  · next files hf =>
    have hk := h.entry files hf
    split
    · exact sendNext hc ((h.cancelled _).send env false _ _ (.inl rfl)) hk.vacate rfl
    · have hkept : c.Keeps { files with pending := files.pending.filter fun f => !selected f } :=
        ⟨fun f hf => hk.queue f (List.mem_of_mem_filter hf), hk.slot⟩
      exact ((h.cancelled _).put hkept).ends

end Shared

/-! ### Sections -/

/-- **The rule for the first section of a handler.** -/
theorem run (hc : c.Closed env) (handler : Handler) (h : c.Holds sec)
    (hfile : ∀ p file, handler = .addPendingFile p file →
      file.status = .pending ∨ (∃ data, file.status = .inProgress ⟨.interrupted, data⟩) →
      c.file file)
    (haccepts : ∀ p contactId requestId response s data,
      handler = .receiveResponse p contactId requestId response → response.starts = true →
      slotOf sec.entry = some s → s.pendingFile.status = .inProgress ⟨.prepared, data⟩ →
      c.slot (acceptedSlot env data s response))
    (hresponse : ∀ p contactId requestId response,
      handler = .receiveResponse p contactId requestId response → c.loop contactId ∧
      ∀ s, response.starts = true → slotOf sec.entry = some s →
        env.isContactKnown s.pendingFile.contactId = .ok false →
        c.unverified s.pendingFile.contactId) :
    c.Leaves (handler.run env sec) := by
  cases handler with
  | addPendingFile p file => exact addPendingFile h (hfile p file rfl)
  | triggerInteractionWith p => exact triggerInteractionWith hc h
  | receiveResponse p contactId requestId response =>
    obtain ⟨hloop, hunverified⟩ := hresponse p contactId requestId response rfl
    exact responds hc (receiveResponse_responds env contactId requestId response sec) h
      (fun s data => haccepts p contactId requestId response s data rfl) hloop hunverified
  | handleReceiveError p requestId error => exact handleReceiveError hc error h
  | cancelFile fileId => exact (cancelSection hc _ h).leaves trivial
  | cancelFileByTarget target p => exact (cancelSection hc _ h).leaves trivial
  | resetForDisconnectedPeer p =>
    rw [Handler.run, FileTracker.resetForDisconnectedPeer]
    split <;> exact h.leaves trivial

/-- **The rule for the later sections of a handler.** -/
theorem runTask (hc : c.Closed env) (task : Task) (h : c.Holds sec)
    (hround : ∀ contactId s, task = .sendChunksLoop contactId → slotOf sec.entry = some s →
      s.unlockMut contactId = some s → c.Rounds env sec s)
    (hreport : c.Goes (.next task)) : c.Leaves (runTask env task sec) := by
  cases task with
  | sendChunksLoop contactId => exact sendChunksLoop hc h hreport fun s => hround contactId s rfl
  | resetAllOnInternalError => exact resetAllOnInternalErrorFor hc h
  | resetAllOnProtocolViolation => exact resetAllOnProtocolViolationFor hc h
  | resetDisconnected => exact (resetAll hc h).leaves trivial
  | reportInterrupt id status => exact (h.notify hreport).leaves trivial

end Custody

/-! ### Steps -/

variable {peer : PeerId}

/-- All files of the tracker, and what its waiting handlers have to report, have the property that
is given for their peer. -/
structure InCustody (c : PeerId → Custody) (w : World) : Prop where
  entries : ∀ p files, w.tracker.files.lookup p = some files → (c p).Keeps files
  tasks : ∀ p task, (p, task) ∈ w.tasks → (c p).Goes (.next task)

/-- The notifications of a step. -/
def World.news (w w' : World) : List (PeerId × NetworkNodeAction) :=
  (w'.tracker.history.drop w.tracker.history.length).filterMap fun e =>
    match e.2 with
    | .notified a => some (e.1, a)
    | _ => none

/-- The messages of transfers that a step sends to a peer. -/
def World.said (w w' : World) (p : PeerId) : List (FileRequest × ℕ) :=
  (w'.tracker.history.drop w.tracker.history.length).filterMap fun e =>
    if e.1 = p then e.2.message else none

/-- What is needed of what comes from outside in a step. -/
structure Custody.Admits (c : PeerId → Custody) (w : World) (e : Event) (env : Env) : Prop where
  closed : ∀ p, (c p).Closed env
  /-- A file is handed over. -/
  file : ∀ p file, e = .call (.addPendingFile p file) →
    file.status = .pending ∨ (∃ data, file.status = .inProgress ⟨.interrupted, data⟩) →
    (c p).file file
  /-- The peer accepts an offer. -/
  accepts : ∀ p contactId requestId response s data,
    e = .call (.receiveResponse p contactId requestId response) → response.starts = true →
    slotOf (w.tracker.files.lookup p) = some s →
    s.pendingFile.status = .inProgress ⟨.prepared, data⟩ →
    (c p).slot (acceptedSlot env data s response)
  /-- A response comes through a session, and may be from a contact that is not known. -/
  response : ∀ p contactId requestId response,
    e = .call (.receiveResponse p contactId requestId response) → (c p).loop contactId ∧
    ∀ s, response.starts = true → slotOf (w.tracker.files.lookup p) = some s →
      env.isContactKnown s.pendingFile.contactId = .ok false →
      (c p).unverified s.pendingFile.contactId
  /-- A round finds a file in the slot. -/
  round : ∀ index p contactId s, e = .resume index →
    w.tasks[index]? = some (p, .sendChunksLoop contactId) →
    slotOf (w.tracker.files.lookup p) = some s → s.unlockMut contactId = some s →
    (c p).Rounds env (w.tracker.enter p) s

variable {c : PeerId → Custody} {w w' : World} {e : Event} {env : Env}

theorem InCustody.slot (h : InCustody c w) {p s} (hs : slotOf (w.tracker.files.lookup p) = some s) :
    (c p).slot s := by
  obtain ⟨files, hf, hs⟩ := Option.bind_eq_some_iff.mp hs
  exact (h.entries p files hf).slot s hs

/-- The notifications of a section. -/
theorem World.news_leave {sec} (h : w'.tracker = w.tracker.leave peer sec) (p : PeerId)
    (a : NetworkNodeAction) : (p, a) ∈ w.news w' ↔ p = peer ∧ .notified a ∈ sec.effects := by
  rw [World.news, h, CoreFileTracker.history_leave, List.drop_left' rfl]
  simp only [List.mem_filterMap, List.mem_map]
  constructor
  · rintro ⟨_, ⟨e, he, rfl⟩, hmatch⟩
    cases e with
    | notified a' =>
      obtain ⟨⟩ := hmatch
      exact ⟨rfl, he⟩
    | _ => cases hmatch
  · rintro ⟨rfl, ha⟩
    exact ⟨_, ⟨_, ha, rfl⟩, rfl⟩

/-- What a step leaves behind: all files are in custody, and what was said has the property. -/
structure Kept (c : PeerId → Custody) (w w' : World) : Prop where
  custody : InCustody c w'
  notices : ∀ p a, (p, a) ∈ w.news w' → (c p).notice a
  messages : ∀ p e m, (p, e) ∈ w'.tracker.history.drop w.tracker.history.length →
    e.message = some m → ∃ s, slotOf (w'.tracker.files.lookup p) = some s ∧
      e.contactId = some s.pendingFile.contactId ∧ (c p).message s m.1

theorem Kept.said (h : Kept c w w') {p m} (hm : m ∈ w.said w' p) :
    ∃ s, slotOf (w'.tracker.files.lookup p) = some s ∧ (c p).message s m.1 := by
  obtain ⟨⟨q, e⟩, he, heq⟩ := List.mem_filterMap.mp hm
  split at heq
  · next hq =>
    obtain rfl : q = p := hq
    obtain ⟨s, hs, -, hmessage⟩ := h.messages q e m he heq
    exact ⟨s, hs, hmessage⟩
  · cases heq

/-- What a section leaves behind is left behind by the step. -/
theorem InCustody.of_leaves {f : Section → Section × Control} {tasks} (h : InCustody c w)
    (hr : World.Ran w w' peer f tasks) (htasks : ∀ t ∈ tasks, t ∈ w.tasks)
    (hleaves : (c peer).Leaves (f (w.tracker.enter peer))) : Kept c w w' := by
  refine ⟨⟨fun p files hf => ?_, fun p task ht => ?_⟩, fun p a ha => ?_, fun p e m he hm => ?_⟩
  · rw [hr.tracker] at hf
    by_cases hp : p = peer
    · subst hp
      rw [CoreFileTracker.lookup_leave_self] at hf
      exact hleaves.1.entry files hf
    · rw [CoreFileTracker.lookup_leave_ne hp] at hf
      exact h.entries p files hf
  · rw [hr.tasks] at ht
    split at ht
    · next task' hnext =>
      rcases List.mem_append.mp ht with ht | ht
      · exact h.tasks p task (htasks _ ht)
      · obtain ⟨rfl, rfl⟩ := Prod.mk.inj (List.mem_singleton.mp ht)
        rw [← hnext]
        exact hleaves.2
    · exact h.tasks p task (htasks _ ht)
  · obtain ⟨rfl, ha⟩ := (World.news_leave hr.tracker p a).mp ha
    exact hleaves.1.notices a ha
  · rw [hr.tracker, CoreFileTracker.history_leave, List.drop_left] at he
    obtain ⟨e, he, ⟨⟩⟩ := List.mem_map.mp he
    rw [hr.tracker, CoreFileTracker.lookup_leave_self]
    exact hleaves.1.messages e he m hm

/-- **The rule for steps.** A step keeps all files in custody, and what it says has the property of
the custody. -/
theorem InCustody.step (h : InCustody c w) (hadmits : Custody.Admits c w e env)
    (hstep : w.step (e, env) = some w') : Kept c w w' := by
  have hholds : ∀ p, (c p).Holds (w.tracker.enter p) := fun p =>
    ⟨h.entries p, fun a ha => (nomatch ha), fun e he => (nomatch he)⟩
  rcases World.step_cases hstep with
    rfl | ⟨handler, peer, rfl, hp, hr⟩ | ⟨index, peer, task, rfl, ht, hr⟩
  · refine ⟨h, fun p a ha => ?_, fun p e m he => ?_⟩
    · rw [World.news, List.drop_length] at ha
      cases ha
    · rw [List.drop_length] at he
      cases he
  · refine h.of_leaves hr (fun t ht => ht) ?_
    refine Custody.run (hadmits.closed peer) handler (hholds peer) ?_ ?_ ?_
    · rintro p file rfl hst
      obtain rfl : p = peer := Option.some.inj hp
      exact hadmits.file p file rfl hst
    · rintro p contactId requestId response s data rfl ha hs hst
      obtain rfl : p = peer := Option.some.inj hp
      exact hadmits.accepts p contactId requestId response s data rfl ha hs hst
    · rintro p contactId requestId response rfl
      obtain rfl : p = peer := Option.some.inj hp
      exact hadmits.response p contactId requestId response rfl
  · have hmem : (peer, task) ∈ w.tasks := List.mem_of_getElem? ht
    refine h.of_leaves hr (fun t ht => List.mem_of_mem_eraseIdx ht) ?_
    refine Custody.runTask (hadmits.closed peer) task (hholds peer) ?_ (h.tasks peer task hmem)
    rintro contactId s rfl hs hu
    exact hadmits.round index peer contactId s rfl ht hs hu

/-- No file was ever added. -/
theorem InCustody.new : InCustody c .new where
  entries _ _ h := by cases h
  tasks _ _ h := by cases h

end FileTracker

end Fyles
