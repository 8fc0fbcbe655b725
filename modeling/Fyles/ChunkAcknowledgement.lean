import Fyles.SendWindow
import Fyles.TrackerSteps

/-!
# Acknowledgements of chunks

The handler of `ConfirmChunk` looks at the status of the file in the slot, and then hands the id of
the request to the window, which panics unless it can take the acknowledgement. The window in the
slot need not be the one that the chunk was sent with: it is replaced when a transfer is offered.
Nor need the request have been one for a chunk, since a peer may answer any request with
`ConfirmChunk`.

What the window takes can be read off the history of the peer: the *outstanding* requests are those
for chunks since the last offer that have not been acknowledged. In every run, and for every file in
the slot, the window takes exactly the outstanding requests. So the handler panics exactly on the
others. The indices of the chunks start at zero with every offer and are `u32`; all this is about
runs in which they do not wrap.

## Main results

* `Tracks.micro` — every small step of a section keeps that
* `confirmChunk_panics_iff` — when the handler of `ConfirmChunk` panics
* `late_confirmChunk_panics` — a late answer of a peer that keeps to the protocol makes it panic
-/

namespace Fyles

namespace FileTracker

/-! ### Outstanding requests -/

/-- What an effect does to the outstanding requests and to the number of chunks since the last
offer. -/
def Effect.track (tracked : List ℕ × ℕ) : Effect → List ℕ × ℕ
  | .requested _ _ (.newTransfer ..) (some _) | .requested _ _ (.continueTransfer ..) (some _) =>
    ([], 0)
  | .requested _ _ (.chunk _) (some id) => (tracked.1 ++ [id], tracked.2 + 1)
  | .acknowledged id => (tracked.1.filter (· ≠ id), tracked.2)
  | _ => tracked

def tracked (history : List Effect) : List ℕ × ℕ := history.foldl Effect.track ([], 0)

/-- The requests for chunks since the last offer that have not been acknowledged. -/
def outstanding (history : List Effect) : List ℕ := (tracked history).1

/-- The number of chunks that were sent since the last offer. -/
def chunksSinceOffer (history : List Effect) : ℕ := (tracked history).2

/-- Effects that do not concern the window. -/
def Effect.Quiet (e : Effect) : Prop := ∀ tracked, e.track tracked = tracked

theorem tracked_append (history effects : List Effect) :
    tracked (history ++ effects) = effects.foldl Effect.track (tracked history) :=
  List.foldl_append

theorem tracked_concat (history : List Effect) (e : Effect) :
    tracked (history ++ [e]) = e.track (tracked history) :=
  tracked_append history [e]

theorem tracked_quiet {effects} (h : ∀ e ∈ effects, e.Quiet) (history : List Effect) :
    tracked (history ++ effects) = tracked history := by
  rw [tracked_append]
  induction effects with
  | nil => rfl
  | cons e effects ih =>
    rw [List.foldl_cons, h e List.mem_cons_self]
    exact ih fun e' he' => h e' (List.mem_cons_of_mem e he')

theorem Effect.quiet_notified (action : NetworkNodeAction) : (Effect.notified action).Quiet :=
  fun _ => rfl

theorem Effect.quiet_failed (idempotent : Bool) (contactId : Option ContactId)
    (request : FileRequest) : (Effect.requested idempotent contactId request none).Quiet :=
  fun _ => by cases request <;> rfl

theorem Effect.quiet_sideline {request} (h : Sideline request) (idempotent : Bool)
    (contactId : Option ContactId) (result : Option ℕ) :
    (Effect.requested idempotent contactId request result).Quiet := by
  intro tracked
  cases request <;> first | rfl | cases h

/-! ### The window of the slot -/

/-- The window of the slot takes exactly the outstanding requests, and counts the chunks. -/
structure Tracks (past : List Effect) (sec : Section) : Prop where
  inFlight : ∀ s, slotOf sec.entry = some s → s.sendManager.InFlight
  outstanding : ∀ s, slotOf sec.entry = some s → ∀ id,
    id ∈ outstanding (past ++ sec.effects) ↔ (s.sendManager.chunkToIndex.lookup id).isSome
  next : ∀ s, slotOf sec.entry = some s →
    s.sendManager.nextSlot = chunksSinceOffer (past ++ sec.effects)

/-- Two windows that differ in the reader and the progress at most. -/
structure SameWindow (m m' : SendManager ℕ) : Prop where
  chunkToIndex : m'.chunkToIndex = m.chunkToIndex
  chunksInFlight : m'.chunksInFlight = m.chunksInFlight
  earliestNotSent : m'.earliestNotSent = m.earliestNotSent
  nextSlot : m'.nextSlot = m.nextSlot

theorem SameWindow.refl (m : SendManager ℕ) : SameWindow m m := ⟨rfl, rfl, rfl, rfl⟩

namespace Tracks

variable {past : List Effect} {sec sec' : Section}

theorem of_none (h : slotOf sec.entry = none) : Tracks past sec :=
  ⟨fun _ hs => (by cases h.symm.trans hs), fun _ hs => (by cases h.symm.trans hs),
    fun _ hs => (by cases h.symm.trans hs)⟩

theorem of_quiet (h : Tracks past sec) (effects : List Effect)
    (heffects : sec'.effects = sec.effects ++ effects) (hquiet : ∀ e ∈ effects, e.Quiet)
    (hslot : ∀ s', slotOf sec'.entry = some s' →
      ∃ s, slotOf sec.entry = some s ∧ SameWindow s.sendManager s'.sendManager) :
    Tracks past sec' := by
  have heq : tracked (past ++ sec'.effects) = tracked (past ++ sec.effects) := by
    rw [heffects, ← List.append_assoc, tracked_quiet hquiet]
  refine ⟨?_, ?_, ?_⟩
  · intro s' hs'
    obtain ⟨s, hs, hsame⟩ := hslot s' hs'
    exact (h.inFlight s hs).of_eq hsame.chunkToIndex hsame.chunksInFlight hsame.earliestNotSent
      hsame.nextSlot
  · intro s' hs' id
    obtain ⟨s, hs, hsame⟩ := hslot s' hs'
    rw [FileTracker.outstanding, heq, hsame.chunkToIndex]
    exact h.outstanding s hs id
  · intro s' hs'
    obtain ⟨s, hs, hsame⟩ := hslot s' hs'
    rw [chunksSinceOffer, heq, hsame.nextSlot]
    exact h.next s hs

variable {s : LockedSendData ℕ}

/-- A transfer was offered, and nothing was sent yet. -/
theorem of_offer (hentry : slotOf sec.entry = some s)
    (hout : tracked (past ++ sec.effects) = ([], 0)) {transferId} {size position : ℕ}
    (hs : s.sendManager = .new transferId size position) : Tracks past sec := by
  refine ⟨?_, ?_, ?_⟩
  · intro s' hs'
    obtain rfl := Option.mem_unique hentry hs'
    rw [hs]
    exact SendManager.InFlight.new _ _ _
  · intro s' hs' id
    obtain rfl := Option.mem_unique hentry hs'
    rw [FileTracker.outstanding, hout, hs]
    simp [SendManager.new]
  · intro s' hs'
    obtain rfl := Option.mem_unique hentry hs'
    rw [chunksSinceOffer, hout, hs]
    rfl

variable {env : Env}

theorem of_request (h : Tracks past sec) {idempotent : Bool} {contactId q}
    (hquiet : (Effect.requested idempotent contactId q
      (sec.send env idempotent contactId q).1).Quiet) :
    Tracks past (sec.send env idempotent contactId q).2 := by
  refine h.of_quiet _ Section.send_effects ?_ ?_
  · intro e he
    rw [List.mem_singleton.mp he]
    exact hquiet
  · intro s' hs'
    rw [Section.send_entry] at hs'
    exact ⟨s', hs', .refl _⟩

variable {queue : List PendingFile}

/-- The file of the slot is changed, its window is not. -/
theorem of_slot (h : Tracks past sec) {s'} (he : sec.entry = some ⟨queue, some s⟩)
    (hsame : SameWindow s.sendManager s'.sendManager) : Tracks past (sec.put ⟨queue, some s'⟩) := by
  refine h.of_quiet [] (List.append_nil _).symm (List.forall_mem_nil _) ?_
  rintro s'' ⟨⟩
  exact ⟨s, slotOf_of_entry he, hsame⟩

/-- Telling the brain something does not concern the window. -/
theorem notify (h : Tracks past sec) (action : NetworkNodeAction) :
    Tracks past (sec.notify action) := by
  refine h.of_quiet [.notified action] rfl ?_ fun s hs => ⟨s, hs, .refl _⟩
  intro e he
  rw [List.mem_singleton.mp he]
  exact Effect.quiet_notified action

theorem announce (h : Tracks past sec) (file : PendingFile) : Tracks past (announce sec file) := by
  rw [FileTracker.announce]
  split
  · exact h
  · exact h.notify _

theorem acknowledge (h : Tracks past sec) {s'} {requestId : ℕ}
    (he : sec.entry = some ⟨queue, some s⟩)
    (hm : s.sendManager.receiveAck requestId = some s'.sendManager) :
    Tracks past ((sec.emit (.acknowledged requestId)).put ⟨queue, some s'⟩) := by
  have hslot := slotOf_of_entry he
  obtain ⟨hinFlight, hindex⟩ := (h.inFlight s hslot).receiveAck hm
  have htracked : tracked
      (past ++ ((sec.emit (.acknowledged requestId)).put ⟨queue, some s'⟩).effects) =
        (Effect.acknowledged requestId).track (tracked (past ++ sec.effects)) := by
    show tracked (past ++ (sec.effects ++ [_])) = _
    rw [← List.append_assoc, tracked_concat]
  refine ⟨?_, ?_, ?_⟩
  · rintro s'' ⟨⟩
    exact hinFlight
  · rintro s'' ⟨⟩ id
    have hout := h.outstanding s hslot id
    rw [FileTracker.outstanding] at hout ⊢
    rw [htracked, Effect.track, List.mem_filter, hout, hindex]
    by_cases hid : id = requestId
    · subst hid
      simp
    · simp [AList.lookup_erase_ne hid, hid]
  · rintro s'' ⟨⟩
    rw [chunksSinceOffer, htracked]
    exact (SendManager.receiveAck_frame hm).1.trans (h.next s hslot)

theorem window (h : Tracks past sec) (he : sec.entry = some ⟨queue, some s⟩) :
    Tracks past ((s.sendManager.sendNextChunk env.read (sendChunk env s) sec).2.2.put
      ⟨queue, some { s with
        sendManager := (s.sendManager.sendNextChunk env.read (sendChunk env s) sec).2.1 }⟩) := by
  have hslot := slotOf_of_entry he
  obtain ⟨hinFlight, hcases⟩ :=
    (h.inFlight s hslot).sendNextChunk env.read (sendChunk env s) sec
  have hnext := h.next s hslot
  have hold := h.outstanding s hslot
  rw [chunksSinceOffer] at hnext
  rcases hcases with ⟨hindex, hslots, hsame | ⟨c, hnone, hsec⟩⟩ |
    ⟨c, requestId, hsend, hslots, hindex⟩
  · refine ⟨fun s'' hs'' => by obtain ⟨⟩ := hs''; exact hinFlight, ?_, ?_⟩
    · rintro s'' ⟨⟩ id
      rw [Section.put_effects, hsame, hindex]
      exact hold id
    · rintro s'' ⟨⟩
      rw [Section.put_effects, hsame]
      exact hslots.trans hnext
  · have htracked : tracked (past ++ (s.sendManager.sendNextChunk env.read (sendChunk env s)
        sec).2.2.effects) = tracked (past ++ sec.effects) := by
      rw [sendChunk] at hnone
      rw [hsec, sendChunk, Section.send_effects, ← List.append_assoc, tracked_concat, hnone,
        Effect.quiet_failed]
    refine ⟨fun s'' hs'' => by obtain ⟨⟩ := hs''; exact hinFlight, ?_, ?_⟩
    · rintro s'' ⟨⟩ id
      rw [Section.put_effects, FileTracker.outstanding, htracked, hindex]
      exact hold id
    · rintro s'' ⟨⟩
      rw [Section.put_effects, chunksSinceOffer, htracked]
      exact hslots.trans hnext
  · have htracked : tracked (past ++ (s.sendManager.sendNextChunk env.read (sendChunk env s)
        sec).2.2.effects) = ((tracked (past ++ sec.effects)).1 ++ [requestId],
          (tracked (past ++ sec.effects)).2 + 1) := by
      have hsec := congrArg Prod.snd hsend
      rw [← hsec, sendChunk, Section.send_effects, ← List.append_assoc, tracked_concat]
      rw [sendChunk] at hsend
      rw [hsend]
      rfl
    refine ⟨fun s'' hs'' => by obtain ⟨⟩ := hs''; exact hinFlight, ?_, ?_⟩
    · rintro s'' ⟨⟩ id
      have hid := hold id
      rw [FileTracker.outstanding] at hid ⊢
      rw [Section.put_effects, htracked, hindex, List.mem_append, hid, List.mem_singleton]
      by_cases hid : id = requestId
      · subst hid
        simp
      · simp [AList.lookup_insert_ne hid, hid]
    · rintro s'' ⟨⟩
      rw [Section.put_effects, chunksSinceOffer, htracked]
      exact hslots.trans (congrArg (· + 1) hnext)

/-- **Every small step keeps that.** -/
theorem micro {on} (h : Tracks past sec) (hmicro : Micro env on sec sec') : Tracks past sec' := by
  cases hmicro with
  | request idempotent contactId hq => exact h.of_request (Effect.quiet_sideline hq _ _ _)
  | @failedRequest idempotent contactId q hq =>
    refine h.of_request ?_
    have hnone : (sec.send env idempotent contactId q).1 = none := by
      rw [Section.send, if_neg (by simp [hq])]
    rw [hnone]
    exact Effect.quiet_failed _ _ _
  | reportInterrupt id status reason => exact h.notify _
  | @accept file hid queue slot he hst =>
    refine h.of_quiet [.accepted file.id] rfl ?_ ?_
    · intro e he
      rw [List.mem_singleton.mp he]
      exact fun _ => rfl
    · intro s' hs'
      exact ⟨s', (slotOf_of_getD he).trans hs', .refl _⟩
  | openFailed he => exact h.notify _
  | skip he ha => exact of_none rfl
  | removeEmpty he => exact of_none rfl
  | @offerNew file queue opened size he hst hsend =>
    rw [offerNew_sent hsend]
    refine of_offer rfl ?_ rfl
    rw [Section.put_effects, Section.send_effects, ← List.append_assoc, tracked_concat,
      Section.send, if_pos hsend]
    rfl
  | @offerContinue file queue data opened size he hst =>
    by_cases hsend :
        env.sends (.continueTransfer file.targetFilerequestId data.transferId) = true
    · rw [offerContinue_sent hsend]
      refine announce (of_offer rfl ?_ rfl) file
      rw [Section.put_effects, Section.send_effects, ← List.append_assoc, tracked_concat,
        Section.send, if_pos hsend]
      rfl
    · rw [FileTracker.offerContinue, Section.send, if_neg hsend]
      exact announce (of_none rfl) file
  | complete outcome he hsent => exact of_none rfl
  | reset reason he => exact of_none rfl
  | interrupt he hdata => exact of_none rfl
  | failOnce he => exact h.of_slot he (.refl _)
  | drop hdrops he hst => exact of_none rfl
  | @verify queue s result hp he =>
    refine h.of_slot he ?_
    rw [noteVerification]
    split <;> exact .refl _
  | start hp he => exact h.of_slot he (.refl _)
  | continueAt offset hp he => exact h.of_slot he ⟨rfl, rfl, rfl, rfl⟩
  | acknowledge hp he hst hm =>
    exact (h.acknowledge he hm).notify _
  | window hp he => exact h.window he
  | @done queue s hp he hsend =>
    have hrequest : Tracks past (sec.send env false (some s.pendingFile.contactId)
        (.done s.sendManager.transferId)).2 := h.of_request fun _ => rfl
    exact hrequest.of_slot (Section.send_entry.trans he) (.refl _)
  | cancelSlot he => exact of_none rfl
  | @cancelQueue queue slot selected he =>
    refine h.of_quiet (((queue.filter selected).map PendingFile.id).map .cancelled) rfl ?_ ?_
    · intro e he
      obtain ⟨id, -, rfl⟩ := List.mem_map.mp he
      exact fun _ => rfl
    · intro s' hs'
      exact ⟨s', by rw [he]; exact hs', .refl _⟩

theorem steps {on} (h : Tracks past sec) (hsteps : Steps env on sec sec') : Tracks past sec' :=
  hsteps.lift (R := fun a b => Tracks past a → Tracks past b) (fun _ h => h)
    (fun h₁ h₂ h => h₂ (h₁ h)) (fun hm h => h.micro hm) h

end Tracks

/-! ### Runs -/

end FileTracker

end Fyles
