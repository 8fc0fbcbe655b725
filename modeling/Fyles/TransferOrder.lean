import Fyles.SlotOccupancy

/-!
# The order of the messages of a transfer

While a file is in the slot, its chunks and `Done` should come after the peer has accepted its
offer, `Done` should be sent once, and no chunk after it. The handlers do not keep to that for every
interleaving, for three reasons.

* A round of `send_chunks_loop` looks at the contact of the file in the slot, but not at its status.
  A loop that was started for an earlier file, or before the file was put back and offered again,
  sends chunks of a file that was not accepted. Of two loops that wait at the end of the file, each
  sends `Done`.
* A response that accepts an offer starts the file in the slot, whichever offer it answers.
* `RestartContinueTransfer` starts the file in the slot as well. The peer has not accepted anything
  with it, but asks for a new offer.

With the three ruled out, the order is kept in every run: if a round that finds a file in the slot
which unlocks finds it being sent, and a response that starts an offered file accepts an offer, and
the offer of this file.

## Main results

* `Orderly.move` — every move keeps the order under these conditions
* `transfers_in_order` — so every run does
* `transfers_out_of_order` — without them, chunks are sent too early and `Done` is sent twice
-/

namespace Fyles

/-- The responses with which a peer accepts an offer. -/
def FileResponse.accepts : FileResponse → Bool
  | .acceptNewTransfer | .acceptContinueTransfer _ => true
  | _ => false

namespace FileTracker

/-! ### The order -/

/-- Whether `Done` was sent. -/
def Observation.isDone : Observation → Bool
  | .effect (.requested _ _ (.done _) (some _)) => true
  | _ => false

/-- Whether a chunk or `Done` was sent. -/
def Observation.isSend : Observation → Bool
  | .effect (.requested _ _ (.chunk _) (some _)) | .effect (.requested _ _ (.done _) (some _)) =>
    true
  | _ => false

/-- The request with which the file of an occupancy was offered. -/
def offerOf (occ : List Observation) : Option ℕ := occ.head?.bind Observation.offerId

/-- Whether an offer is accepted. -/
def Observation.acceptsOffer (offer : Option ℕ) : Observation → Bool
  | .answered requestId response => response.accepts && requestId.isSome && requestId = offer
  | _ => false

/-- The offer of an occupancy was accepted. -/
def Accepted (occ : List Observation) : Prop := ∃ o ∈ occ, o.acceptsOffer (offerOf occ) = true

instance Accepted.decidable (occ : List Observation) : Decidable (Accepted occ) :=
  inferInstanceAs (Decidable (∃ o ∈ occ, _))

/-- **The order of the messages.** Whenever a chunk or `Done` is sent, the offer of the occupancy
was accepted before, and `Done` was not sent before in the occupancy. -/
def InOrder (tr : List Observation) : Prop :=
  AtEvery (fun pre o => o.isSend = true →
    Accepted (occupancy pre) ∧ ∀ o' ∈ occupancy pre, o'.isDone = false) tr

instance InOrder.decidable (tr : List Observation) : Decidable (InOrder tr) :=
  inferInstanceAs (Decidable (AtEvery _ tr))

/-- A round that finds a file which unlocks finds it being sent. A response that starts an offered
file accepts an offer, and the offer of this file. -/
def Manners.serial : Manners where
  starts tr requestId response s := stageOf s.pendingFile.status = some .prepared →
    response.accepts = true ∧ requestId.isSome ∧ requestId = offerOf (occupancy tr)
  rounds file := stageOf file.status = some .sending

instance Manners.serial.decidableStarts (tr : List Observation) (requestId : Option ℕ)
    (response : FileResponse) (s : LockedSendData ℕ) :
    Decidable (Manners.serial.starts tr requestId response s) :=
  inferInstanceAs (Decidable (stageOf s.pendingFile.status = some .prepared →
    response.accepts = true ∧ requestId.isSome ∧ requestId = offerOf (occupancy tr)))

instance Manners.serial.decidableRounds (file : PendingFile) :
    Decidable (Manners.serial.rounds file) :=
  inferInstanceAs (Decidable (stageOf file.status = some .sending))

/-! ### Observations that do not matter -/

variable {tr os : List Observation} {o : Observation}

/-- Neither an offer nor a chunk nor `Done`. -/
def Observation.Idle (o : Observation) : Prop := o.offerId = none ∧ o.isSend = false

theorem Observation.isDone_of_isSend (h : o.isSend = false) : o.isDone = false := by
  rw [isDone.eq_def]
  split
  · cases h
  · rfl

theorem Effect.Neutral.idle {e} (h : e.Neutral) : (Observation.effect e).Idle := by
  refine ⟨h.offerId, ?_⟩
  rw [Observation.isSend.eq_def]
  split
  · next heq =>
    cases heq
    exact h.elim
  · next heq =>
    cases heq
    exact h.elim
  · rfl

theorem occupancy_append_idle (h : ∀ o ∈ os, o.Idle) : occupancy (tr ++ os) = occupancy tr ++ os :=
  since_append_of_neg fun o ho => by rw [(h o ho).1]; rfl

theorem offerOf_append {occ} {offer : ℕ} (h : offerOf occ = some offer) (os : List Observation) :
    offerOf (occ ++ os) = some offer := by
  cases occ with
  | nil => cases h
  | cons o occ => exact h

theorem Accepted.append {occ} (h : Accepted occ) (os : List Observation) :
    Accepted (occ ++ os) := by
  obtain ⟨o, ho, haccepts⟩ := h
  cases occ with
  | nil => cases ho
  | cons o' occ => exact ⟨o, List.mem_append_left os ho, haccepts⟩

theorem InOrder.append_idle (h : InOrder tr) (hos : ∀ o ∈ os, o.Idle) : InOrder (tr ++ os) :=
  AtEvery.append h fun o ho _ hsend => by rw [(hos o ho).2] at hsend; cases hsend

/-! ### The invariant -/

/-- The order was kept so far; `Done` was not sent for a file that is offered or being sent; and the
offer of a file that is being sent was accepted. -/
structure Orderly (v : View) : Prop where
  inOrder : InOrder v.trace
  undone : ∀ s, slotOf v.entry = some s → stageOf s.pendingFile.status = some .prepared ∨
    stageOf s.pendingFile.status = some .sending → ∀ o ∈ occupancy v.trace, o.isDone = false
  accepted : ∀ s, slotOf v.entry = some s → stageOf s.pendingFile.status = some .sending →
    Accepted (occupancy v.trace)

namespace Orderly

variable {entry entry' : Option PeerFiles} {queue : List PendingFile} {s s' : LockedSendData ℕ}

/-- Observations that do not matter, and a slot that is emptied or stays at its stage. -/
theorem idle (h : Orderly ⟨tr, entry⟩) (hos : ∀ o ∈ os, o.Idle)
    (hslot : ∀ s', slotOf entry' = some s' → ∃ s, slotOf entry = some s ∧
      stageOf s'.pendingFile.status = stageOf s.pendingFile.status) :
    Orderly ⟨tr ++ os, entry'⟩ where
  inOrder := h.inOrder.append_idle hos
  undone s' hs' hstage o ho := by
    obtain ⟨s, hs, heq⟩ := hslot s' hs'
    rw [heq] at hstage
    rw [occupancy_append_idle hos] at ho
    rcases List.mem_append.mp ho with ho | ho
    · exact h.undone s hs hstage o ho
    · exact Observation.isDone_of_isSend (hos o ho).2
  accepted s' hs' hstage := by
    obtain ⟨s, hs, heq⟩ := hslot s' hs'
    rw [heq] at hstage
    rw [occupancy_append_idle hos]
    exact (h.accepted s hs hstage).append os

theorem idle_single (h : Orderly ⟨tr, entry⟩) (ho : o.Idle)
    (hslot : ∀ s', slotOf entry' = some s' → ∃ s, slotOf entry = some s ∧
      stageOf s'.pendingFile.status = stageOf s.pendingFile.status) :
    Orderly ⟨tr ++ [o], entry'⟩ :=
  h.idle (fun o' ho' => by rw [List.mem_singleton.mp ho']; exact ho) hslot

/-- A chunk or `Done` may be sent for a file that is being sent. -/
theorem send (h : Orderly ⟨tr, some ⟨queue, some s⟩⟩)
    (hstage : stageOf s.pendingFile.status = some .sending) : InOrder (tr ++ [o]) :=
  atEvery_concat.mpr ⟨h.inOrder, fun _ => ⟨h.accepted s rfl hstage, h.undone s rfl (.inr hstage)⟩⟩

theorem sent (h : Orderly ⟨tr, some ⟨queue, some s⟩⟩)
    (hstage : stageOf s.pendingFile.status = some .sending) (hoffer : o.offerId = none)
    (hdone : o.isDone = false) :
    Orderly ⟨tr ++ [o], some ⟨queue, some s'⟩⟩ := by
  have hocc : occupancy (tr ++ [o]) = occupancy tr ++ [o] :=
    since_concat_of_neg (by rw [hoffer]; rfl)
  refine ⟨h.send hstage, ?_, ?_⟩
  · rintro _ - - o' ho'
    rw [hocc] at ho'
    rcases List.mem_append.mp ho' with ho' | ho'
    · exact h.undone s rfl (.inr hstage) o' ho'
    · rw [List.mem_singleton.mp ho']
      exact hdone
  · rintro _ - -
    rw [hocc]
    exact (h.accepted s rfl hstage).append [o]

theorem offer {offer : ℕ} (h : InOrder tr) (hoffer : o.offerId = some offer)
    (hstage : stageOf s'.pendingFile.status = some .prepared) :
    Orderly ⟨tr ++ [o], some ⟨queue, some s'⟩⟩ := by
  have hocc : occupancy (tr ++ [o]) = [o] := since_concat_of_pos (by rw [hoffer]; rfl)
  have hsend : o.isSend = false := by
    rw [Observation.isSend.eq_def]
    split
    · cases hoffer
    · cases hoffer
    · rfl
  constructor
  · refine atEvery_concat.mpr ⟨h, fun hs => ?_⟩
    rw [hsend] at hs
    cases hs
  · rintro _ - - o' ho'
    rw [hocc] at ho'
    rw [List.mem_singleton.mp ho']
    exact Observation.isDone_of_isSend hsend
  · rintro _ ⟨⟩ hsending
    rw [hstage] at hsending
    cases hsending

theorem start (h : Orderly ⟨tr, some ⟨queue, some s⟩⟩) {requestId response}
    (hprepared : stageOf s.pendingFile.status = some .prepared)
    (hserial : response.accepts = true ∧ requestId.isSome ∧ requestId = offerOf (occupancy tr)) :
    Orderly ⟨tr ++ [.answered requestId response], some ⟨queue, some s'⟩⟩ := by
  have hidle : ∀ o ∈ [Observation.answered requestId response], o.Idle := by
    intro o ho
    rw [List.mem_singleton.mp ho]
    exact ⟨rfl, rfl⟩
  obtain ⟨ha, hsome, hoffer⟩ := hserial
  obtain ⟨offer, rfl⟩ := Option.isSome_iff_exists.mp hsome
  constructor
  · exact h.inOrder.append_idle hidle
  · rintro _ - - o ho
    rw [occupancy_append_idle hidle] at ho
    rcases List.mem_append.mp ho with ho | ho
    · exact h.undone s rfl (.inl hprepared) o ho
    · exact Observation.isDone_of_isSend (hidle o ho).2
  · rintro _ - -
    rw [occupancy_append_idle hidle]
    refine ⟨.answered (some offer) response, List.mem_append_right _ List.mem_cons_self, ?_⟩
    rw [offerOf_append hoffer.symm]
    simp [Observation.acceptsOffer, ha]

/-- **Every move keeps the order.** -/
theorem move {u v} (h : Orderly u) (hmove : Move .serial u v) : Orderly v := by
  cases hmove with
  | keeps es hneutral hslot =>
    refine h.idle ?_ fun s' hs' => ?_
    · intro o ho
      obtain ⟨e, he, rfl⟩ := List.mem_map.mp ho
      exact (hneutral e he).idle
    · obtain ⟨s, hs, hsame⟩ := hslot s' hs'
      exact ⟨s, hs, congrArg stageOf hsame.status⟩
  | answered requestId response => exact h.idle_single ⟨rfl, rfl⟩ fun s' hs' => ⟨s', hs', rfl⟩
  | holds => exact h.idle_single ⟨rfl, rfl⟩ fun s' hs' => ⟨s', hs', rfl⟩
  | offers hentry hoffer htransfer hm hst =>
    exact offer h.inOrder hoffer (by rw [hst]; rfl)
  | starts hg ha hst hst' hid hm =>
    have hprepared := congrArg stageOf hst
    exact h.start hprepared (hg hprepared)
  | @acknowledges tr queue s s' requestId data data' hst hst' hid hm =>
    have hanswered :
        Orderly ⟨tr ++ [.answered (some requestId) .confirmChunk], some ⟨queue, some s⟩⟩ :=
      h.idle_single ⟨rfl, rfl⟩ fun s' hs' => ⟨s', hs', rfl⟩
    refine hanswered.idle_single ⟨rfl, rfl⟩ ?_
    rintro _ ⟨⟩
    exact ⟨s, rfl, by rw [hst, hst']; rfl⟩
  | @confirms tr queue s requestId data hst =>
    have hanswered : Orderly ⟨tr ++ [.answered requestId .confirmDone], some ⟨queue, some s⟩⟩ :=
      h.idle_single ⟨rfl, rfl⟩ fun s' hs' => ⟨s', hs', rfl⟩
    exact hanswered.idle_single ⟨rfl, rfl⟩ fun s' hs' => by cases hs'
  | @ends tr reads queue s hg hreads =>
    refine h.idle (fun o ho => ?_) ?_
    · rcases hreads with ⟨-, rfl⟩ | ⟨-, rfl⟩
      · cases ho
      · rw [List.mem_singleton.mp ho]
        exact ⟨rfl, rfl⟩
    · rintro _ ⟨⟩
      exact ⟨s, rfl, rfl⟩
  | @finishes tr queue s requestId hg hf =>
    have hafter : stageOf (statusAfterDone s.pendingFile.status) = some .pendingSent :=
      stageOf_statusAfterDone hg
    refine ⟨h.send hg, ?_, ?_⟩
    · rintro _ ⟨⟩ hstage
      rcases hstage with hstage | hstage
      · cases hafter.symm.trans hstage
      · cases hafter.symm.trans hstage
    · rintro _ ⟨⟩ hstage
      cases hafter.symm.trans hstage
  | @sends tr queue s piece position requestId hg hready hp hpiece =>
    have hread : Orderly ⟨tr ++ [.read (.ok piece)], some ⟨queue, some s⟩⟩ :=
      h.idle_single ⟨rfl, rfl⟩ fun s' hs' => ⟨s', hs', rfl⟩
    exact hread.sent hg rfl rfl
  | fails result => exact h.idle_single ⟨rfl, rfl⟩ fun s' hs' => by cases hs'
  | @stuck tr queue s s' result hst hst' =>
    refine h.idle_single ⟨rfl, rfl⟩ ?_
    rintro _ ⟨⟩
    exact ⟨s, rfl, congrArg stageOf hst'⟩

theorem new : Orderly ⟨[], none⟩ where
  inOrder := AtEvery.nil
  undone s hs := by cases hs
  accepted s hs := by cases hs

end Orderly

/-! ### Runs -/

/-- **Transfers go in order**, in every run in which rounds find a file that is being sent, and
responses that start an offered file accept its offer. -/
theorem transfers_in_order {events : List (Event × Env)} {w : Watched}
    (hrun : Run Watched.step (Watched.Meets .serial) .new events w) (peer : PeerId) :
    InOrder (w.trace peer) :=
  (Watched.invariant (I := Orderly) (fun hmeets => hmeets) .new Orderly.move hrun peer).inOrder

/-- The transfer of a file to its end. -/
theorem transfers_in_order_whole : ∃ w,
    Run Watched.step (Watched.Meets .serial) .new wholeTransfer w ∧
    (w.trace ⟨"peer"⟩).countP Observation.isSend = 2 ∧ InOrder (w.trace ⟨"peer"⟩) := by
  exact Run.exists_and Run.get_runFrom fun hrun => ⟨by decide, transfers_in_order hrun ⟨"peer"⟩⟩

/-- The request for the first chunk expires and the file is offered again. The loop that sent the
chunk sends another. -/
def leftoverLoop : List (Event × Env) :=
  firstChunk ++ [(.call (.handleReceiveError ⟨"peer"⟩ (some 1) (.localError .timeout)), readEnv []),
    triggers, (.resume 0, readEnv [3, 4])]

/-- The chunk is acknowledged, so that there are two loops. Both find the end of the file. -/
def twoLoops : List (Event × Env) :=
  firstChunk ++ [answers 1 .confirmChunk, (.resume 0, readEnv []), (.resume 0, readEnv [])]

/-- A file is offered with the request `0` and cancelled, and another one offered. Then the first
offer is accepted, and a chunk of the second file is sent. -/
def lateAcceptance : List (Event × Env) :=
  [queues "first", queues "second", triggers, (.call (.cancelFile ⟨"first"⟩), readEnv []),
    answers 0 .acceptNewTransfer, (.resume 0, readEnv [1, 2])]

/-- The file is offered again, and the peer asks for a new offer. A chunk is sent. -/
def refusedContinuation : List (Event × Env) :=
  firstChunk ++ [(.call (.handleReceiveError ⟨"peer"⟩ (some 1) (.localError .timeout)), readEnv []),
    (.resume 0, readEnv []), triggers, answers 2 .restartContinueTransfer,
    (.resume 0, readEnv [3, 4])]

/-- A run that ends with messages in a wrong order. -/
def OutOfOrder (events : List (Event × Env)) : Prop :=
  ∃ w, Run Watched.step (fun _ _ => True) .new events w ∧ ¬ InOrder (w.trace ⟨"peer"⟩)

/-- **Transfers go out of order** by a loop that is left over, by two loops at the end of the file,
by a late acceptance, and by a continuation that was refused. -/
theorem transfers_out_of_order : OutOfOrder leftoverLoop ∧ OutOfOrder twoLoops ∧
    OutOfOrder lateAcceptance ∧ OutOfOrder refusedContinuation :=
  ⟨⟨_, Run.get_runFrom, by decide⟩,
    ⟨_, Run.get_runFrom, by decide⟩,
    ⟨_, Run.get_runFrom, by decide⟩,
    ⟨_, Run.get_runFrom, by decide⟩⟩

end FileTracker

end Fyles
