import Fyles.SlotOccupancy

/-!
# Files that are reported as sent

The branch of `receive_response` that reports a file as sent looks at one thing, that its status is
`PendingSent`. What a user may conclude from the report is a fact about the past: since the offer,
the reader has come to the end of the file, all that it handed out was sent and acknowledged, and
the peer has confirmed `Done`. Several loops may have worked on the file, and none of them looks at
the status.

The invariant `Occupant` ties the past to the slot. Its parts need each other. Once the reader is
at its end it stays there, so a window without pending slots has nothing left to send. The slot of
every registered request is pending, so such a window has no registered request, and a chunk whose
request is not registered was acknowledged.

## Reads

A read counts when its result is handed out by `read`. The result that `set_progress` throws away,
because the file is read from another offset on, is not handed out.

## Main results

* `Occupant.properlySent` — a file whose `Done` is awaited was sent and acknowledged
* `sent_soundly` — every report stands for that, in every run
-/

namespace Fyles

namespace FileTracker

/-! ### The past of a file in the slot -/

/-- The result of a read. -/
def Observation.readResult : Observation → Option (Except IoError (List UInt8))
  | .read result => some result
  | _ => none

/-- The request that carried a chunk, and the bytes. -/
def Observation.carried : Observation → Option (ℕ × List UInt8)
  | .effect (.requested _ _ (.chunk c) (some id)) => some (id, c.data)
  | _ => none

/-- The transfer for which `Done` was sent. -/
def Observation.doneFor : Observation → Option FylesId
  | .effect (.requested _ _ (.done transferId) (some _)) => some transferId
  | _ => none

/-- The transfer of an offer. -/
def Observation.offeredTransfer : Observation → Option FylesId
  | .effect (.requested _ _ request (some _)) => request.transfer
  | _ => none

variable (occ : List Observation)

/-- What the reader handed out. -/
def readsOf : List (Except IoError (List UInt8)) :=
  occ.filterMap Observation.readResult

/-- The chunks that were sent, with their requests. -/
def carriedBy : List (ℕ × List UInt8) :=
  occ.filterMap Observation.carried

/-- The transfer that an occupancy was offered as. -/
def transferOf : Option FylesId :=
  occ.head?.bind Observation.offeredTransfer

/-- **What a report of a file as sent stands for**, in terms of the occupancy before it. -/
structure ProperlySent (occ : List Observation) (fileId : FylesId) : Prop where
  /-- The file was in the slot all the time. -/
  held : ∀ held, .holds held ∈ occ → held = some fileId
  /-- The reader came to the end of the file without an error, and what it had handed out before
  was sent in this order. -/
  readToEnd : readsOf occ = ((carriedBy occ).map fun c => .ok c.2) ++ [.ok []]
  /-- After every chunk came a `ConfirmChunk` for the request that had carried it. -/
  acknowledged : ∀ o ∈ occ, ∀ c ∈ o.carried, [o, .answered (some c.1) .confirmChunk].Sublist occ
  /-- After `Done` for the transfer that was offered came a `ConfirmDone`. -/
  confirmed : ∃ transferId o requestId, transferOf occ = some transferId ∧
    o.doneFor = some transferId ∧ [o, .answered requestId .confirmDone].Sublist occ

/-- Every report so far stands for that. -/
def ReportsSound (tr : List Observation) : Prop :=
  AtEvery (fun pre o => ∀ fileId, o = .effect (.notified (.fileSent fileId)) →
    ProperlySent (occupancy pre) fileId) tr

/-! ### The invariant -/

/-- What the past of a file in the slot has to do with its window and its status. -/
structure Occupant (occ : List Observation) (s : LockedSendData ℕ) : Prop where
  held : ∀ held, .holds held ∈ occ → held = some s.pendingFile.id
  offered : transferOf occ = some s.sendManager.transferId
  /-- The reader is at its end once it has handed out the end of the file. -/
  reads : readsOf occ = ((carriedBy occ).map fun c => .ok c.2) ++
    if s.sendManager.file.pendingRead.isSome then [] else [.ok []]
  /-- A chunk was acknowledged unless its request is registered. -/
  acknowledged : ∀ o ∈ occ, ∀ c ∈ o.carried, (s.sendManager.chunkToIndex.lookup c.1).isSome ∨
    [o, .answered (some c.1) .confirmChunk].Sublist occ
  inFlight : s.sendManager.InFlight
  inProgress : s.pendingFile.status.transferData.isSome
  /-- While `Done` is awaited the window is empty, and `Done` was sent. -/
  finished : stageOf s.pendingFile.status = some .pendingSent → Finished s.sendManager ∧
    ∃ o ∈ occ, o.doneFor = some s.sendManager.transferId

/-- A window without pending slots has no registered request. -/
theorem Finished.lookup_eq_none {m} (hf : Finished m) (h : m.InFlight) (id : ℕ) :
    m.chunkToIndex.lookup id = none := by
  by_contra hne
  obtain ⟨idx, hidx⟩ := Option.ne_none_iff_exists'.mp hne
  obtain ⟨-, -, bytes, hslot⟩ := h.pending id idx hidx
  have hall := List.all_eq_true.mp hf.2.2 _ (List.mem_of_getElem? hslot)
  cases hall

variable {tr os occ : List Observation} {o : Observation} {s s' : LockedSendData ℕ}

theorem transferOf_append {transferId} (h : transferOf occ = some transferId)
    (os : List Observation) : transferOf (occ ++ os) = some transferId := by
  cases occ with
  | nil => cases h
  | cons o occ => exact h

/-- Starting a file does not concern what was sent, and does not bring the reader back from its
end. -/
theorem Started.keeps {m m'} (h : Started m m') :
    m'.transferId = m.transferId ∧ m'.chunkToIndex = m.chunkToIndex ∧
      (m.InFlight → m'.InFlight) ∧ m'.file.pendingRead.isSome = m.file.pendingRead.isSome := by
  rcases h with rfl | ⟨result, seeks, offset, rfl⟩
  · exact ⟨rfl, rfl, id, rfl⟩
  · refine ⟨rfl, rfl, fun h => h.of_eq rfl rfl rfl rfl, ?_⟩
    rw [SendManager.setProgress, FileReader.setProgress.eq_def]
    split
    · rfl
    · next hp =>
      rw [hp]
      split
      · rfl
      · split <;> rfl

theorem transferData_statusAfterDone (status : SendStatus) :
    (statusAfterDone status).transferData = status.transferData := by
  rw [statusAfterDone.eq_def]
  split <;> rfl

/-- Observations that are neither offers nor reads nor chunks. -/
structure Observation.Still (o : Observation) : Prop where
  offerId : o.offerId = none
  readResult : o.readResult = none
  carried : o.carried = none

theorem Effect.Neutral.still {e} (h : e.Neutral) : (Observation.effect e).Still := by
  refine ⟨h.offerId, rfl, ?_⟩
  rw [Observation.carried.eq_def]
  split
  · next heq =>
    cases heq
    exact h.elim
  · rfl

theorem readsOf_append_still (h : ∀ o ∈ os, o.Still) : readsOf (occ ++ os) = readsOf occ := by
  rw [readsOf, List.filterMap_append,
    List.filterMap_eq_nil_iff.mpr fun o ho => (h o ho).readResult, List.append_nil, readsOf]

theorem carriedBy_append_still (h : ∀ o ∈ os, o.Still) : carriedBy (occ ++ os) = carriedBy occ := by
  rw [carriedBy, List.filterMap_append,
    List.filterMap_eq_nil_iff.mpr fun o ho => (h o ho).carried, List.append_nil, carriedBy]

theorem occupancy_append_still (h : ∀ o ∈ os, o.Still) :
    occupancy (tr ++ os) = occupancy tr ++ os :=
  since_append_of_neg fun o ho => by rw [(h o ho).offerId]; rfl

namespace Occupant

/-- Observations without a chunk. -/
theorem acknowledged_append (h : Occupant occ s) (hos : ∀ o ∈ os, o.carried = none) :
    ∀ o ∈ occ ++ os, ∀ c ∈ o.carried, (s.sendManager.chunkToIndex.lookup c.1).isSome ∨
      [o, .answered (some c.1) .confirmChunk].Sublist (occ ++ os) := by
  intro o ho c hc
  rcases List.mem_append.mp ho with ho | ho
  · exact (h.acknowledged o ho c hc).imp_right fun hsub =>
      hsub.trans (List.sublist_append_left _ _)
  · rw [hos o ho] at hc
    cases hc

/-- Observations within a section. -/
theorem held_append (h : Occupant occ s)
    (hos : ∀ held, .holds held ∈ os → held = some s.pendingFile.id) :
    ∀ held, .holds held ∈ occ ++ os → held = some s.pendingFile.id := by
  intro held hmem
  rcases List.mem_append.mp hmem with hmem | hmem
  · exact h.held held hmem
  · exact hos held hmem

/-- **A file whose `Done` is awaited** was sent and acknowledged; a `ConfirmDone` completes it. -/
theorem properlySent (h : Occupant occ s)
    (hstage : stageOf s.pendingFile.status = some .pendingSent) (requestId : Option ℕ) :
    ProperlySent (occ ++ [.answered requestId .confirmDone]) s.pendingFile.id := by
  have hstill : ∀ o ∈ [Observation.answered requestId .confirmDone], o.Still := by
    intro o ho
    rw [List.mem_singleton.mp ho]
    exact ⟨rfl, rfl, rfl⟩
  obtain ⟨hf, o, ho, hdone⟩ := h.finished hstage
  constructor
  case held => exact h.held_append fun held hmem => by cases List.mem_singleton.mp hmem
  case readToEnd =>
    rw [readsOf_append_still hstill, carriedBy_append_still hstill, h.reads, hf.1]
    rfl
  case acknowledged =>
    intro o ho c hc
    refine (h.acknowledged_append (fun o ho => (hstill o ho).carried) o ho c hc).resolve_left ?_
    rw [hf.lookup_eq_none h.inFlight]
    exact Bool.false_ne_true
  case confirmed =>
    refine ⟨_, o, requestId, transferOf_append h.offered _, hdone, ?_⟩
    exact List.Sublist.append (List.singleton_sublist.mpr ho) (List.Sublist.refl _)

/-- Observations that are neither offers nor reads nor chunks, while the transfer stays the same. -/
theorem still (h : Occupant occ s) (hos : ∀ o ∈ os, o.Still)
    (hheld : ∀ held, .holds held ∈ os → held = some s.pendingFile.id) (hs' : SameTransfer s s') :
    Occupant (occ ++ os) s' where
  held := by
    rw [hs'.id]
    exact h.held_append hheld
  offered := by
    rw [hs'.sendManager]
    exact transferOf_append h.offered os
  reads := by rw [readsOf_append_still hos, carriedBy_append_still hos, hs'.sendManager, h.reads]
  acknowledged := by
    rw [hs'.sendManager]
    exact h.acknowledged_append fun o ho => (hos o ho).carried
  inFlight := by
    rw [hs'.sendManager]
    exact h.inFlight
  inProgress := by
    rw [hs'.status]
    exact h.inProgress
  finished hstage := by
    rw [hs'.status] at hstage
    rw [hs'.sendManager]
    obtain ⟨hf, o, ho, hdone⟩ := h.finished hstage
    exact ⟨hf, o, List.mem_append_left _ ho, hdone⟩

variable {data : TransferData}

/-- The file is started: it may be read from another offset on. -/
theorem start (h : Occupant occ s) (hst' : s'.pendingFile.status = .inProgress ⟨.sending, data⟩)
    (hid : s'.pendingFile.id = s.pendingFile.id) (hm : Started s.sendManager s'.sendManager) :
    Occupant occ s' := by
  obtain ⟨htransfer, hindex, hflight, hread⟩ := hm.keeps
  constructor
  case held =>
    rw [hid]
    exact h.held
  case offered => rw [htransfer, h.offered]
  case reads => rw [hread, h.reads]
  case acknowledged =>
    rw [hindex]
    exact h.acknowledged
  case inFlight => exact hflight h.inFlight
  case inProgress =>
    rw [hst']
    rfl
  case finished =>
    intro hstage
    rw [hst'] at hstage
    cases hstage

variable {requestId : ℕ}

theorem acknowledge (h : Occupant occ s)
    (hst' : s'.pendingFile.status = .inProgress ⟨.sending, data⟩)
    (hid : s'.pendingFile.id = s.pendingFile.id)
    (hm : s.sendManager.receiveAck requestId = some s'.sendManager) :
    Occupant (occ ++ [.answered (some requestId) .confirmChunk]) s' := by
  have hanswered : Occupant (occ ++ [.answered (some requestId) .confirmChunk]) s :=
    h.still (fun o ho => by rw [List.mem_singleton.mp ho]; exact ⟨rfl, rfl, rfl⟩)
      (fun held hmem => by cases List.mem_singleton.mp hmem) (.refl s)
  obtain ⟨-, hfile, htransfer⟩ := SendManager.receiveAck_frame hm
  obtain ⟨hflight, hindex⟩ := h.inFlight.receiveAck hm
  constructor
  case held =>
    rw [hid]
    exact hanswered.held
  case offered => rw [htransfer, hanswered.offered]
  case reads => rw [hfile, hanswered.reads]
  case acknowledged =>
    intro o ho c hc
    by_cases hrequest : c.1 = requestId
    · -- this is the chunk, and it was sent before
      right
      rw [hrequest]
      rcases List.mem_append.mp ho with ho | ho
      · exact List.Sublist.append (List.singleton_sublist.mpr ho) (List.Sublist.refl _)
      · rw [List.mem_singleton.mp ho] at hc
        cases hc
    · rw [hindex, AList.lookup_erase_ne hrequest]
      exact hanswered.acknowledged o ho c hc
  case inFlight => exact hflight
  case inProgress =>
    rw [hst']
    rfl
  case finished =>
    intro hstage
    rw [hst'] at hstage
    cases hstage

theorem finishReading (h : Occupant occ s)
    (hreads : (s.sendManager.file.pendingRead = none ∧ os = []) ∨
      (s.sendManager.file.pendingRead.isSome ∧ os = [.read (.ok [])])) :
    Occupant (occ ++ os) { s with sendManager := { s.sendManager with file := ⟨none⟩ } } := by
  have hcarried : ∀ o ∈ os, o.carried = none := by
    intro o ho
    rcases hreads with ⟨-, rfl⟩ | ⟨-, rfl⟩
    · cases ho
    · rw [List.mem_singleton.mp ho]
      rfl
  constructor
  case held =>
    refine h.held_append fun held hmem => ?_
    rcases hreads with ⟨-, rfl⟩ | ⟨-, rfl⟩
    · cases hmem
    · cases List.mem_singleton.mp hmem
  case offered => exact transferOf_append h.offered os
  case reads =>
    have hsame : carriedBy (occ ++ os) = carriedBy occ := by
      rw [carriedBy, List.filterMap_append, List.filterMap_eq_nil_iff.mpr hcarried,
        List.append_nil, carriedBy]
    rw [hsame]
    rcases hreads with ⟨hnone, rfl⟩ | ⟨hsome, rfl⟩
    · rw [List.append_nil, h.reads, hnone]
    · rw [readsOf, List.filterMap_append, ← readsOf, h.reads, if_pos hsome, List.append_nil]
      rfl
  case acknowledged => exact h.acknowledged_append hcarried
  case inFlight => exact h.inFlight.of_eq rfl rfl rfl rfl
  case inProgress => exact h.inProgress
  case finished =>
    intro hstage
    obtain ⟨hf, o, ho, hdone⟩ := h.finished hstage
    exact ⟨⟨rfl, hf.2⟩, o, List.mem_append_left _ ho, hdone⟩

variable {contactId : Option ContactId}

theorem done (h : Occupant occ s) (hf : Finished s.sendManager) :
    Occupant (occ ++ [.effect (.requested false contactId (.done s.sendManager.transferId)
      (some requestId))]) (s.withStatus (statusAfterDone s.pendingFile.status)) := by
  have hsame : Occupant (occ ++ [.effect (.requested false contactId
      (.done s.sendManager.transferId) (some requestId))]) s :=
    h.still (fun o ho => by rw [List.mem_singleton.mp ho]; exact ⟨rfl, rfl, rfl⟩)
      (fun held hmem => by cases List.mem_singleton.mp hmem) (.refl s)
  refine ⟨hsame.held, hsame.offered, hsame.reads, hsame.acknowledged, hsame.inFlight, ?_, ?_⟩
  · exact (transferData_statusAfterDone _).symm ▸ h.inProgress
  · intro _
    exact ⟨hf, _, List.mem_append_right _ List.mem_cons_self, rfl⟩

theorem chunk (h : Occupant occ s) {piece} {position idx : ℕ}
    (hready : s.sendManager.isReady = true) (hp : s.sendManager.file.pendingRead = some position) :
    Occupant (occ ++ [.read (.ok piece), .effect (.requested true contactId
      (.chunk ⟨s.sendManager.transferId, piece, idx⟩) (some requestId))]) { s with
        sendManager := { s.sendManager with file := ⟨some (position + piece.length)⟩ }.register
          requestId piece.length } := by
  constructor
  case held => exact h.held_append fun held hmem => by simp at hmem
  case offered => exact transferOf_append h.offered _
  case reads =>
    have hreads := h.reads
    rw [hp, if_pos Option.isSome_some, List.append_nil] at hreads
    rw [readsOf, carriedBy, List.filterMap_append, List.filterMap_append, ← readsOf, ← carriedBy,
      hreads, List.map_append]
    exact (List.append_nil _).symm
  case acknowledged =>
    intro o ho c hc
    show ((s.sendManager.chunkToIndex.insert requestId _).lookup c.1).isSome ∨ _
    by_cases hrequest : c.1 = requestId
    · left
      rw [hrequest, AList.lookup_insert]
      rfl
    · rw [AList.lookup_insert_ne hrequest]
      rcases List.mem_append.mp ho with ho | ho
      · exact (h.acknowledged o ho c hc).imp_right fun hsub =>
          hsub.trans (List.sublist_append_left _ _)
      · simp only [List.mem_cons, List.not_mem_nil, or_false] at ho
        rcases ho with rfl | rfl
        · cases hc
        · exact absurd (congrArg Prod.fst (Option.some.inj hc)).symm hrequest
  case inFlight =>
    have hfile : SendManager.InFlight
        { s.sendManager with file := ⟨some (position + piece.length)⟩ } :=
      h.inFlight.of_eq rfl rfl rfl rfl
    exact hfile.register hready requestId _
  case inProgress => exact h.inProgress
  case finished =>
    -- the reader of a file whose `Done` is awaited is at its end
    intro hstage
    cases hp.symm.trans (h.finished hstage).1.1

theorem offer {idempotent : Bool} {request transferId} {size position : ℕ}
    (hoffer : (Effect.requested idempotent contactId request (some requestId)).offerId =
      some requestId) (htransfer : request.transfer = some transferId)
    (hm : s.sendManager = .new transferId size position)
    (hst : s.pendingFile.status = .inProgress ⟨.prepared, data⟩) :
    Occupant [.effect (.requested idempotent contactId request (some requestId))] s := by
  have hcarried :
      (Observation.effect (.requested idempotent contactId request (some requestId))).carried =
        none := by
    cases request with
    | chunk => cases hoffer
    | _ => rfl
  constructor
  case held =>
    intro held hmem
    cases List.mem_singleton.mp hmem
  case offered =>
    rw [hm]
    exact htransfer
  case reads =>
    rw [hm, carriedBy, List.filterMap_cons_none hcarried]
    rfl
  case acknowledged =>
    intro o ho c hc
    rw [List.mem_singleton.mp ho, hcarried] at hc
    cases hc
  case inFlight =>
    rw [hm]
    exact .new transferId size position
  case inProgress =>
    rw [hst]
    rfl
  case finished =>
    intro hstage
    rw [hst] at hstage
    cases hstage

end Occupant

/-! ### Moves -/

/-- What is not a report needs no justification. -/
theorem ReportsSound.append (h : ReportsSound tr)
    (hos : ∀ o ∈ os, ∀ fileId, o ≠ .effect (.notified (.fileSent fileId))) :
    ReportsSound (tr ++ os) :=
  AtEvery.append h fun o ho _ fileId heq => absurd heq (hos o ho fileId)

/-- Every report so far is sound, and the past of the file in the slot is as it should be. -/
structure Accounted (v : View) : Prop where
  reports : ReportsSound v.trace
  slot : ∀ s, slotOf v.entry = some s → Occupant (occupancy v.trace) s

namespace Accounted

variable {entry entry' : Option PeerFiles} {queue : List PendingFile}

theorem new : Accounted ⟨[], none⟩ := ⟨AtEvery.nil, fun s hs => by cases hs⟩

/-- One observation that is neither a report nor an offer, a read or a chunk. -/
theorem still_single (h : Accounted ⟨tr, entry⟩) (ho : o.Still)
    (hreport : ∀ o' ∈ [o], ∀ fileId, o' ≠ .effect (.notified (.fileSent fileId)))
    (hslot : ∀ s', slotOf entry' = some s' → ∃ s, slotOf entry = some s ∧ SameTransfer s s' ∧
      ∀ held, o = .holds held → held = some s.pendingFile.id) :
    Accounted ⟨tr ++ [o], entry'⟩ := by
  have hstill : ∀ o' ∈ [o], o'.Still := List.forall_mem_singleton.mpr ho
  refine ⟨h.reports.append hreport, fun s' hs' => ?_⟩
  obtain ⟨s, hs, hsame, hheld⟩ := hslot s' hs'
  rw [occupancy_append_still hstill]
  exact (h.slot s hs).still hstill
    (fun held hmem => hheld held (List.mem_singleton.mp hmem).symm) hsame

/-- **Every move keeps the account.** -/
theorem move {u v} (h : Accounted u) (hmove : Move .any u v) : Accounted v := by
  cases hmove with
  | @keeps tr entry entry' es hneutral hslot =>
    have hstill : ∀ o ∈ es.map Observation.effect, o.Still := by
      intro o ho
      obtain ⟨e, he, rfl⟩ := List.mem_map.mp ho
      exact (hneutral e he).still
    refine ⟨h.reports.append ?_, fun s' hs' => ?_⟩
    · rintro o ho fileId rfl
      obtain ⟨e, he, heq⟩ := List.mem_map.mp ho
      cases heq
      exact hneutral _ he
    · obtain ⟨s, hs, hsame⟩ := hslot s' hs'
      rw [occupancy_append_still hstill]
      refine (h.slot s hs).still hstill (fun held hmem => ?_) hsame
      obtain ⟨e, -, heq⟩ := List.mem_map.mp hmem
      cases heq
  | @answered tr entry requestId response =>
    exact h.still_single ⟨rfl, rfl, rfl⟩ (by simp) fun s hs =>
      ⟨s, hs, .refl s, fun held hheld => by cases hheld⟩
  | @holds tr entry =>
    refine h.still_single ⟨rfl, rfl, rfl⟩ (by simp) fun s hs =>
      ⟨s, hs, .refl s, fun held hheld => ?_⟩
    rw [hs] at hheld
    exact (Observation.holds.inj hheld).symm
  | offers hentry hoffer htransfer hm hst =>
    refine ⟨h.reports.append (by simp), ?_⟩
    rintro _ ⟨⟩
    rw [occupancy, since_concat_of_pos (by rw [Observation.offerId, hoffer]; rfl)]
    exact .offer hoffer htransfer hm hst
  | @starts tr queue s s' requestId response data data' hg ha hst hst' hid hm =>
    have hanswered : Accounted ⟨tr ++ [.answered requestId response], some ⟨queue, some s⟩⟩ :=
      h.still_single ⟨rfl, rfl, rfl⟩ (by simp) fun s hs =>
        ⟨s, hs, .refl s, fun held hheld => by cases hheld⟩
    refine ⟨hanswered.reports, ?_⟩
    rintro _ ⟨⟩
    exact (hanswered.slot s rfl).start hst' hid hm
  | @acknowledges tr queue s s' requestId data data' hst hst' hid hm =>
    have hanswered : Accounted
        ⟨tr ++ [.answered (some requestId) .confirmChunk], some ⟨queue, some s'⟩⟩ := by
      refine ⟨h.reports.append (by simp), ?_⟩
      rintro _ ⟨⟩
      rw [occupancy, since_concat_of_neg rfl]
      exact (h.slot s rfl).acknowledge hst' hid hm
    exact hanswered.still_single ⟨rfl, rfl, rfl⟩ (by simp) fun s hs =>
      ⟨s, hs, .refl s, fun held hheld => by cases hheld⟩
  | @confirms tr queue s requestId data hst =>
    refine ⟨atEvery_concat.mpr ⟨h.reports.append (by simp), fun fileId heq => ?_⟩,
      fun s hs => by cases hs⟩
    cases heq
    rw [occupancy, since_concat_of_neg rfl]
    exact (h.slot s rfl).properlySent (congrArg stageOf hst) requestId
  | @ends tr reads queue s hg hreads =>
    have hnot : ∀ o ∈ reads, o.offerId = none ∧
        ∀ fileId, o ≠ .effect (.notified (.fileSent fileId)) := by
      rcases hreads with ⟨-, rfl⟩ | ⟨-, rfl⟩
      · simp
      · simp [Observation.offerId]
    refine ⟨h.reports.append fun o ho => (hnot o ho).2, ?_⟩
    rintro _ ⟨⟩
    rw [occupancy, since_append_of_neg fun o ho => by rw [(hnot o ho).1]; rfl]
    exact (h.slot s rfl).finishReading hreads
  | @finishes tr queue s requestId hg hf =>
    refine ⟨h.reports.append (by simp), ?_⟩
    rintro _ ⟨⟩
    rw [occupancy, since_concat_of_neg rfl]
    exact (h.slot s rfl).done hf
  | @sends tr queue s piece position requestId hg hready hp hpiece =>
    rw [List.append_assoc, List.singleton_append]
    refine ⟨h.reports.append (by simp), ?_⟩
    rintro _ ⟨⟩
    rw [occupancy, since_append_of_neg (by simp [Observation.offerId, Effect.offerId])]
    exact (h.slot s rfl).chunk hready hp
  | fails result => exact ⟨h.reports.append (by simp), fun s hs => by cases hs⟩
  | @stuck tr queue s s' result hst hst' =>
    -- files in the slot are in progress
    have hin := (h.slot s rfl).inProgress
    rw [hst] at hin
    cases hin

end Accounted

/-! ### Runs -/

/-- **Reports are sound.** Whenever a file is reported as sent, in whichever run: in the occupancy
of the slot up to the report the reader has reached the end of the file without error, every chunk
that it handed out was sent and then acknowledged with `ConfirmChunk` for its request, `Done` for
the transfer was sent, and then a `ConfirmDone` was processed. -/
theorem sent_soundly {events : List (Event × Env)} {w : Watched}
    (hrun : Run Watched.step (fun _ _ => True) .new events w) (peer : PeerId) :
    ReportsSound (w.trace peer) := by
  have hmeets : ∀ {w : Watched} {e : Event × Env}, True → w.Meets .any e := fun _ =>
    Watched.meets_any _ _
  exact (Watched.invariant (I := Accounted) hmeets .new Accounted.move hrun peer).reports

/-- The report at the end of a transfer. -/
theorem sent_soundly_whole : ∃ w, Run Watched.step (fun _ _ => True) .new wholeTransfer w ∧
    .effect (.notified (.fileSent ⟨"file"⟩)) ∈ w.trace ⟨"peer"⟩ ∧
    ReportsSound (w.trace ⟨"peer"⟩) := by
  exact Run.exists_and Run.get_runFrom fun hrun => ⟨by decide, sent_soundly hrun ⟨"peer"⟩⟩

end FileTracker

end Fyles
