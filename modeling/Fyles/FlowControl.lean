import Fyles.FileIntegrity
import Fyles.Reassembly
import Fyles.SenderWindow

/-!
# Both windows of a transfer

The sender's window of `SenderWindow` and the receiver's window of `Reassembly`, for one transfer
that is not interrupted. Neither side knows the other's window. The messages between them may be
delayed and overtake each other, and a chunk may arrive more than once.

## Why the windows fit

A chunk is acknowledged only after it was put into the receiver's ring, so the chunks that were
acknowledged are among those that have arrived, and the least chunk that was not acknowledged is not
above the least that has not arrived. The sender's window starts at the one and the receiver's at
the other, and they are equally wide: whatever was sent is not above the receiver's window. This
ends when the upper end of the receiver's window, a `u32`, wraps: from then on every chunk is above
it.

The chunks are pieces of the file, one behind the other, so the chunks that were written are a
beginning of the file and never exceed its size. When the sender is done all chunks have arrived,
and all bytes were counted.

## Main results

* `Flow.Invariant.delivers` — the receiver confirms every chunk
* `Flow.Invariant.concludes` — the receiver confirms the first `Done`
* `Flow.windows_fit` — so the answers of the receiver are as they should be, for fewer than
  `2 ^ 32 - 8` chunks
* `Flow.window_end_wraps` — with as many, a chunk is refused
* `Flow.can_complete` — and the transfer can be completed
-/

namespace Fyles

open ReplayWindow ReceiveManager FileIntegrity PartFiles

/-! ### What the file does not matter for -/

namespace ReceiveManager

/-- What was in the part file before does not matter for the verdict and the transfer. -/
theorem writeInOrder_bytes (write : ℕ → WriteOutcome) (rounds : ℕ) (m : ReceiveManager)
    (bytes bytes' : List UInt8) :
    (m.writeInOrder write rounds bytes).1 = (m.writeInOrder write rounds bytes').1 ∧
      (m.writeInOrder write rounds bytes).2.1 = (m.writeInOrder write rounds bytes').2.1 := by
  induction rounds generalizing m bytes bytes' with
  | zero => exact ⟨rfl, rfl⟩
  | succ rounds ih =>
    rw [writeInOrder, writeInOrder]
    split
    · dsimp only
      split
      · exact ⟨rfl, rfl⟩
      · split
        · exact ⟨rfl, rfl⟩
        · exact ih _ _ _
        · exact ih _ _ _
    · exact ⟨rfl, rfl⟩

theorem store_bytes (m : ReceiveManager) (write : ℕ → WriteOutcome) (c : DataChunk)
    (bytes bytes' : List UInt8) :
    (m.store write c bytes).1 = (m.store write c bytes').1 ∧
      (m.store write c bytes).2.1 = (m.store write c bytes').2.1 := by
  rw [store, store]
  split
  · exact ⟨rfl, rfl⟩
  · split
    · exact ⟨rfl, rfl⟩
    · dsimp only
      split
      · exact writeInOrder_bytes _ _ _ _ _
      · exact ⟨rfl, rfl⟩

theorem Gathers.mem_keep {m c c' stored} (h : c' ∈ Gathers.keep m c stored) :
    c' = c ∨ c' ∈ stored := by
  rw [Gathers.keep] at h
  split at h
  · exact .inr h
  · exact List.mem_cons.mp h

/-- What has arrived before is still there, or was replaced. -/
theorem Gathers.latest_keep {m stored} {i : ℕ} (h : (latest stored i).isSome) (c : DataChunk) :
    (latest (Gathers.keep m c stored) i).isSome := by
  rw [Gathers.keep]
  split
  · exact h
  · rw [latest_cons]
    by_cases hi : i = c.idx
    · rw [hi, Function.update_self]
      rfl
    · rwa [Function.update_of_ne hi]

/-- The chunk itself has arrived, or was written before. -/
theorem Gathers.latest_keep_self {m stored}
    (hbelow : ∀ i < m.earliestNotReceived, (latest stored i).isSome) (c : DataChunk) :
    (latest (Gathers.keep m c stored) c.idx).isSome := by
  rw [Gathers.keep]
  split
  · next hlow => exact hbelow _ hlow
  · rw [latest_cons, Function.update_self]
    rfl

end ReceiveManager

/-! ### Both sides -/

/-- A transfer that was accepted. -/
structure Flow where
  sender : SenderRun ℕ
  /-- Whether `send_next_chunk` has returned `Done`, so that the sender has sent `Done`. -/
  finished : Bool
  receiver : FilerequestReceiver
  /-- The chunks that the receiver has confirmed. -/
  confirmed : Finset ℕ
  chunkAnswers : List FileResponse
  doneAnswers : List FileResponse

namespace Flow

/-- What can happen. -/
inductive Event
  | send (bytes : List UInt8) (id : ℕ)
  /-- The receiver handles a chunk that was sent. -/
  | deliver (i : ℕ) (env : ReceiverEnv)
  /-- The sender handles the confirmation of a chunk. -/
  | ack (i : ℕ)
  | done (env : ReceiverEnv)

variable (path : PathOf) (T : Transfer)

/-- The receiver handles `NewTransfer`. -/
def offer (env : ReceiverEnv) (r : FilerequestReceiver) : Reply :=
  respondTo path env T.nodeId T.contactId
    (.newTransfer T.filerequestId T.fileName T.source.length T.transferId) r

/-- The receiver has accepted the transfer, and the sender starts. -/
def start (r : FilerequestReceiver) : Flow :=
  ⟨.start T.transferId T.source.length .new, false, r, ∅, [], []⟩

/-- Sending is done. -/
def isDone : Option (SendRes ℕ) → Bool
  | some .done => true
  | _ => false

/-- One step. -/
def step (f : Flow) : Event → Option Flow
  | .send bytes id =>
    (f.sender.step T.source (.sendNextChunk bytes id)).map fun sender =>
      { f with sender := sender, finished := f.finished || isDone sender.result }
  | .deliver i env =>
    f.sender.outgoing.pieces[i]?.map fun piece =>
      let reply := respondTo path env T.nodeId T.contactId (.chunk ⟨T.transferId, piece, i⟩)
        f.receiver
      { f with
        receiver := reply.receiver
        confirmed := if reply.response = .confirmChunk then insert i f.confirmed else f.confirmed
        chunkAnswers := f.chunkAnswers ++ [reply.response] }
  | .ack i =>
    if i ∈ f.confirmed then
      (f.sender.step T.source (.receiveAck i)).map fun sender => { f with sender := sender }
    else none
  | .done env =>
    if f.finished then
      let reply := respondTo path env T.nodeId T.contactId (.done T.transferId) f.receiver
      some { f with
        receiver := reply.receiver
        doneAnswers := f.doneAnswers ++ [reply.response] }
    else none

/-- Nothing fails on the receiver's side. -/
structure Works (env : ReceiverEnv) : Prop where
  write : ∀ i, env.write i = .completed
  clock : env.unixEpochMillis.isSome
  /-- The part file can be moved. -/
  finalizes : env.finalizesPartFile.isSome
  /-- The brain can record the file. -/
  stores : env.storesReceivedFile = true

/-- The requests under way are different, and a chunk is acknowledged once. -/
def Honest (f : Flow) : Event → Prop
  | .send bytes id => f.sender.Honest (.sendNextChunk bytes id)
  | .ack i => f.sender.Honest (.receiveAck i)
  | .deliver _ _ | .done _ => True

instance (f : Flow) (e : Event) : Decidable (f.Honest e) := by
  rw [Honest.eq_def]
  split <;> infer_instance

/-- There are no errors. -/
def NoErrors (f : Flow) (e : Event) : Prop :=
  f.Honest e ∧ match e with
    | .deliver _ env | .done env => Works env
    | .send _ _ | .ack _ => True

/-- The upper end of the receiver's window does not wrap when a chunk arrives. -/
def Fits (f : Flow) : Event → Prop
  | .deliver _ _ => ∀ m, f.receiver.receiving = some m →
    m.earliestNotReceived + parallelChunks < 2 ^ 32
  | .send _ _ | .ack _ | .done _ => True

/-! ### What every step keeps -/

/-- The receiver has the transfer in memory, and its chunks are pieces of what was sent. -/
structure Receives (pieces : List (List UInt8)) (confirmed : Finset ℕ) (r : FilerequestReceiver)
    (m : ReceiveManager) (stored : List DataChunk) : Prop where
  receiving : r.receiving = some m
  transfer : m.transferId = T.transferId
  contact : m.contactId = T.contactId
  declares : m.declaredFileSizeBytes = T.source.length
  /-- The state follows from the chunks that have arrived. -/
  gathers : Gathers stored [] 0 m.earliestNotReceived m (gathered stored m.earliestNotReceived)
  /-- The lowest index of the window has no chunk. -/
  missing : latest stored m.earliestNotReceived = none
  sent : ∀ c ∈ stored, pieces[c.idx]? = some c.data
  /-- What was confirmed has arrived. -/
  arrived : ∀ i ∈ confirmed, (latest stored i).isSome

/-- What every step keeps. -/
structure Invariant (f : Flow) : Prop where
  sender : SenderRun.Invariant T.source 0 0 f.sender
  /-- Only what was confirmed is acknowledged. -/
  acknowledged : f.sender.outgoing.acknowledged ⊆ f.confirmed
  /-- The receiver. Its part file has its name until `Done` is handled. -/
  receiver : ∃ m stored, Receives T f.sender.outgoing.pieces f.confirmed f.receiver m stored ∧
    ∃ name, path m.startedAtMs T.transferId T.nodeId T.contactId = some name ∧
      (f.doneAnswers = [] → (f.receiver.parts.lookup name).isSome)
  /-- A sender that is done reads no more, and all it has sent was acknowledged. -/
  finished : f.finished = true → f.sender.manager.file.pendingRead = none ∧
    ∀ i < f.sender.outgoing.pieces.length, i ∈ f.sender.outgoing.acknowledged
  chunks : ∀ a ∈ f.chunkAnswers, a = .confirmChunk
  done : ∀ a, f.doneAnswers.head? = some a → a = .confirmDone

variable {path T}

namespace Receives

variable {pieces : List (List UInt8)} {confirmed : Finset ℕ} {r : FilerequestReceiver}
  {m : ReceiveManager} {stored : List DataChunk}

theorem new {file : ℕ} {startedAtMs : ℤ} (hr : r.receiving = some (.new file T.source.length
    T.fileName T.transferId T.filerequestId T.contactId startedAtMs)) :
    Receives T [] ∅ r (.new file T.source.length T.fileName T.transferId T.filerequestId T.contactId
      startedAtMs) [] := by
  refine ⟨hr, rfl, rfl, rfl, ?_, rfl, nofun, nofun⟩
  exact Gathers.begin (m := .new file T.source.length T.fileName T.transferId T.filerequestId
    T.contactId startedAtMs) rfl rfl

theorem more (h : Receives T pieces confirmed r m stored) (more : List (List UInt8)) :
    Receives T (pieces ++ more) confirmed r m stored where
  __ := h
  sent c hc := by
    have hpiece := h.sent c hc
    rwa [List.getElem?_append_left (List.getElem?_eq_some_iff.mp hpiece).1]

/-- Only the transfer in memory matters. -/
theorem of_receiving (h : Receives T pieces confirmed r m stored) {r'}
    (hr' : r'.receiving = r.receiving) : Receives T pieces confirmed r' m stored :=
  ⟨hr'.trans h.receiving, h.transfer, h.contact, h.declares, h.gathers, h.missing, h.sent,
    h.arrived⟩

theorem gathered_eq {n : ℕ} (hsent : ∀ c ∈ stored, pieces[c.idx]? = some c.data)
    (hstored : ∀ i < n, (latest stored i).isSome) :
    gathered stored n = (pieces.take n).flatten := by
  induction n with
  | zero => rfl
  | succ n ih =>
    obtain ⟨c, hc⟩ := Option.isSome_iff_exists.mp (hstored n (Nat.lt_succ_self n))
    obtain ⟨rfl, hmem⟩ := idx_of_latest hc
    rw [gathered_succ hc, ih fun i hi => hstored i (Nat.lt_succ_of_lt hi),
      Assembles.take_succ_flatten (hsent c hmem)]

/-- **The windows fit**: the sender's window does not start above the receiver's. -/
theorem leastMissing_le {acknowledged} (h : Receives T pieces confirmed r m stored)
    (hack : acknowledged ⊆ confirmed) : leastMissing acknowledged ≤ m.earliestNotReceived := by
  refine ReplayWindow.leastMissing_le fun hmem => ?_
  have harrived := h.arrived _ (hack hmem)
  rw [h.missing] at harrived
  cases harrived

/-- The receiver's window does not start above what was sent. -/
theorem earliest_le (h : Receives T pieces confirmed r m stored) :
    m.earliestNotReceived ≤ pieces.length := by
  refine Nat.le_of_not_lt fun hlt => ?_
  obtain ⟨c, hc⟩ := Option.isSome_iff_exists.mp (h.gathers.below _ hlt)
  obtain ⟨hidx, hmem⟩ := idx_of_latest hc
  exact absurd (List.getElem?_eq_some_iff.mp (h.sent c hmem)).1 (hidx ▸ Nat.lt_irrefl _)

/-- The bytes of the first pieces are no more than the file has. -/
theorem length_take_le (hreads : pieces.flatten <+: T.source) (n : ℕ) :
    (pieces.take n).flatten.length ≤ T.source.length := by
  refine Nat.le_trans ?_ hreads.length_le
  have hsplit : pieces.flatten = (pieces.take n).flatten ++ (pieces.drop n).flatten := by
    rw [← List.flatten_append, List.take_append_drop]
  rw [hsplit, List.length_append]
  exact Nat.le_add_right _ _

/-- **A chunk is received**, and the transfer goes on. -/
theorem store {i : ℕ} {piece} {outcome : ℕ → WriteOutcome}
    (h : Receives T pieces confirmed r m stored)
    (hpiece : pieces[i]? = some piece) (hwindow : i < m.earliestNotReceived + parallelChunks)
    (hfits : m.earliestNotReceived + parallelChunks < 2 ^ 32)
    (hreads : pieces.flatten <+: T.source) (hwrite : ∀ i, outcome i = .completed)
    (bytes : List UInt8) :
    ∃ m' bytes', m.store outcome ⟨T.transferId, piece, i⟩ bytes = (.received, m', bytes') ∧
      m'.startedAtMs = m.startedAtMs ∧
      ∃ stored', ∀ r' : FilerequestReceiver, r'.receiving = some m' →
        Receives T pieces (insert i confirmed) r' m' stored' := by
  -- the verdict is that for a file with nothing but what was gathered
  obtain ⟨hverdict, hmanager⟩ := m.store_bytes outcome ⟨T.transferId, piece, i⟩ bytes
    (gathered stored m.earliestNotReceived)
  have hheader := m.store_header outcome ⟨T.transferId, piece, i⟩
    (gathered stored m.earliestNotReceived)
  have hkeep : ∀ c' ∈ Gathers.keep m ⟨T.transferId, piece, i⟩ stored,
      pieces[c'.idx]? = some c'.data := by
    intro c' hc'
    rcases Gathers.mem_keep hc' with rfl | hc'
    · exact hpiece
    · exact h.sent c' hc'
  have hcompletes : Completes outcome := fun i _ hlost => by
    rw [hwrite i] at hlost
    cases hlost
  obtain ⟨hhigh, -⟩ | ⟨-, hdrained⟩ :=
    h.gathers.store hcompletes h.missing ⟨T.transferId, piece, i⟩
  · rw [Nat.mod_eq_of_lt hfits] at hhigh
    exact absurd hwindow (Nat.not_lt_of_le hhigh)
  · generalize m.store outcome ⟨T.transferId, piece, i⟩
      (gathered stored m.earliestNotReceived) = result at *
    cases hdrained with
    | exceeded k hstored hexceeded =>
      rw [gathered_eq hkeep fun j hj => hstored j (Nat.le_of_lt_succ hj), h.declares,
        Nat.zero_add] at hexceeded
      exact absurd hexceeded (Nat.not_lt_of_le (length_take_le hreads _))
    | failed j n hfailed =>
      rw [hwrite j] at hfailed
      cases hfailed
    | @received m' bytes' lo' hle hmissing hgathers hlimit =>
      refine ⟨m', (m.store outcome ⟨T.transferId, piece, i⟩ bytes).2.2,
        Prod.ext hverdict (Prod.ext hmanager rfl), congrArg (fun x => x.2.2.2.2.2.2) hheader,
        Gathers.keep m ⟨T.transferId, piece, i⟩ stored, fun r' hr' => ?_⟩
      obtain rfl := hgathers.earliest
      have hwritten : bytes' = gathered _ m'.earliestNotReceived := hgathers.written
      refine ⟨hr', ?_, ?_, ?_, hwritten ▸ hgathers, hmissing, hkeep, fun j hj => ?_⟩
      · exact (congrArg (fun x => x.2.2.2.1) hheader).trans h.transfer
      · exact (congrArg (fun x => x.2.2.2.2.2.1) hheader).trans h.contact
      · exact (congrArg Prod.fst hheader).trans h.declares
      · rcases Finset.mem_insert.mp hj with rfl | hj
        · exact Gathers.latest_keep_self h.gathers.below _
        · exact Gathers.latest_keep (h.arrived j hj) _

/-- When the sender is done, all bytes were counted. -/
theorem byteProgress_eq {acknowledged} (h : Receives T pieces confirmed r m stored)
    (hack : acknowledged ⊆ confirmed) (hall : ∀ i < pieces.length, i ∈ acknowledged)
    (hread : pieces.flatten = T.source) : m.byteProgress = m.declaredFileSizeBytes := by
  have hlow : pieces.length ≤ m.earliestNotReceived := by
    refine Nat.le_of_not_lt fun hlt => ?_
    have harrived := h.arrived _ (hack (hall _ hlt))
    rw [h.missing] at harrived
    cases harrived
  rw [h.gathers.progress, gathered_eq h.sent h.gathers.below,
    List.take_of_length_le hlow, hread, h.declares, Nat.zero_add]

/-- **`Done` for a transfer that is complete.** It stays in memory; if the part file is there, it is
moved and the transfer confirmed. -/
theorem done_of_complete (h : Receives T pieces confirmed r m stored)
    (hprogress : m.byteProgress = m.declaredFileSizeBytes) {name : String}
    (hname : path m.startedAtMs T.transferId T.nodeId T.contactId = some name) {env}
    (henv : Works env) :
    (PartFiles.done path env T.nodeId T.contactId T.transferId r).receiver.receiving =
      r.receiving ∧
    ((r.parts.lookup name).isSome →
      (PartFiles.done path env T.nodeId T.contactId T.transferId r).response = .confirmDone) := by
  obtain ⟨now, hnow⟩ := Option.isSome_iff_exists.mp henv.clock
  obtain ⟨final, hfinal⟩ := Option.isSome_iff_exists.mp henv.finalizes
  rw [PartFiles.done, h.receiving]
  dsimp only
  rw [if_neg (not_not.mpr h.transfer), if_neg (not_not.mpr hprogress), finalizePartialFile, hfinal,
    hname, hnow, Option.bind_some, Option.bind_some]
  cases hfile : r.parts.lookup name with
  | none => exact ⟨h.receiving, by simp⟩
  | some file => exact ⟨h.receiving, fun _ => if_pos henv.stores⟩

end Receives

namespace Invariant

variable {f f' : Flow} {env : ReceiverEnv}

/-- As long as few chunks were sent, the end of the receiver's window does not wrap. -/
theorem fits (h : Invariant path T f) (hfew : f.sender.outgoing.pieces.length < 2 ^ 32 - 8)
    (e : Event) : f.Fits e := by
  cases e with
  | deliver i env =>
    intro m hm
    obtain ⟨m', stored, hm', -⟩ := h.receiver
    obtain rfl : m = m' := Option.mem_unique hm hm'.receiving
    have hle := hm'.earliest_le
    rw [parallelChunks]
    omega
  | _ => trivial

/-- **Every chunk is confirmed.** -/
theorem delivers (h : Invariant path T f) {i : ℕ} {piece}
    (hpiece : f.sender.outgoing.pieces[i]? = some piece) (henv : Works env)
    (hfits : f.Fits (.deliver i env))
    (hstep : f.step path T (.deliver i env) = some f') : Invariant path T f' := by
  obtain ⟨m, stored, hm, name, hname, hpart⟩ := h.receiver
  have hwindow : i < m.earliestNotReceived + parallelChunks := by
    have hsent := (List.getElem?_eq_some_iff.mp hpiece).1
    have hupper := h.sender.describes.upper
    have hle := hm.leastMissing_le h.acknowledged
    omega
  obtain ⟨m', bytes', hstore, hstarted, stored', hm'⟩ := hm.store hpiece hwindow
    (hfits m hm.receiving) h.sender.reads henv.write (f.receiver.bytesOf m.file)
  have hreply : respondTo path env T.nodeId T.contactId (.chunk ⟨T.transferId, piece, i⟩)
      f.receiver = PartFiles.chunk env T.nodeId T.contactId ⟨T.transferId, piece, i⟩ f.receiver :=
    rfl
  rw [PartFiles.chunk, hm.receiving] at hreply
  dsimp only at hreply
  rw [if_neg (not_not.mpr hm.transfer.symm), if_neg (not_not.mpr hm.contact.symm), hstore] at hreply
  rw [step, hpiece, Option.map_some, hreply] at hstep
  obtain ⟨⟩ := hstep
  dsimp only
  constructor
  case sender => exact h.sender
  case acknowledged => exact h.acknowledged.trans (Finset.subset_insert i _)
  case receiver => exact ⟨m', stored', hm' _ rfl, name, hstarted ▸ hname, hpart⟩
  case finished => exact h.finished
  case chunks =>
    intro a ha
    rcases List.mem_append.mp ha with ha | ha
    · exact h.chunks a ha
    · exact List.mem_singleton.mp ha
  case done => exact h.done

/-- **The first `Done` is confirmed.** -/
theorem concludes (h : Invariant path T f) (henv : Works env)
    (hstep : f.step path T (.done env) = some f') : Invariant path T f' := by
  obtain ⟨m, stored, hm, name, hname, hpart⟩ := h.receiver
  rw [step] at hstep
  split at hstep
  case isFalse => cases hstep
  case isTrue hfinished =>
    obtain ⟨⟩ := hstep
    obtain ⟨hpending, hall⟩ := h.finished hfinished
    have hprogress := hm.byteProgress_eq h.acknowledged hall (h.sender.exhausted hpending)
    obtain ⟨hreceiving, hconfirm⟩ := hm.done_of_complete hprogress hname henv
    constructor
    case sender => exact h.sender
    case acknowledged => exact h.acknowledged
    case receiver =>
      refine ⟨m, stored, hm.of_receiving hreceiving, name, hname, fun hnil => ?_⟩
      exact absurd (List.append_eq_nil_iff.mp hnil).2 (List.cons_ne_nil _ _)
    case finished => exact h.finished
    case chunks => exact h.chunks
    case done =>
      intro a ha
      cases hanswers : f.doneAnswers with
      | nil =>
        rw [hanswers] at ha
        exact (Option.some.inj ha).symm.trans (hconfirm (hpart hanswers))
      | cons b bs =>
        exact h.done a (hanswers ▸ ha)

theorem start {r} (haccept : (offer path T env r).response = .acceptNewTransfer) :
    Invariant path T (Flow.start T (offer path T env r).receiver) := by
  revert haccept
  show (newTransfer path env T.nodeId T.contactId T.filerequestId T.fileName T.source.length
      T.transferId r).response = _ → Invariant path T (Flow.start T (newTransfer path env T.nodeId
      T.contactId T.filerequestId T.fileName T.source.length T.transferId r).receiver)
  rw [newTransfer]
  split
  · rintro ⟨⟩
  · split
    · rintro ⟨⟩
    · split
      · rintro ⟨⟩
      · next hopened =>
        obtain ⟨name, hname, hopen⟩ := getPartialFileForWriting_eq_some hopened
        split
        · rintro ⟨⟩
        · intro _
          refine ⟨SenderRun.Invariant.start _ _ _ .new, Finset.empty_subset _,
            ⟨_, [], .new rfl, name, hname, fun _ => ?_⟩, by simp [Flow.start],
            by simp [Flow.start], by simp [Flow.start]⟩
          have hlookup := FilerequestReceiver.lookup_openPart r name
          rw [hopen] at hlookup
          exact Option.isSome_of_eq_some hlookup

theorem send (h : Invariant path T f) {bytes} {id : ℕ} (hok : f.NoErrors (.send bytes id))
    (hstep : f.step path T (.send bytes id) = some f') : Invariant path T f' := by
  obtain ⟨sender, hsender, rfl⟩ := Option.map_eq_some_iff.mp hstep
  have hinv := h.sender.sendNextChunk hok.1 hsender
  obtain ⟨m, stored, hm, hpart⟩ := h.receiver
  obtain ⟨-, hattempt⟩ := SenderRun.attempted_of_step hsender
  -- a sender that is done now has returned `Done` before, or returns it at the end of the file
  have hdone : isDone sender.result = true → sender.manager.file.pendingRead = none ∧
      ∀ i < sender.outgoing.pieces.length, i ∈ sender.outgoing.acknowledged := by
    intro hresult
    have hreturned : sender.result = some .done := by
      rw [isDone.eq_def] at hresult
      split at hresult
      · assumption
      · cases hresult
    obtain ⟨hempty, hpending⟩ := hinv.done hreturned
    exact ⟨hpending, hinv.describes.all_acknowledged hempty⟩
  have hfinished : f.finished = true → sender.manager.file.pendingRead = none ∧
      ∀ i < sender.outgoing.pieces.length, i ∈ sender.outgoing.acknowledged := by
    intro hbefore
    obtain ⟨hpending, hall⟩ := h.finished hbefore
    cases hattempt with
    | full => exact ⟨hpending, hall⟩
    | atEnd => exact ⟨rfl, hall⟩
    | piece p _ hp => cases hpending.symm.trans hp
  constructor
  case sender => exact hinv
  case acknowledged =>
    cases hattempt with
    | full => exact h.acknowledged
    | atEnd => exact h.acknowledged
    | piece => exact h.acknowledged
  case receiver =>
    refine ⟨m, stored, ?_, hpart⟩
    cases hattempt with
    | full => exact hm
    | atEnd => exact hm
    | piece => exact hm.more [bytes]
  case finished => exact fun hor => (Bool.or_eq_true_iff.mp hor).elim hfinished hdone
  case chunks => exact h.chunks
  case done => exact h.done

theorem ack (h : Invariant path T f) {i : ℕ} (hok : f.NoErrors (.ack i))
    (hstep : f.step path T (.ack i) = some f') : Invariant path T f' := by
  rw [step] at hstep
  split at hstep
  case isFalse => cases hstep
  case isTrue hconfirmed =>
    obtain ⟨sender, hsender, rfl⟩ := Option.map_eq_some_iff.mp hstep
    have hinv := h.sender.receiveAck hok.1 hsender
    obtain ⟨manager, hmanager, rfl⟩ := Option.map_eq_some_iff.mp hsender
    obtain ⟨id, -, hack⟩ := Option.bind_eq_some_iff.mp hmanager
    refine ⟨hinv, Finset.insert_subset hconfirmed h.acknowledged, h.receiver, fun hfinished => ?_,
      h.chunks, h.done⟩
    obtain ⟨hpending, hall⟩ := h.finished hfinished
    refine ⟨?_, fun j hj => Finset.mem_insert_of_mem (hall j hj)⟩
    rwa [(SendManager.receiveAck_frame hack).2.1]

/-- **One step.** -/
theorem step {e} (h : Invariant path T f) (hok : f.NoErrors e) (hfits : f.Fits e)
    (hstep : f.step path T e = some f') : Invariant path T f' := by
  cases e with
  | send bytes id => exact h.send hok hstep
  | deliver i env =>
    obtain ⟨piece, hpiece, -⟩ := Option.map_eq_some_iff.mp hstep
    exact h.delivers hpiece hok.2 hfits hstep
  | ack i => exact h.ack hok hstep
  | done env => exact h.concludes hok.2 hstep

end Invariant

variable {f f₁ f₂ : Flow} {env : ReceiverEnv}

/-- Without errors, `f` can become `f'`. -/
def Leads (path : PathOf) (T : Transfer) (f f' : Flow) : Prop :=
  (∃ events, Run (step path T) NoErrors f events f') ∧ Invariant path T f'

namespace Leads

theorem snoc {e} (h : Leads path T f f₁) (hok : f₁.NoErrors e) (hfits : f₁.Fits e)
    (hstep : f₁.step path T e = some f₂) : Leads path T f f₂ := by
  obtain ⟨⟨events, hrun⟩, hinv⟩ := h
  exact ⟨⟨_, hrun.snoc hok hstep⟩, hinv.step hok hfits hstep⟩

/-- A chunk can be delivered and acknowledged. -/
theorem acknowledge (h : Leads path T f f₁) (henv : Works env) {i : ℕ}
    (hfits : f₁.Fits (.deliver i env)) (hi : i < f₁.sender.outgoing.pieces.length) :
    ∃ f', Leads path T f f' ∧ f'.sender.outgoing.pieces = f₁.sender.outgoing.pieces ∧
      f'.sender.outgoing.acknowledged = insert i f₁.sender.outgoing.acknowledged := by
  by_cases hnot : i ∈ f₁.sender.outgoing.acknowledged
  · exact ⟨f₁, h, rfl, (Finset.insert_eq_of_mem hnot).symm⟩
  obtain ⟨f₂, hdeliver, hsender, a, ha, hconfirms⟩ : ∃ f₂,
      f₁.step path T (.deliver i env) = some f₂ ∧ f₂.sender = f₁.sender ∧
      ∃ a ∈ f₂.chunkAnswers, a = .confirmChunk → i ∈ f₂.confirmed := by
    rw [step, List.getElem?_eq_getElem hi]
    refine ⟨_, rfl, rfl, _, List.mem_append_right _ (List.mem_singleton_self _), fun ha => ?_⟩
    dsimp only
    rw [if_pos ha]
    exact Finset.mem_insert_self i _
  have h₂ := h.snoc (e := .deliver i env) ⟨trivial, henv⟩ hfits hdeliver
  have hconfirmed : i ∈ f₂.confirmed := hconfirms (h₂.2.chunks a ha)
  have hdescribes := h₂.2.sender.describes
  rw [← hsender] at hi hnot ⊢
  have hlt : i < f₂.sender.outgoing.requests.length := hdescribes.carried ▸ hi
  obtain ⟨m, hm, -⟩ := hdescribes.receiveAck ⟨List.getElem?_eq_getElem hlt, hnot⟩
  have hack : f₂.step path T (.ack i) =
      some { f₂ with sender := ⟨m, f₂.sender.outgoing.acknowledge i, none⟩ } := by
    rw [step, if_pos hconfirmed, SenderRun.step, List.getElem?_eq_getElem hlt, Option.bind_some, hm]
    rfl
  exact ⟨_, h₂.snoc (e := .ack i) ⟨⟨hlt, hnot⟩, trivial⟩ trivial hack, rfl, rfl⟩

/-- The first chunks can be acknowledged. -/
theorem settle {k : ℕ} (h : Leads path T f f₁) (henv : Works env)
    (hfew : f₁.sender.outgoing.pieces.length < 2 ^ 32 - 8)
    (hk : k ≤ f₁.sender.outgoing.pieces.length) :
    ∃ f', Leads path T f f' ∧ f'.sender.outgoing.pieces = f₁.sender.outgoing.pieces ∧
      Finset.range k ⊆ f'.sender.outgoing.acknowledged := by
  induction k with
  | zero => exact ⟨f₁, h, rfl, Finset.empty_subset _⟩
  | succ k ih =>
    obtain ⟨f₂, h₂, hpieces, hacked⟩ := ih (Nat.le_of_succ_le hk)
    obtain ⟨f₃, h₃, hpieces₃, hacked₃⟩ := h₂.acknowledge henv (h₂.2.fits (hpieces ▸ hfew) _)
      (hpieces ▸ hk)
    refine ⟨f₃, h₃, hpieces₃.trans hpieces, ?_⟩
    rw [Finset.range_add_one, hacked₃]
    exact Finset.insert_subset_insert k hacked

/-- The window is empty when all chunks were acknowledged. -/
theorem empty_of_acknowledged {m : SendManager ℕ} {o : Outgoing ℕ} {offset : ℕ}
    (h : m.Describes o offset (leastMissing o.acknowledged))
    (hall : Finset.range o.pieces.length ⊆ o.acknowledged) :
    m.earliestNotSent = m.nextSlot ∧ m.nonePending = true := by
  have hlo : leastMissing o.acknowledged = o.pieces.length := by
    refine Nat.le_antisymm h.lower (Nat.le_of_not_lt fun hlt => ?_)
    exact leastMissing_notMem _ (hall (Finset.mem_range.mpr hlt))
  refine ⟨by rw [h.earliest, h.next, hlo], List.all_eq_true.mpr fun slot hslot => ?_⟩
  obtain ⟨r, hr⟩ := List.mem_iff_getElem?.mp hslot
  obtain ⟨i, hi, -, -, rfl⟩ := h.ring.exists_index hr
  rw [Outgoing.slot_of_none (List.getElem?_eq_none (hlo ▸ hi))]

section Empty

variable (h : Leads path T f f₁)
  (hacked : Finset.range f₁.sender.outgoing.pieces.length ⊆ f₁.sender.outgoing.acknowledged)

include h hacked

/-- When all chunks were acknowledged there is room for another one, with any request. -/
theorem isReady : f₁.sender.manager.isReady = true ∧ ∀ bytes, f₁.NoErrors (.send bytes 0) := by
  have hinv := h.2.sender
  obtain ⟨hempty, -⟩ := empty_of_acknowledged hinv.describes hacked
  exact ⟨by simp [SendManager.isReady, hempty, parallelChunks], fun _ =>
    ⟨fun i hi hid => hid.2 (hacked (Finset.mem_range.mpr (hinv.describes.carried ▸ hi))), trivial⟩⟩

/-- The next bytes can be sent, up to as many as the buffer holds. -/
theorem sendPiece {k : ℕ} (hpos : 0 < k) (hk : k ≤ chunkSize)
    (hmore : f₁.sender.outgoing.pieces.flatten.length < T.source.length) :
    ∃ f' bytes, Leads path T f f' ∧ f'.receiver = f₁.receiver ∧
      f'.sender.outgoing.pieces = f₁.sender.outgoing.pieces ++ [bytes] ∧
      f'.sender.outgoing.acknowledged = f₁.sender.outgoing.acknowledged ∧
      bytes.length = min k (T.source.length - f₁.sender.outgoing.pieces.flatten.length) := by
  obtain ⟨hready, hfresh⟩ := h.isReady hacked
  have hinv := h.2.sender
  obtain ⟨p, hp⟩ : ∃ p, f₁.sender.manager.file.pendingRead = some p := by
    refine Option.ne_none_iff_exists'.mp fun hnone => ?_
    rw [hinv.exhausted hnone] at hmore
    exact Nat.lt_irrefl _ hmore
  obtain rfl : p = f₁.sender.outgoing.pieces.flatten.length := by
    rw [hinv.under p hp, Nat.zero_add]
  set p := f₁.sender.outgoing.pieces.flatten.length
  have hlength : ((T.source.drop p).take k).length = min k (T.source.length - p) := by
    rw [List.length_take, List.length_drop]
  obtain ⟨b, bs, hbytes⟩ : ∃ b bs, (T.source.drop p).take k = b :: bs :=
    List.exists_cons_of_length_pos (by omega)
  have hread : readsSource T.source f₁.sender.manager.file (.ok (b :: bs)) = true := by
    have hsize : (b :: bs).length ≤ chunkSize := by
      rw [← hbytes, hlength]
      omega
    have hinitial : (b :: bs).isPrefixOf (T.source.drop p) = true :=
      List.isPrefixOf_iff_prefix.mpr (hbytes ▸ List.take_prefix _ _)
    rw [readsSource, hp]
    dsimp only
    rw [hinitial, decide_eq_true hsize]
    rfl
  obtain ⟨f', hsend, hf'⟩ : ∃ f', f₁.step path T (.send (b :: bs) 0) = some f' ∧
      f'.receiver = f₁.receiver ∧
      f'.sender.outgoing = f₁.sender.outgoing.send (b :: bs) 0 := by
    rw [step, SenderRun.step, if_pos hread, SendManager.sendNextChunk_of_piece hready hp]
    exact ⟨_, rfl, rfl, rfl⟩
  refine ⟨f', b :: bs, h.snoc (hfresh _) trivial hsend, hf'.1, ?_, ?_, hbytes ▸ hlength⟩
  · rw [hf'.2]
    rfl
  · rw [hf'.2]
    rfl

/-- At the end of the file the sender is done. -/
theorem sendEnd (hend : T.source.length ≤ f₁.sender.outgoing.pieces.flatten.length) :
    ∃ f', Leads path T f f' ∧ f'.finished = true := by
  obtain ⟨hready, hfresh⟩ := h.isReady hacked
  have hinv := h.2.sender
  obtain ⟨hempty, hnone⟩ := empty_of_acknowledged hinv.describes hacked
  have hread : readsSource T.source f₁.sender.manager.file (.ok []) = true := by
    cases hp : f₁.sender.manager.file.pendingRead with
    | none => simp [readsSource, hp]
    | some p =>
      have hposition := hinv.under p hp
      have hle : T.source.length ≤ p := by omega
      simp [readsSource, hp, hle]
  obtain ⟨f', hsend, hfinished⟩ : ∃ f', f₁.step path T (.send [] 0) = some f' ∧
      f'.finished = true := by
    rw [step, SenderRun.step, if_pos hread, SendManager.sendNextChunk_of_end hready (.inr rfl)]
    exact ⟨_, rfl, by simp [hempty, hnone, isDone]⟩
  exact ⟨f', h.snoc (hfresh []) trivial hsend, hfinished⟩

end Empty

/-- The rest of the file can be sent, if it fits into `n` more chunks and these are not too many. -/
theorem finish {n : ℕ} (h : Leads path T f f₁) (henv : Works env)
    (hrest : T.source.length ≤ f₁.sender.outgoing.pieces.flatten.length + n * chunkSize)
    (hfew : f₁.sender.outgoing.pieces.length + n < 2 ^ 32 - 8) :
    ∃ f', Leads path T f f' ∧ f'.finished = true := by
  induction n generalizing f₁ with
  | zero =>
    obtain ⟨f₂, h₂, hpieces, hacked⟩ := h.settle henv hfew (Nat.le_refl _)
    rw [← hpieces] at hrest hacked
    exact h₂.sendEnd hacked (by omega)
  | succ n ih =>
    obtain ⟨f₂, h₂, hpieces, hacked⟩ := h.settle henv (by omega) (Nat.le_refl _)
    rw [← hpieces] at hrest hacked hfew
    by_cases hend : T.source.length ≤ f₂.sender.outgoing.pieces.flatten.length
    · exact h₂.sendEnd hacked hend
    · obtain ⟨f₃, bytes, h₃, -, hpieces₃, -, hlength⟩ := h₂.sendPiece hacked
        (by decide : 0 < chunkSize) (Nat.le_refl _) (Nat.lt_of_not_le hend)
      refine ih h₃ ?_ ?_
      · rw [hpieces₃, List.flatten_append, List.length_append, List.flatten_singleton]
        rw [Nat.succ_mul] at hrest
        omega
      · rw [hpieces₃, List.length_append, List.length_singleton]
        omega

end Leads

/-- Once `2 ^ 32 - 8` chunks have been received, whatever arrives is refused. -/
theorem refused (h : Invariant path T f) {i : ℕ}
    (hlength : f.sender.outgoing.pieces.length = 2 ^ 32 - 8)
    (hacked : Finset.range (2 ^ 32 - 8) ⊆ f.sender.outgoing.acknowledged) (hi : i < 2 ^ 32 - 8) :
    ∃ f', f.step path T (.deliver i env) = some f' ∧ .protocolViolation ∈ f'.chunkAnswers := by
  obtain ⟨m, stored, hm, -⟩ := h.receiver
  have hearliest : m.earliestNotReceived = 2 ^ 32 - 8 := by
    refine Nat.le_antisymm (hlength ▸ hm.earliest_le) (Nat.le_of_not_lt fun hlt => ?_)
    have harrived := hm.arrived _ (h.acknowledged (hacked (Finset.mem_range.mpr hlt)))
    rw [hm.missing] at harrived
    cases harrived
  have hstore : ∀ c bytes, m.store env.write c bytes = (.protocolViolation, m, bytes) := by
    intro c bytes
    rw [ReceiveManager.store, hearliest]
    exact if_pos (Nat.zero_le _)
  rw [step, List.getElem?_eq_getElem (hlength ▸ hi), Option.map_some]
  refine ⟨_, rfl, List.mem_append_right _ (List.mem_singleton.mpr ?_)⟩
  rw [respondTo, PartFiles.chunk, hm.receiving]
  dsimp only
  rw [if_neg (not_not.mpr hm.transfer.symm), if_neg (not_not.mpr hm.contact.symm), hstore]

end Flow

end Fyles
