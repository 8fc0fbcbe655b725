import Fyles.PartFiles

/-!
# Both sides of a transfer

One transfer between an honest sender and an honest receiver: the sender's window of
`Fyles.SendManager`, the receiver of `Fyles.PartFiles`, and the messages between them. The source
file does not change and a read returns a piece of it from the position of the reader on.
A chunk that was sent may be delivered at any later time, any number of times, or never; either
side may stop at any time, and the receiver may forget what it holds in memory.

## Runs of the sender

Every acceptance of the receiver (`AcceptNewTransfer`, `AcceptContinueTransfer`) starts the
numbering of chunks anew, at an offset that the acceptance names. The acceptances are numbered,
and the *run* of an acceptance consists of the chunks that the sender sends because of it. Neither
the numbers nor the runs appear in a message: a chunk carries the transfer and its index. The
receiver therefore cannot tell the chunks of two runs apart.

## Main results

* `Sends.answered`, `Sends.start`, `Sends.send` — every step keeps this
-/

namespace Fyles.FileIntegrity

open PartFiles (PathOf Reply)

/-! ### Both sides of a transfer -/

/-- What does not change while a transfer lasts. -/
structure Transfer where
  /-- The sender, as seen by the receiver. -/
  nodeId : PeerId
  /-- The contact of the sender, as seen by the receiver. -/
  contactId : Option ContactId
  /-- The file request that the transfer answers. -/
  filerequestId : FylesId
  transferId : FylesId
  fileName : String
  source : List UInt8

/-- A sender at work. -/
structure Sender where
  /-- The acceptance that it acts on; `none` if it does not act on one of this transfer. -/
  run : Option ℕ
  manager : SendManager ℕ

/-- Both sides, and the messages. -/
structure Exchange where
  receiver : FilerequestReceiver
  /-- When the transfer started, once it has been recorded. -/
  startedAtMs : Option ℤ
  offsets : List ℕ
  /-- The acceptances that the sender has not acted on, with their numbers. -/
  answers : List (ℕ × FileResponse)
  sender : Option Sender
  /-- The chunks that were sent, with their runs. -/
  sent : List (Option ℕ × DataChunk)
  nextRequestId : ℕ

/-- What can happen. -/
inductive Event
  | offer (env : ReceiverEnv)
  | askContinue (env : ReceiverEnv)
  | abort (env : ReceiverEnv)
  /-- The receiver handles one of the chunks that were sent. -/
  | chunk (k : ℕ) (env : ReceiverEnv)
  | done (env : ReceiverEnv)
  /-- The receiver forgets what it has in memory: the entry was idle for too long, was replaced by
  another transfer, or was removed. -/
  | forget
  /-- The sender acts on an acceptance. -/
  | start (k : ℕ) (result : Except IoError (List UInt8)) (seeks : Bool)
  /-- The sender starts sending because of some other response. -/
  | startOther (response : FileResponse) (result : Except IoError (List UInt8)) (seeks : Bool)
  | stop
  | send (result : Except IoError (List UInt8)) (sends : Bool)
  | ack (id : ℕ)

/-- The offset at which a response allows to go on. -/
def acceptedOffset : FileResponse → Option ℕ
  | .acceptNewTransfer => some 0
  | .acceptContinueTransfer offset => some offset
  | _ => none

/-- `CHUNK_SIZE`. -/
def chunkSize : ℕ := 512 * 1024

/-- A read of an unchanged file returns a piece of it, no longer than the buffer, which is empty at
the end only. -/
def readsSource (source : List UInt8) (reader : FileReader) : Except IoError (List UInt8) → Bool
  | .error _ => true
  | .ok bytes =>
    match reader.pendingRead with
    | none => true
    | some position =>
      bytes.isPrefixOf (source.drop position) &&
        ((bytes != [] || source.length ≤ position) && bytes.length ≤ chunkSize)

namespace Exchange

variable (path : PathOf) (T : Transfer)

/-- Nothing has happened yet. -/
def new : Exchange := ⟨.empty, none, [], [], none, [], 0⟩

/-- The receiver has answered a request of the sender. -/
def answered (w : Exchange) (reply : Reply) : Exchange :=
  match acceptedOffset reply.response with
  | some offset =>
    { w with
      receiver := reply.receiver
      offsets := w.offsets ++ [offset]
      answers := w.answers ++ [(w.offsets.length, reply.response)] }
  | none => { w with receiver := reply.receiver }

/-- The window of a sender that acts on a response. The file was opened at its start. -/
def begin (response : FileResponse) (result : Except IoError (List UInt8)) (seeks : Bool) :
    SendManager ℕ :=
  match response with
  | .acceptContinueTransfer offset =>
    (SendManager.new T.transferId T.source.length 0).setProgress result seeks offset
  | _ => .new T.transferId T.source.length 0

/-- Sending one chunk. -/
def transmit (sends : Bool) (run : Option ℕ) (c : DataChunk)
    (s : List (Option ℕ × DataChunk) × ℕ) : Option ℕ × List (Option ℕ × DataChunk) × ℕ :=
  if sends then (some s.2, s.1 ++ [(run, c)], s.2 + 1) else (none, s)

/-- Whether the sender goes on after an attempt to send a chunk. -/
def goesOn : SendRes ℕ → Bool
  | .notReady | .sent _ | .done => true
  | .ioError _ | .interrupt => false

/-- The sender after an attempt to send a chunk. -/
def sentBy (w : Exchange) (run : Option ℕ)
    (r : SendRes ℕ × SendManager ℕ × List (Option ℕ × DataChunk) × ℕ) : Exchange :=
  { w with
    sender := if goesOn r.1 then some ⟨run, r.2.1⟩ else none
    sent := r.2.2.1
    nextRequestId := r.2.2.2 }

/-- The answer to `Done`. -/
def doneReply (w : Exchange) (env : ReceiverEnv) : Reply :=
  PartFiles.done path env T.nodeId T.contactId T.transferId w.receiver

/-- One step. The brain of the receiver answers a `ContinueTransfer` from the record of the
transfer, or not at all. -/
def step (w : Exchange) : Event → Option Exchange
  | .offer env =>
    if w.startedAtMs.isSome then none
    else
      let reply := PartFiles.newTransfer path env T.nodeId T.contactId T.filerequestId T.fileName
        T.source.length T.transferId w.receiver
      some { w.answered reply with
        startedAtMs := if reply.response = .acceptNewTransfer then env.unixEpochMillis else none }
  | .askContinue env =>
    if env.continuation = none ∨
        env.continuation = w.startedAtMs.map fun t => ⟨T.fileName, T.source.length, t⟩ then
      some (w.answered (PartFiles.continueTransfer path env T.nodeId T.contactId T.filerequestId
        T.transferId w.receiver))
    else none
  | .abort env =>
    some { w with receiver := (PartFiles.abortTransfer path env T.nodeId T.contactId
      (some T.transferId) w.receiver).receiver }
  | .chunk k env =>
    w.sent[k]?.map fun c => { w with
      receiver := (PartFiles.chunk env T.nodeId T.contactId c.2 w.receiver).receiver }
  | .done env => some { w with receiver := (w.doneReply path T env).receiver }
  | .forget => some { w with receiver := { w.receiver with receiving := none } }
  | .start k result seeks =>
    w.answers[k]?.map fun a => { w with
      sender := some ⟨some a.1, begin T a.2 result seeks⟩
      answers := w.answers.eraseIdx k }
  | .startOther response result seeks =>
    some { w with sender := some ⟨none, begin T response result seeks⟩ }
  | .stop => some { w with sender := none }
  | .send result sends =>
    match w.sender with
    | none => none
    | some s =>
      if readsSource T.source s.manager.file result then
        some (w.sentBy s.run (s.manager.sendNextChunk result (transmit sends s.run)
          (w.sent, w.nextRequestId)))
      else none
  | .ack id =>
    match w.sender with
    | none => none
    | some s =>
      (s.manager.receiveAck id).map fun m => { w with sender := some { s with manager := m } }

end Exchange

/-! ### The sender -/

variable (sent : List (Option ℕ × DataChunk))

/-- The data of the chunks of a run, in the order in which they were sent. -/
def pieces (run : ℕ) : List (List UInt8) :=
  (sent.filter fun c => c.1 = some run).map fun c => c.2.data

theorem pieces_append_self (run : ℕ) (c : DataChunk) :
    pieces (sent ++ [(some run, c)]) run = pieces sent run ++ [c.data] := by
  simp [pieces]

theorem pieces_append_of_ne {run : ℕ} {run'}
    (h : run' ≠ some run) (c : DataChunk) : pieces (sent ++ [(run', c)]) run = pieces sent run := by
  simp [pieces, h]

/-- A sender that acts on an acceptance has sent the pieces of its run, and reads on behind
them. -/
structure Sending (w : Exchange) (run : ℕ) (m : SendManager ℕ) : Prop where
  /-- Nobody else acts on the acceptance. -/
  sole : run ∉ w.answers.map Prod.fst
  /-- The next chunk is the next piece. -/
  next : m.nextSlot = (pieces w.sent run).length
  /-- The reader is where the pieces end. -/
  position : ∃ offset, w.offsets[run]? = some offset ∧ ∀ p, m.file.pendingRead = some p →
    p = offset + (pieces w.sent run).flatten.length

/-- What is known about the runs. -/
structure Sends (T : Transfer) (w : Exchange) : Prop where
  /-- A run sends the source from the offset of its acceptance on. -/
  runs : ∀ run offset, w.offsets[run]? = some offset →
    (pieces w.sent run).flatten <+: T.source.drop offset
  /-- The chunks of a run are numbered. -/
  index : ∀ run c, (some run, c) ∈ w.sent → (pieces w.sent run)[c.idx]? = some c.data
  /-- There are no runs without an acceptance. -/
  fresh : ∀ run, w.offsets.length ≤ run → pieces w.sent run = []
  /-- The run of an acceptance that was not acted on is empty. -/
  answers : ∀ run response, (run, response) ∈ w.answers → pieces w.sent run = [] ∧
    ∃ offset, w.offsets[run]? = some offset ∧ acceptedOffset response = some offset
  /-- An acceptance is acted on once. -/
  once : (w.answers.map Prod.fst).Nodup
  sender : ∀ run m, w.sender = some ⟨some run, m⟩ → Sending w run m

/-- **Sending a chunk.** Either nothing is sent, and the sender stops or its reader stays where it
is or has met the end; or the bytes that were read are sent as the next chunk. -/
theorem sendNextChunk_cases (m : SendManager ℕ) (result : Except IoError (List UInt8))
    (sends : Bool) (run : Option ℕ) (sent : List (Option ℕ × DataChunk)) (id : ℕ) :
    let r := m.sendNextChunk result (Exchange.transmit sends run) (sent, id)
    (r.2.2.1 = sent ∧ (Exchange.goesOn r.1 = true → r.2.1.nextSlot = m.nextSlot ∧
      ∀ p, r.2.1.file.pendingRead = some p → m.file.pendingRead = some p)) ∨
    ∃ p data, m.file.pendingRead = some p ∧ result = .ok data ∧
      r.2.2.1 = sent ++ [(run, ⟨m.transferId, data, m.nextSlot⟩)] ∧
      r.2.1.nextSlot = m.nextSlot + 1 ∧ r.2.1.file.pendingRead = some (p + data.length) := by
  intro r
  simp only [r, SendManager.sendNextChunk]
  split
  · exact .inl ⟨rfl, fun _ => ⟨rfl, fun _ h => h⟩⟩
  · split
    · next file hread =>
      have hnone := FileReader.pendingRead_of_read_none hread
      have hkeep : ∀ p, file.pendingRead = some p → m.file.pendingRead = some p := by
        intro p hp
        rw [hnone] at hp
        cases hp
      split
      · exact .inl ⟨rfl, fun _ => ⟨rfl, hkeep⟩⟩
      · exact .inl ⟨rfl, fun _ => ⟨rfl, hkeep⟩⟩
    · exact .inl ⟨rfl, by rintro ⟨⟩⟩
    · next data file hread =>
      cases sends with
      | false => exact .inl ⟨rfl, by rintro ⟨⟩⟩
      | true =>
        rw [FileReader.read] at hread
        split at hread
        · cases hread
        · next p hp =>
          split at hread
          · cases hread
          · cases hread
          · cases hread
            exact .inr ⟨p, _, hp, rfl, rfl, rfl, rfl⟩

namespace Sends

variable {T : Transfer} {w : Exchange}

theorem new (T : Transfer) : Sends T .new where
  runs _ _ h := by cases h
  index _ _ h := by cases h
  fresh _ _ := rfl
  answers _ _ h := by cases h
  once := List.nodup_nil
  sender _ _ h := by cases h

theorem receive (h : Sends T w) (r : FilerequestReceiver) (startedAtMs : Option ℤ) :
    Sends T { w with receiver := r, startedAtMs := startedAtMs } where
  __ := h
  sender run m hm := ⟨(h.sender run m hm).sole, (h.sender run m hm).next,
    (h.sender run m hm).position⟩

theorem stop (h : Sends T w) : Sends T { w with sender := none } where
  __ := h
  sender run m hm := by cases hm

theorem resume {s} (h : Sends T { w with sender := none })
    (hs : ∀ run, s.run = some run → Sending w run s.manager) :
    Sends T { w with sender := some s } where
  __ := h
  sender run m hm := by
    obtain ⟨⟩ := hm
    exact ⟨(hs run rfl).sole, (hs run rfl).next, (hs run rfl).position⟩

theorem lt_of_answer (h : Sends T w) {run : ℕ} (hrun : run ∈ w.answers.map Prod.fst) :
    run < w.offsets.length := by
  obtain ⟨⟨run', response⟩, hmem, rfl⟩ := List.mem_map.mp hrun
  obtain ⟨-, offset, hoffset, -⟩ := h.answers run' response hmem
  exact (List.getElem?_eq_some_iff.mp hoffset).1

/-- An acceptance opens a run. -/
theorem answered (h : Sends T w) (reply : Reply) : Sends T (w.answered reply) := by
  rw [Exchange.answered]
  split
  · next offset hr =>
    have hlast : (w.offsets ++ [offset])[w.offsets.length]? = some offset := by simp
    have hold : ∀ {run o : ℕ}, w.offsets[run]? = some o →
        (w.offsets ++ [offset])[run]? = some o := by
      intro run o ho
      rw [List.getElem?_append_left (List.getElem?_eq_some_iff.mp ho).1, ho]
    have hnew : ∀ {run : ℕ}, run ∈ w.answers.map Prod.fst → run ≠ w.offsets.length := fun hrun =>
      Nat.ne_of_lt (h.lt_of_answer hrun)
    refine ⟨?_, h.index, ?_, ?_, ?_, ?_⟩
    · intro run o ho
      by_cases hrun : run < w.offsets.length
      · rw [List.getElem?_append_left hrun] at ho
        exact h.runs run o ho
      · rw [h.fresh run (Nat.le_of_not_lt hrun)]
        exact List.nil_prefix
    · intro run hrun
      rw [List.length_append] at hrun
      exact h.fresh run (Nat.le_of_succ_le hrun)
    · intro run response hmem
      rcases List.mem_append.mp hmem with hmem | hmem
      · obtain ⟨hpieces, o, ho, ha⟩ := h.answers run response hmem
        exact ⟨hpieces, o, hold ho, ha⟩
      · cases List.mem_singleton.mp hmem
        exact ⟨h.fresh _ (Nat.le_refl _), offset, hlast, hr⟩
    · rw [List.map_append, List.nodup_append]
      refine ⟨h.once, List.nodup_singleton _, fun a ha b hb => ?_⟩
      cases List.mem_singleton.mp hb
      exact hnew ha
    · intro run m hm
      obtain ⟨hsole, hnext, o, ho, hp⟩ := h.sender run m hm
      refine ⟨?_, hnext, o, hold ho, hp⟩
      rw [List.map_append, List.mem_append]
      rintro (hrun | hrun)
      · exact hsole hrun
      · cases List.mem_singleton.mp hrun
        exact Nat.lt_irrefl _ (List.getElem?_eq_some_iff.mp ho).1
  · exact h.receive reply.receiver w.startedAtMs

/-- A sender that can seek begins where the acceptance says. -/
theorem begin_position {response} {offset : ℕ} (T : Transfer) (result : Except IoError (List UInt8))
    (h : acceptedOffset response = some offset) :
    (Exchange.begin T response result true).nextSlot = 0 ∧
      (Exchange.begin T response result true).file.pendingRead = some offset := by
  cases response with
  | acceptNewTransfer =>
    obtain ⟨⟩ := h
    exact ⟨rfl, rfl⟩
  | acceptContinueTransfer o =>
    obtain ⟨⟩ := h
    exact ⟨rfl, rfl⟩
  | _ => cases h

theorem start {k : ℕ} {a} (h : Sends T w) (ha : w.answers[k]? = some a)
    (result : Except IoError (List UInt8)) : Sends T { w with
      sender := some ⟨some a.1, Exchange.begin T a.2 result true⟩
      answers := w.answers.eraseIdx k } := by
  obtain ⟨hk, hget⟩ := List.getElem?_eq_some_iff.mp ha
  have hperm : (a :: w.answers.eraseIdx k).Perm w.answers := by
    rw [← hget]
    exact List.getElem_cons_eraseIdx_perm hk
  have honce : a.1 ∉ (w.answers.eraseIdx k).map Prod.fst ∧
      ((w.answers.eraseIdx k).map Prod.fst).Nodup :=
    List.nodup_cons.mp ((hperm.map Prod.fst).nodup_iff.mpr h.once)
  obtain ⟨hempty, offset, hoffset, hresponse⟩ := h.answers a.1 a.2 (List.mem_of_getElem? ha)
  obtain ⟨hnext, hposition⟩ := begin_position T result hresponse
  refine ⟨h.runs, h.index, h.fresh, fun run response hmem => ?_, honce.2, fun run m hm => ?_⟩
  · exact h.answers run response (List.mem_of_mem_eraseIdx hmem)
  · cases hm
    refine ⟨honce.1, ?_, offset, hoffset, fun p hp => ?_⟩
    · rw [hnext, hempty, List.length_nil]
    · rw [hposition] at hp
      rw [hempty, ← Option.some.inj hp]
      rfl

theorem reid (h : Sends T w) (id : ℕ) : Sends T { w with nextRequestId := id } where
  __ := h
  sender run m hm := ⟨(h.sender run m hm).sole, (h.sender run m hm).next,
    (h.sender run m hm).position⟩

/-- **A chunk is sent.** It is the next piece of its run, or does not belong to a run. -/
theorem push {run c} (h : Sends T { w with sender := none })
    (hrun : ∀ run', run = some run' → run' ∉ w.answers.map Prod.fst ∧
      c.idx = (pieces w.sent run').length ∧ ∃ offset, w.offsets[run']? = some offset ∧
        c.data <+: T.source.drop (offset + (pieces w.sent run').flatten.length)) :
    Sends T { w with sender := none, sent := w.sent ++ [(run, c)] } := by
  refine ⟨fun run' offset ho => ?_, fun run' c' hmem => ?_, fun run' hle => ?_,
    fun run' response hmem => ?_, h.once, fun _ _ hm => by cases hm⟩
  · by_cases heq : run = some run'
    · obtain ⟨-, -, offset', ho', hdata⟩ := hrun run' heq
      obtain rfl : offset = offset' := Option.mem_unique ho ho'
      have hold : (pieces w.sent run').flatten <+: T.source.drop offset := h.runs run' offset ho
      obtain ⟨rest, hrest⟩ := hold
      have hdrop : T.source.drop (offset + (pieces w.sent run').flatten.length) = rest := by
        rw [← List.drop_drop, ← hrest, List.drop_left]
      rw [heq, pieces_append_self, List.flatten_append, ← hrest]
      rw [hdrop] at hdata
      refine (List.prefix_append_right_inj _).mpr ?_
      simpa using hdata
    · rw [pieces_append_of_ne _ heq]
      exact h.runs run' offset ho
  · rcases List.mem_append.mp hmem with hold | hnew
    · have hc := h.index run' c' hold
      by_cases heq : run = some run'
      · rw [heq, pieces_append_self, List.getElem?_append_left (List.getElem?_eq_some_iff.mp hc).1]
        exact hc
      · rw [pieces_append_of_ne _ heq]
        exact hc
    · cases List.mem_singleton.mp hnew
      rw [pieces_append_self, (hrun run' rfl).2.1]
      simp
  · have hne : run ≠ some run' := by
      intro heq
      obtain ⟨-, -, offset, ho, -⟩ := hrun run' heq
      exact absurd (List.getElem?_eq_some_iff.mp ho).1 (Nat.not_lt.mpr hle)
    rw [pieces_append_of_ne _ hne]
    exact h.fresh run' hle
  · have hne : run ≠ some run' := fun heq =>
      (hrun run' heq).1 (List.mem_map.mpr ⟨_, hmem, rfl⟩)
    rw [pieces_append_of_ne _ hne]
    exact h.answers run' response hmem

theorem send {s} (h : Sends T w) (hs : w.sender = some s) (result : Except IoError (List UInt8))
    (sends : Bool) (hread : readsSource T.source s.manager.file result = true) :
    Sends T (w.sentBy s.run (s.manager.sendNextChunk result (Exchange.transmit sends s.run)
      (w.sent, w.nextRequestId))) := by
  obtain ⟨run, m⟩ := s
  have hsending : ∀ run', run = some run' → Sending w run' m := by
    rintro run' rfl
    exact h.sender run' m hs
  rw [Exchange.sentBy]
  rcases sendNextChunk_cases m result sends run w.sent w.nextRequestId with
    ⟨hsent, hkeep⟩ | ⟨p, data, hp, rfl, hsent, hnext, hpending⟩
  · rw [hsent]
    split
    · next hgo =>
      obtain ⟨hnext, hpending⟩ := hkeep hgo
      refine (h.stop.resume fun run' hrun' => ?_).reid _
      obtain ⟨hsole, hn, offset, ho, hpos⟩ := hsending run' hrun'
      exact ⟨hsole, hnext.trans hn, offset, ho, fun p hp => hpos p (hpending p hp)⟩
    · exact h.stop.reid _
  · rw [hsent]
    have hdata : data <+: T.source.drop p := by
      rw [readsSource, hp] at hread
      exact List.isPrefixOf_iff_prefix.mp (Bool.and_eq_true_iff.mp hread).1
    have hpush : Sends T { w with
        sender := none
        sent := w.sent ++ [(run, ⟨m.transferId, data, m.nextSlot⟩)] } := by
      refine h.stop.push fun run' hrun' => ?_
      obtain ⟨hsole, hn, offset, ho, hpos⟩ := hsending run' hrun'
      exact ⟨hsole, hn, offset, ho, hpos p hp ▸ hdata⟩
    split
    · refine (resume (w := { w with
        sent := w.sent ++ [(run, ⟨m.transferId, data, m.nextSlot⟩)] }) hpush
        fun run' hrun' => ?_).reid _
      obtain rfl : run = some run' := hrun'
      obtain ⟨hsole, hn, offset, ho, hpos⟩ := hsending run' rfl
      refine ⟨hsole, ?_, offset, ho, fun q hq => ?_⟩
      · rw [pieces_append_self, List.length_append, ← hn]
        exact hnext
      · obtain rfl : p + data.length = q := Option.mem_unique hpending hq
        rw [pieces_append_self, List.flatten_append, List.length_append, hpos p hp]
        simp [Nat.add_assoc]
    · exact hpush.reid _

end Sends

end Fyles.FileIntegrity
