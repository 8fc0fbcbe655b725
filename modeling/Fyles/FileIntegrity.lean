import Fyles.FaithfulReceiver

/-!
# What arrives is what was sent

If every chunk that falls into the window of the receiver belongs to the run of the receiver's
last acceptance, and what is reported as written is in the part file, then the part file is at all
times a beginning of the source file, and a transfer that is confirmed has the bytes of the source
file. The receiver checks neither, and without them a confirmed file need not be the source: the
numbering of chunks starts anew with every acceptance, so a chunk of an earlier run that arrives
late falls into the window and is written.

## Main results

* `confirmed_done_eq_source` — a confirmed file is the source file
* `stale_chunk_is_written` — a chunk of an earlier run that arrives late ends up in the file
-/

namespace Fyles.FileIntegrity

open PartFiles (PathOf Reply readyAt unsanitized)

/-- A chunk that falls into the window of the transfer in memory is of the run of the last of the
`count` acceptances. -/
def InWindowInRun (count : ℕ) : Option (Option ℕ × DataChunk) → Option ReceiveManager → Prop
  | some (run, c), some m =>
    m.earliestNotReceived ≤ c.idx ∧ c.idx < m.earliestNotReceived + parallelChunks →
      run.map (· + 1) = some count
  | _, _ => True

instance (count : ℕ) (c m) : Decidable (InWindowInRun count c m) := by
  rw [InWindowInRun.eq_def]
  split <;> infer_instance

/-- **The chunks that are received belong to the last acceptance.** A chunk in the window of the
receiver is handled only if it is of the run of the receiver's last acceptance, and the sender can
seek in the source file. -/
def InRun (w : Exchange) : Event → Prop
  | .chunk k _ => InWindowInRun w.offsets.length w.sent[k]? w.receiver.receiving
  | .start _ _ seeks => seeks = true
  | _ => True

instance (w : Exchange) (e) : Decidable (InRun w e) := by
  rw [InRun.eq_def]
  split <;> infer_instance

/-- What the receiver is told it has written is in the part file. -/
def Event.Completes : Event → Prop
  | .chunk _ env => Fyles.Completes env.write
  | _ => True

/-! ### Both together -/

/-- The offset and the pieces of the last acceptance. -/
def Exchange.latest (w : Exchange) : Option (ℕ × List (List UInt8)) :=
  w.offsets.getLast?.map fun offset => (offset, pieces w.sent (w.offsets.length - 1))

theorem Exchange.latest_eq_some {w : Exchange} {offset : ℕ} {ps}
    (h : w.latest = some (offset, ps)) : ∃ last, w.offsets.length = last + 1 ∧
      w.offsets[last]? = some offset ∧ ps = pieces w.sent last := by
  obtain ⟨o, ho, hps⟩ := Option.map_eq_some_iff.mp h
  obtain ⟨rfl, rfl⟩ := Prod.mk.inj hps
  have hne : w.offsets ≠ [] := by
    rintro heq
    rw [heq] at ho
    cases ho
  refine ⟨w.offsets.length - 1, (Nat.sub_add_cancel (List.length_pos_iff.mpr hne)).symm, ?_, rfl⟩
  rw [← List.getLast?_eq_getElem?, ho]

/-- **The invariant.** The sender sends the source from the offset of each acceptance on, and the
receiver keeps beginnings of the source. -/
structure Sound (path : PathOf) (T : Transfer) (w : Exchange) : Prop where
  sends : Sends T w
  faithful : Faithful path T w.startedAtMs w.latest w.receiver

namespace Sound

variable {path : PathOf} {T : Transfer} {w : Exchange}

theorem new (path : PathOf) (T : Transfer) : Sound path T .new := ⟨.new T, .empty path T⟩

/-- What the last run has sent continues what the receiver had. -/
theorem latest_prefix (h : Sound path T w) {offset : ℕ} {ps : List (List UInt8)}
    (hl : w.latest = some (offset, ps)) : T.source.take offset ++ ps.flatten <+: T.source := by
  obtain ⟨last, -, ho, rfl⟩ := Exchange.latest_eq_some hl
  have hrun := h.sends.runs last offset ho
  calc T.source.take offset ++ (pieces w.sent last).flatten
      <+: T.source.take offset ++ T.source.drop offset :=
        (List.prefix_append_right_inj _).mpr hrun
    _ = T.source := List.take_append_drop offset T.source

theorem answered (h : Sound path T w) {reply : Reply} {startedAtMs}
    (hr : Faithful path T startedAtMs (Faithful.latestAfter w.latest reply.response)
      reply.receiver) : Sound path T { w.answered reply with startedAtMs := startedAtMs } := by
  refine ⟨(h.sends.answered reply).receive _ _, ?_⟩
  rw [Faithful.latestAfter] at hr
  rw [Exchange.answered]
  split
  · next offset ho =>
    rw [ho] at hr
    have hlatest : (some (offset, []) : Option (ℕ × List (List UInt8))) =
        Exchange.latest { w with offsets := w.offsets ++ [offset] } := by
      simp [Exchange.latest, h.sends.fresh w.offsets.length (Nat.le_refl _)]
    exact hlatest ▸ hr
  · next ho =>
    rw [ho] at hr
    exact hr

theorem extend {latest latest' startedAtMs r} (h : Faithful path T startedAtMs latest r)
    (hext : ∀ offset ps, latest = some (offset, ps) →
      ∃ more, latest' = some (offset, ps ++ more)) : Faithful path T startedAtMs latest' r := by
  refine ⟨h.files, h.blank, h.known, h.finished, fun m hm => ?_⟩
  have hholds := h.holds m hm
  obtain ⟨offset, ps, hl, has⟩ := hholds.assembles
  obtain ⟨more, hmore⟩ := hext offset ps hl
  exact ⟨⟨offset, _, hmore, has.append more⟩, hholds.ours, hholds.declared, hholds.recorded,
    hholds.isOpen, hholds.named⟩

theorem pieces_append (sent : List (Option ℕ × DataChunk)) (more : List (Option ℕ × DataChunk))
    (run : ℕ) : pieces (sent ++ more) run = pieces sent run ++ pieces more run := by
  simp [pieces]

theorem send {s} (h : Sound path T w) (hs : w.sender = some s)
    (result : Except IoError (List UInt8)) (sends : Bool)
    (hread : readsSource T.source s.manager.file result = true) :
    Sound path T (w.sentBy s.run (s.manager.sendNextChunk result (Exchange.transmit sends s.run)
      (w.sent, w.nextRequestId))) := by
  refine ⟨h.sends.send hs result sends hread, extend h.faithful fun offset ps hl => ?_⟩
  have hmore : ∃ more, (s.manager.sendNextChunk result (Exchange.transmit sends s.run)
      (w.sent, w.nextRequestId)).2.2.1 = w.sent ++ more := by
    rcases sendNextChunk_cases s.manager result sends s.run w.sent w.nextRequestId with
      ⟨hsent, -⟩ | ⟨p, data, -, -, hsent, -⟩
    · exact ⟨[], by rw [hsent, List.append_nil]⟩
    · exact ⟨_, hsent⟩
  obtain ⟨more, hmore⟩ := hmore
  obtain ⟨o, ho, hps⟩ := Option.map_eq_some_iff.mp hl
  obtain ⟨rfl, rfl⟩ := Prod.mk.inj hps
  refine ⟨pieces more (w.offsets.length - 1), ?_⟩
  rw [Exchange.sentBy, Exchange.latest, hmore]
  simp only [ho, Option.map_some, pieces_append]

/-- **One step.** -/
theorem step {e : Event} {w'} (h : Sound path T w) (hok : InRun w e) (hwrites : e.Completes)
    (hstep : Exchange.step path T w e = some w') : Sound path T w' := by
  cases e with
  | offer env =>
    simp only [Exchange.step] at hstep
    split at hstep
    · cases hstep
    · next hnone =>
      obtain ⟨⟩ := hstep
      have hblank : w.startedAtMs = none := by simpa using hnone
      have hfaithful := h.faithful
      rw [hblank] at hfaithful
      exact h.answered (hfaithful.newTransfer env rfl)
  | askContinue env =>
    simp only [Exchange.step] at hstep
    split at hstep
    · next hrecord =>
      obtain ⟨⟩ := hstep
      have hs : ∀ r, (w.answered r).startedAtMs = w.startedAtMs := by
        intro r
        rw [Exchange.answered]
        split <;> rfl
      have := h.answered (h.faithful.continueTransfer env hrecord)
      rwa [← hs] at this
    · cases hstep
  | abort env =>
    obtain ⟨⟩ := hstep
    exact ⟨h.sends.receive _ _, h.faithful.abortTransfer env _⟩
  | chunk k env =>
    obtain ⟨⟨run, c⟩, hk, rfl⟩ := Option.map_eq_some_iff.mp hstep
    refine ⟨h.sends.receive _ _, h.faithful.chunk env hwrites
      (fun _ _ hl => h.latest_prefix hl) ?_⟩
    rintro m offset ps hm hl hlo hhi
    obtain ⟨last, hlast, -, rfl⟩ := Exchange.latest_eq_some hl
    simp only [InRun, hk, hm, InWindowInRun] at hok
    obtain ⟨run', rfl, hrun⟩ := Option.map_eq_some_iff.mp (hok ⟨hlo, hhi⟩)
    obtain rfl : run' = last := by omega
    exact h.sends.index run' c (List.mem_of_getElem? hk)
  | done env =>
    obtain ⟨⟩ := hstep
    exact ⟨h.sends.receive _ _, (h.faithful.done env).1⟩
  | forget =>
    obtain ⟨⟩ := hstep
    exact ⟨h.sends.receive _ _, h.faithful.forget⟩
  | start k result seeks =>
    obtain rfl : seeks = true := hok
    obtain ⟨a, ha, rfl⟩ := Option.map_eq_some_iff.mp hstep
    exact ⟨h.sends.start ha result, h.faithful⟩
  | startOther response result seeks =>
    obtain ⟨⟩ := hstep
    exact ⟨h.sends.stop.resume (fun _ hrun => by cases hrun), h.faithful⟩
  | stop =>
    obtain ⟨⟩ := hstep
    exact ⟨h.sends.stop, h.faithful⟩
  | send result sends =>
    simp only [Exchange.step] at hstep
    split at hstep
    · cases hstep
    · next s hs =>
      split at hstep
      · next hread =>
        obtain ⟨⟩ := hstep
        exact h.send hs result sends hread
      · cases hstep
  | ack id =>
    simp only [Exchange.step] at hstep
    split at hstep
    · cases hstep
    · next s hs =>
      obtain ⟨m, hm, rfl⟩ := Option.map_eq_some_iff.mp hstep
      obtain ⟨hnext, hfile, -⟩ := SendManager.receiveAck_frame hm
      refine ⟨h.sends.stop.resume fun run hrun => ?_, h.faithful⟩
      obtain ⟨run', manager⟩ := s
      obtain rfl : run' = some run := hrun
      obtain ⟨hsole, hn, hposition⟩ := h.sends.sender run manager hs
      exact ⟨hsole, hnext.trans hn, hfile ▸ hposition⟩

/-- In every run in which the chunks that are received belong to the last acceptance. -/
theorem run {es} (h : Run (Exchange.step path T) (fun w e => InRun w e ∧ e.Completes) .new es w) :
    Sound path T w :=
  h.invariant (new path T) fun hw hok hstep => hw.step hok.1 hok.2 hstep

end Sound

/-- **A confirmed file is the source file.** In every run in which the chunks that are received
belong to the last acceptance and what is reported as written is in the file, every finished file
has the bytes of the source, and so does the one that `Done` finishes when it is confirmed. -/
theorem confirmed_done_eq_source {path : PathOf} {T : Transfer} {w : Exchange} {es : List Event}
    (h : Run (Exchange.step path T) (fun w e => InRun w e ∧ e.Completes) .new es w)
    (env : ReceiverEnv) :
    (∀ p ∈ w.receiver.finished, w.receiver.bytesOf p.2 = T.source) ∧
    ((w.doneReply path T env).response = .confirmDone → ∃ file,
      (w.doneReply path T env).receiver.finished =
        w.receiver.finished ++ [(T.transferId, file)] ∧
      (w.doneReply path T env).receiver.bytesOf file = T.source) := by
  have hsound := Sound.run h
  exact ⟨hsound.faithful.finished, (hsound.faithful.done env).2⟩

/-! ### A transfer that is interrupted -/

/-- A transfer of three bytes. -/
def threeBytes : Transfer := ⟨⟨"peer"⟩, none, ⟨"filerequest"⟩, ⟨"transfer"⟩, "name", [1, 2, 3]⟩

/-- Two chunks are sent and the first arrives. Then the transfer is continued: the sender goes on
behind the first byte, and numbers its chunks from `0` on again. -/
def interrupted : List Event :=
  [.offer (readyAt 0), .start 0 (.ok [1]) true, .send (.ok [1]) true, .send (.ok [2]) true,
    .chunk 0 (readyAt 0), .stop, .askContinue (readyAt 0), .start 0 (.ok [1]) true,
    .send (.ok [2]) true, .send (.ok [3]) true]

/-- The chunks of the second run arrive, in the wrong order. -/
theorem confirmed_done_eq_source_interrupted : ∃ w,
    Run (Exchange.step unsanitized threeBytes) (fun w e => InRun w e ∧ e.Completes) .new
      (interrupted ++ [.chunk 3 (readyAt 0), .chunk 2 (readyAt 0)]) w ∧
    (w.doneReply unsanitized threeBytes (readyAt 0)).response = .confirmDone ∧
    ∃ file, (w.doneReply unsanitized threeBytes (readyAt 0)).receiver.bytesOf file =
      threeBytes.source := by
  have hcompletes : ∀ e ∈ interrupted ++ [.chunk 3 (readyAt 0), .chunk 2 (readyAt 0)],
      e.Completes := by
    simp [interrupted, Event.Completes, Fyles.Completes, readyAt]
  have hadmitted : Admitted (Exchange.step unsanitized threeBytes) InRun .new
      (interrupted ++ [.chunk 3 (readyAt 0), .chunk 2 (readyAt 0)]) := by decide
  refine Run.exists_and (Run.get_runFrom (by decide)
    (hadmitted.imp fun _ e he hok => ⟨hok, hcompletes e he⟩)) fun hrun => ?_
  obtain ⟨file, -, hfile⟩ := (confirmed_done_eq_source hrun (readyAt 0)).2 (by decide)
  exact ⟨by decide, file, hfile⟩

/-- **A late chunk is written.** The first chunk of the second run arrives, and then the second
chunk of the first run. Its index is that of the second chunk of the second run, which is ignored
when it arrives. The sizes match, and the receiver confirms a file in which the last byte is wrong.
-/
theorem stale_chunk_is_written : ∃ w,
    Run (Exchange.step unsanitized threeBytes) (fun _ _ => True) .new
      (interrupted ++ [.chunk 2 (readyAt 0), .chunk 1 (readyAt 0), .chunk 3 (readyAt 0)]) w ∧
    (w.doneReply unsanitized threeBytes (readyAt 0)).response = .confirmDone ∧
    (w.doneReply unsanitized threeBytes (readyAt 0)).receiver.finished =
      [(threeBytes.transferId, 0)] ∧
    (w.doneReply unsanitized threeBytes (readyAt 0)).receiver.bytesOf 0 = [1, 2, 2] ∧
    threeBytes.source = [1, 2, 3] := by
  exact ⟨_, Run.get_runFrom, by decide, by decide, by decide, rfl⟩

end Fyles.FileIntegrity
