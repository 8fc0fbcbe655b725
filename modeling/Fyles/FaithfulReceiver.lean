import Fyles.FileExchange

/-!
# The receiver keeps beginnings of the source

The receiver's half of a transfer. As long as the chunks that fall into its window are those of the
run of its last acceptance, every file it writes is a beginning of the source file, and a file it
finishes is the whole of it. The half is stated for a receiver on its own: of the sender it knows
the offset and the pieces of the run that answers the last acceptance.

## Main results

* `Faithful.newTransfer`, `Faithful.continueTransfer`, `Faithful.chunk`, `Faithful.abortTransfer`,
  `Faithful.done` — every request keeps this
-/

namespace Fyles.FileIntegrity

open FilerequestReceiver PartFiles

/-! ### Files -/

/-- The path of the part file of a transfer that started at some time. -/
def partPath (path : PathOf) (T : Transfer) (startedAtMs : ℤ) : Option String :=
  path startedAtMs T.transferId T.nodeId T.contactId

/-- The transfer in memory assembles the run of the last acceptance, of which `latest` is the
offset and the pieces, in the part file of the recorded transfer. -/
structure Holds (path : PathOf) (T : Transfer) (startedAtMs : Option ℤ)
    (latest : Option (ℕ × List (List UInt8))) (r : FilerequestReceiver) (m : ReceiveManager) :
    Prop where
  assembles : ∃ offset pieces, latest = some (offset, pieces) ∧
    Assembles pieces (T.source.take offset) m (r.bytesOf m.file)
  /-- It is the transfer. -/
  ours : m.transferId = T.transferId ∧ m.filerequestId = T.filerequestId ∧
    m.contactId = T.contactId
  /-- The declared size is the size of the source. -/
  declared : m.declaredFileSizeBytes = T.source.length
  /-- The transfer was recorded. -/
  recorded : startedAtMs = some m.startedAtMs
  isOpen : m.file < r.files.length
  /-- No other file has its name. -/
  named : ∀ name file, partPath path T m.startedAtMs = some name →
    r.parts.lookup name = some file → file = m.file

/-- What is kept of a source file: every file is a beginning of it, and those that were finished
are all of it. -/
structure Faithful (path : PathOf) (T : Transfer) (startedAtMs : Option ℤ)
    (latest : Option (ℕ × List (List UInt8))) (r : FilerequestReceiver) : Prop where
  /-- Files are beginnings of the source. -/
  files : ∀ file, r.bytesOf file <+: T.source
  /-- Nothing was written before the transfer was recorded. -/
  blank : startedAtMs = none → r.receiving = none ∧ ∀ file, r.bytesOf file = []
  /-- A name belongs to a file. -/
  known : ∀ name file, r.parts.lookup name = some file → file < r.files.length
  /-- Finished files are the source. -/
  finished : ∀ p ∈ r.finished, r.bytesOf p.2 = T.source
  holds : ∀ m, r.receiving = some m → Holds path T startedAtMs latest r m

namespace Faithful

variable {path : PathOf} {T : Transfer} {startedAtMs : Option ℤ}
  {latest : Option (ℕ × List (List UInt8))} {r : FilerequestReceiver} {file : ℕ}
  {m : ReceiveManager}

theorem empty (path : PathOf) (T : Transfer) : Faithful path T none none .empty where
  files _ := List.nil_prefix
  blank _ := ⟨rfl, fun _ => rfl⟩
  known _ _ h := by cases h
  finished _ h := by cases h
  holds _ h := by cases h

theorem notify (h : Faithful path T startedAtMs latest r) (notice : ReceiveNotice) :
    Faithful path T startedAtMs latest (r.notify notice) where
  __ := h
  holds m hm := ⟨(h.holds m hm).assembles, (h.holds m hm).ours, (h.holds m hm).declared,
    (h.holds m hm).recorded, (h.holds m hm).isOpen, (h.holds m hm).named⟩

/-- The transfer in memory may be dropped at any time. -/
theorem forget (h : Faithful path T startedAtMs latest r) :
    Faithful path T startedAtMs latest { r with receiving := none } where
  __ := h
  blank hs := ⟨rfl, (h.blank hs).2⟩
  holds m hm := by cases hm

theorem erase (h : Faithful path T startedAtMs latest r) (name : String) :
    Faithful path T startedAtMs latest { r with parts := r.parts.erase name } := by
  have hlookup : ∀ name' file, (r.parts.erase name).lookup name' = some file →
      r.parts.lookup name' = some file := by
    intro name' file hf
    by_cases hn : name' = name
    · rw [hn, AList.lookup_erase] at hf
      cases hf
    · rwa [AList.lookup_erase_ne hn] at hf
  refine ⟨h.files, h.blank, fun n f hf => h.known n f (hlookup n f hf), h.finished, fun m hm => ?_⟩
  have hm := h.holds m hm
  exact ⟨hm.assembles, hm.ours, hm.declared, hm.recorded, hm.isOpen,
    fun n f hn hf => hm.named n f hn (hlookup _ f hf)⟩

/-- A file that has all bytes of the source may be finished. -/
theorem finish (h : Faithful path T startedAtMs latest r)
    (hfile : r.bytesOf file = T.source) (transferId : FylesId) : Faithful path T startedAtMs latest
      { r with finished := r.finished ++ [(transferId, file)] } where
  __ := h
  finished p hp := by
    rcases List.mem_append.mp hp with hp | hp
    · exact h.finished p hp
    · obtain rfl := List.mem_singleton.mp hp
      exact hfile
  holds m hm := ⟨(h.holds m hm).assembles, (h.holds m hm).ours, (h.holds m hm).declared,
    (h.holds m hm).recorded, (h.holds m hm).isOpen, (h.holds m hm).named⟩

/-- A part file may be opened while nothing is in memory. -/
theorem openPart (h : Faithful path T startedAtMs latest r) (hr : r.receiving = none)
    (name : String) : Faithful path T startedAtMs latest (r.openPart name).2 where
  files file := by
    rw [bytesOf_openPart]
    exact h.files file
  blank hs := by
    refine ⟨by rw [receiving_openPart, hr], fun file => ?_⟩
    rw [bytesOf_openPart]
    exact (h.blank hs).2 file
  known name' file hf := by
    by_cases hn : name' = name
    · subst hn
      exact file_lt_openPart h.known hf
    · rw [lookup_openPart_of_ne r hn] at hf
      exact Nat.lt_of_lt_of_le (h.known _ _ hf) (length_openPart r name)
  finished p hp := by
    rw [finished_openPart] at hp
    rw [bytesOf_openPart]
    exact h.finished p hp
  holds m hm := by
    rw [receiving_openPart, hr] at hm
    cases hm

/-- **An acceptance.** A transfer that has no chunks in its ring and names the size of its file as
the offset starts a new run. -/
theorem accept (h : Faithful path T startedAtMs latest r)
    (hring : m.chunksInFlight = List.replicate parallelChunks none)
    (hearliest : m.earliestNotReceived = 0) (hprogress : m.byteProgress = (r.bytesOf m.file).length)
    (hours : m.transferId = T.transferId ∧ m.filerequestId = T.filerequestId ∧
      m.contactId = T.contactId)
    (hdeclared : m.declaredFileSizeBytes = T.source.length) (hopen : m.file < r.files.length)
    (hnamed : ∀ name file, partPath path T m.startedAtMs = some name →
      r.parts.lookup name = some file → file = m.file) :
    Faithful path T (some m.startedAtMs) (some (m.byteProgress, []))
      { r with receiving := some m } where
  __ := h
  blank hs := by cases hs
  holds m' hm' := by
    obtain ⟨⟩ := hm'
    have hstart : T.source.take m.byteProgress = r.bytesOf m.file := by
      rw [hprogress]
      exact (List.prefix_iff_eq_take.mp (h.files m.file)).symm
    refine ⟨⟨_, _, rfl, ?_⟩, hours, hdeclared, rfl, hopen, hnamed⟩
    rw [hstart]
    exact Assembles.start_run hring hearliest hprogress

/-- The latest acceptance after a response. -/
def latestAfter (latest : Option (ℕ × List (List UInt8))) (response : FileResponse) :
    Option (ℕ × List (List UInt8)) :=
  match acceptedOffset response with
  | some offset => some (offset, [])
  | none => latest

/-- A part file is opened while nothing is in memory, and its transfer is accepted. -/
theorem accept_opened {name} {t : ℤ} {progress : ℕ} (h : Faithful path T startedAtMs latest r)
    (hnone : r.receiving = none) (hname : partPath path T t = some name)
    (hprogress : progress = (r.bytesOf (r.openPart name).1).length) :
    Faithful path T (some t) (some (progress, [])) { (r.openPart name).2 with
      receiving := some { ReceiveManager.new (r.openPart name).1 T.source.length T.fileName
        T.transferId T.filerequestId T.contactId t with byteProgress := progress } } := by
  have hopened := h.openPart hnone name
  have hlookup := lookup_openPart r name
  refine hopened.accept (m := { ReceiveManager.new (r.openPart name).1 T.source.length T.fileName
    T.transferId T.filerequestId T.contactId t with byteProgress := progress }) rfl rfl ?_
    ⟨rfl, rfl, rfl⟩ rfl (hopened.known _ _ hlookup) fun name' file hname' hfile => ?_
  · rw [bytesOf_openPart]
    exact hprogress
  · obtain rfl := Option.mem_unique hname hname'
    exact Option.mem_unique hfile hlookup

variable (env : ReceiverEnv)

/-- `NewTransfer`, before the transfer was recorded. -/
theorem newTransfer {reply} (h : Faithful path T none latest r)
    (hreply : PartFiles.newTransfer path env T.nodeId T.contactId T.filerequestId T.fileName
      T.source.length T.transferId r = reply) :
    Faithful path T (if reply.response = .acceptNewTransfer then env.unixEpochMillis else none)
      (latestAfter latest reply.response) reply.receiver := by
  have hnone := (h.blank rfl).1
  rw [PartFiles.newTransfer] at hreply
  split at hreply
  · exact hreply ▸ h
  · split at hreply
    · exact hreply ▸ h
    · next t ht =>
      cases hopen : getPartialFileForWriting path env T.nodeId T.contactId t T.transferId r with
      | none =>
        rw [hopen] at hreply
        exact hreply ▸ h
      | some opened =>
        obtain ⟨name, hname, rfl⟩ := getPartialFileForWriting_eq_some hopen
        simp only [hopen] at hreply
        split at hreply
        · subst hreply
          exact (h.openPart hnone name).notify _
        · subst hreply
          have hempty : 0 = (r.bytesOf (r.openPart name).1).length := by
            rw [(h.blank rfl).2]
            rfl
          rw [if_pos rfl, ht]
          exact (h.accept_opened hnone hname hempty).notify _

/-- `ContinueTransfer`, from memory or from the part file. -/
theorem continueTransfer (h : Faithful path T startedAtMs latest r)
    (hrecord : env.continuation = none ∨
      env.continuation = startedAtMs.map fun t => ⟨T.fileName, T.source.length, t⟩) :
    let reply := PartFiles.continueTransfer path env T.nodeId T.contactId T.filerequestId
      T.transferId r
    Faithful path T startedAtMs (latestAfter latest reply.response) reply.receiver := by
  intro reply
  simp only [reply, PartFiles.continueTransfer]
  split
  · next m hm =>
    have hholds := h.holds m hm
    obtain ⟨offset, pieces, -, has⟩ := hholds.assembles
    rw [if_pos hholds.ours, hholds.recorded]
    refine h.accept (m := m.reset) ?_ rfl has.progress hholds.ours hholds.declared hholds.isOpen
      hholds.named
    rw [ReceiveManager.reset, List.map_const', has.length]
  · next hnone =>
    rw [continueFromDisk]
    split
    · exact h
    · next response hresponse =>
      rw [hresponse] at hrecord
      obtain hrecord | hrecord := hrecord
      · cases hrecord
      obtain ⟨t, rfl, rfl⟩ := Option.map_eq_some_iff.mp hrecord.symm
      cases hopen : getPartialFileForWriting path env T.nodeId T.contactId t T.transferId r with
      | none => exact h.notify _
      | some opened =>
        obtain ⟨name, hname, rfl⟩ := getPartialFileForWriting_eq_some hopen
        cases env.readsMetadata with
        | false => exact h.openPart hnone name
        | true =>
          exact h.accept_opened hnone hname (congrArg List.length (bytesOf_openPart r name _))

theorem write {bytes} (h : Faithful path T startedAtMs latest r) (hrecorded : startedAtMs ≠ none)
    (hfile : file < r.files.length) (hgrow : r.bytesOf file <+: bytes) (hle : bytes <+: T.source) :
    Faithful path T startedAtMs latest
      { r with receiving := none, files := r.files.set file bytes } where
  files file' := by
    refine (bytesOf_set r hfile bytes file').symm ▸ ?_
    split
    · exact hle
    · exact h.files file'
  blank hs := absurd hs hrecorded
  known name file' hf := by
    rw [List.length_set]
    exact h.known name file' hf
  finished p hp := by
    refine (bytesOf_set r hfile bytes p.2).trans ?_
    split
    · next heq =>
      -- A finished file has no room to grow.
      have hfull : T.source <+: bytes := by
        rw [← h.finished p hp, heq]
        exact hgrow
      exact hle.eq_of_length_le hfull.length_le
    · exact h.finished p hp
  holds m hm := by cases hm

/-- A transfer that assembles the last run may be put in memory. -/
theorem resume (h : Faithful path T startedAtMs latest { r with receiving := none })
    (hm : Holds path T startedAtMs latest r m) :
    Faithful path T startedAtMs latest { r with receiving := some m } where
  __ := h
  blank hs := by
    rw [hm.recorded] at hs
    cases hs
  holds m' hm' := by
    obtain ⟨⟩ := hm'
    exact ⟨hm.assembles, hm.ours, hm.declared, hm.recorded, hm.isOpen, hm.named⟩

/-- **`Chunk`.** The chunks in the window have to be pieces of the run of the last acceptance. -/
theorem chunk {c} (h : Faithful path T startedAtMs latest r) (hwrites : Completes env.write)
    (hlatest : ∀ offset pieces, latest = some (offset, pieces) →
      T.source.take offset ++ pieces.flatten <+: T.source)
    (hpiece : ∀ m offset pieces, r.receiving = some m → latest = some (offset, pieces) →
      m.earliestNotReceived ≤ c.idx → c.idx < m.earliestNotReceived + parallelChunks →
      pieces[c.idx]? = some c.data) :
    Faithful path T startedAtMs latest
      (PartFiles.chunk env T.nodeId T.contactId c r).receiver := by
  rw [PartFiles.chunk]
  split
  · exact h
  · next m hm =>
    have hm' := h.holds m hm
    obtain ⟨offset, pieces, hrun, has⟩ := hm'.assembles
    split
    · exact h.forget
    · split
      · exact h.forget
      · have hstore := has.store hwrites (hpiece m offset pieces hm hrun)
        have hgrow := ReceiveManager.prefix_store m env.write c (r.bytesOf m.file)
        have hheader := ReceiveManager.store_header m env.write c (r.bytesOf m.file)
        have hwrite := h.write (by simp [hm'.recorded]) hm'.isOpen hgrow
          (hstore.2.trans (hlatest offset pieces hrun))
        split
        · next m' bytes heq =>
          rw [heq] at hstore hheader hwrite
          simp only [ReceiveManager.header, Prod.mk.injEq] at hheader
          obtain ⟨hdeclared, hfile, -, htransfer, hrequest, hcontact, hstarted⟩ := hheader
          have hbytes := bytesOf_set r hm'.isOpen bytes m.file
          rw [if_pos rfl] at hbytes
          refine (resume (r := { r with files := r.files.set m.file bytes }) hwrite
            ⟨⟨offset, pieces, hrun, ?_⟩, ?_, ?_, ?_, ?_, ?_⟩).notify _
          · rw [hfile, hbytes]
            exact hstore.1 rfl
          · rw [htransfer, hrequest, hcontact]
            exact hm'.ours
          · rw [hdeclared]
            exact hm'.declared
          · rw [hstarted]
            exact hm'.recorded
          · rw [hfile, List.length_set]
            exact hm'.isOpen
          · rw [hfile, hstarted]
            exact hm'.named
        · next heq =>
          rw [heq] at hwrite
          exact hwrite
        · next heq =>
          rw [heq] at hwrite
          exact hwrite.notify _

theorem abortTransfer (transferId : Option FylesId)
    (h : Faithful path T startedAtMs latest r) :
    Faithful path T startedAtMs latest
      (PartFiles.abortTransfer path env T.nodeId T.contactId transferId r).receiver := by
  rw [PartFiles.abortTransfer]
  split
  · exact h
  · dsimp only
    split
    · cases hremove : removePartialFile path env T.nodeId T.contactId _ _ _ with
      | none => exact h.forget
      | some removed =>
        obtain ⟨-, name, -, rfl⟩ := removePartialFile_eq_some hremove
        exact (h.forget.erase name).notify _
    · exact h.forget

/-- The file of a transfer all of whose bytes have arrived is the source. -/
theorem bytesOf_eq_source (h : Faithful path T startedAtMs latest r)
    (hm : r.receiving = some m) (hfull : m.byteProgress = m.declaredFileSizeBytes) {name}
    (hname : partPath path T m.startedAtMs = some name) (hfile : r.parts.lookup name = some file) :
    r.bytesOf file = T.source := by
  have hholds := h.holds m hm
  obtain ⟨offset, pieces, -, has⟩ := hholds.assembles
  rw [hholds.named name file hname hfile]
  refine (h.files m.file).eq_of_length ?_
  rw [← has.progress, hfull, hholds.declared]

/-- **`Done`.** Only the source is finished, and nothing else is confirmed. -/
theorem done (h : Faithful path T startedAtMs latest r) :
    let reply := PartFiles.done path env T.nodeId T.contactId T.transferId r
    Faithful path T startedAtMs latest reply.receiver ∧
      (reply.response = .confirmDone → ∃ file,
        reply.receiver.finished = r.finished ++ [(T.transferId, file)] ∧
        reply.receiver.bytesOf file = T.source) := by
  intro reply
  simp only [reply, PartFiles.done]
  split
  · exact ⟨h, by rintro ⟨⟩⟩
  · next m hm =>
    split
    · exact ⟨h.forget, by rintro ⟨⟩⟩
    · split
      · exact ⟨h, by rintro ⟨⟩⟩
      · next hfull =>
        cases hfinalize : finalizePartialFile path env T.nodeId T.contactId m.startedAtMs
            T.transferId r with
        | none => exact ⟨h, by rintro ⟨⟩⟩
        | some finalized =>
          obtain ⟨-, final, name, file, hname, hfile, rfl⟩ := finalizePartialFile_eq_some hfinalize
          have hsource := h.bytesOf_eq_source hm (not_not.mp hfull) hname hfile
          have hfinish := (h.finish hsource T.transferId).erase name
          cases env.unixEpochMillis with
          | none => exact ⟨hfinish, by rintro ⟨⟩⟩
          | some receivedAtMs => exact ⟨hfinish.notify _, fun _ => ⟨file, rfl, hsource⟩⟩

end Faithful

end Fyles.FileIntegrity
