import Fyles.Internal.Ring
import Fyles.PartFiles

/-!
# Reassembly of a file from its chunks

The receiver of `Fyles.ReceiveManager` puts the chunks of a run into its ring and writes them to the
part file when their turn comes. Here the chunks are arbitrary: any indices, any contents, and the
same index as often as the sender likes.

Abstractly there is a list of the chunks that were put into the ring, the newest first. A chunk
below the window is not among them, so once the chunk of an index was written nothing more comes in
for that index, and the newest chunk of an index is the one that is written. Everything else follows
from the list: the lower end of the window is the least index without a chunk, the ring shows the
newest chunks of the window, and the part file has grown by the newest chunks below it.

## The start of a run

A run starts with a ring that is empty, a window that starts at zero and some part file. The
progress is set to the size of the part file if the transfer goes on from it, and to zero if the
transfer is new, for then the part file has just been created. But the names of part files can clash
(`PartFiles`), so the file of a new transfer may have bytes already, and the file from which a
transfer goes on may be longer than the transfer has declared.

## Main results

* `ReceiveManager.Gathers.writeInOrder` — the loop of `store` and its three ways to end
* `ReceiveManager.Gathers.store` — the same for `store`
* `Reassembly.sound_iff` — a run is sound whatever its chunks, exactly if the progress starts as the
  size of the part file and not above the declared size
-/

namespace Fyles

/-! ### Chunks that were put into the ring -/

variable {i : ℕ} {c : DataChunk}

/-- The newest chunk of an index. -/
def latest (stored : List DataChunk) (i : ℕ) : Option DataChunk :=
  stored.find? fun c => c.idx = i

/-- The bytes of the newest chunks below an index. -/
def gathered (stored : List DataChunk) (lo : ℕ) : List UInt8 :=
  (List.range lo).flatMap fun i => ((latest stored i).map DataChunk.data).getD []

theorem idx_of_latest {stored} (h : latest stored i = some c) : c.idx = i ∧ c ∈ stored :=
  ⟨by simpa using List.find?_some h, List.mem_of_find?_eq_some h⟩

theorem latest_cons (c : DataChunk) (stored : List DataChunk) :
    latest (c :: stored) = Function.update (latest stored) c.idx (some c) := by
  funext i
  rw [latest, List.find?_cons]
  by_cases hi : c.idx = i
  · subst hi
    simp
  · rw [Function.update_of_ne (Ne.symm hi), decide_eq_false hi]
    rfl

theorem latest_eq_none {stored} (h : ∀ c ∈ stored, c.idx ≠ i) : latest stored i = none := by
  rw [latest, List.find?_eq_none]
  intro c hc
  simpa using h c hc

theorem gathered_succ {stored} (h : latest stored i = some c) :
    gathered stored (i + 1) = gathered stored i ++ c.data := by
  rw [gathered, List.range_succ, List.flatMap_append, gathered]
  simp [h]

/-- A chunk above does not matter for what is below. -/
theorem gathered_cons {stored} {lo : ℕ} (h : lo ≤ c.idx) :
    gathered (c :: stored) lo = gathered stored lo := by
  refine List.flatMap_congr fun i hi => ?_
  have hne : i ≠ c.idx := Nat.ne_of_lt (Nat.lt_of_lt_of_le (List.mem_range.mp hi) h)
  rw [latest_cons, Function.update_of_ne hne]

/-! ### The state of a transfer -/

namespace ReceiveManager

/-- The transfer has put the chunks `stored` into its ring in a run that has started with the part
file `start` and the progress `initial`; the lower end of its window is `lo`. -/
structure Gathers (stored : List DataChunk) (start : List UInt8) (initial lo : ℕ)
    (m : ReceiveManager) (bytes : List UInt8) : Prop where
  /-- The ring shows the window. -/
  ring : Shows parallelChunks m.chunksInFlight (latest stored) lo
  earliest : m.earliestNotReceived = lo
  /-- There is a chunk for every index below. -/
  below : ∀ i < lo, (latest stored i).isSome
  /-- No chunk is above the window. -/
  above : ∀ c ∈ stored, c.idx < lo + parallelChunks
  /-- The chunks below were written. -/
  written : bytes = start ++ gathered stored lo
  /-- Their bytes were counted. -/
  progress : m.byteProgress = initial + (gathered stored lo).length

namespace Gathers

variable {stored : List DataChunk} {start bytes : List UInt8} {initial lo : ℕ}
  {m : ReceiveManager}

theorem begin (hring : m.chunksInFlight = List.replicate parallelChunks none)
    (hearliest : m.earliestNotReceived = 0) : Gathers [] bytes m.byteProgress 0 m bytes where
  ring := hring ▸ Shows.replicate _ none 0
  earliest := hearliest
  below _ h := absurd h (Nat.not_lt_zero _)
  above _ h := by cases h
  written := (List.append_nil bytes).symm
  progress := rfl

/-- **A chunk is put into the ring**, in the place of what was there for its index. -/
theorem put (h : Gathers stored start initial lo m bytes) {c} (hlow : lo ≤ c.idx)
    (hhigh : c.idx < lo + parallelChunks) : Gathers (c :: stored) start initial lo
      { m with chunksInFlight := m.chunksInFlight.set (c.idx % parallelChunks) (some c) }
      bytes where
  ring := by
    rw [latest_cons]
    exact h.ring.set hlow hhigh (some c)
  earliest := h.earliest
  below i hi := by
    rw [latest_cons, Function.update_of_ne (Nat.ne_of_lt (Nat.lt_of_lt_of_le hi hlow))]
    exact h.below i hi
  above c' hc' := by
    rcases List.mem_cons.mp hc' with rfl | hc'
    · exact hhigh
    · exact h.above c' hc'
  written := by rw [gathered_cons hlow]; exact h.written
  progress := by rw [gathered_cons hlow]; exact h.progress

/-- **The chunk whose turn has come is written.** -/
theorem write (h : Gathers stored start initial lo m bytes) {c} (hc : latest stored lo = some c) :
    Gathers stored start initial (lo + 1)
      { m with
        chunksInFlight := m.chunksInFlight.set (m.earliestNotReceived % parallelChunks) none
        byteProgress := m.byteProgress + c.data.length
        earliestNotReceived := m.earliestNotReceived + 1 } (bytes ++ c.data) where
  ring := by
    have hnone : latest stored (lo + parallelChunks) = none :=
      latest_eq_none fun c hc => Nat.ne_of_lt (h.above c hc)
    rw [h.earliest]
    exact hnone ▸ h.ring.advance (by decide)
  earliest := congrArg (· + 1) h.earliest
  below i hi := by
    rcases Nat.lt_succ_iff_lt_or_eq.mp hi with hlt | rfl
    · exact h.below i hlt
    · rw [hc]
      rfl
  above c' hc' := Nat.lt_of_lt_of_le (h.above c' hc') (Nat.add_le_add_right (Nat.le_succ lo) _)
  written := by rw [gathered_succ hc, ← List.append_assoc, ← h.written]
  progress := by rw [gathered_succ hc, List.length_append, ← Nat.add_assoc, ← h.progress]

/-- How writing can end: at the first index without a chunk; at a chunk that would exceed the
declared size; or at a write that fails. -/
inductive Drained (stored : List DataChunk) (start : List UInt8) (initial declared lo : ℕ)
    (outcome : ℕ → WriteOutcome) : ReceiverRes × ReceiveManager × List UInt8 → Prop
  | received {m' bytes'} (lo' : ℕ) (hle : lo ≤ lo')
      (hmissing : latest stored lo' = none) (hgathers : Gathers stored start initial lo' m' bytes')
      (hlimit : lo < lo' → m'.byteProgress ≤ declared) :
      Drained stored start initial declared lo outcome (.received, m', bytes')
  | exceeded {m' bytes'} (k : ℕ) (hstored : ∀ i ≤ k, (latest stored i).isSome)
      (hexceeded : declared < initial + (gathered stored (k + 1)).length) :
      Drained stored start initial declared lo outcome (.protocolViolation, m', bytes')
  | failed {m' bytes'} (i n : ℕ) (hfailed : outcome i = .failed n) :
      Drained stored start initial declared lo outcome (.ioError, m', bytes')

/-- A chunk that fits was written before. -/
theorem Drained.of_succ {declared : ℕ} {outcome : ℕ → WriteOutcome} {r}
    (h : Drained stored start initial declared (lo + 1) outcome r)
    (hfits : initial + (gathered stored (lo + 1)).length ≤ declared) :
    Drained stored start initial declared lo outcome r := by
  cases h with
  | received lo' hle hmissing hgathers hlimit =>
    refine .received lo' (Nat.le_of_succ_le hle) hmissing hgathers fun _ => ?_
    rcases Nat.lt_or_eq_of_le hle with hlt | rfl
    · exact hlimit hlt
    · -- it was the last to be written
      rw [hgathers.progress]
      exact hfits
  | exceeded k hstored hexceeded => exact .exceeded k hstored hexceeded
  | failed i n hfailed => exact .failed i n hfailed

/-- **The loop of `store`.** -/
theorem writeInOrder {outcome} (hwrite : Completes outcome) (rounds : ℕ)
    (h : Gathers stored start initial lo m bytes) (hrounds : ∀ c ∈ stored, c.idx < lo + rounds) :
    Drained stored start initial m.declaredFileSizeBytes lo outcome
      (m.writeInOrder outcome rounds bytes) := by
  -- induction on the rounds: the lower end climbs until an index has no chunk
  induction rounds generalizing m bytes lo with
  | zero =>
    exact .received lo (Nat.le_refl lo) (latest_eq_none fun c hc => Nat.ne_of_lt (hrounds c hc)) h
      fun hlt => absurd hlt (Nat.lt_irrefl lo)
  | succ rounds ih =>
    have hslot := h.ring.slot lo (Nat.le_refl lo) (Nat.lt_add_of_pos_right (by decide))
    rw [ReceiveManager.writeInOrder, h.earliest, hslot]
    cases hc : latest stored lo with
    | none =>
      exact .received lo (Nat.le_refl lo) hc h fun hlt => absurd hlt (Nat.lt_irrefl lo)
    | some c =>
      dsimp only
      have hsize : initial + (gathered stored (lo + 1)).length =
          c.data.length + m.byteProgress := by
        rw [gathered_succ hc, List.length_append, h.progress]
        omega
      split
      · next hexceeded =>
        refine .exceeded lo (fun i hi => ?_) (hsize ▸ hexceeded)
        rcases Nat.lt_or_eq_of_le hi with hlt | rfl
        · exact h.below i hlt
        · rw [hc]
          rfl
      · next hfits =>
        split
        · next n hfailed => exact .failed _ n hfailed
        · have hnext := h.write hc
          rw [h.earliest] at hnext
          refine (ih hnext fun c' hc' => ?_).of_succ (hsize ▸ Nat.le_of_not_lt hfits)
          have := hrounds c' hc'
          omega
        · next hlost => exact absurd hlost (hwrite _ _)

/-- The chunks that were put into the ring, after one more has arrived. -/
def keep (m : ReceiveManager) (c : DataChunk) (stored : List DataChunk) : List DataChunk :=
  if c.idx < m.earliestNotReceived then stored else c :: stored

/-- **One chunk.** A chunk above the window is refused. One below is ignored, any other is put into
the ring, and the chunks whose turn has come are written. -/
theorem store {outcome} (hwrite : Completes outcome) (h : Gathers stored start initial lo m bytes)
    (hmissing : latest stored lo = none) (c : DataChunk) :
    ((lo + parallelChunks) % 2 ^ 32 ≤ c.idx ∧
      m.store outcome c bytes = (.protocolViolation, m, bytes)) ∨
    (c.idx < lo + parallelChunks ∧ Drained (keep m c stored) start initial m.declaredFileSizeBytes
      lo outcome (m.store outcome c bytes)) := by
  rw [ReceiveManager.store, keep, h.earliest]
  by_cases hhigh : (lo + parallelChunks) % 2 ^ 32 ≤ c.idx
  · exact .inl ⟨hhigh, if_pos hhigh⟩
  · have hlt : c.idx < lo + parallelChunks :=
      Nat.lt_of_lt_of_le (Nat.lt_of_not_le hhigh) (Nat.mod_le _ _)
    refine .inr ⟨hlt, ?_⟩
    rw [if_neg hhigh]
    by_cases hlow : c.idx < lo
    · rw [if_pos hlow, if_pos hlow]
      exact .received lo (Nat.le_refl lo) hmissing h fun hlo => absurd hlo (Nat.lt_irrefl lo)
    · have hle : lo ≤ c.idx := Nat.le_of_not_lt hlow
      have hput := h.put hle hlt
      rw [h.earliest] at hput
      rw [if_neg hlow, if_neg hlow]
      dsimp only
      split
      · refine hput.writeInOrder hwrite _ fun c' hc' => ?_
        rw [hput.ring.length]
        exact hput.above c' hc'
      · next hslot =>
        -- the slot is another one, so the lowest index is still without a chunk
        refine .received lo (Nat.le_refl lo) ?_ hput fun hlo => absurd hlo (Nat.lt_irrefl lo)
        have hne : lo ≠ c.idx := by
          rintro rfl
          exact hslot rfl
        rw [latest_cons, Function.update_of_ne hne, hmissing]

end Gathers

end ReceiveManager

open ReceiveManager

/-! ### Runs -/

/-- A run of chunks. -/
structure Reassembly where
  manager : ReceiveManager
  bytes : List UInt8
  /-- The chunks that were put into the ring, the newest first. -/
  stored : List DataChunk

namespace Reassembly

/-- A run starts. -/
structure Begins (m : ReceiveManager) : Prop where
  /-- Nothing is in the ring. -/
  ring : m.chunksInFlight = List.replicate parallelChunks none
  earliest : m.earliestNotReceived = 0

/-- A chunk arrives, and is received; the outcomes of the writes come with it. -/
def step (x : Reassembly) (arrival : DataChunk × (ℕ → WriteOutcome)) : Option Reassembly :=
  match x.manager.store arrival.2 arrival.1 x.bytes with
  | (.received, m, bytes) => some ⟨m, bytes, Gathers.keep x.manager arrival.1 x.stored⟩
  | _ => none

/-- **What a run should do** to the part file that it has started with. -/
structure Sound (start : List UInt8) (x : Reassembly) : Prop where
  /-- There is a chunk for every index below the window. -/
  complete : ∀ i < x.manager.earliestNotReceived, (latest x.stored i).isSome
  /-- The newest chunks below the window were appended, in the order of their indices. -/
  appended : x.bytes = start ++ gathered x.stored x.manager.earliestNotReceived
  /-- The progress is the size of the file. -/
  progress : x.manager.byteProgress =
    start.length + (gathered x.stored x.manager.earliestNotReceived).length
  /-- The progress does not exceed the declared size. -/
  limit : x.manager.byteProgress ≤ x.manager.declaredFileSizeBytes
  length : x.manager.chunksInFlight.length = 8
  /-- A chunk in the ring is the newest of its index, in the slot of that index, and its index is
  inside the window and not the lowest of it. -/
  slots : ∀ r c, x.manager.chunksInFlight[r]? = some (some c) → c.idx % 8 = r ∧
    x.manager.earliestNotReceived < c.idx ∧ c.idx < x.manager.earliestNotReceived + 8 ∧
    latest x.stored c.idx = some c

/-- What every chunk keeps, if the run starts with as many bytes as the part file has. -/
structure Invariant (start : List UInt8) (declared : ℕ) (x : Reassembly) : Prop where
  /-- The state follows from the chunks. -/
  gathers : Gathers x.stored start start.length x.manager.earliestNotReceived x.manager x.bytes
  /-- The lowest index of the window has no chunk. -/
  missing : latest x.stored x.manager.earliestNotReceived = none
  declares : x.manager.declaredFileSizeBytes = declared
  limit : x.manager.byteProgress ≤ declared

namespace Invariant

variable {start : List UInt8} {declared : ℕ} {x : Reassembly}

theorem begin {m} (hbegins : Begins m) (hprogress : m.byteProgress = start.length)
    (hlimit : start.length ≤ m.declaredFileSizeBytes) :
    Invariant start m.declaredFileSizeBytes ⟨m, start, []⟩ where
  gathers := by
    rw [hbegins.earliest, ← hprogress]
    exact .begin hbegins.ring hbegins.earliest
  missing := rfl
  declares := rfl
  limit := hprogress ▸ hlimit

theorem step {x'} {arrival : DataChunk × (ℕ → WriteOutcome)} (h : Invariant start declared x)
    (hwrites : Completes arrival.2) (hstep : x.step arrival = some x') :
    Invariant start declared x' := by
  rw [Reassembly.step] at hstep
  split at hstep
  case h_2 => cases hstep
  case h_1 m bytes hstore =>
    obtain ⟨⟩ := hstep
    have hheader := store_header x.manager arrival.2 arrival.1 x.bytes
    rw [hstore] at hheader
    have hdeclares : m.declaredFileSizeBytes = declared :=
      (congrArg Prod.fst hheader).trans h.declares
    obtain ⟨-, hrefused⟩ | ⟨-, hdrained⟩ := h.gathers.store hwrites h.missing arrival.1
    · rw [hstore] at hrefused
      cases hrefused
    · rw [hstore] at hdrained
      cases hdrained with
      | received lo' hle hmissing hgathers hlimit =>
        obtain rfl := hgathers.earliest
        refine ⟨hgathers, hmissing, hdeclares, ?_⟩
        rcases Nat.lt_or_eq_of_le hle with hlt | heq
        · exact h.declares ▸ hlimit hlt
        · -- nothing was written
          have hsame : gathered (Gathers.keep x.manager arrival.1 x.stored)
              x.manager.earliestNotReceived = gathered x.stored x.manager.earliestNotReceived := by
            rw [Gathers.keep]
            split
            · rfl
            · next hlow => exact gathered_cons (Nat.le_of_not_lt hlow)
          rw [hgathers.progress, ← heq, hsame, ← h.gathers.progress]
          exact h.limit

theorem sound (h : Invariant start declared x) : x.Sound start where
  complete := h.gathers.below
  appended := h.gathers.written
  progress := h.gathers.progress
  limit := h.declares.symm ▸ h.limit
  length := h.gathers.ring.length
  slots r c hc := by
    obtain ⟨i, hlow, hhigh, hmod, hlatest⟩ := h.gathers.ring.exists_index hc
    obtain ⟨rfl, -⟩ := idx_of_latest hlatest
    refine ⟨hmod, Nat.lt_of_le_of_ne hlow fun heq => ?_, hhigh, hlatest⟩
    rw [← heq, h.missing] at hlatest
    cases hlatest

end Invariant

/-- **Reassembly.** Whatever the chunks of a run are, as long as they are received and what is
reported as written is in the part file, the part file, the progress and the ring are what they
should be, exactly if the run starts with the size of the part file as its progress, and this does
not exceed the declared size. -/
theorem sound_iff {m : ReceiveManager} (start : List UInt8) (hbegins : Begins m) :
    (∀ arrivals x, Run step (fun _ arrival => Completes arrival.2) ⟨m, start, []⟩ arrivals x →
        x.Sound start) ↔
      m.byteProgress = start.length ∧ start.length ≤ m.declaredFileSizeBytes := by
  constructor
  · intro h
    have hsound := h [] _ .nil
    have hprogress : m.byteProgress = start.length := by
      have hbytes := hsound.progress
      rwa [hbegins.earliest] at hbytes
    exact ⟨hprogress, hprogress ▸ hsound.limit⟩
  · rintro ⟨hprogress, hlimit⟩ arrivals x hrun
    exact (hrun.invariant (Invariant.begin hbegins hprogress hlimit)
      fun h hwrites hstep => h.step hwrites hstep).sound

/-- A new transfer of three bytes. -/
def threeBytes : ReceiveManager := .new 0 3 "name" ⟨"transfer"⟩ ⟨"filerequest"⟩ none 0

/-- The second chunk arrives first, and twice, with different contents. -/
theorem sound_iff_threeBytes : ∃ x,
    Run step (fun _ arrival => Completes arrival.2) ⟨threeBytes, [], []⟩
    [(⟨⟨"transfer"⟩, [7], 1⟩, fun _ => .completed), (⟨⟨"transfer"⟩, [3], 1⟩, fun _ => .completed),
      (⟨⟨"transfer"⟩, [1, 2], 0⟩, fun _ => .completed)] x ∧
    x.bytes = [1, 2, 3] ∧ x.Sound [] := by
  exact Run.exists_and (Run.get_runFrom (by decide) (by simp [Admitted, Completes]))
    fun hrun => ⟨by decide, (sound_iff [] ⟨rfl, rfl⟩).mpr ⟨rfl, Nat.zero_le _⟩ _ _ hrun⟩

open PartFiles in
/-- **A part file longer than its transfer.** Within a millisecond a peer offers a file of two bytes
under the transfer id `x` and one of a single byte under the id `x/`; both have the same part file.
It sends the bytes of the first and then goes on with the second: the run starts with a progress of
two bytes, of one that was declared. -/
theorem progress_exceeds_declared_size : ∃ w m,
    Run (Receivers.step .sample) (fun _ _ => True) .new
      [.request ⟨"P"⟩ none (.newTransfer ⟨"filerequest"⟩ "name" 2 ⟨"x"⟩) (readyAt 0),
        .request ⟨"P"⟩ none (.newTransfer ⟨"filerequest"⟩ "name" 1 ⟨"x/"⟩) (readyAt 0),
        .request ⟨"P"⟩ none (.continueTransfer ⟨"filerequest"⟩ ⟨"x"⟩)
          { readyAt 1 with continuation := some ⟨"name", 2, 0⟩ },
        .request ⟨"P"⟩ none (.chunk ⟨⟨"x"⟩, [1, 2], 0⟩) (readyAt 2),
        .request ⟨"P"⟩ none (.continueTransfer ⟨"filerequest"⟩ ⟨"x/"⟩)
          { readyAt 3 with continuation := some ⟨"name", 1, 0⟩ }] w ∧
    w.receiving ⟨"P"⟩ = some m ∧ Begins m ∧ w.files = [[1, 2]] ∧ m.file = 0 ∧
    m.declaredFileSizeBytes = 1 ∧ m.byteProgress = 2 ∧
    ¬ Reassembly.Sound [1, 2] ⟨m, [1, 2], []⟩ := by
  refine ⟨_, _, Run.get_runFrom, rfl, ⟨rfl, rfl⟩, by decide, rfl, rfl,
    by decide, fun h => ?_⟩
  exact absurd h.limit (by decide)

end Reassembly

end Fyles
