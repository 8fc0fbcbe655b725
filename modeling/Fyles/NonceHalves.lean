import Fyles.Dencryptor
import Fyles.Internal.Run
import Mathlib.Logic.Function.Iterate

/-!
# The two halves of the nonces

The `u64` values are split between the two ends of a session. One end generates the nonces of its
half and the other end maps them back to the indices of its window, by subtracting
`U64_HALF` if it initiated the session.

`Fyles.RollingNonceWindow` computes with the sums and differences of a release build, which wrap
around. Here the same functions are computed once more with checks, as a debug build does: a sum or
difference that is not a `u64` is a panic. Where the checks pass, both agree.

## Where the checks fail

A nonce comes from the message, and nothing is known about it when it is validated. The end that
initiated the session subtracts `U64_HALF` from it without looking, which underflows for every
nonce of its own half. The only other check that can fail is at the end of the window, once almost
all `u64` values were accepted.

## Main results

* `Represents.checkedIsValid` — the window computes without overflow exactly if its end is a `u64`
* `checkedValidate_isSome_iff` — `validate` does so exactly if the subtraction does not underflow
* `validate_outside` — the nonces outside the half of the other end are refused
-/

namespace Fyles

/-! ### Checked arithmetic -/

variable {a b : ℕ}

/-- Addition of `u64` values, as a debug build does it; `none` is a panic. -/
def u64CheckedAdd (a b : ℕ) : Option ℕ := if a + b < u64Size then some (a + b) else none

/-- Subtraction of `u64` values, as a debug build does it; `none` is a panic. -/
def u64CheckedSub (a b : ℕ) : Option ℕ := if b ≤ a then some (a - b) else none

theorem u64CheckedAdd_of_lt (h : a + b < u64Size) : u64CheckedAdd a b = some (u64Add a b) := by
  rw [u64CheckedAdd, if_pos h, u64Add_of_lt h]

theorem u64CheckedAdd_eq_none (h : ¬ a + b < u64Size) : u64CheckedAdd a b = none :=
  if_neg h

theorem u64Sub_of_le (ha : a < u64Size) (h : b ≤ a) : u64Sub a b = a - b := by
  have hsum : a + (u64Size - b) = a - b + u64Size := by omega
  rw [u64Sub, hsum, Nat.add_mod_right, Nat.mod_eq_of_lt (by omega)]

/-- A difference that underflows ends up as far below `2 ^ 64` as it is below zero. -/
theorem u64Sub_of_lt (hb : b ≤ u64Size) (h : a < b) : u64Sub a b = u64Size - (b - a) := by
  have hsum : a + (u64Size - b) = u64Size - (b - a) := by omega
  rw [u64Sub, hsum, Nat.mod_eq_of_lt (by omega)]

theorem u64CheckedSub_eq_some {c : ℕ} (ha : a < u64Size) (h : u64CheckedSub a b = some c) :
    c = u64Sub a b := by
  rw [u64CheckedSub] at h
  split at h
  · next hle => rw [u64Sub_of_le ha hle, Option.some.inj h]
  · cases h

/-! ### The window -/

namespace RollingNonceWindow

open BitStore ReplayWindow

variable {T : Type} [BitStore T]

/-- `is_in_bounds`. The sum is only computed for a nonce that is not below the window. -/
def checkedIsInBounds (w : RollingNonceWindow T) (nonce : ℕ) : Option Bool :=
  if w.lowerBound ≤ nonce then
    (u64CheckedAdd w.lowerBound (size w.window)).map fun bound => decide (nonce < bound)
  else some false

/-- The loop at the end of `is_valid`. -/
def checkedSlide : ℕ → T → ℕ → Option (T × ℕ)
  | 0, _, _ => none
  | fuel + 1, window, nonce =>
    match validateAt window (modulo nonce (size window)) with
    | (true, window') => (u64CheckedAdd nonce 1).bind (checkedSlide fuel window')
    | (false, window') => some (window', nonce)

/-- `is_valid`. The error of a nonce that is out of bounds names the end of the window. -/
def checkedIsValid (w : RollingNonceWindow T) (nonce : ℕ) :
    Option (Except BitStoreError Unit × RollingNonceWindow T) :=
  (w.checkedIsInBounds nonce).bind fun inBounds =>
    if !inBounds then
      (u64CheckedAdd w.lowerBound (size w.window)).map fun bound =>
        (.error (.outOfBoundsAccess nonce w.lowerBound bound), w)
    else
      match getInvalidateAt w.window (modulo nonce (size w.window)) with
      | (false, window') => some (.error (.repeatedAccess nonce), { w with window := window' })
      | (true, window') =>
        if nonce = w.lowerBound then
          (checkedSlide (size window' + 1) window' nonce).map fun r => (.ok (), ⟨r.2, r.1⟩)
        else
          some (.ok (), { w with window := window' })

/-- The nonces that the loop passes are `u64` values, if as many as it may pass are. -/
theorem checkedSlide_of_slide {fuel nonce stop : ℕ} {window window' : T}
    (hfits : nonce + fuel ≤ u64Size) (h : slide fuel window nonce = some (window', stop)) :
    checkedSlide fuel window nonce = some (window', stop) := by
  induction fuel generalizing window nonce with
  | zero => cases h
  | succ fuel ih =>
    rw [slide] at h
    rw [checkedSlide]
    rcases hv : validateAt window (modulo nonce (size window)) with ⟨found, v⟩
    rw [hv] at h
    cases found with
    | true =>
      -- there is a next round, so the next nonce is not the last that fits
      have hfuel : fuel ≠ 0 := by
        rintro rfl
        cases h
      have hlt : nonce + 1 < u64Size := by omega
      rw [u64Add_of_lt hlt] at h
      rw [u64CheckedAdd_of_lt hlt, u64Add_of_lt hlt]
      exact ih (by omega) h
    | false => exact h

theorem checkedIsInBounds_of_lt {w : RollingNonceWindow T}
    (hov : w.lowerBound + size w.window < u64Size) (nonce : ℕ) :
    w.checkedIsInBounds nonce = some (w.isInBounds nonce) := by
  rw [checkedIsInBounds, isInBounds, u64CheckedAdd_of_lt hov]
  split
  · next hle => simp [hle]
  · next hle => simp [hle]

theorem length_getInvalidateAt (bits : List Bool) (index : ℕ) :
    (getInvalidateAt bits index).2.length = bits.length := by
  simp only [getInvalidateAt]
  split
  · exact List.length_set
  · rfl

variable {A : Finset ℕ} {w : RollingNonceWindow (List Bool)}

/-- The checks pass, and nothing else changes. -/
theorem Represents.checkedIsValid_of_lt (h : Represents A w)
    (hov : w.lowerBound + w.window.length < u64Size) (n : ℕ) :
    w.checkedIsValid n = w.isValid n := by
  obtain ⟨verdict, w', hvalid, -⟩ := h.isValid hov n
  rw [hvalid]
  rw [RollingNonceWindow.isValid] at hvalid
  have hbound : u64CheckedAdd w.lowerBound (size w.window) =
      some (u64Add w.lowerBound (size w.window)) := u64CheckedAdd_of_lt hov
  rw [RollingNonceWindow.checkedIsValid, checkedIsInBounds_of_lt hov, Option.bind_some, hbound]
  split at hvalid
  · next hout => rw [if_pos hout, ← hvalid, Option.map_some]
  · next hin =>
    rw [if_neg hin]
    rcases hget : getInvalidateAt w.window (modulo n (size w.window)) with ⟨free, window'⟩
    rw [hget] at hvalid
    cases free with
    | false => exact hvalid
    | true =>
      dsimp only at hvalid ⊢
      split at hvalid
      · next hlow =>
        obtain ⟨⟨bits, stop⟩, hslide, hresult⟩ := Option.map_eq_some_iff.mp hvalid
        have hlen : size window' = w.window.length := by
          have hbits := length_getInvalidateAt w.window (modulo n (size w.window))
          rwa [hget] at hbits
        rw [if_pos hlow, checkedSlide_of_slide (by rw [hlen, hlow]; omega) hslide,
          Option.map_some, hresult]
      · next hlow => rw [if_neg hlow, hvalid]

/-- **The window with checks** computes what it computes without them, unless its end is no `u64`
value: then it panics, whatever the nonce. -/
theorem Represents.checkedIsValid (h : Represents A w) (n : ℕ) : w.checkedIsValid n =
      if w.lowerBound + w.window.length < u64Size then w.isValid n else none := by
  split
  · next hov => exact h.checkedIsValid_of_lt hov n
  · next hov =>
    have hnone : u64CheckedAdd w.lowerBound (size w.window) = none := u64CheckedAdd_eq_none hov
    rw [RollingNonceWindow.checkedIsValid, checkedIsInBounds, hnone]
    split <;> rfl

end RollingNonceWindow

/-! ### Both operations of an end -/

namespace NonceGeneratorValidator

open RollingNonceWindow ReplayWindow

variable (g : NonceGeneratorValidator)

/-- The index in the window that a nonce on the wire stands for. -/
def checkedWindowIndex (nonce : ℕ) : Option ℕ :=
  if g.isInitiatorSession then u64CheckedSub nonce u64Half else some nonce

/-- `validate`. -/
def checkedValidate (nonce : ℕ) : Option (Except BitStoreError Unit × NonceGeneratorValidator) :=
  (g.checkedWindowIndex nonce).bind fun index =>
    (g.validator.checkedIsValid index).map fun r => (r.1, { g with validator := r.2 })

/-- A new end. -/
def ofRole (isInitiator : Bool) : NonceGeneratorValidator :=
  if isInitiator then newNonceGeneratorValidatorForSessionInitiator
  else newNonceGeneratorValidatorForSessionResponder

/-- What an end is asked for. -/
inductive Event
  | send
  /-- Its opinion on a nonce that has arrived. -/
  | receive (nonce : ℕ)
  deriving DecidableEq, Repr

/-- One operation, in a release build. -/
def step : Event → Option NonceGeneratorValidator
  | .send => some g.getNextSendNonce.2
  | .receive nonce => (g.validate nonce).map Prod.snd

/-- What a new end answers when it is asked for a nonce for the `i`-th time, counted from zero. -/
def nthNonce (isInitiator : Bool) (i : ℕ) : Except NonceGenerationError ℕ :=
  ((fun g => g.getNextSendNonce.2)^[i] (ofRole isInitiator)).getNextSendNonce.1

/-- The nonces of an end. -/
def InHalf (isInitiator : Bool) (nonce : ℕ) : Prop :=
  if isInitiator then nonce < u64Half else u64Half ≤ nonce ∧ nonce < u64Half + u64Half

/-! ### Generating -/

variable {i : ℕ}

theorem getNextSendNonce_of_lt {g : NonceGeneratorValidator} (h : g.usedNonceCounter < u64Half) :
    g.getNextSendNonce = (.ok (g.wireNonce g.usedNonceCounter),
      { g with usedNonceCounter := g.usedNonceCounter + 1 }) := by
  have hadd : u64Add g.usedNonceCounter 1 = g.usedNonceCounter + 1 := by
    refine u64Add_of_lt (Nat.lt_of_le_of_lt (Nat.add_le_add_left ?_ _) (u64Half_add_lt h))
    decide
  rw [getNextSendNonce, if_neg (Nat.ne_of_lt h), wireNonce, hadd]
  split <;> rfl

theorem iterate_getNextSendNonce {g : NonceGeneratorValidator}
    (h : g.usedNonceCounter + i ≤ u64Half) :
    (fun g : NonceGeneratorValidator => g.getNextSendNonce.2)^[i] g =
      { g with usedNonceCounter := g.usedNonceCounter + i } := by
  induction i generalizing g with
  | zero => rfl
  | succ i ih =>
    rw [Function.iterate_succ_apply, getNextSendNonce_of_lt (by omega), ih (by dsimp only; omega)]
    rw [Nat.add_assoc, Nat.add_comm 1 i]

theorem ofRole_isInitiatorSession (isInitiator : Bool) :
    (ofRole isInitiator).isInitiatorSession = isInitiator := by
  cases isInitiator <;> rfl

theorem ofRole_usedNonceCounter (isInitiator : Bool) :
    (ofRole isInitiator).usedNonceCounter = 0 := by
  cases isInitiator <;> rfl

/-- The `i`-th nonce of an end is the `i`-th of its half. -/
theorem nthNonce_of_lt (isInitiator : Bool) (h : i < u64Half) :
    nthNonce isInitiator i = .ok ((ofRole isInitiator).wireNonce i) := by
  have hcounter : (ofRole isInitiator).usedNonceCounter + i ≤ u64Half := by
    rw [ofRole_usedNonceCounter, Nat.zero_add]
    exact Nat.le_of_lt h
  rw [nthNonce, iterate_getNextSendNonce hcounter, ofRole_usedNonceCounter, Nat.zero_add,
    getNextSendNonce_of_lt (by exact h)]
  rfl

theorem inHalf_wireNonce (isInitiator : Bool) (h : i < u64Half) :
    InHalf isInitiator ((ofRole isInitiator).wireNonce i) := by
  rw [InHalf, wireNonce, ofRole_isInitiatorSession, u64Add_of_lt (u64Half_add_lt h)]
  split
  · exact h
  · exact ⟨Nat.le_add_left _ _, Nat.add_lt_add_right h _⟩

/-- An end that is asked again after its last nonce answers with an error. -/
theorem nthNonce_of_le (isInitiator : Bool) (h : u64Half ≤ i) :
    nthNonce isInitiator i = .error (.nonceSpaceExhausted 63) := by
  have hfixed : ∀ {g : NonceGeneratorValidator} (k : ℕ), g.usedNonceCounter = u64Half →
      (fun g : NonceGeneratorValidator => g.getNextSendNonce.2)^[k] g = g := by
    intro g k hg
    refine Function.iterate_fixed ?_ k
    rw [getNextSendNonce, if_pos hg]
  have hlast := iterate_getNextSendNonce (g := ofRole isInitiator) (i := u64Half)
    (by rw [ofRole_usedNonceCounter, Nat.zero_add])
  rw [ofRole_usedNonceCounter, Nat.zero_add] at hlast
  obtain ⟨k, rfl⟩ := Nat.exists_eq_add_of_le' h
  rw [nthNonce, Function.iterate_add_apply, hlast, hfixed k rfl, getNextSendNonce, if_pos rfl]

theorem inHalf_of_nthNonce {isInitiator : Bool} {nonce : ℕ}
    (h : nthNonce isInitiator i = .ok nonce) : InHalf isInitiator nonce := by
  by_cases hi : i < u64Half
  · rw [nthNonce_of_lt isInitiator hi] at h
    exact Except.ok.inj h ▸ inHalf_wireNonce isInitiator hi
  · rw [nthNonce_of_le isInitiator (Nat.le_of_not_lt hi)] at h
    cases h

/-- The two halves have nothing in common. -/
theorem InHalf.not_of_not {isInitiator : Bool} {nonce : ℕ} (h : InHalf isInitiator nonce) :
    ¬ InHalf (!isInitiator) nonce := by
  cases isInitiator with
  | true => exact fun h' => Nat.not_lt_of_le h'.1 h
  | false => exact fun h' => Nat.not_lt_of_le h.1 h'

/-! ### Validating -/

/-- What is known about an end whatever it was asked for. -/
structure Sound (isInitiator : Bool) (g : NonceGeneratorValidator) : Prop where
  role : g.isInitiatorSession = isInitiator
  length : g.validator.window.length = 100
  /-- The window stands for some nonces. -/
  represents : ∃ A, Represents A g.validator

namespace Sound

variable {isInitiator : Bool} {g : NonceGeneratorValidator}

theorem new (isInitiator : Bool) : Sound isInitiator (ofRole isInitiator) where
  role := ofRole_isInitiatorSession isInitiator
  length := by cases isInitiator <;> rfl
  represents := ⟨∅, by cases isInitiator <;> exact represents_new⟩

theorem step {g' e} (h : Sound isInitiator g) (hstep : g.step e = some g') :
    Sound isInitiator g' := by
  cases e with
  | send =>
    obtain ⟨⟩ := hstep
    rw [getNextSendNonce]
    split
    · exact h
    · split
      · exact ⟨h.role, h.length, h.represents⟩
      · exact ⟨h.role, h.length, h.represents⟩
  | receive nonce =>
    obtain ⟨A, hA⟩ := h.represents
    obtain ⟨verdict, w', B, hvalid, hlen, hB⟩ := hA.isValid_returns
      (by rw [h.length]; decide) (g.windowIndex nonce)
    rw [NonceGeneratorValidator.step, validate, hvalid] at hstep
    obtain ⟨⟩ := hstep
    exact ⟨h.role, hlen.trans h.length, B, hB⟩

theorem run {events}
    (h : Run NonceGeneratorValidator.step (fun _ _ => True) (ofRole isInitiator) events g) :
    Sound isInitiator g :=
  h.invariant (new isInitiator) fun h _ hstep => h.step hstep

end Sound

variable {isInitiator : Bool} {g : NonceGeneratorValidator} {nonce : ℕ}

/-- The subtraction does not underflow exactly for the nonces from `U64_HALF` on. -/
theorem checkedWindowIndex_isSome_iff (h : Sound isInitiator g) :
    (g.checkedWindowIndex nonce).isSome ↔ (isInitiator = true → u64Half ≤ nonce) := by
  rw [checkedWindowIndex, h.role]
  cases isInitiator with
  | true =>
    rw [if_pos rfl, u64CheckedSub]
    split
    · next hle => simp [hle]
    · next hle => simp [hle]
  | false => simp

theorem windowIndex_of_checked {index : ℕ} (hnonce : nonce < u64Size)
    (h : g.checkedWindowIndex nonce = some index) : g.windowIndex nonce = index := by
  rw [checkedWindowIndex] at h
  rw [windowIndex]
  split at h
  · next hi => rw [if_pos hi, u64CheckedSub_eq_some hnonce h]
  · next hi => rw [if_neg hi, Option.some.inj h]

/-- **The sums and differences of `validate`** are `u64` values exactly if the subtraction does not
underflow and the window has not come to the end of the `u64` values. -/
theorem checkedValidate_isSome_iff (h : Sound isInitiator g) : (g.checkedValidate nonce).isSome ↔
      (isInitiator = true → u64Half ≤ nonce) ∧ g.validator.lowerBound + 100 < u64Size := by
  obtain ⟨A, hA⟩ := h.represents
  rw [← checkedWindowIndex_isSome_iff h, checkedValidate]
  cases hindex : g.checkedWindowIndex nonce with
  | none => simp
  | some index =>
    rw [Option.bind_some, Option.isSome_map, hA.checkedIsValid, h.length]
    split
    · next hov =>
      obtain ⟨verdict, w', hvalid, -⟩ := hA.isValid (h.length.symm ▸ hov) index
      simp [hvalid, hov]
    · next hov => simp [hov]

/-- Where the checks pass, both builds agree. -/
theorem validate_of_checked (h : Sound isInitiator g) (hnonce : nonce < u64Size) {r}
    (hr : g.checkedValidate nonce = some r) : g.validate nonce = some r := by
  obtain ⟨A, hA⟩ := h.represents
  obtain ⟨index, hindex, hr⟩ := Option.bind_eq_some_iff.mp hr
  obtain ⟨v, hv, hr⟩ := Option.map_eq_some_iff.mp hr
  rw [hA.checkedIsValid] at hv
  split at hv
  · rw [validate, windowIndex_of_checked hnonce hindex, hv, Option.map_some, hr]
  · cases hv

/-- A nonce outside the half of the other end is mapped beyond that half. -/
theorem u64Half_le_windowIndex (h : Sound isInitiator g) (hnonce : nonce < u64Size)
    (hout : ¬ InHalf (!isInitiator) nonce) : u64Half ≤ g.windowIndex nonce := by
  have hsize : u64Half + u64Half + 2 = u64Size := by decide
  rw [windowIndex, h.role]
  cases isInitiator with
  | true =>
    rw [if_pos rfl]
    by_cases hle : u64Half ≤ nonce
    · have hhigh : u64Half + u64Half ≤ nonce := Nat.le_of_not_lt fun hlt => hout ⟨hle, hlt⟩
      rw [u64Sub_of_le hnonce hle]
      omega
    · rw [u64Sub_of_lt (by omega) (Nat.lt_of_not_le hle)]
      omega
  | false => exact Nat.le_of_not_lt hout

/-- **The other half is refused.** While the window lies inside the half of the other end, no nonce
outside that half is accepted. -/
theorem validate_outside (h : Sound isInitiator g) (hnonce : nonce < u64Size)
    (hwindow : g.validator.lowerBound + 100 ≤ u64Half) (hout : ¬ InHalf (!isInitiator) nonce) :
    ∃ e g', g.validate nonce = some (.error e, g') := by
  obtain ⟨A, hA⟩ := h.represents
  have hlt : g.validator.lowerBound + g.validator.window.length < u64Size := by
    rw [h.length]
    exact Nat.lt_of_le_of_lt hwindow (by decide)
  obtain ⟨verdict, w', hvalid, -, hverdict, -⟩ := hA.isValid hlt (g.windowIndex nonce)
  rw [validate, hvalid]
  cases verdict with
  | error e => exact ⟨e, _, rfl⟩
  | ok u =>
    -- what is accepted lies in the window, which ends before
    have hin := (hverdict.mp rfl).2.2
    rw [← hA.lowerBound, h.length] at hin
    have hhalf := u64Half_le_windowIndex h hnonce hout
    omega

/-- **Generating and validating belong together.** The `i`-th nonce of one end is the index `i` in
the window of the other end. An end in any state computes with `u64` values only, exactly if it did
not initiate the session or the nonce is not below `U64_HALF`, and its window has not come to the
end of the `u64` values; both builds then agree. While its window lies inside the half of the other
end it refuses all nonces outside that half, its own among them. -/
theorem halves_dual (isInitiator : Bool) {events : List Event} {g : NonceGeneratorValidator}
    (hrun : Run step (fun _ _ => True) (ofRole isInitiator) events g) :
    (∀ i < u64Half, ∃ nonce < u64Size, nthNonce (!isInitiator) i = .ok nonce ∧
      g.checkedWindowIndex nonce = some i ∧ g.windowIndex nonce = i) ∧
    ∀ nonce < u64Size,
      ((g.checkedValidate nonce).isSome ↔
        (isInitiator = true → u64Half ≤ nonce) ∧ g.validator.lowerBound + 100 < u64Size) ∧
      (∀ r, g.checkedValidate nonce = some r → g.validate nonce = some r) ∧
      (g.validator.lowerBound + 100 ≤ u64Half →
        (¬ InHalf (!isInitiator) nonce → ∃ e g', g.validate nonce = some (.error e, g')) ∧
        ∀ i, nthNonce isInitiator i = .ok nonce → ∃ e g', g.validate nonce = some (.error e, g'))
    := by
  have h := Sound.run hrun
  refine ⟨fun i hi => ?_, fun nonce hnonce => ⟨checkedValidate_isSome_iff h,
    fun r hr => validate_of_checked h hnonce hr, fun hwindow =>
      ⟨validate_outside h hnonce hwindow, fun i hi => ?_⟩⟩⟩
  · have hsides : (ofRole (!isInitiator)).isInitiatorSession = !g.isInitiatorSession := by
      rw [ofRole_isInitiatorSession, h.role]
    have hindex := windowIndex_wireNonce hsides hi
    have hhalf := inHalf_wireNonce (!isInitiator) hi
    have hlt : (ofRole (!isInitiator)).wireNonce i < u64Size := by
      have hsize : u64Half + u64Half + 2 = u64Size := by decide
      rw [InHalf] at hhalf
      split at hhalf <;> omega
    refine ⟨_, hlt, nthNonce_of_lt _ hi, ?_, hindex⟩
    have hsome : (g.checkedWindowIndex ((ofRole (!isInitiator)).wireNonce i)).isSome := by
      rw [checkedWindowIndex_isSome_iff h]
      rintro rfl
      exact hhalf.1
    obtain ⟨index, hsome⟩ := Option.isSome_iff_exists.mp hsome
    rw [hsome, ← windowIndex_of_checked hlt hsome, hindex]
  · exact validate_outside h hnonce hwindow (inHalf_of_nthNonce hi).not_of_not

/-- The end that initiated the session, after its first message, and its own nonce. -/
theorem halves_dual_initiator : ∃ g : NonceGeneratorValidator,
    (∀ i < u64Half, ∃ nonce < u64Size, nthNonce false i = .ok nonce ∧
      g.checkedWindowIndex nonce = some i ∧ g.windowIndex nonce = i) ∧
    (g.checkedValidate u64Half).isSome ∧ ∃ e g', g.validate 0 = some (.error e, g') := by
  have hrun : Run step (fun _ _ => True) (ofRole true) [.send] _ := Run.get_runFrom rfl (by decide)
  obtain ⟨hdual, hvalidate⟩ := halves_dual true hrun
  refine ⟨_, hdual, (hvalidate u64Half (by decide)).1.mpr ⟨fun _ => Nat.le_refl _, by decide⟩, ?_⟩
  exact ((hvalidate 0 (by decide)).2.2 (by decide)).2 0 rfl

/-- A new end that initiated the session receives a message with the nonce `0`: the subtraction
underflows. -/
theorem nonce_zero_underflows :
    Run step (fun _ _ => True) (ofRole true) [] (ofRole true) ∧ 0 < u64Size ∧
      (ofRole true).checkedValidate 0 = none ∧ (ofRole false).checkedValidate 0 ≠ none :=
  ⟨.nil, by decide, rfl, by decide⟩

end NonceGeneratorValidator

end Fyles
