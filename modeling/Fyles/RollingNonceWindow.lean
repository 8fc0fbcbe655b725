import Fyles.Internal.Ring
import Mathlib.Data.Finset.Lattice.Fold
import Mathlib.Data.List.GetD

/-!
# The rolling nonce window

`crypto/src/rolling_nonce_window.rs`: a ring of bits with a moving lower bound. A bit is `true`
while the nonce it stands for is still valid; the slot of a nonce is the nonce modulo the size of
the ring. When the nonce at the lower bound arrives, a loop walks over the used slots from there
on, marks each valid again for the nonce one ring size later, and stops at the first slot that is
still valid.

## Machine integers

Nonces are `u64`. They are natural numbers here, and the additions that the code does on them are
taken modulo `2 ^ 64`, as in a release build (`u64Add`, `u64Sub`).

## The loop

`slide` is the loop of `is_valid`, cut off after `fuel` rounds; `none` means that it had not
stopped by then. `isValid` runs it for one round more than the ring has slots, and
`Represents.isValid` shows that this is always enough.

## Main results

* `Represents.isValid` — one call of `is_valid` is one step of the abstract replay window
* `Represents.calls` — the same for a sequence of calls
* `isValid_ok_iff_after_calls` — which nonces are accepted after any calls on a new window
-/

namespace Fyles

/-! ### Fixed-width arithmetic -/

/-- The number of values of a `u64`. -/
def u64Size : ℕ := 2 ^ 64

/-- Addition of `u64` values, as a release build does it. -/
def u64Add (a b : ℕ) : ℕ := (a + b) % u64Size

/-- Subtraction of `u64` values, as a release build does it. -/
def u64Sub (a b : ℕ) : ℕ := (a + (u64Size - b)) % u64Size

theorem u64Add_of_lt {a b : ℕ} (h : a + b < u64Size) : u64Add a b = a + b := Nat.mod_eq_of_lt h

/-- `U64_HALF`: the median of all `u64` values. -/
def u64Half : ℕ := (2 ^ 64 - 1) / 2

/-! ### Bit stores -/

/-- The trait `BitStore`. The operations that change the store return it beside their result. -/
class BitStore (T : Type) where
  size : T → ℕ
  /-- Return the bit at an index and set it to `false`. -/
  getInvalidateAt : T → ℕ → Bool × T
  /-- Set the bit at an index to `true` and return whether it needed to be changed. -/
  validateAt : T → ℕ → Bool × T

open BitStore

/-- `impl BitStore for Vec<bool>`. Outside the vector nothing is changed and `false` returned. -/
instance : BitStore (List Bool) where
  size bits := bits.length
  getInvalidateAt bits index :=
    match bits[index]? with
    | some validity => (validity, bits.set index false)
    | none => (false, bits)
  validateAt bits index :=
    match bits[index]? with
    | some true => (false, bits)
    | some false => (true, bits.set index true)
    | none => (false, bits)

/-- Why a nonce was refused. -/
inductive BitStoreError
  | outOfBoundsAccess (tried min max : ℕ)
  | repeatedAccess (nonce : ℕ)
  deriving DecidableEq, Repr

/-! ### The window -/

/-- The window: the least nonce that is still valid, and one bit for each nonce from there on. -/
structure RollingNonceWindow (T : Type) where
  lowerBound : ℕ
  /-- The bits, `true` while the nonce of the slot is valid. -/
  window : T
  deriving DecidableEq, Repr

/-- The slot of a nonce. -/
def modulo (nonce windowSize : ℕ) : ℕ := nonce % windowSize

namespace RollingNonceWindow

variable {T : Type} [BitStore T]

/-- Whether a nonce lies between the lower bound and the end of the window. -/
def isInBounds (w : RollingNonceWindow T) (nonce : ℕ) : Bool :=
  w.lowerBound ≤ nonce && nonce < u64Add w.lowerBound (size w.window)

/-- The loop at the end of `is_valid`: from `nonce` on, make used slots valid again until one is
met that is valid already. Returns the store and the nonce at which the loop stopped. -/
def slide : ℕ → T → ℕ → Option (T × ℕ)
  | 0, _, _ => none
  | fuel + 1, window, nonce =>
    match validateAt window (modulo nonce (size window)) with
    | (true, window') => slide fuel window' (u64Add nonce 1)
    | (false, window') => some (window', nonce)

/-- `is_valid`: the verdict and the window afterwards. `none` would mean that the loop goes on
for more rounds than the window has slots. -/
def isValid (w : RollingNonceWindow T) (nonce : ℕ) :
    Option (Except BitStoreError Unit × RollingNonceWindow T) :=
  if !w.isInBounds nonce then
    some (.error (.outOfBoundsAccess nonce w.lowerBound (u64Add w.lowerBound (size w.window))), w)
  else
    match getInvalidateAt w.window (modulo nonce (size w.window)) with
    | (false, window') => some (.error (.repeatedAccess nonce), { w with window := window' })
    | (true, window') =>
      if nonce = w.lowerBound then
        (slide (size window' + 1) window' nonce).map fun r => (.ok (), ⟨r.2, r.1⟩)
      else
        some (.ok (), { w with window := window' })

end RollingNonceWindow

/-- `new_rolling_nonce_window`. -/
def newRollingNonceWindow : RollingNonceWindow (List Bool) := ⟨0, List.replicate 100 true⟩

/-! ### Generating and validating nonces -/

/-- The nonces of one end of a session: a counter for its own, a window for the other end's. -/
structure NonceGeneratorValidator where
  /-- How many nonces this end has used. -/
  usedNonceCounter : ℕ
  isInitiatorSession : Bool
  /-- The window for the nonces of the other end. -/
  validator : RollingNonceWindow (List Bool)
  deriving DecidableEq, Repr

/-- All nonces of this end are used up. -/
inductive NonceGenerationError
  /-- The only case: the space of `spaceBits` bits is exhausted. -/
  | nonceSpaceExhausted (spaceBits : ℕ)
  deriving DecidableEq, Repr

namespace NonceGeneratorValidator

variable (g : NonceGeneratorValidator)

/-- The next nonce for a message of this end. The responder's nonces are shifted by half of the
`u64` values. -/
def getNextSendNonce : Except NonceGenerationError ℕ × NonceGeneratorValidator :=
  if g.usedNonceCounter = u64Half then
    (.error (.nonceSpaceExhausted 63), g)
  else
    let nonce := g.usedNonceCounter
    let g' := { g with usedNonceCounter := u64Add g.usedNonceCounter 1 }
    if g.isInitiatorSession then (.ok nonce, g') else (.ok (u64Add nonce u64Half), g')

/-- The index in the window that a nonce on the wire stands for. -/
def windowIndex (nonce : ℕ) : ℕ :=
  if g.isInitiatorSession then u64Sub nonce u64Half else nonce

/-- `validate`: ask the window about a nonce of the other end. -/
def validate (nonce : ℕ) : Option (Except BitStoreError Unit × NonceGeneratorValidator) :=
  (g.validator.isValid (g.windowIndex nonce)).map fun r => (r.1, { g with validator := r.2 })

end NonceGeneratorValidator

/-- `new_nonce_generator_validator_for_session_initiator`. -/
def newNonceGeneratorValidatorForSessionInitiator : NonceGeneratorValidator :=
  ⟨0, true, newRollingNonceWindow⟩

/-- `new_nonce_generator_validator_for_session_responder`. -/
def newNonceGeneratorValidatorForSessionResponder : NonceGeneratorValidator :=
  ⟨0, false, newRollingNonceWindow⟩

/-! ### What a ring of bits stands for -/

variable {i : ℕ} {w : RollingNonceWindow (List Bool)}

namespace RollingNonceWindow

open ReplayWindow

/-- From `lo` on, for as many numbers as there are bits, the bit of a number says whether it is
outside `A`. -/
def Marks (A : Finset ℕ) (lo : ℕ) (bits : List Bool) : Prop :=
  Shows bits.length bits (fun n => decide (n ∉ A)) lo

theorem getInvalidateAt_list {bits : List Bool} {v : Bool} (h : bits[i]? = some v) :
    getInvalidateAt bits i = (v, bits.set i false) := by
  simp [getInvalidateAt, h]

theorem validateAt_list_true {bits : List Bool} (h : bits[i]? = some true) :
    validateAt bits i = (false, bits) := by
  simp [validateAt, h]

theorem validateAt_list_false {bits : List Bool} (h : bits[i]? = some false) :
    validateAt bits i = (true, bits.set i true) := by
  simp [validateAt, h]

variable {A : Finset ℕ} {lo n : ℕ} {bits : List Bool}

/-- Invalidating the slot of `n` records `n`. -/
theorem Marks.invalidate (h : Marks A lo bits) (hlo : lo ≤ n) (hn : n < lo + bits.length) :
    Marks (insert n A) lo (bits.set (n % bits.length) false) := by
  have hupdate : (fun m => decide (m ∉ insert n A)) =
      Function.update (fun m => decide (m ∉ A)) n false := by
    funext m
    by_cases hmn : m = n <;> simp [hmn]
  rw [Marks, List.length_set, hupdate]
  exact Shows.set h hlo hn false

/-- Making the used slot of the first number valid again moves the ring on by one. -/
theorem Marks.advance (h : Marks A lo bits) (hpos : 0 < bits.length)
    (hnew : lo + bits.length ∉ A) : Marks A (lo + 1) (bits.set (lo % bits.length) true) := by
  rw [Marks, List.length_set, ← decide_eq_true hnew]
  exact Shows.advance h hpos

/-- **The loop stops at the least missing number.** Every round passes one member of `A`, so the
distance to the least missing number is the number of rounds. -/
theorem Marks.slide (fuel : ℕ) (h : Marks A lo bits) (hpos : 0 < bits.length)
    (hbelow : ∀ m < lo, m ∈ A) (hA : ∀ m ∈ A, m < lo + bits.length)
    (hov : leastMissing A < u64Size) (hfuel : leastMissing A < lo + fuel) :
    ∃ bits', slide fuel bits lo = some (bits', leastMissing A) ∧ bits'.length = bits.length ∧
      Marks A (leastMissing A) bits' := by
  induction fuel generalizing lo bits with
  | zero => exact absurd (hbelow _ (by omega)) (leastMissing_notMem A)
  | succ fuel ih =>
    have hbit := h.slot lo (Nat.le_refl lo) (by omega)
    by_cases hmem : lo ∈ A
    · have hval : validateAt bits (lo % bits.length) = (true, bits.set (lo % bits.length) true) :=
        validateAt_list_false (by simpa [hmem] using hbit)
      have hne : leastMissing A ≠ lo := fun heq => leastMissing_notMem A (heq ▸ hmem)
      have hlo : lo < leastMissing A := by
        refine lt_of_le_of_ne (Nat.le_of_not_lt fun hlt => ?_) (Ne.symm hne)
        exact leastMissing_notMem A (hbelow _ hlt)
      have hadd : u64Add lo 1 = lo + 1 := u64Add_of_lt (by omega)
      have hnext := h.advance hpos fun hc => absurd (hA _ hc) (Nat.lt_irrefl _)
      obtain ⟨bits', hs, hlen, hm⟩ := ih hnext (by simpa using hpos)
        (fun m hm => (Nat.lt_succ_iff_lt_or_eq.mp hm).elim (hbelow m) (fun he => he ▸ hmem))
        (fun m hm => by have := hA m hm; simp only [List.length_set]; omega) (by omega)
      refine ⟨bits', ?_, by simpa using hlen, hm⟩
      simp only [RollingNonceWindow.slide, BitStore.size, modulo]
      rw [hval]
      simpa [hadd] using hs
    · have hval : validateAt bits (lo % bits.length) = (false, bits) :=
        validateAt_list_true (by simpa [hmem] using hbit)
      have hlo : leastMissing A = lo := leastMissing_eq_iff.mpr ⟨hmem, hbelow⟩
      refine ⟨bits, ?_, rfl, by rw [hlo]; exact h⟩
      simp only [RollingNonceWindow.slide, BitStore.size, modulo]
      rw [hval, hlo]

/-- The window stands for the set `A` of accepted nonces. -/
structure Represents (A : Finset ℕ) (w : RollingNonceWindow (List Bool)) : Prop where
  pos : 0 < w.window.length
  /-- The lower bound is the least nonce not accepted. -/
  lowerBound : w.lowerBound = leastMissing A
  /-- The bits of the window say which of its nonces were not accepted. -/
  marks : Marks A (leastMissing A) w.window
  /-- Nothing beyond the window was accepted. -/
  bounded : ∀ n ∈ A, n < leastMissing A + w.window.length

theorem represents_new : Represents ∅ newRollingNonceWindow where
  pos := by simp [newRollingNonceWindow]
  lowerBound := by simp [newRollingNonceWindow]
  marks := by
    rw [Marks, newRollingNonceWindow, List.length_replicate]
    exact Shows.replicate 100 true _
  bounded := by simp

theorem Represents.isInBounds_iff (h : Represents A w)
    (hov : w.lowerBound + w.window.length < u64Size) :
    w.isInBounds n = true ↔ InWindow w.window.length A n := by
  rw [h.lowerBound] at hov
  simp [isInBounds, InWindow, BitStore.size, h.lowerBound, u64Add_of_lt hov]

/-- **One call.** `is_valid` returns, accepts exactly what the abstract replay window accepts,
and leaves a window that stands for what has been accepted then. -/
theorem Represents.isValid (h : Represents A w)
    (hov : w.lowerBound + w.window.length < u64Size) (n : ℕ) :
    ∃ verdict w', w.isValid n = some (verdict, w') ∧ w'.window.length = w.window.length ∧
      (verdict = .ok () ↔ Admits w.window.length A n) ∧
      Represents (if Admits w.window.length A n then insert n A else A) w' := by
  have hov' : leastMissing A + w.window.length < u64Size := h.lowerBound ▸ hov
  by_cases hin : InWindow w.window.length A n
  · have hbounds : w.isInBounds n = true := (h.isInBounds_iff hov).mpr hin
    have hget := getInvalidateAt_list (h.marks.slot n hin.1 hin.2)
    have hmarks := h.marks.invalidate hin.1 hin.2
    by_cases hmem : n ∈ A
    · -- The slot was used: invalidating it again changes nothing.
      have hadm : ¬ Admits w.window.length A n := fun hc => hc.1 hmem
      refine ⟨.error (.repeatedAccess n),
        { w with window := w.window.set (n % w.window.length) false }, ?_, by simp,
        by simp [hadm], ?_⟩
      · simp only [RollingNonceWindow.isValid, hbounds, modulo, BitStore.size]
        rw [hget]
        simp [hmem]
      · rw [if_neg hadm]
        rw [Finset.insert_eq_of_mem hmem] at hmarks
        exact ⟨by simpa using h.pos, h.lowerBound, hmarks, by simpa using h.bounded⟩
    · have hadm : Admits w.window.length A n := ⟨hmem, hin⟩
      have hbounded : ∀ m ∈ insert n A, m < leastMissing A + w.window.length := by
        intro m hm
        rcases Finset.mem_insert.mp hm with rfl | hm
        · exact hin.2
        · exact h.bounded m hm
      by_cases hlow : n = leastMissing A
      · -- The lowest nonce of the window: the loop runs.
        have hle : leastMissing (insert n A) ≤ leastMissing A + w.window.length :=
          leastMissing_le fun hc => absurd (hbounded _ hc) (Nat.lt_irrefl _)
        obtain ⟨bits', hs, hlen, hm⟩ := Marks.slide (w.window.length + 1) hmarks
          (by simpa using h.pos)
          (fun m hm => Finset.mem_insert_of_mem (mem_of_lt_leastMissing hm))
          (by simpa using hbounded) (by omega) (by omega)
        rw [List.length_set] at hlen
        refine ⟨.ok (), ⟨leastMissing (insert n A), bits'⟩, ?_, hlen, by simp [hadm], ?_⟩
        · simp only [RollingNonceWindow.isValid, hbounds, modulo, BitStore.size]
          rw [← hlow] at hs
          rw [hget, if_neg (by simp), h.lowerBound, decide_eq_true hmem]
          simp only [if_pos hlow, List.length_set, hs, Option.map_some]
        · rw [if_pos hadm]
          have hmono : leastMissing A ≤ leastMissing (insert n A) :=
            leastMissing_mono (Finset.subset_insert n A)
          refine ⟨by simpa [hlen] using h.pos, rfl, hm, fun m hm => ?_⟩
          have := hbounded m hm
          simp only [hlen]
          omega
      · refine ⟨.ok (), { w with window := w.window.set (n % w.window.length) false }, ?_, by simp,
          by simp [hadm], ?_⟩
        · simp only [RollingNonceWindow.isValid, hbounds, modulo, BitStore.size]
          rw [hget]
          simp [hmem, h.lowerBound, hlow]
        · rw [if_pos hadm]
          have hlb : leastMissing (insert n A) = leastMissing A := leastMissing_insert_of_ne hlow
          refine ⟨by simpa using h.pos, by simpa [hlb] using h.lowerBound,
            by rw [hlb]; exact hmarks, by simpa [hlb] using hbounded⟩
  · have hbounds : w.isInBounds n = false := by
      rw [Bool.eq_false_iff]
      exact fun hc => hin ((h.isInBounds_iff hov).mp hc)
    have hadm : ¬ Admits w.window.length A n := fun hc => hin hc.2
    exact ⟨.error (.outOfBoundsAccess n w.lowerBound (u64Add w.lowerBound w.window.length)), w,
      by simp [RollingNonceWindow.isValid, hbounds, BitStore.size], rfl, by simp [hadm],
      by rw [if_neg hadm]; exact h⟩

/-- `is_valid` returns whatever the lower bound is: where the end of the window wraps around,
nothing is in bounds. -/
theorem Represents.isValid_returns (h : Represents A w) (hlen : w.window.length ≤ u64Size) (n : ℕ) :
    ∃ verdict w' B, w.isValid n = some (verdict, w') ∧ w'.window.length = w.window.length ∧
      Represents B w' := by
  by_cases hov : w.lowerBound + w.window.length < u64Size
  · obtain ⟨verdict, w', hvalid, hlen', -, hrep⟩ := h.isValid hov n
    exact ⟨verdict, w', _, hvalid, hlen', hrep⟩
  · have hwrap : u64Add w.lowerBound w.window.length ≤ w.lowerBound := by
      have hlt : (w.lowerBound + w.window.length) % u64Size < u64Size :=
        Nat.mod_lt _ (by decide)
      rw [u64Add]
      by_cases hlow : u64Size ≤ w.lowerBound
      · exact hlt.le.trans hlow
      · rw [Nat.mod_eq_sub_mod (Nat.le_of_not_lt hov)]
        exact (Nat.mod_le _ _).trans (by omega)
    have hbounds : w.isInBounds n = false := by
      simp only [isInBounds, BitStore.size, Bool.and_eq_false_iff, decide_eq_false_iff_not]
      omega
    exact ⟨.error (.outOfBoundsAccess n w.lowerBound (u64Add w.lowerBound w.window.length)), w, A,
      by simp [RollingNonceWindow.isValid, hbounds, BitStore.size], rfl, h⟩

/-! ### Sequences of calls -/

variable {ns : List ℕ}

/-- Call `is_valid` with each nonce of a list in turn; the verdicts, each with its nonce, and
the window at the end. -/
def calls (w : RollingNonceWindow (List Bool)) :
    List ℕ → Option (List (ℕ × Except BitStoreError Unit) × RollingNonceWindow (List Bool))
  | [] => some ([], w)
  | n :: ns =>
    (w.isValid n).bind fun r => (calls r.2 ns).map fun rs => ((n, r.1) :: rs.1, rs.2)

/-- The nonces that were answered with `Ok`. -/
def accepted (verdicts : List (ℕ × Except BitStoreError Unit)) : List ℕ :=
  (verdicts.filter fun v => v.2.isOk).map Prod.fst

theorem calls_cons {w₁ w₂} {n : ℕ} {verdict rs} (h₁ : w.isValid n = some (verdict, w₁))
    (h₂ : w₁.calls ns = some (rs, w₂)) : w.calls (n :: ns) = some ((n, verdict) :: rs, w₂) := by
  simp [calls, h₁, h₂]

theorem accepted_cons_ok (n : ℕ) (rs : List (ℕ × Except BitStoreError Unit)) :
    accepted ((n, .ok ()) :: rs) = n :: accepted rs := rfl

/-- The lower bound stays so low that the end of the window does not wrap around, before each
of the calls and after the last. -/
def NoWrap (w : RollingNonceWindow (List Bool)) (ns : List ℕ) : Prop :=
  ∀ pre, pre <+: ns → ∀ rs w', w.calls pre = some (rs, w') →
    w'.lowerBound + w'.window.length < u64Size

theorem NoWrap.head (h : NoWrap w ns) : w.lowerBound + w.window.length < u64Size :=
  h [] List.nil_prefix [] w rfl

theorem NoWrap.tail {w₁} {n : ℕ} {verdict} (h : NoWrap w (n :: ns))
    (h₁ : w.isValid n = some (verdict, w₁)) : NoWrap w₁ ns := fun pre hpre _ w' hw' =>
  h (n :: pre) (List.cons_prefix_cons.mpr ⟨rfl, hpre⟩) _ w' (calls_cons h₁ hw')

/-- **A run of calls.** The window stands for what was accepted before together with what the
calls accept, and no call accepts a nonce accepted before. -/
theorem Represents.calls (h : Represents A w) (hov : NoWrap w ns) :
    ∃ rs w', w.calls ns = some (rs, w') ∧ w'.window.length = w.window.length ∧
      Represents (A ∪ (accepted rs).toFinset) w' ∧ (accepted rs).Nodup ∧
      ∀ n ∈ accepted rs, n ∉ A := by
  induction ns generalizing A w with
  | nil =>
    exact ⟨[], w, rfl, rfl, by simpa [accepted] using h, by simp [accepted], by simp [accepted]⟩
  | cons n ns ih =>
    obtain ⟨verdict, w₁, h₁, hlen₁, hverdict, hrep₁⟩ := h.isValid hov.head n
    obtain ⟨rs, w₂, h₂, hlen₂, hrep₂, hnodup, hnew⟩ := ih hrep₁ (hov.tail h₁)
    refine ⟨(n, verdict) :: rs, w₂, calls_cons h₁ h₂, hlen₂.trans hlen₁, ?_⟩
    cases verdict with
    | ok u =>
      have hadm : Admits w.window.length A n := hverdict.mp rfl
      rw [if_pos hadm] at hrep₂ hnew
      rw [accepted_cons_ok]
      refine ⟨?_, List.nodup_cons.mpr ⟨fun hc => ?_, hnodup⟩, fun m hm => ?_⟩
      · rwa [List.toFinset_cons, Finset.union_insert, ← Finset.insert_union]
      · exact hnew n hc (Finset.mem_insert_self n A)
      · rcases List.mem_cons.mp hm with rfl | hm
        · exact hadm.1
        · exact fun hc => hnew m hm (Finset.mem_insert_of_mem hc)
    | error e =>
      have hadm : ¬ Admits w.window.length A n := fun hc => by simpa using hverdict.mpr hc
      rw [if_neg hadm] at hrep₂ hnew
      exact ⟨hrep₂, hnodup, hnew⟩

/-- **Acceptance is exact.** After any calls on a new window, `is_valid` returns for every nonce,
and it returns `Ok` exactly for those that were not accepted by one of the calls and lie in the
hundred nonces from the least one not accepted on. In particular no nonce is accepted twice,
and one inside the window is accepted in whatever order the others arrive. -/
theorem isValid_ok_iff_after_calls (ns : List ℕ) (n : ℕ)
    (hov : NoWrap newRollingNonceWindow ns) :
    ∃ rs w verdict w', newRollingNonceWindow.calls ns = some (rs, w) ∧
      w.isValid n = some (verdict, w') ∧ (accepted rs).Nodup ∧
      w.lowerBound = leastMissing (accepted rs).toFinset ∧
      (verdict = .ok () ↔ n ∉ accepted rs ∧ leastMissing (accepted rs).toFinset ≤ n ∧
        n < leastMissing (accepted rs).toFinset + 100) := by
  obtain ⟨rs, w, hcalls, hlen, hrep, hnodup, -⟩ := represents_new.calls hov
  have hlen100 : w.window.length = 100 := hlen.trans (by simp [newRollingNonceWindow])
  obtain ⟨verdict, w', hvalid, -, hverdict, -⟩ :=
    hrep.isValid (hov ns (List.prefix_refl ns) rs w hcalls) n
  refine ⟨rs, w, verdict, w', hcalls, hvalid, hnodup, hrep.lowerBound, ?_⟩
  rw [hverdict, hlen100]
  simp [Admits, InWindow]

theorem noWrap_zero_two_one : NoWrap newRollingNonceWindow [0, 2, 1] := by
  intro pre hpre rs w hw
  have hmem : pre ∈ [[], [0], [0, 2], [0, 2, 1]] := (List.mem_inits pre [0, 2, 1]).mpr hpre
  have hall : ∀ p ∈ [[], [0], [0, 2], [0, 2, 1]], ∀ r ∈ newRollingNonceWindow.calls p,
      r.2.lowerBound + r.2.window.length < u64Size := by decide
  exact hall pre hmem (rs, w) hw

/-- After `0`, `2` and `1`, in that order, the window starts at `3`. -/
theorem isValid_ok_iff_after_zero_two_one :
    ∃ rs w verdict w', newRollingNonceWindow.calls [0, 2, 1] = some (rs, w) ∧
      w.isValid 3 = some (verdict, w') ∧ (accepted rs).Nodup ∧
      w.lowerBound = leastMissing (accepted rs).toFinset ∧
      (verdict = .ok () ↔ 3 ∉ accepted rs ∧ leastMissing (accepted rs).toFinset ≤ 3 ∧
        3 < leastMissing (accepted rs).toFinset + 100) :=
  isValid_ok_iff_after_calls [0, 2, 1] 3 noWrap_zero_two_one

end RollingNonceWindow

end Fyles
