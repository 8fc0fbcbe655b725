import Fyles.Dencryptor
import Fyles.Internal.Update
import Mathlib.Data.List.Nodup

/-!
# The nonces of a session

Both ends of a session encrypt under one key, so no nonce may be used twice by either of them or by
both. Each end counts its own messages. The end that initiated the session takes the counter as
nonce, the other end adds half of the `u64` values; an end that has counted that far stops. Which
end is which is decided when the cipher is made (`to_cipher`).

The two ends encrypt and decrypt in any order here. A nonce counts as used when it is given to the
cipher, also if the cipher fails then: it is the nonce in the message that a cipher that works would
have made.

## Main results

* `Counted.call` — one call keeps the nonces apart
* `nonceSafe_of_calls` — so any number of calls does
-/

namespace Fyles

open Function (update update_of_ne update_self)

/-! ### The bytes of a nonce -/

/-- `to_le_bytes`, for a number of bytes. -/
def toLeBytes (width n : ℕ) : List UInt8 :=
  (List.range width).map fun i => UInt8.ofNat (n / 256 ^ i)

/-- The bytes of a number determine it, up to their number. -/
theorem mod_eq_of_toLeBytes_eq {width n m : ℕ} (h : toLeBytes width n = toLeBytes width m) :
    n % 256 ^ width = m % 256 ^ width := by
  induction width with
  | zero => rw [pow_zero, Nat.mod_one, Nat.mod_one]
  | succ width ih =>
    simp only [toLeBytes, List.range_succ, List.map_append, List.map_cons, List.map_nil] at h
    obtain ⟨hlow, hhigh⟩ := List.append_inj h (by simp)
    have hdigit : n / 256 ^ width % 256 = m / 256 ^ width % 256 := by
      have hbyte := congrArg UInt8.toNat (List.cons.inj hhigh).1
      rwa [UInt8.toNat_ofNat', UInt8.toNat_ofNat'] at hbyte
    rw [Nat.mod_pow_succ, Nat.mod_pow_succ, ih hlow, hdigit]

/-- `nonce_vec`: the nonce of the cipher. -/
def nonceVec (nonce : ℕ) : List UInt8 := toLeBytes 8 nonce ++ List.replicate 4 0

theorem nonceVec_injective {n m : ℕ} (hn : n < u64Size) (hm : m < u64Size)
    (h : nonceVec n = nonceVec m) : n = m := by
  have hmod : n % u64Size = m % u64Size := mod_eq_of_toLeBytes_eq (List.append_cancel_right h)
  rwa [Nat.mod_eq_of_lt hn, Nat.mod_eq_of_lt hm] at hmod

/-! ### The two ends -/

/-- The end that initiated the session, and the other one. -/
inductive Side
  | initiator
  | responder
  deriving DecidableEq, Repr

variable {S K P : Type}

/-- `to_cipher`. The derivation of the key is a parameter. -/
def toCipher (deriveKey : S → K) (secrets : S) (forInitiator : Bool) : Dencryptor K where
  cipher := deriveKey secrets
  nonceGeneratorValidator :=
    if forInitiator then newNonceGeneratorValidatorForSessionInitiator
    else newNonceGeneratorValidatorForSessionResponder

/-- What an end can be called to do. -/
inductive Call (K P : Type)
  /-- Encrypt a plaintext, which the cipher does or fails to do. -/
  | encrypt (side : Side) (seals : Bool) (plaintext : P)
  | decrypt (side : Side) (msg : Encrypted K P)

/-- The two ends of a session, and what became of their calls of `encrypt`. -/
structure Exchange (K P : Type) where
  dencryptor : Side → Dencryptor K
  /-- The nonces that the cipher was given, and by which end. -/
  nonces : List (Side × ℕ)
  results : List (Side × Except EncryptionError (Encrypted K P))

namespace Exchange

/-- A new session: both ends have the same secrets. -/
def new (deriveKey : S → K) (secrets : S) : Exchange K P where
  dencryptor side := toCipher deriveKey secrets (side = .initiator)
  nonces := []
  results := []

/-- The nonce that an end gives to the cipher to encrypt a plaintext: that of the message, if the
cipher works. -/
def nonceOf (d : Dencryptor K) (plaintext : P) : Option ℕ :=
  match (d.encrypt true plaintext).1 with
  | .ok ⟨_, .sealed _ nonce _⟩ => some nonce
  | _ => none

/-- What a call does. -/
def call [DecidableEq K] (x : Exchange K P) : Call K P → Exchange K P
  | .encrypt side seals plaintext =>
    let r := (x.dencryptor side).encrypt seals plaintext
    { dencryptor := update x.dencryptor side r.2
      nonces := x.nonces ++ (nonceOf (x.dencryptor side) plaintext).toList.map (side, ·)
      results := x.results ++ [(side, r.1)] }
  | .decrypt side msg =>
    match (x.dencryptor side).decrypt msg with
    | some (_, d) => { x with dencryptor := update x.dencryptor side d }
    | none => x

end Exchange

/-- The error of an end that has used all its nonces. -/
def exhausted : EncryptionError := .nonceGenerationError (.nonceSpaceExhausted 63)

/-- How many nonces an end has used. -/
def Dencryptor.counter (d : Dencryptor K) : ℕ := d.nonceGeneratorValidator.usedNonceCounter

/-- The nonce of a message, if there is one. -/
def sentNonce (r : Side × Except EncryptionError (Encrypted K P)) : Option (Side × ℕ) :=
  r.2.toOption.map fun msg => (r.1, msg.nonce)

/-- **What the nonces of a session should be**, where both ends have a key. -/
structure NonceSafe (key : K) (x : Exchange K P) : Prop where
  /-- All nonces that the cipher was given are different. -/
  distinct : (x.nonces.map fun n => nonceVec n.2).Nodup
  /-- Each message took one of them, in this order. -/
  taken : (x.results.filterMap sentNonce).Sublist x.nonces
  /-- A message is encrypted under the key, with the nonce that is sent with it. -/
  sealed : ∀ r ∈ x.results, ∀ msg, r.2 = .ok msg →
    ∃ plaintext, msg.message = .sealed key msg.nonce plaintext
  /-- The sums that an end computes for its next nonce, if it has one, fit into a `u64`. -/
  fits : ∀ side, (x.dencryptor side).counter ≠ u64Half →
    (x.dencryptor side).counter + 1 < u64Size ∧ (x.dencryptor side).counter + u64Half < u64Size
  /-- An end that has used all its nonces, and only such an end, refuses to encrypt for the lack
  of a nonce. -/
  refuses : ∀ side seals plaintext,
    ((x.dencryptor side).encrypt seals (plaintext : P)).1 = .error exhausted ↔
      x.nonces.countP (fun n => n.1 = side) = u64Half
  /-- An end that has refused once refused ever after. -/
  final : x.results.Pairwise fun r r' => r.1 = r'.1 → r.2 = .error exhausted →
    r'.2 = .error exhausted

/-! ### One call -/

/-- The nonces of an end start here. -/
def Side.base : Side → ℕ
  | .initiator => 0
  | .responder => u64Half

/-- The end of a session, and its key. -/
structure Dencryptor.IsAt (d : Dencryptor K) (key : K) (side : Side) : Prop where
  key : d.cipher = key
  role : d.nonceGeneratorValidator.isInitiatorSession = decide (side = .initiator)

variable {d : Dencryptor K} {key : K} {side : Side}

/-- The sums that the generator computes do not overflow below its bound. -/
theorem counter_fits (h : d.counter < u64Half) :
    d.counter + 1 < u64Size ∧ d.counter + u64Half < u64Size := by
  have hsum := NonceGeneratorValidator.u64Half_add_lt h
  omega

/-- The nonce that the counter of an end stands for. -/
theorem getNextSendNonce_at (hside : d.IsAt key side) (hlt : d.counter < u64Half) :
    d.nonceGeneratorValidator.getNextSendNonce = (.ok (side.base + d.counter),
      { d.nonceGeneratorValidator with usedNonceCounter := d.counter + 1 }) := by
  obtain ⟨hone, hhalf⟩ := counter_fits hlt
  have hne : d.nonceGeneratorValidator.usedNonceCounter ≠ u64Half := Nat.ne_of_lt hlt
  have hstep : u64Add d.nonceGeneratorValidator.usedNonceCounter 1 = d.counter + 1 :=
    u64Add_of_lt hone
  have hshift : u64Add d.nonceGeneratorValidator.usedNonceCounter u64Half = d.counter + u64Half :=
    u64Add_of_lt hhalf
  rw [NonceGeneratorValidator.getNextSendNonce, if_neg hne]
  dsimp only
  rw [hstep, hshift, hside.role]
  cases side with
  | initiator =>
    rw [Side.base, Nat.zero_add]
    rfl
  | responder =>
    rw [Side.base, Nat.add_comm u64Half]
    rfl

/-- What the cipher makes of a nonce, if it works. -/
def sealing (key : K) (nonce : ℕ) (plaintext : P) (seals : Bool) :
    Except EncryptionError (Encrypted K P) :=
  if seals then .ok ⟨nonce, .sealed key nonce plaintext⟩ else .error .encryptionFailure

/-- **What encrypting does**: an end without nonces refuses and stays as it is; otherwise it uses
the nonce that its counter stands for. -/
theorem Dencryptor.encrypt_cases (hside : d.IsAt key side) (hle : d.counter ≤ u64Half)
    (seals : Bool) (plaintext : P) :
    (d.counter = u64Half ∧ Exchange.nonceOf d plaintext = none ∧
      d.encrypt seals plaintext = (.error exhausted, d)) ∨
    (d.counter < u64Half ∧ Exchange.nonceOf d plaintext = some (side.base + d.counter) ∧
      (d.encrypt seals plaintext).1 = sealing key (side.base + d.counter) plaintext seals ∧
      (d.encrypt seals plaintext).2.counter = d.counter + 1 ∧
      (d.encrypt seals plaintext).2.IsAt key side) := by
  rcases Nat.eq_or_lt_of_le hle with heq | hlt
  · have hnext : d.nonceGeneratorValidator.getNextSendNonce =
        (.error (.nonceSpaceExhausted 63), d.nonceGeneratorValidator) := if_pos heq
    exact .inl ⟨heq, by rw [Exchange.nonceOf, encrypt, hnext], by rw [encrypt, hnext]; rfl⟩
  · have hnext := getNextSendNonce_at hside hlt
    refine .inr ⟨hlt, by rw [Exchange.nonceOf, encrypt, hnext]; rfl, ?_⟩
    rw [encrypt, hnext, hside.key]
    exact ⟨rfl, rfl, rfl, hside.role⟩

theorem sealing_ne_exhausted {nonce : ℕ} {plaintext : P} {seals} :
    sealing key nonce plaintext seals ≠ .error exhausted := by
  cases seals <;> nofun

/-- Decrypting does not concern the nonces of the own messages. -/
theorem Dencryptor.decrypt_counter [DecidableEq K] {d' msg} {r : Except DecryptionError P}
    (h : d.decrypt msg = some (r, d')) : d'.counter = d.counter ∧
      (d.IsAt key side → d'.IsAt key side) := by
  rw [decrypt, NonceGeneratorValidator.validate, Option.map_map] at h
  obtain ⟨⟨verdict, w⟩, -, heq⟩ := Option.map_eq_some_iff.mp h
  cases verdict with
  | error e =>
    cases heq
    exact ⟨rfl, fun h => ⟨h.key, h.role⟩⟩
  | ok u =>
    split at heq
    · cases heq
      exact ⟨rfl, fun h => ⟨h.key, h.role⟩⟩
    · cases heq
      exact ⟨rfl, fun h => ⟨h.key, h.role⟩⟩

/-! ### The invariant -/

/-- The nonces that were used are those below the counters, and each was used once. -/
structure Counted (key : K) (x : Exchange K P) : Prop where
  isAt : ∀ side, (x.dencryptor side).IsAt key side
  bound : ∀ side, (x.dencryptor side).counter ≤ u64Half
  used : ∀ side n, (side, n) ∈ x.nonces → ∃ k < (x.dencryptor side).counter, n = side.base + k
  spent : ∀ side, x.nonces.countP (fun n => n.1 = side) = (x.dencryptor side).counter
  nodup : x.nonces.Nodup
  taken : (x.results.filterMap sentNonce).Sublist x.nonces
  sealed : ∀ r ∈ x.results, ∀ msg, r.2 = .ok msg →
    ∃ plaintext, msg.message = .sealed key msg.nonce plaintext
  /-- An end that has refused has used all its nonces. -/
  refused : ∀ r ∈ x.results, r.2 = .error exhausted → (x.dencryptor r.1).counter = u64Half
  final : x.results.Pairwise fun r r' => r.1 = r'.1 → r.2 = .error exhausted →
    r'.2 = .error exhausted

namespace Counted

variable {x : Exchange K P}

theorem new (deriveKey : S → K) (secrets : S) :
    Counted (deriveKey secrets) (.new deriveKey secrets : Exchange K P) where
  isAt side := by cases side <;> exact ⟨rfl, rfl⟩
  bound side := by cases side <;> exact Nat.zero_le _
  used side n h := by cases h
  spent side := by cases side <;> rfl
  nodup := List.nodup_nil
  taken := .slnil
  sealed r h := by cases h
  refused r h := by cases h
  final := List.Pairwise.nil

theorem side_eq_of_eq (h : Counted key x) {side side'} {n : ℕ} (hn : (side, n) ∈ x.nonces)
    (hn' : (side', n) ∈ x.nonces) : side = side' := by
  obtain ⟨k, hk, heq⟩ := h.used side n hn
  obtain ⟨k', hk', heq'⟩ := h.used side' n hn'
  have hbound := h.bound side
  have hbound' := h.bound side'
  cases side with
  | initiator =>
    cases side' with
    | initiator => rfl
    | responder =>
      simp only [Side.base] at heq heq'
      omega
  | responder =>
    cases side' with
    | initiator =>
      simp only [Side.base] at heq heq'
      omega
    | responder => rfl

theorem lt_u64Size (h : Counted key x) {side} {n : ℕ} (hn : (side, n) ∈ x.nonces) :
    n < u64Size := by
  obtain ⟨k, hk, rfl⟩ := h.used side n hn
  have hsum := NonceGeneratorValidator.u64Half_add_lt (Nat.lt_of_lt_of_le hk (h.bound side))
  cases side with
  | initiator =>
    simp only [Side.base]
    omega
  | responder =>
    simp only [Side.base]
    omega

theorem nonceSafe (h : Counted key x) : NonceSafe key x where
  distinct := by
    refine List.Nodup.map_on ?_ h.nodup
    rintro ⟨side, n⟩ hn ⟨side', n'⟩ hn' heq
    obtain rfl : n = n' := nonceVec_injective (h.lt_u64Size hn) (h.lt_u64Size hn') heq
    rw [h.side_eq_of_eq hn hn']
  fits side hne := counter_fits (lt_of_le_of_ne (h.bound side) hne)
  refuses side seals plaintext := by
    rw [h.spent side]
    rcases Dencryptor.encrypt_cases (h.isAt side) (h.bound side) seals plaintext with
      ⟨heq, -, hencrypt⟩ | ⟨hlt, -, hresult, -⟩
    · rw [hencrypt]
      exact iff_of_true rfl heq
    · rw [hresult]
      exact iff_of_false sealing_ne_exhausted (Nat.ne_of_lt hlt)
  taken := h.taken
  sealed := h.sealed
  final := h.final

/-- A call of `encrypt` at an end that has used all its nonces. -/
theorem refuse (h : Counted key x) {side} (heq : (x.dencryptor side).counter = u64Half) :
    Counted key { x with results := x.results ++ [(side, .error exhausted)] } := by
  refine ⟨h.isAt, h.bound, h.used, h.spent, h.nodup, ?_, ?_, ?_, ?_⟩
  · rw [List.filterMap_append]
    exact (List.append_nil _).symm ▸ h.taken
  · intro r hr msg hok
    rcases List.mem_append.mp hr with hr | hr
    · exact h.sealed r hr msg hok
    · rw [List.mem_singleton.mp hr] at hok
      cases hok
  · intro r hr hexhausted
    rcases List.mem_append.mp hr with hr | hr
    · exact h.refused r hr hexhausted
    · rw [List.mem_singleton.mp hr]
      exact heq
  · refine List.pairwise_append.mpr ⟨h.final, List.pairwise_singleton _ _, ?_⟩
    intro r _ r' hr' _ _
    rw [List.mem_singleton.mp hr']

/-- A call of `encrypt` at an end that has a nonce left. -/
theorem use (h : Counted key x) {side} (hlt : (x.dencryptor side).counter < u64Half) {d}
    (hcounter : d.counter = (x.dencryptor side).counter + 1) (hside : d.IsAt key side)
    (plaintext : P) (seals : Bool) : Counted key
      { dencryptor := update x.dencryptor side d
        nonces := x.nonces ++ [(side, side.base + (x.dencryptor side).counter)]
        results := x.results ++
          [(side, sealing key (side.base + (x.dencryptor side).counter) plaintext seals)] } := by
  have hself : update x.dencryptor side d side = d := update_self ..
  have hne : ∀ {side'}, side' ≠ side →
      update x.dencryptor side d side' = x.dencryptor side' :=
    fun hne => update_of_ne hne ..
  constructor
  case isAt =>
    intro side'
    dsimp only
    by_cases hs : side' = side
    · rw [hs, hself]
      exact hside
    · rw [hne hs]
      exact h.isAt side'
  case bound =>
    intro side'
    dsimp only
    by_cases hs : side' = side
    · rw [hs, hself, hcounter]
      exact hlt
    · rw [hne hs]
      exact h.bound side'
  case used =>
    intro side' n hn
    dsimp only
    rcases List.mem_append.mp hn with hn | hn
    · obtain ⟨k, hk, heq⟩ := h.used side' n hn
      refine ⟨k, ?_, heq⟩
      by_cases hs : side' = side
      · rw [hs] at hk
        rw [hs, hself, hcounter]
        exact Nat.lt_succ_of_lt hk
      · rw [hne hs]
        exact hk
    · obtain ⟨rfl, rfl⟩ := Prod.mk.inj (List.mem_singleton.mp hn)
      exact ⟨_, by rw [hself, hcounter]; exact Nat.lt_succ_self _, rfl⟩
  case spent =>
    intro side'
    dsimp only
    rw [List.countP_append, h.spent side']
    by_cases hs : side' = side
    · rw [hs, hself, hcounter]
      simp
    · rw [hne hs]
      simp [Ne.symm hs]
  case nodup =>
    refine List.Nodup.append h.nodup (List.nodup_singleton _) ?_
    -- the nonces that were used so far lie below the counter
    rw [List.disjoint_singleton]
    intro hused
    obtain ⟨k, hk, heq⟩ := h.used side _ hused
    exact absurd (Nat.add_left_cancel heq) (Nat.ne_of_gt hk)
  case taken =>
    rw [List.filterMap_append]
    refine h.taken.append ?_
    cases seals with
    | false => exact List.nil_sublist _
    | true => exact List.Sublist.refl _
  case sealed =>
    intro r hr msg hok
    rcases List.mem_append.mp hr with hr | hr
    · exact h.sealed r hr msg hok
    · rw [List.mem_singleton.mp hr] at hok
      cases seals with
      | false => cases hok
      | true => exact ⟨plaintext, Except.ok.inj hok ▸ rfl⟩
  case refused =>
    intro r hr hexhausted
    dsimp only
    rcases List.mem_append.mp hr with hr | hr
    · have hcount := h.refused r hr hexhausted
      have hs : r.1 ≠ side := by
        rintro rfl
        exact absurd hcount (Nat.ne_of_lt hlt)
      rw [hne hs]
      exact hcount
    · rw [List.mem_singleton.mp hr] at hexhausted
      exact absurd hexhausted sealing_ne_exhausted
  case final =>
    refine List.pairwise_append.mpr ⟨h.final, List.pairwise_singleton _ _, ?_⟩
    intro r hr r' hr' hs hexhausted
    -- an end that has refused has no nonce left
    rw [List.mem_singleton.mp hr'] at hs
    have hcount := h.refused r hr hexhausted
    rw [hs] at hcount
    exact absurd hcount (Nat.ne_of_lt hlt)

theorem keep (h : Counted key x) {f : Side → Dencryptor K}
    (hcounter : ∀ side, (f side).counter = (x.dencryptor side).counter)
    (hside : ∀ side, (f side).IsAt key side) : Counted key { x with dencryptor := f } where
  isAt := hside
  bound side := by
    rw [hcounter]
    exact h.bound side
  used side n hn := by
    rw [hcounter]
    exact h.used side n hn
  spent side := by
    rw [hcounter]
    exact h.spent side
  nodup := h.nodup
  taken := h.taken
  sealed := h.sealed
  refused r hr hexhausted := by
    rw [hcounter]
    exact h.refused r hr hexhausted
  final := h.final

/-- **One call** keeps the nonces apart. -/
theorem call [DecidableEq K] (h : Counted key x) (c : Call K P) : Counted key (x.call c) := by
  cases c with
  | encrypt side seals plaintext =>
    rw [Exchange.call]
    rcases Dencryptor.encrypt_cases (h.isAt side) (h.bound side) seals plaintext with
      ⟨heq, hnone, hencrypt⟩ | ⟨hlt, hsome, hresult, hcounter, hside⟩
    · rw [hencrypt, hnone]
      rw [Function.update_eq_self, Option.toList_none, List.map_nil, List.append_nil]
      exact h.refuse heq
    · rw [hsome, hresult]
      exact h.use hlt hcounter hside plaintext seals
  | decrypt side msg =>
    rw [Exchange.call]
    split
    · next r d hdecrypt =>
      obtain ⟨hcounter, hside⟩ := Dencryptor.decrypt_counter hdecrypt
      refine h.keep (fun side' => ?_) fun side' => ?_
      · by_cases hs : side' = side
        · rw [hs, update_self, hcounter]
        · rw [update_of_ne hs]
      · by_cases hs : side' = side
        · rw [hs, update_self]
          exact hside (h.isAt side)
        · rw [update_of_ne hs]
          exact h.isAt side'
    · exact h

end Counted

/-- **Nonces are never used twice.** Whatever the two ends of a session encrypt and decrypt, in
whichever order: the nonces that the cipher is given are pairwise different, each message takes one
of them for itself, the sums that lead to them do not overflow, and an end that has used its half
refuses to encrypt from then on. -/
theorem nonceSafe_of_calls [DecidableEq K] (deriveKey : S → K) (secrets : S)
    (calls : List (Call K P)) :
    NonceSafe (deriveKey secrets)
      (calls.foldl Exchange.call (.new deriveKey secrets : Exchange K P)) := by
  have hcounted : ∀ x : Exchange K P, Counted (deriveKey secrets) x →
      Counted (deriveKey secrets) (calls.foldl Exchange.call x) := by
    induction calls with
    | nil => exact fun _ h => h
    | cons c calls ih => exact fun x h => ih _ (h.call c)
  exact (hcounted _ (.new deriveKey secrets)).nonceSafe

end Fyles
