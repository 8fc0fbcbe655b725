import Fyles.RollingNonceWindow

/-!
# Encryption in a session

`crypto/src/lib.rs`. Both ends of a session share a key, and each message carries the nonce it was
encrypted with. An end draws the nonces of its own messages from a counter and checks those of the
other end with a replay window, before it decrypts.

## The cipher

The cipher is ideal. A ciphertext is either the result of encrypting a plaintext with a key and a
nonce, or something else; decryption with a key and a nonce succeeds exactly on what was encrypted
with them. Whether encrypting works is a parameter. Serialisation is not modelled: plaintexts are
values of a type `P`.

## Main results

* `windowIndex_wireNonce` — the window of one end counts the messages of the other end
-/

namespace Fyles

open RollingNonceWindow

/-- What a cipher makes of a plaintext, or something it did not make. -/
inductive Ciphertext (K P : Type)
  | sealed (key : K) (nonce : ℕ) (plaintext : P)
  | other (bytes : List UInt8)
  deriving DecidableEq, Repr

/-- An encrypted message with its nonce. -/
structure Encrypted (K P : Type) where
  nonce : ℕ
  message : Ciphertext K P
  deriving DecidableEq, Repr

/-- Why a message could not be encrypted. -/
inductive EncryptionError
  | nonceGenerationError (e : NonceGenerationError)
  | encryptionFailure
  deriving DecidableEq, Repr

/-- Why a message could not be decrypted. -/
inductive DecryptionError
  | nonceValidationError (e : BitStoreError)
  | decryptionFailure
  deriving DecidableEq, Repr

/-- One end of a session: the key and the nonces. -/
structure Dencryptor (K : Type) where
  cipher : K
  nonceGeneratorValidator : NonceGeneratorValidator
  deriving DecidableEq, Repr

variable {K P : Type}

/-- The decryption of the cipher. -/
def Ciphertext.unseal [DecidableEq K] (key : K) (nonce : ℕ) : Ciphertext K P → Option P
  | .sealed key' nonce' plaintext =>
    if key' = key ∧ nonce' = nonce then some plaintext else none
  | .other _ => none

theorem Ciphertext.unseal_eq_some [DecidableEq K] {key} {nonce : ℕ} {c : Ciphertext K P}
    {plaintext} : c.unseal key nonce = some plaintext ↔ c = .sealed key nonce plaintext := by
  cases c with
  | sealed key' nonce' plaintext' =>
    simp only [Ciphertext.unseal, Ciphertext.sealed.injEq]
    by_cases h : key' = key ∧ nonce' = nonce
    · simp [h]
    · rw [if_neg h]
      constructor
      · nofun
      · rintro ⟨hk, hn, -⟩
        exact absurd ⟨hk, hn⟩ h
  | other bytes => simp [Ciphertext.unseal]

namespace Dencryptor

/-- `encrypt`. The nonce is used up even if the cipher fails. -/
def encrypt (d : Dencryptor K) (seals : Bool) (plaintext : P) :
    Except EncryptionError (Encrypted K P) × Dencryptor K :=
  match d.nonceGeneratorValidator.getNextSendNonce with
  | (.error e, g) => (.error (.nonceGenerationError e), { d with nonceGeneratorValidator := g })
  | (.ok nonce, g) =>
    (if seals then .ok ⟨nonce, .sealed d.cipher nonce plaintext⟩ else .error .encryptionFailure,
      { d with nonceGeneratorValidator := g })

/-- `decrypt`: validate the nonce, which uses it up, and then decrypt. -/
def decrypt [DecidableEq K] (d : Dencryptor K) (msg : Encrypted K P) :
    Option (Except DecryptionError P × Dencryptor K) :=
  (d.nonceGeneratorValidator.validate msg.nonce).map fun r =>
    match r.1 with
    | .error e => (.error (.nonceValidationError e), { d with nonceGeneratorValidator := r.2 })
    | .ok _ =>
      match msg.message.unseal d.cipher msg.nonce with
      | none => (.error .decryptionFailure, { d with nonceGeneratorValidator := r.2 })
      | some plaintext => (.ok plaintext, { d with nonceGeneratorValidator := r.2 })

end Dencryptor

/-! ### Nonces on the wire -/

variable {g g' : NonceGeneratorValidator}

namespace NonceGeneratorValidator

/-- The nonce of the `k`-th message of an end, as it is sent. -/
def wireNonce (g : NonceGeneratorValidator) (k : ℕ) : ℕ :=
  if g.isInitiatorSession then k else u64Add k u64Half

theorem u64Half_add_lt {k : ℕ} (hk : k < u64Half) : k + u64Half < u64Size := by
  simp only [u64Half, u64Size] at *
  omega

/-- The window of one end counts the messages of the other end. -/
theorem windowIndex_wireNonce {k : ℕ}
    (hsides : g'.isInitiatorSession = !g.isInitiatorSession) (hk : k < u64Half) :
    g.windowIndex (g'.wireNonce k) = k := by
  rw [windowIndex, wireNonce, hsides]
  cases g.isInitiatorSession with
  | false => rfl
  | true =>
    have hle : u64Half ≤ u64Size := by decide
    have hlt : k < u64Size := Nat.lt_of_lt_of_le hk hle
    simp only [Bool.not_true, Bool.false_eq_true, if_false, if_true]
    rw [u64Add_of_lt (u64Half_add_lt hk), u64Sub]
    have hsum : k + u64Half + (u64Size - u64Half) = k + u64Size := by omega
    rw [hsum, Nat.add_mod_right, Nat.mod_eq_of_lt hlt]

/-- What the generator returns, and what it leaves. -/
theorem getNextSendNonce_ok {nonce : ℕ}
    (hle : g.usedNonceCounter ≤ u64Half) (h : g.getNextSendNonce = (.ok nonce, g')) :
    g.usedNonceCounter < u64Half ∧ nonce = g.wireNonce g.usedNonceCounter ∧
      g' = { g with usedNonceCounter := g.usedNonceCounter + 1 } := by
  rw [getNextSendNonce] at h
  split at h
  · cases h
  · next hne =>
    have hlt : g.usedNonceCounter < u64Half := lt_of_le_of_ne hle hne
    have hadd : u64Add g.usedNonceCounter 1 = g.usedNonceCounter + 1 := by
      have hpos : 1 ≤ u64Half := by decide
      exact u64Add_of_lt (lt_of_le_of_lt (Nat.add_le_add_left hpos _) (u64Half_add_lt hlt))
    refine ⟨hlt, ?_⟩
    rw [wireNonce, ← hadd]
    split at h
    · next hi =>
      obtain ⟨hn, rfl⟩ := Prod.mk.inj h
      exact ⟨by rw [if_pos hi, ← Except.ok.inj hn], rfl⟩
    · next hi =>
      obtain ⟨hn, rfl⟩ := Prod.mk.inj h
      exact ⟨by rw [if_neg hi, ← Except.ok.inj hn], rfl⟩

theorem getNextSendNonce_error {e} (h : g.getNextSendNonce = (.error e, g')) : g' = g := by
  rw [getNextSendNonce] at h
  split at h
  · exact (Prod.mk.inj h).2.symm
  · split at h <;> cases h

end NonceGeneratorValidator

end Fyles
