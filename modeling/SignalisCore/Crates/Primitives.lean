import SignalisCore.Library.Hmac
import SignalisCore.Library.Sha2

/-!
# The third-party crates under the workspace

What the crates of the workspace call in `hkdf`, `pbkdf2`, `argon2`, `aes-gcm`, `chacha20poly1305`,
`rand`, `base64` and `hex`, as one structure of functions. A function that fills a slice returns an
array of the slice's length. `Primitives.Lawful` collects what the code relies on.

* `rustCrypto` computes the HMAC-based functions; its other members refuse every input.
-/

namespace SignalisCore

open LittleEndian

/-- The `hkdf` crate over one hash function. -/
structure HkdfImpl (hashLen : ℕ) where
  /-- `Hkdf<H>`. -/
  Hk : Type
  /-- `extract(Some(salt), ikm).0`. -/
  extract : Bytes → Bytes → ByteArr hashLen
  /-- `from_prk(prk)`. -/
  fromPrk : Bytes → Option Hk
  /-- `expand(info, okm)` on a slice of the given length. -/
  expand : Hk → Bytes → (len : ℕ) → Option (ByteArr len)

/-- `from_prk` fails only for a short key, `expand` only above `255` blocks. -/
structure HkdfImpl.Lawful {hashLen : ℕ} (H : HkdfImpl hashLen) : Prop where
  fromPrk_isSome : ∀ prk : Bytes, hashLen ≤ prk.length → (H.fromPrk prk).isSome
  expand_isSome : ∀ (hk : H.Hk) (info : Bytes) (len : ℕ), len ≤ 255 * hashLen →
    (H.expand hk info len).isSome

/-- The `argon2` crate with the algorithm and version that the workspace fixes. -/
structure Argon2Impl where
  /-- `Params`. -/
  Params : Type
  /-- `Params::new(m_cost, t_cost, p_cost, Some(length))`; the error is its text. -/
  newParams : UInt32 → UInt32 → UInt32 → ℕ → Except String Params
  /-- `hash_password_into(password, salt, out)` on a slice of the given length. -/
  hashPasswordInto : Params → Bytes → Bytes → (len : ℕ) → Except String (ByteArr len)

/-- An AEAD with a 32-byte key. The last two arguments are the payload's `msg` and `aad`. -/
structure AeadImpl (nonceLen : ℕ) where
  /-- `decrypt`: the plaintext, if the tag is right. -/
  decrypt : ByteArr 32 → ByteArr nonceLen → Bytes → Bytes → Option Bytes

/-- `base64::DecodeError`. -/
inductive DecodeError
  | invalidByte (position : ℕ) (byte : UInt8)
  | invalidLength (length : ℕ)
  | invalidLastSymbol (position : ℕ) (byte : UInt8)
  | invalidPadding
  deriving DecidableEq

/-- `hex::FromHexError`. -/
inductive FromHexError
  | invalidHexCharacter (index : ℕ)
  | oddLength
  | invalidStringLength
  deriving DecidableEq

/-- **The third-party functions that the workspace calls.** -/
structure Primitives where
  /-- `hkdf` over SHA-256. -/
  hkdfSha256 : HkdfImpl 32
  /-- `hkdf` over SHA-512. -/
  hkdfSha512 : HkdfImpl 64
  /-- `pbkdf2_hmac::<Sha256>(password, salt, rounds, res)` on a slice of the given length. -/
  pbkdf2Hmac : Bytes → Bytes → UInt32 → (len : ℕ) → ByteArr len
  /-- `argon2`. -/
  argon2 : Argon2Impl
  /-- `OsRng.fill_bytes` on a slice of the given length. -/
  osRng : (len : ℕ) → ByteArr len
  /-- `Aes256Gcm`. -/
  aes256Gcm : AeadImpl 12
  /-- `ChaCha20Poly1305`. -/
  chaCha20Poly1305 : AeadImpl 12
  /-- `XChaCha20Poly1305`. -/
  xChaCha20Poly1305 : AeadImpl 24
  /-- The text of `aead::Error`. -/
  aeadErrorText : String
  /-- `STANDARD.decode`. -/
  base64Standard : Bytes → Except DecodeError Bytes
  /-- `URL_SAFE_NO_PAD.decode`. -/
  base64UrlSafeNoPad : Bytes → Except DecodeError Bytes
  /-- `hex::decode`. -/
  hexDecode : Bytes → Except FromHexError Bytes
  /-- The text of the error of `core::str::from_utf8`. -/
  utf8ErrorText : Bytes → String

/-- What the workspace relies on. -/
structure Primitives.Lawful (P : Primitives) : Prop where
  hkdfSha256 : P.hkdfSha256.Lawful
  hkdfSha512 : P.hkdfSha512.Lawful

/-! ### A concrete instance -/

/-- HMAC over SHA-256. -/
def sha256Hash : Hmac.Hash := ⟨64, 32, by norm_num, Sha2.sha256⟩

/-- HMAC over SHA-512. -/
def sha512Hash : Hmac.Hash := ⟨128, 64, by norm_num, Sha2.sha512⟩

/-- HKDF over a hash function, with the limits of the crate. -/
def hkdfImpl (H : Hmac.Hash) : HkdfImpl H.outLen where
  Hk := Bytes
  extract := Hmac.hkdfExtract H
  -- the limits of the `hkdf` crate
  fromPrk prk := if prk.length < H.outLen then none else some prk
  expand prk info len :=
    if 255 * H.outLen < len then none else some (Hmac.hkdfExpand H prk info len)

theorem hkdfImpl_lawful (H : Hmac.Hash) : (hkdfImpl H).Lawful where
  fromPrk_isSome prk h := by simp [hkdfImpl, h.not_gt]
  expand_isSome hk info len h := by simp [hkdfImpl, h.not_gt]

/-- An AEAD that accepts nothing. -/
def AeadImpl.refusing (nonceLen : ℕ) : AeadImpl nonceLen where
  decrypt _ _ _ _ := none

/-- HKDF and PBKDF2 as the standards define them. The other members are not evaluated on inputs
that the real crates accept: they refuse all of them. -/
def rustCrypto : Primitives where
  hkdfSha256 := hkdfImpl sha256Hash
  hkdfSha512 := hkdfImpl sha512Hash
  pbkdf2Hmac password salt rounds len := Hmac.pbkdf2 sha256Hash password salt rounds.toNat len
  argon2 := ⟨Empty, fun _ _ _ _ => .error "refused", fun p => p.elim⟩
  osRng len := ByteArr.replicate len 0
  aes256Gcm := .refusing 12
  chaCha20Poly1305 := .refusing 12
  xChaCha20Poly1305 := .refusing 24
  aeadErrorText := "aead::Error"
  base64Standard _ := .error .invalidPadding
  base64UrlSafeNoPad _ := .error .invalidPadding
  hexDecode _ := .error .oddLength
  utf8ErrorText _ := "invalid utf-8"

theorem rustCrypto_lawful : rustCrypto.Lawful where
  hkdfSha256 := hkdfImpl_lawful sha256Hash
  hkdfSha512 := hkdfImpl_lawful sha512Hash

end SignalisCore
