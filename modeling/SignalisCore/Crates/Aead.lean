import SignalisCore.Crates.Primitives

/-!
# `sc-aes` and `sc-chacha20poly1305`: authenticated encryption

Decryption in the two AEAD crates. `sc-aes` takes arrays and has nothing to check;
`sc-chacha20poly1305` takes slices and checks the length of the key and then of the nonce, in the
same way for both nonce lengths.
-/

namespace SignalisCore

open LittleEndian

/-! ### AES-256-GCM -/

namespace Aes256Gcm

/-- The member of `AesError` that the cipher returns. -/
inductive Error
  | gcmError (text : String)
  deriving DecidableEq

def Error.toString : Error → String
  | .gcmError text => "AES-GCM operation failed: " ++ text

variable (P : Primitives)

/-- A result of the `aead` crate with this crate's error. -/
def mapErr (result : Option Bytes) : Except Error Bytes :=
  match result with
  | none => .error (.gcmError P.aeadErrorText)
  | some bytes => .ok bytes

def decryptWithAad (key : ByteArr 32) (nonce : ByteArr 12) (ciphertext aad : Bytes) :
    Except Error Bytes :=
  mapErr P (P.aes256Gcm.decrypt key nonce ciphertext aad)

/-- `Aes256GcmCipher::decrypt`: a ciphertext alone is a payload without associated data. -/
def decrypt (key : ByteArr 32) (nonce : ByteArr 12) (ciphertext : Bytes) : Except Error Bytes :=
  mapErr P (P.aes256Gcm.decrypt key nonce ciphertext [])

end Aes256Gcm

/-! ### ChaCha20-Poly1305 and XChaCha20-Poly1305 -/

namespace ChaCha20Poly1305

/-- The crate's `Error`. -/
inductive Error
  | invalidKeyLength (expected actual : ℕ)
  | invalidNonceLength (expected actual : ℕ)
  | decryptionFailed
  deriving DecidableEq

def Error.toString : Error → String
  | .invalidKeyLength expected actual =>
    "ChaCha20Poly1305: invalid key length (expected " ++ expected.repr ++ ", got " ++
      actual.repr ++ ")"
  | .invalidNonceLength expected actual =>
    "ChaCha20Poly1305: invalid nonce length (expected " ++ expected.repr ++ ", got " ++
      actual.repr ++ ")"
  | .decryptionFailed =>
    "ChaCha20Poly1305: decryption failed (authentication tag mismatch or ciphertext tampered)"

/-- `new(key)?.decrypt(nonce, ciphertext, aad)` for the two ciphers of the crate. -/
def decryptWith {nonceLen : ℕ} (A : AeadImpl nonceLen) (key nonce ciphertext aad : Bytes) :
    Except Error Bytes :=
  if h_key : key.length = 32 then
    if h_nonce : nonce.length = nonceLen then
      match A.decrypt ⟨key, h_key⟩ ⟨nonce, h_nonce⟩ ciphertext aad with
      | none => .error .decryptionFailed
      | some plaintext => .ok plaintext
    else .error (.invalidNonceLength nonceLen nonce.length)
  else .error (.invalidKeyLength 32 key.length)

variable (P : Primitives)

def decryptWithAad (key nonce ciphertext aad : Bytes) : Except Error Bytes :=
  decryptWith P.chaCha20Poly1305 key nonce ciphertext aad

def decrypt (key nonce ciphertext : Bytes) : Except Error Bytes :=
  decryptWith P.chaCha20Poly1305 key nonce ciphertext []

def xchachaDecryptWithAad (key nonce ciphertext aad : Bytes) : Except Error Bytes :=
  decryptWith P.xChaCha20Poly1305 key nonce ciphertext aad

def xchachaDecrypt (key nonce ciphertext : Bytes) : Except Error Bytes :=
  decryptWith P.xChaCha20Poly1305 key nonce ciphertext []

end ChaCha20Poly1305

end SignalisCore
