import SignalisCore.Crates.Aead
import SignalisCore.Crates.Base64
import SignalisCore.Crates.Curve25519
import SignalisCore.Crates.Ed25519
import SignalisCore.Crates.Hex
import SignalisCore.Crates.KeyMaterial
import SignalisCore.Library.EcmaNumber
import SignalisCore.Library.Utf16

/-!
# `sc-node`: the Node.js bindings

The `#[napi]` functions of the addon, under their names. Their arguments are what the runtime hands
over: a buffer as its bytes, a number narrowed to `u32`, a string converted to UTF-8. An error
carries a status and the text of the crate's error.
-/

namespace SignalisCore

open Ecma LittleEndian

namespace Node

/-- The members of `napi::Status` that the bindings use. -/
inductive Status
  | invalidArg
  | genericFailure
  deriving DecidableEq

/-- The status as the `code` of the JavaScript error. -/
def Status.toString : Status → String
  | .invalidArg => "InvalidArg"
  | .genericFailure => "GenericFailure"

structure Error where
  status : Status
  reason : String
  deriving DecidableEq

/-- `map_err(|e| Error::new(status, text(e)))`. -/
def mapErr {ε α : Type} (status : Status) (text : ε → String) (result : Except ε α) :
    Except Error α :=
  result.mapError fun e => ⟨status, text e⟩

theorem mapErr_eq_ok_iff {ε α : Type} {status : Status} {text : ε → String} {result : Except ε α}
    {a : α} : mapErr status text result = .ok a ↔ result = .ok a := by
  cases result <;> simp [mapErr, Except.mapError]

/-- A JavaScript string as a Rust `String`. -/
def stringArg (s : List UInt16) : String := .ofList (Utf16.decodeLossy s)

/-- A Rust `String` as a JavaScript string. -/
def stringResult (s : String) : List UInt16 := Utf16.encode s.toList

/-! ### Curve25519 -/

section Curve25519

open Curve25519

variable (D : Dalek)

def curve25519PublicFromPrivate (privateKey : Bytes) : Except Error Bytes := do
  let privKey ← mapErr .invalidArg Curve25519.Error.toString (PrivateKey.tryFromBytes privateKey)
  return (privKey.publicKey D).toBytes.1

def curve25519DiffieHellman (privateKey peerPublicKey : Bytes) : Except Error Bytes := do
  let privKey ← mapErr .invalidArg (fun e => "private: " ++ Curve25519.Error.toString e)
    (PrivateKey.tryFromBytes privateKey)
  let peerPub ← mapErr .invalidArg (fun e => "peer: " ++ Curve25519.Error.toString e)
    (PublicKey.tryFromBytes peerPublicKey)
  -- the key pair is rebuilt from the private key on every call
  let kp := KeyPair.fromPrivate D privKey
  return (kp.diffieHellman D peerPub).toBytes.1

end Curve25519

/-! ### Signatures -/

section Signatures

variable (E : Ed25519Dalek) (D : Dalek) (sha512 : Bytes → ByteArr 64)

def ed25519Verify (publicKey message signature : Bytes) : Except Error Unit :=
  mapErr .genericFailure Ed25519.Error.toString (Ed25519.verify E publicKey message signature)

def ed25519VerifyBool (publicKey message signature : Bytes) : Bool :=
  Ed25519.verifyBool E publicKey message signature

def xed25519Verify (publicKey message signature : Bytes) : Except Error Unit :=
  mapErr .genericFailure XEd25519.Error.toString
    (XEd25519.verify D sha512 publicKey message signature)

def xed25519VerifyBool (publicKey message signature : Bytes) : Bool :=
  XEd25519.verifyBool D sha512 publicKey message signature

end Signatures

variable (P : Primitives)

/-! ### Key derivation -/

def hkdfExtract (salt ikm : Bytes) : Bytes := (Hkdf.extract P salt ikm).1

def hkdfExpand (prk info : Bytes) (length : Float) : Except Error Bytes :=
  if h : prk.length = 32 then
    mapErr .invalidArg Hkdf.Error.toString
      (Hkdf.expand P ⟨prk, h⟩ info (toUint32 length).toNat)
  else .error ⟨.invalidArg, "prk must be 32 bytes, got " ++ prk.length.repr⟩

def hkdfDerive (salt ikm info : Bytes) (length : Float) : Except Error Bytes :=
  mapErr .invalidArg Hkdf.Error.toString (Hkdf.derive P salt ikm info (toUint32 length).toNat)

def hkdfSha512Derive (salt ikm info : Bytes) (length : Float) : Except Error Bytes :=
  mapErr .invalidArg Hkdf.Error.toString
    (HkdfSha512.derive P salt ikm info (toUint32 length).toNat)

def pbkdf2Derive (password salt : Bytes) (iterations length : Float) : Except Error Bytes :=
  mapErr .invalidArg Pbkdf2.Error.toString
    (Pbkdf2.derive P password salt (toUint32 iterations) (toUint32 length).toNat)

def argon2IdDerive (password salt : Bytes) (mCost tCost pCost length : Float) :
    Except Error Bytes :=
  mapErr .invalidArg Argon2id.Error.toString
    (Argon2id.derive P password salt (toUint32 mCost) (toUint32 tCost) (toUint32 pCost)
      (toUint32 length).toNat)

def secureRandom (size : Float) : Except Error Bytes :=
  mapErr .invalidArg Utils.Error.toString (Utils.randomBytes P (toUint32 size).toNat)

/-! ### Authenticated encryption -/

/-- The length checks that the AES-GCM bindings share, and then the cipher. -/
def aes256Gcm (cipher : ByteArr 32 → ByteArr 12 → Except Aes256Gcm.Error Bytes)
    (key nonce : Bytes) : Except Error Bytes :=
  if h_key : key.length = 32 then
    if h_nonce : nonce.length = 12 then
      mapErr .genericFailure Aes256Gcm.Error.toString (cipher ⟨key, h_key⟩ ⟨nonce, h_nonce⟩)
    else .error ⟨.invalidArg, "nonce must be 12 bytes"⟩
  else .error ⟨.invalidArg, "key must be 32 bytes"⟩

def aes256GcmDecrypt (key nonce ciphertext : Bytes) : Except Error Bytes :=
  aes256Gcm (fun k n => Aes256Gcm.decrypt P k n ciphertext) key nonce

def aes256GcmDecryptWithAad (key nonce ciphertext aad : Bytes) : Except Error Bytes :=
  aes256Gcm (fun k n => Aes256Gcm.decryptWithAad P k n ciphertext aad) key nonce

def chacha20Poly1305Decrypt (key nonce ciphertext : Bytes) : Except Error Bytes :=
  mapErr .genericFailure ChaCha20Poly1305.Error.toString
    (ChaCha20Poly1305.decrypt P key nonce ciphertext)

def chacha20Poly1305DecryptWithAad (key nonce ciphertext aad : Bytes) : Except Error Bytes :=
  mapErr .genericFailure ChaCha20Poly1305.Error.toString
    (ChaCha20Poly1305.decryptWithAad P key nonce ciphertext aad)

def xchacha20Poly1305Decrypt (key nonce ciphertext : Bytes) : Except Error Bytes :=
  mapErr .genericFailure ChaCha20Poly1305.Error.toString
    (ChaCha20Poly1305.xchachaDecrypt P key nonce ciphertext)

def xchacha20Poly1305DecryptWithAad (key nonce ciphertext aad : Bytes) : Except Error Bytes :=
  mapErr .genericFailure ChaCha20Poly1305.Error.toString
    (ChaCha20Poly1305.xchachaDecryptWithAad P key nonce ciphertext aad)

/-! ### Encodings -/

def base64Decode (input : List UInt16) : Except Error Bytes :=
  mapErr .invalidArg Encoding.Error.toString (Encoding.base64Decode P (stringArg input))

def base64DecodeUrlSafe (input : List UInt16) : Except Error Bytes :=
  mapErr .invalidArg Encoding.Error.toString (Encoding.base64DecodeUrlSafe P (stringArg input))

def base64Encode (B : Base64Crate) (input : Bytes) : List UInt16 :=
  stringResult (Encoding.base64Encode B input)

def base64EncodeUrlSafe (B : Base64Crate) (input : Bytes) : List UInt16 :=
  stringResult (Encoding.base64EncodeUrlSafe B input)

def hexEncode (H : HexCrate) (input : Bytes) : List UInt16 :=
  stringResult (Encoding.hexEncode H input)

def hexEncodeUpper (H : HexCrate) (input : Bytes) : List UInt16 :=
  stringResult (Encoding.hexEncodeUpper H input)

def hexDecode (input : List UInt16) : Except Error Bytes :=
  mapErr .invalidArg Encoding.Error.toString (Encoding.hexDecode P (stringArg input))

def hexIsValid (input : List UInt16) : Bool := Encoding.hexIsValid (stringArg input)

def utf8Encode (input : List UInt16) : Bytes := Encoding.utf8Encode (stringArg input)

def utf8Decode (input : Bytes) : Except Error (List UInt16) :=
  (mapErr .invalidArg Encoding.Error.toString (Encoding.utf8Decode P input)).map stringResult

def utf8IsValid (input : Bytes) : Bool := Encoding.utf8IsValid input

end Node

end SignalisCore
