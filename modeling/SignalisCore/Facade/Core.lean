import SignalisCore.Facade.Validators

/-!
# `core.ts`

The operations that the package exports, under their names: guards, then a call of the addon, for
some of them with the addon's error wrapped in one of the classes of `errors.ts`. Arguments are
arbitrary JavaScript values.
-/

namespace SignalisCore

open Ecma LittleEndian Slicing

namespace Core

/-! ### Curve25519 -/

namespace Curve25519

variable (D : Dalek)

def publicFromPrivate (privateKey : JsValue) : Except JsError Bytes := do
  let privateKey ← assertBufferOfSize privateKey 32 "privateKey"
  callNative (Node.curve25519PublicFromPrivate D privateKey)

def diffieHellman (privateKey peerPublicKey : JsValue) : Except JsError Bytes := do
  let privateKey ← assertBufferOfSize privateKey 32 "privateKey"
  let peerPublicKey ← assertBufferOfSize peerPublicKey 32 "peerPublicKey"
  callNative (Node.curve25519DiffieHellman D privateKey peerPublicKey)

end Curve25519

/-! ### Signatures -/

/-- The `catch` of the verifying operations. -/
def catchSignature (result : Except JsError Unit) : Except JsError Unit :=
  result.mapError fun e => .signatureError e.message

/-- `verify`, for a verifier of the addon. -/
def verifyWith (native : Bytes → Bytes → Bytes → Except Node.Error Unit)
    (publicKey message signature : JsValue) : Except JsError Unit := do
  let publicKey ← assertBufferOfSize publicKey 32 "publicKey"
  let message ← assertBuffer message "message"
  let signature ← assertBufferOfSize signature 64 "signature"
  catchSignature (callNative (native publicKey message signature))

/-- `verifyBool`, for a verifier of the addon. Its guards return `false` where those of `verify`
throw. -/
def verifyBoolWith (native : Bytes → Bytes → Bytes → Bool)
    (publicKey message signature : JsValue) : Except JsError Bool :=
  match publicKey with
  | .buffer publicKey =>
    if publicKey.length ≠ 32 then return false
    else
      match message with
      | .buffer message =>
        match signature with
        | .buffer signature =>
          if signature.length ≠ 64 then return false
          else return native publicKey message signature
        | _ => return false
      | _ => return false
  | _ => return false

def Ed25519.verify (E : Ed25519Dalek) (publicKey message signature : JsValue) :
    Except JsError Unit :=
  verifyWith (Node.ed25519Verify E) publicKey message signature

def Ed25519.verifyBool (E : Ed25519Dalek) (publicKey message signature : JsValue) :
    Except JsError Bool :=
  verifyBoolWith (Node.ed25519VerifyBool E) publicKey message signature

def XEd25519.verify (D : Dalek) (sha512 : Bytes → ByteArr 64)
    (publicKey message signature : JsValue) : Except JsError Unit :=
  verifyWith (Node.xed25519Verify D sha512) publicKey message signature

def XEd25519.verifyBool (D : Dalek) (sha512 : Bytes → ByteArr 64)
    (publicKey message signature : JsValue) : Except JsError Bool :=
  verifyBoolWith (Node.xed25519VerifyBool D sha512) publicKey message signature

variable (E : Engine) (P : Primitives)

/-! ### HKDF -/

namespace HKDF

def extract (salt ikm : JsValue) : Except JsError Bytes := do
  let salt ← assertBuffer salt "salt"
  let ikm ← assertBuffer ikm "ikm"
  return Node.hkdfExtract P salt ikm

def expand (prk info length : JsValue) : Except JsError Bytes := do
  let prk ← assertBufferOfSize prk 32 "prk"
  let info ← assertBuffer info "info"
  let length ← assertHkdfLength E length
  callNative (Node.hkdfExpand P prk info length)

def derive (salt ikm info length : JsValue) : Except JsError Bytes := do
  let salt ← assertBuffer salt "salt"
  let ikm ← assertBuffer ikm "ikm"
  let info ← assertBuffer info "info"
  let length ← assertHkdfLength E length
  callNative (Node.hkdfDerive P salt ikm info length)

/-- One turn of the loop of `deriveMultiple`: a slice is pushed and the offset moves on. -/
def sliceStep (okm : Bytes) (state : List (Segment UInt8) × Float) (len : Float) :
    List (Segment UInt8) × Float :=
  (state.1 ++ [subarray okm state.2 (state.2 + len)], state.2 + len)

/-- The loop of `deriveMultiple`. -/
def slices (okm : Bytes) (lengths : List Float) : List (Segment UInt8) :=
  (lengths.foldl (sliceStep okm) ([], 0)).1

/-- `lengths.reduce((sum, len) => sum + len, 0)`. -/
def totalLength (lengths : List Float) : Float := lengths.foldl (· + ·) 0

/-- `HKDF.deriveMultiple`. The list is `none` for a value that `Array.isArray` refuses. -/
def deriveMultiple (salt ikm info : JsValue) (lengths : Option (List Float)) :
    Except JsError (List (Segment UInt8)) := do
  let salt ← assertBuffer salt "salt"
  let ikm ← assertBuffer ikm "ikm"
  let info ← assertBuffer info "info"
  match lengths with
  | none | some [] =>
    throw (.typeError (js "lengths must be a non-empty array of integers"))
  | some lengths =>
    -- only the sum is checked, here and once more in `derive`
    let total := totalLength lengths
    let _ ← assertHkdfLength E (.number total)
    let okm ← derive E P (.buffer salt) (.buffer ikm) (.buffer info) (.number total)
    return slices okm lengths

/-- `HkdfParams`. -/
structure Params where
  salt : JsValue
  ikm : JsValue
  info : JsValue
  length : JsValue

def deriveFromParams (params : Params) : Except JsError Bytes :=
  derive E P params.salt params.ikm params.info params.length

def deriveSha512 (salt ikm info length : JsValue) : Except JsError Bytes := do
  let salt ← assertBuffer salt "salt"
  let ikm ← assertBuffer ikm "ikm"
  let info ← assertBuffer info "info"
  let length ← assertPositiveInteger E length "length"
  -- zero has passed the guard above; there is no upper bound
  if strictEquals length 0 then
    throw (.lengthError (js "HKDF output length must be greater than 0") "> 0" 0)
  callNative (Node.hkdfSha512Derive P salt ikm info length)

end HKDF

/-! ### Password-based key derivation -/

def PBKDF2.derive (password salt iterations length : JsValue) : Except JsError Bytes := do
  let password ← assertBuffer password "password"
  let salt ← assertBuffer salt "salt"
  let iterations ← assertPositiveInteger E iterations "iterations"
  let length ← assertPositiveInteger E length "length"
  callNative (Node.pbkdf2Derive P password salt iterations length)

def Argon2id.derive (password salt mCost tCost pCost length : JsValue) :
    Except JsError Bytes := do
  let password ← assertBuffer password "password"
  let salt ← assertBuffer salt "salt"
  let mCost ← assertPositiveInteger E mCost "mCost"
  let tCost ← assertPositiveInteger E tCost "tCost"
  let pCost ← assertPositiveInteger E pCost "pCost"
  let length ← assertPositiveInteger E length "length"
  callNative (Node.argon2IdDerive P password salt mCost tCost pCost length)

/-! ### Authenticated encryption -/

def aes256GcmTagSize : ℕ := 16

/-- The `catch` of the AES-GCM operations. -/
def catchAuthentication (result : Except JsError Bytes) : Except JsError Bytes :=
  result.mapError fun e =>
    .authenticationError (js "AES-256-GCM authentication failed: " ++ e.message)

namespace AES_GCM

/-- The guard on the length of a ciphertext. -/
def assertTag (ciphertext : Bytes) (operation : String) : Except JsError Unit :=
  if ciphertext.length < aes256GcmTagSize then
    .error (.cryptoError (js ("Ciphertext too short: must be at least " ++ aes256GcmTagSize.repr ++
      " bytes (tag size)")) operation)
  else .ok ()

def decrypt (key nonce ciphertext : JsValue) : Except JsError Bytes := do
  let key ← assertBufferOfSize key 32 "key"
  let nonce ← assertBufferOfSize nonce 12 "nonce"
  let ciphertext ← assertBuffer ciphertext "ciphertext"
  assertTag ciphertext "aes_gcm_decrypt"
  catchAuthentication (callNative (Node.aes256GcmDecrypt P key nonce ciphertext))

def decryptWithAad (key nonce ciphertext aad : JsValue) : Except JsError Bytes := do
  let key ← assertBufferOfSize key 32 "key"
  let nonce ← assertBufferOfSize nonce 12 "nonce"
  let ciphertext ← assertBuffer ciphertext "ciphertext"
  let aad ← assertBuffer aad "aad"
  assertTag ciphertext "aes_gcm_decrypt_with_aad"
  catchAuthentication (callNative (Node.aes256GcmDecryptWithAad P key nonce ciphertext aad))

end AES_GCM

/-- The guard of the ChaCha operations on a key or a nonce. -/
def requireBufferOfSize (value : JsValue) (size : ℕ) (name : String) : Except JsError Bytes :=
  match value with
  | .buffer bytes =>
    if bytes.length ≠ size then
      .error (.rangeError (js (name ++ " must be " ++ size.repr ++ " bytes")))
    else .ok bytes
  | _ => .error (.rangeError (js (name ++ " must be " ++ size.repr ++ " bytes")))

/-- A guard that throws a `TypeError` for a value that is no buffer. -/
def requireBuffer (value : JsValue) (message : String) : Except JsError Bytes :=
  match value with
  | .buffer bytes => .ok bytes
  | _ => .error (.typeError (js message))

def ChaCha20Poly1305.decrypt (key nonce ciphertext : JsValue) : Except JsError Bytes := do
  let key ← requireBufferOfSize key 32 "key"
  let nonce ← requireBufferOfSize nonce 12 "nonce"
  let ciphertext ← requireBuffer ciphertext "ciphertext must be a Buffer"
  callNative (Node.chacha20Poly1305Decrypt P key nonce ciphertext)

def ChaCha20Poly1305.decryptWithAad (key nonce ciphertext aad : JsValue) :
    Except JsError Bytes := do
  let key ← requireBufferOfSize key 32 "key"
  let nonce ← requireBufferOfSize nonce 12 "nonce"
  let ciphertext ← requireBuffer ciphertext "ciphertext and aad must be Buffers"
  let aad ← requireBuffer aad "ciphertext and aad must be Buffers"
  callNative (Node.chacha20Poly1305DecryptWithAad P key nonce ciphertext aad)

def XChaCha20Poly1305.decrypt (key nonce ciphertext : JsValue) : Except JsError Bytes := do
  let key ← requireBufferOfSize key 32 "key"
  let nonce ← requireBufferOfSize nonce 24 "nonce"
  let ciphertext ← requireBuffer ciphertext "ciphertext must be a Buffer"
  callNative (Node.xchacha20Poly1305Decrypt P key nonce ciphertext)

def XChaCha20Poly1305.decryptWithAad (key nonce ciphertext aad : JsValue) :
    Except JsError Bytes := do
  let key ← requireBufferOfSize key 32 "key"
  let nonce ← requireBufferOfSize nonce 24 "nonce"
  let ciphertext ← requireBuffer ciphertext "ciphertext and aad must be Buffers"
  let aad ← requireBuffer aad "ciphertext and aad must be Buffers"
  callNative (Node.xchacha20Poly1305DecryptWithAad P key nonce ciphertext aad)

/-! ### Random bytes -/

/-- `Number.isInteger(size) && !(size <= 0)`, and the number. -/
def positiveInteger? : JsValue → Option Float
  | .number x => if isInteger x && lessThan 0 x then some x else none
  | _ => none

def nativeSecureRandom (size : JsValue) : Except JsError Bytes :=
  match positiveInteger? size with
  | some size => callNative (Node.secureRandom P size)
  | none => do
    let shown ← E.interpolate size
    throw (.rangeError (js "size must be a positive integer, got " ++ shown))

/-! ### Encodings -/

/-- The `typeof input !== 'string'` guard. -/
def requireString (value : JsValue) (message : String) : Except JsError JsString :=
  match value with
  | .string units => .ok units
  | _ => .error (.typeError (js message))

def Base64.decode (input : JsValue) : Except JsError Bytes := do
  let input ← requireString input "Base64.decode: input must be a string"
  callNative (Node.base64Decode P input)

def Base64.decodeUrlSafe (input : JsValue) : Except JsError Bytes := do
  let input ← requireString input "Base64.decodeUrlSafe: input must be a string"
  callNative (Node.base64DecodeUrlSafe P input)

def Base64.encode (B : Base64Crate) (input : JsValue) : Except JsError JsString := do
  let input ← requireBuffer input "Base64.encode: input must be a Buffer"
  return Node.base64Encode B input

def Base64.encodeUrlSafe (B : Base64Crate) (input : JsValue) : Except JsError JsString := do
  let input ← requireBuffer input "Base64.encodeUrlSafe: input must be a Buffer"
  return Node.base64EncodeUrlSafe B input

def Hex.encode (H : HexCrate) (input : JsValue) : Except JsError JsString := do
  let input ← requireBuffer input "Hex.encode: input must be a Buffer"
  return Node.hexEncode H input

def Hex.encodeUpper (H : HexCrate) (input : JsValue) : Except JsError JsString := do
  let input ← requireBuffer input "Hex.encodeUpper: input must be a Buffer"
  return Node.hexEncodeUpper H input

def Hex.decode (input : JsValue) : Except JsError Bytes := do
  let input ← requireString input "Hex.decode: input must be a string"
  callNative (Node.hexDecode P input)

def Hex.isValid (input : JsValue) : Except JsError Bool := do
  let input ← requireString input "Hex.isValid: input must be a string"
  return Node.hexIsValid input

def Utf8.encode (input : JsValue) : Except JsError Bytes := do
  let input ← requireString input "Utf8.encode: input must be a string"
  return Node.utf8Encode input

def Utf8.decode (input : JsValue) : Except JsError JsString := do
  let input ← requireBuffer input "Utf8.decode: input must be a Buffer"
  callNative (Node.utf8Decode P input)

def Utf8.isValid (input : JsValue) : Except JsError Bool := do
  let input ← requireBuffer input "Utf8.isValid: input must be a Buffer"
  return Node.utf8IsValid input

end Core

end SignalisCore
