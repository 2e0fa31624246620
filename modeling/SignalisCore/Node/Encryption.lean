import SignalisCore.Crates.Encryption
import SignalisCore.Node.Bindings

/-!
# `sc-node`: encryption

The `#[napi]` functions that encrypt, and AES-256-CBC.
-/

namespace SignalisCore

open LittleEndian

namespace Node

variable (P : Primitives) (C : Ciphers)

def aes256GcmEncrypt (key nonce plaintext : Bytes) : Except Error Bytes :=
  aes256Gcm (fun k n => Aes256Gcm.encrypt P C k n plaintext) key nonce

def aes256GcmEncryptWithAad (key nonce plaintext aad : Bytes) : Except Error Bytes :=
  aes256Gcm (fun k n => Aes256Gcm.encryptWithAad P C k n plaintext aad) key nonce

/-- The length checks that the AES-CBC bindings share, and then the cipher. -/
def aes256Cbc (cipher : ByteArr 32 → ByteArr 16 → Except Aes256Cbc.Error Bytes)
    (key iv : Bytes) : Except Error Bytes :=
  if h_key : key.length = 32 then
    if h_iv : iv.length = 16 then
      mapErr .genericFailure Aes256Cbc.Error.toString (cipher ⟨key, h_key⟩ ⟨iv, h_iv⟩)
    else .error ⟨.invalidArg, "iv must be 16 bytes"⟩
  else .error ⟨.invalidArg, "key must be 32 bytes"⟩

def aes256CbcEncrypt (key iv plaintext : Bytes) : Except Error Bytes :=
  aes256Cbc (fun k i => .ok (Aes256Cbc.encrypt C k i plaintext)) key iv

def aes256CbcDecrypt (key iv ciphertext : Bytes) : Except Error Bytes :=
  aes256Cbc (fun k i => Aes256Cbc.decrypt C k i ciphertext) key iv

/-- The encrypting bindings of `sc-chacha20poly1305`. -/
def mapEncryptErr (result : Except ChaCha20Poly1305.EncryptError Bytes) : Except Error Bytes :=
  mapErr .invalidArg ChaCha20Poly1305.EncryptError.toString result

def chacha20Poly1305Encrypt (key nonce plaintext : Bytes) : Except Error Bytes :=
  mapEncryptErr (ChaCha20Poly1305.encrypt C key nonce plaintext)

def chacha20Poly1305EncryptWithAad (key nonce plaintext aad : Bytes) : Except Error Bytes :=
  mapEncryptErr (ChaCha20Poly1305.encryptWithAad C key nonce plaintext aad)

def xchacha20Poly1305Encrypt (key nonce plaintext : Bytes) : Except Error Bytes :=
  mapEncryptErr (ChaCha20Poly1305.xchachaEncrypt C key nonce plaintext)

def xchacha20Poly1305EncryptWithAad (key nonce plaintext aad : Bytes) : Except Error Bytes :=
  mapEncryptErr (ChaCha20Poly1305.xchachaEncryptWithAad C key nonce plaintext aad)

end Node

end SignalisCore
