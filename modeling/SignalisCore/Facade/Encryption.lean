import SignalisCore.Facade.Core
import SignalisCore.Node.Encryption

/-!
# `core.ts`: encryption

The encrypting operations of the three AEADs, and AES-256-CBC. For each of the six operations of an
AEAD with associated data, `Returns` says which arguments it accepts and what it computes from them.
-/

namespace SignalisCore

open LittleEndian

namespace Core

variable (P : Primitives) (C : Ciphers)

/-! ### The operations -/

namespace AES_GCM

def encrypt (key nonce plaintext : JsValue) : Except JsError Bytes := do
  let key ← assertBufferOfSize key 32 "key"
  let nonce ← assertBufferOfSize nonce 12 "nonce"
  let plaintext ← assertBuffer plaintext "plaintext"
  callNative (Node.aes256GcmEncrypt P C key nonce plaintext)

def encryptWithAad (key nonce plaintext aad : JsValue) : Except JsError Bytes := do
  let key ← assertBufferOfSize key 32 "key"
  let nonce ← assertBufferOfSize nonce 12 "nonce"
  let plaintext ← assertBuffer plaintext "plaintext"
  let aad ← assertBuffer aad "aad"
  callNative (Node.aes256GcmEncryptWithAad P C key nonce plaintext aad)

end AES_GCM

namespace AES_CBC

def encrypt (key iv plaintext : JsValue) : Except JsError Bytes := do
  let key ← assertBufferOfSize key 32 "key"
  let iv ← assertBufferOfSize iv 16 "iv"
  let plaintext ← assertBuffer plaintext "plaintext"
  callNative (Node.aes256CbcEncrypt C key iv plaintext)

/-- The `catch` of `decrypt`. -/
def catchDecryption (result : Except JsError Bytes) : Except JsError Bytes :=
  result.mapError fun e =>
    .cryptoError (js "AES-256-CBC decryption failed: " ++ e.message) "aes_cbc_decrypt"

def decrypt (key iv ciphertext : JsValue) : Except JsError Bytes := do
  let key ← assertBufferOfSize key 32 "key"
  let iv ← assertBufferOfSize iv 16 "iv"
  let ciphertext ← assertBuffer ciphertext "ciphertext"
  catchDecryption (callNative (Node.aes256CbcDecrypt C key iv ciphertext))

end AES_CBC

namespace ChaCha20Poly1305

def encrypt (key nonce plaintext : JsValue) : Except JsError Bytes := do
  let key ← requireBufferOfSize key 32 "key"
  let nonce ← requireBufferOfSize nonce 12 "nonce"
  let plaintext ← requireBuffer plaintext "plaintext must be a Buffer"
  callNative (Node.chacha20Poly1305Encrypt C key nonce plaintext)

def encryptWithAad (key nonce plaintext aad : JsValue) : Except JsError Bytes := do
  let key ← requireBufferOfSize key 32 "key"
  let nonce ← requireBufferOfSize nonce 12 "nonce"
  let plaintext ← requireBuffer plaintext "plaintext and aad must be Buffers"
  let aad ← requireBuffer aad "plaintext and aad must be Buffers"
  callNative (Node.chacha20Poly1305EncryptWithAad C key nonce plaintext aad)

end ChaCha20Poly1305

namespace XChaCha20Poly1305

def encrypt (key nonce plaintext : JsValue) : Except JsError Bytes := do
  let key ← requireBufferOfSize key 32 "key"
  let nonce ← requireBufferOfSize nonce 24 "nonce"
  let plaintext ← requireBuffer plaintext "plaintext must be a Buffer"
  callNative (Node.xchacha20Poly1305Encrypt C key nonce plaintext)

def encryptWithAad (key nonce plaintext aad : JsValue) : Except JsError Bytes := do
  let key ← requireBufferOfSize key 32 "key"
  let nonce ← requireBufferOfSize nonce 24 "nonce"
  let plaintext ← requireBuffer plaintext "plaintext and aad must be Buffers"
  let aad ← requireBuffer aad "plaintext and aad must be Buffers"
  callNative (Node.xchacha20Poly1305EncryptWithAad C key nonce plaintext aad)

end XChaCha20Poly1305

/-! ### What the guards accept -/

theorem requireBuffer_eq_ok_iff {value : JsValue} {message : String} {bytes : Bytes} :
    requireBuffer value message = .ok bytes ↔ value = .buffer bytes := by
  cases value <;> simp [requireBuffer]

theorem requireBufferOfSize_eq_ok_iff {value : JsValue} {n : ℕ} {name : String} {bytes : Bytes} :
    requireBufferOfSize value n name = .ok bytes ↔ value = .buffer bytes ∧ bytes.length = n := by
  cases value with
  | buffer b =>
    simp only [requireBufferOfSize, ne_eq, ite_not]
    split_ifs with h
    · simp only [Except.ok.injEq, JsValue.buffer.injEq]
      refine ⟨?_, And.left⟩
      rintro rfl
      exact ⟨rfl, h⟩
    · simp only [JsValue.buffer.injEq, false_iff, not_and]
      rintro rfl
      exact h
  | _ => simp [requireBufferOfSize]

/-- The operation returns on buffers with a key and a nonce of the right sizes, and there what the
function computes, where it computes anything. -/
def Returns {nonceLen : ℕ} (op : JsValue → JsValue → JsValue → JsValue → Except JsError Bytes)
    (f : ByteArr 32 → ByteArr nonceLen → Bytes → Bytes → Option Bytes) : Prop :=
  ∀ key nonce text aad out, op key nonce text aad = .ok out ↔
    ∃ (k : ByteArr 32) (n : ByteArr nonceLen) (t a : Bytes), key = .buffer k.1 ∧
      nonce = .buffer n.1 ∧ text = .buffer t ∧ aad = .buffer a ∧ f k n t a = some out

/-- Four guards and a call, where the guards accept exactly the well-typed arguments. -/
theorem returns_of_guards {nonceLen : ℕ}
    {f : ByteArr 32 → ByteArr nonceLen → Bytes → Bytes → Option Bytes}
    {op : JsValue → JsValue → JsValue → JsValue → Except JsError Bytes}
    (call : Bytes → Bytes → Bytes → Bytes → Except JsError Bytes)
    (h_op : ∀ key nonce text aad out, op key nonce text aad = .ok out ↔
      ∃ k n t a : Bytes, (key = .buffer k ∧ k.length = 32) ∧
        (nonce = .buffer n ∧ n.length = nonceLen) ∧ text = .buffer t ∧ aad = .buffer a ∧
        call k n t a = .ok out)
    (h_call : ∀ (k : ByteArr 32) (n : ByteArr nonceLen) t a out,
      call k.1 n.1 t a = .ok out ↔ f k n t a = some out) : Returns op f := by
  intro key nonce text aad out
  rw [h_op]
  refine ⟨?_, ?_⟩
  · rintro ⟨k, n, t, a, ⟨rfl, h_k⟩, ⟨rfl, h_n⟩, rfl, rfl, h⟩
    exact ⟨⟨k, h_k⟩, ⟨n, h_n⟩, t, a, rfl, rfl, rfl, rfl, (h_call ⟨k, h_k⟩ ⟨n, h_n⟩ t a out).mp h⟩
  · rintro ⟨k, n, t, a, rfl, rfl, rfl, rfl, h⟩
    exact ⟨k.1, n.1, t, a, ⟨rfl, k.2⟩, ⟨rfl, n.2⟩, rfl, rfl, (h_call k n t a out).mpr h⟩

/-! ### The AEADs -/

variable {P} {C}

theorem node_aes256Gcm_eq_ok_iff {cipher : ByteArr 32 → ByteArr 12 → Except Aes256Gcm.Error Bytes}
    {key : ByteArr 32} {nonce : ByteArr 12} {out : Bytes} :
    Node.aes256Gcm cipher key.1 nonce.1 = .ok out ↔ cipher key nonce = .ok out := by
  rw [Node.aes256Gcm, dif_pos key.2, dif_pos nonce.2, Node.mapErr_eq_ok_iff]

theorem mapError_eq_ok_iff {α ε ε' : Type} {f : ε → ε'} {result : Except ε α} {out : α} :
    result.mapError f = .ok out ↔ result = .ok out := by
  cases result <;> simp [Except.mapError]

/-- The guard on the tag. -/
theorem assertTag_eq_ok_iff {ciphertext : Bytes} {operation : String} {u : Unit} :
    AES_GCM.assertTag ciphertext operation = .ok u ↔ 16 ≤ ciphertext.length := by
  unfold AES_GCM.assertTag aes256GcmTagSize
  split_ifs with h
  · simp [h]
  · simp [Nat.le_of_not_lt h]

variable (P) (C)

theorem AES_GCM.encryptWithAad_returns :
    Returns (AES_GCM.encryptWithAad P C) C.aes256Gcm.encrypt := by
  refine returns_of_guards
    (fun k n t a => callNative (Node.aes256GcmEncryptWithAad P C k n t a)) ?_ ?_
  · intro key nonce text aad out
    simp only [AES_GCM.encryptWithAad, bind_eq_ok_iff, assertBufferOfSize_eq_ok_iff,
      assertBuffer_eq_ok_iff, exists_and_left]
  · intro k n t a out
    rw [callNative_eq_ok_iff, Node.aes256GcmEncryptWithAad, node_aes256Gcm_eq_ok_iff,
      Aes256Gcm.encryptWithAad, Aes256Gcm.mapErr_eq_ok_iff]

theorem ChaCha20Poly1305.encryptWithAad_returns :
    Returns (ChaCha20Poly1305.encryptWithAad C) C.chaCha20Poly1305.encrypt := by
  refine returns_of_guards
    (fun k n t a => callNative (Node.chacha20Poly1305EncryptWithAad C k n t a)) ?_ ?_
  · intro key nonce text aad out
    simp only [ChaCha20Poly1305.encryptWithAad, bind_eq_ok_iff, requireBufferOfSize_eq_ok_iff,
      requireBuffer_eq_ok_iff, exists_and_left]
  · intro k n t a out
    rw [callNative_eq_ok_iff, Node.chacha20Poly1305EncryptWithAad, Node.mapEncryptErr,
      Node.mapErr_eq_ok_iff]
    exact ChaCha20Poly1305.encryptWith_eq_ok_iff

theorem XChaCha20Poly1305.encryptWithAad_returns :
    Returns (XChaCha20Poly1305.encryptWithAad C) C.xChaCha20Poly1305.encrypt := by
  refine returns_of_guards
    (fun k n t a => callNative (Node.xchacha20Poly1305EncryptWithAad C k n t a)) ?_ ?_
  · intro key nonce text aad out
    simp only [XChaCha20Poly1305.encryptWithAad, bind_eq_ok_iff, requireBufferOfSize_eq_ok_iff,
      requireBuffer_eq_ok_iff, exists_and_left]
  · intro k n t a out
    rw [callNative_eq_ok_iff, Node.xchacha20Poly1305EncryptWithAad, Node.mapEncryptErr,
      Node.mapErr_eq_ok_iff]
    exact ChaCha20Poly1305.encryptWith_eq_ok_iff

/-- The guard on the tag refuses only what the cipher refuses too. -/
theorem AES_GCM.decryptWithAad_returns
    (h_short : ∀ k n c a, c.length < 16 → P.aes256Gcm.decrypt k n c a = none) :
    Returns (AES_GCM.decryptWithAad P) P.aes256Gcm.decrypt := by
  refine returns_of_guards
    (fun k n t a => do
      AES_GCM.assertTag t "aes_gcm_decrypt_with_aad"
      catchAuthentication (callNative (Node.aes256GcmDecryptWithAad P k n t a))) ?_ ?_
  · intro key nonce text aad out
    simp only [AES_GCM.decryptWithAad, bind_eq_ok_iff, assertBufferOfSize_eq_ok_iff,
      assertBuffer_eq_ok_iff, exists_and_left]
  · intro k n t a out
    simp only [bind_eq_ok_iff, assertTag_eq_ok_iff, exists_const]
    rw [catchAuthentication, mapError_eq_ok_iff, callNative_eq_ok_iff,
      Node.aes256GcmDecryptWithAad, node_aes256Gcm_eq_ok_iff, Aes256Gcm.decryptWithAad,
      Aes256Gcm.mapErr_eq_ok_iff, and_iff_right_iff_imp]
    intro h
    by_contra h_lt
    rw [h_short k n t a (Nat.lt_of_not_le h_lt)] at h
    exact nomatch h

theorem ChaCha20Poly1305.decryptWithAad_returns :
    Returns (ChaCha20Poly1305.decryptWithAad P) P.chaCha20Poly1305.decrypt := by
  refine returns_of_guards
    (fun k n t a => callNative (Node.chacha20Poly1305DecryptWithAad P k n t a)) ?_ ?_
  · intro key nonce text aad out
    simp only [ChaCha20Poly1305.decryptWithAad, bind_eq_ok_iff, requireBufferOfSize_eq_ok_iff,
      requireBuffer_eq_ok_iff, exists_and_left]
  · intro k n t a out
    rw [callNative_eq_ok_iff, Node.chacha20Poly1305DecryptWithAad, Node.mapErr_eq_ok_iff]
    exact ChaCha20Poly1305.decryptWith_eq_ok_iff

theorem XChaCha20Poly1305.decryptWithAad_returns :
    Returns (XChaCha20Poly1305.decryptWithAad P) P.xChaCha20Poly1305.decrypt := by
  refine returns_of_guards
    (fun k n t a => callNative (Node.xchacha20Poly1305DecryptWithAad P k n t a)) ?_ ?_
  · intro key nonce text aad out
    simp only [XChaCha20Poly1305.decryptWithAad, bind_eq_ok_iff, requireBufferOfSize_eq_ok_iff,
      requireBuffer_eq_ok_iff, exists_and_left]
  · intro k n t a out
    rw [callNative_eq_ok_iff, Node.xchacha20Poly1305DecryptWithAad, Node.mapErr_eq_ok_iff]
    exact ChaCha20Poly1305.decryptWith_eq_ok_iff

end Core

end SignalisCore
