import SignalisCore.Facade.Encryption

/-!
# AES-256-CBC in `core.ts`

`AES_CBC` does not authenticate: its decryption refuses what no plaintext encrypts to, and nothing
else.

* `aes_cbc_inverse`: encryption and decryption are inverse, and the error of a refusal.
* `aes_cbc_malleable`: whoever changes the initialization vector changes the plaintext.
-/

namespace SignalisCore

open LittleEndian ByteXor

namespace Core

variable {C : Ciphers} {cipher : ByteArr 32 → Equiv.Perm (ByteArr 16)}

/-! ### What the operations return -/

/-- The error of a refused ciphertext. -/
def cbcPaddingError : JsError :=
  .cryptoError (js "AES-256-CBC decryption failed: " ++ js "AES-CBC padding error")
    "aes_cbc_decrypt"

theorem AES_CBC.encrypt_eq_ok_iff {key iv plaintext : JsValue} {out : Bytes} :
    AES_CBC.encrypt C key iv plaintext = .ok out ↔
      ∃ (k : ByteArr 32) (i : ByteArr 16) (p : Bytes), key = .buffer k.1 ∧ iv = .buffer i.1 ∧
        plaintext = .buffer p ∧ Aes256Cbc.encrypt C k i p = out := by
  simp only [AES_CBC.encrypt, bind_eq_ok_iff, assertBufferOfSize_eq_ok_iff, assertBuffer_eq_ok_iff,
    callNative_eq_ok_iff]
  refine ⟨?_, ?_⟩
  · rintro ⟨k, ⟨rfl, h_k⟩, i, ⟨rfl, h_i⟩, p, rfl, h⟩
    rw [Node.aes256CbcEncrypt, Node.aes256Cbc, dif_pos h_k, dif_pos h_i, Node.mapErr_eq_ok_iff,
      Except.ok.injEq] at h
    exact ⟨⟨k, h_k⟩, ⟨i, h_i⟩, p, rfl, rfl, rfl, h⟩
  · rintro ⟨k, i, p, rfl, rfl, rfl, h⟩
    refine ⟨k.1, ⟨rfl, k.2⟩, i.1, ⟨rfl, i.2⟩, p, rfl, ?_⟩
    rw [Node.aes256CbcEncrypt, Node.aes256Cbc, dif_pos k.2, dif_pos i.2, Node.mapErr_eq_ok_iff,
      Except.ok.injEq]
    exact h

/-- Past the guards, the result of the cipher decides. -/
theorem AES_CBC.decrypt_buffers (k : ByteArr 32) (i : ByteArr 16) (c : Bytes) :
    AES_CBC.decrypt C (.buffer k.1) (.buffer i.1) (.buffer c) =
      match Aes256Cbc.decrypt C k i c with
      | .error .cbcPaddingError => .error cbcPaddingError
      | .ok p => .ok p := by
  rw [AES_CBC.decrypt, assertBufferOfSize_buffer k.2, ok_bind, assertBufferOfSize_buffer i.2,
    ok_bind, assertBuffer_buffer, ok_bind, Node.aes256CbcDecrypt, Node.aes256Cbc, dif_pos k.2,
    dif_pos i.2]
  rcases Aes256Cbc.decrypt C k i c with ⟨⟨⟩⟩ | p
  · rfl
  · rfl

theorem AES_CBC.decrypt_eq_ok_iff {key iv ciphertext : JsValue} {out : Bytes} :
    AES_CBC.decrypt C key iv ciphertext = .ok out ↔
      ∃ (k : ByteArr 32) (i : ByteArr 16) (c : Bytes), key = .buffer k.1 ∧ iv = .buffer i.1 ∧
        ciphertext = .buffer c ∧ Aes256Cbc.decrypt C k i c = .ok out := by
  have h_buffers (k : ByteArr 32) (i : ByteArr 16) (c : Bytes) :
      AES_CBC.decrypt C (.buffer k.1) (.buffer i.1) (.buffer c) = .ok out ↔
        Aes256Cbc.decrypt C k i c = .ok out := by
    rw [AES_CBC.decrypt_buffers]
    rcases Aes256Cbc.decrypt C k i c with ⟨⟨⟩⟩ | p <;> simp
  refine ⟨?_, ?_⟩
  · intro h
    have h_guards := h
    simp only [AES_CBC.decrypt, bind_eq_ok_iff, assertBufferOfSize_eq_ok_iff,
      assertBuffer_eq_ok_iff] at h_guards
    obtain ⟨k, ⟨rfl, h_k⟩, i, ⟨rfl, h_i⟩, c, rfl, -⟩ := h_guards
    exact ⟨⟨k, h_k⟩, ⟨i, h_i⟩, c, rfl, rfl, rfl, (h_buffers ⟨k, h_k⟩ ⟨i, h_i⟩ c).mp h⟩
  · rintro ⟨k, i, c, rfl, rfl, rfl, h⟩
    exact (h_buffers k i c).mpr h

/-! ### Inverses -/

theorem AES_CBC.encrypt_iff_decrypt (h : C.aes256Cbc.Lawful cipher) (key iv : JsValue)
    (plaintext ciphertext : Bytes) :
    AES_CBC.encrypt C key iv (.buffer plaintext) = .ok ciphertext ↔
      AES_CBC.decrypt C key iv (.buffer ciphertext) = .ok plaintext := by
  rw [AES_CBC.encrypt_eq_ok_iff, AES_CBC.decrypt_eq_ok_iff]
  refine ⟨?_, ?_⟩
  · rintro ⟨k, i, p, rfl, rfl, ⟨⟩, h_enc⟩
    exact ⟨k, i, ciphertext, rfl, rfl, rfl, (Aes256Cbc.decrypt_eq_ok_iff_encrypt h).mpr h_enc⟩
  · rintro ⟨k, i, c, rfl, rfl, ⟨⟩, h_dec⟩
    exact ⟨k, i, plaintext, rfl, rfl, rfl, (Aes256Cbc.decrypt_eq_ok_iff_encrypt h).mp h_dec⟩

theorem AES_CBC.length_of_encrypt (h : C.aes256Cbc.Lawful cipher) {key iv : JsValue}
    {plaintext ciphertext : Bytes}
    (h_enc : AES_CBC.encrypt C key iv (.buffer plaintext) = .ok ciphertext) :
    ciphertext.length = (plaintext.length / 16 + 1) * 16 := by
  obtain ⟨k, i, p, -, -, ⟨⟩, rfl⟩ := AES_CBC.encrypt_eq_ok_iff.mp h_enc
  exact Aes256Cbc.length_encrypt h k i plaintext

/-- **Encryption and decryption are inverse**: for any key and initialization vector, what decrypts
is exactly what was encrypted, in whole blocks, and every other ciphertext is a padding error. -/
theorem aes_cbc_inverse (h : C.aes256Cbc.Lawful cipher) :
    (∀ key iv plaintext ciphertext,
      AES_CBC.encrypt C key iv (.buffer plaintext) = .ok ciphertext ↔
        AES_CBC.decrypt C key iv (.buffer ciphertext) = .ok plaintext) ∧
      (∀ key iv plaintext ciphertext,
        AES_CBC.encrypt C key iv (.buffer plaintext) = .ok ciphertext →
          ciphertext.length = (plaintext.length / 16 + 1) * 16) ∧
      ∀ (k : ByteArr 32) (i : ByteArr 16) (ciphertext : Bytes),
        AES_CBC.decrypt C (.buffer k.1) (.buffer i.1) (.buffer ciphertext) =
            .error cbcPaddingError ↔
          ∀ plaintext, AES_CBC.encrypt C (.buffer k.1) (.buffer i.1) (.buffer plaintext) ≠
            .ok ciphertext := by
  refine ⟨AES_CBC.encrypt_iff_decrypt h, fun _ _ _ _ => AES_CBC.length_of_encrypt h, ?_⟩
  intro k i ciphertext
  simp only [ne_eq, AES_CBC.encrypt_iff_decrypt h, AES_CBC.decrypt_buffers]
  rcases Aes256Cbc.decrypt C k i ciphertext with ⟨⟨⟩⟩ | p
  · simp
  · simp

/-- Three bytes fill one block. -/
theorem aes_cbc_inverse_real :
    ∃ ciphertext,
      AES_CBC.encrypt realCiphers (.buffer (List.replicate 32 1)) (.buffer (List.replicate 16 2))
          (.buffer [1, 2, 3]) = .ok ciphertext ∧
        ciphertext.length = 16 ∧
        AES_CBC.decrypt realCiphers (.buffer (List.replicate 32 1)) (.buffer (List.replicate 16 2))
          (.buffer ciphertext) = .ok [1, 2, 3] := by
  obtain ⟨h_iff, h_length, -⟩ := aes_cbc_inverse (realCiphers_lawful rustCrypto).aes256Cbc
  have h_enc := (AES_CBC.encrypt_eq_ok_iff (C := realCiphers)).mpr
    ⟨ByteArr.replicate 32 1, ByteArr.replicate 16 2, [1, 2, 3], rfl, rfl, rfl, rfl⟩
  exact ⟨_, h_enc, h_length _ _ _ _ h_enc, (h_iff _ _ _ _).mp h_enc⟩

/-! ### Malleability -/

/-- **Nothing protects the first block**: an initialization vector changed by `δ` decrypts, without
an error, to the plaintext whose first block is changed by `δ`. -/
theorem aes_cbc_malleable (h : C.aes256Cbc.Lawful cipher) {key : JsValue} {iv : ByteArr 16}
    (δ : ByteArr 16) {plaintext ciphertext : Bytes} (h_len : 16 ≤ plaintext.length)
    (h_enc : AES_CBC.encrypt C key (.buffer iv.1) (.buffer plaintext) = .ok ciphertext) :
    AES_CBC.decrypt C key (.buffer (iv.xor δ).1) (.buffer ciphertext) =
      .ok (xor (plaintext.take 16) δ.1 ++ plaintext.drop 16) := by
  obtain ⟨k, i, p, rfl, h_i, ⟨⟩, rfl⟩ := AES_CBC.encrypt_eq_ok_iff.mp h_enc
  obtain rfl : iv = i := Subtype.ext (JsValue.buffer.inj h_i)
  refine AES_CBC.decrypt_eq_ok_iff.mpr ⟨k, iv.xor δ, _, rfl, rfl, rfl, ?_⟩
  rw [Aes256Cbc.decrypt_eq_ok_iff, h.decrypt_eq, Aes256Cbc.encrypt, h.encrypt_eq]
  exact Cbc.decryptPadded_xor_iv _ (by norm_num) (by norm_num) iv δ h_len

theorem aes_cbc_malleable_real : ∃ ciphertext,
    AES_CBC.decrypt realCiphers (.buffer (List.replicate 32 1))
      (.buffer ((ByteArr.replicate 16 2).xor (ByteArr.replicate 16 3)).1) (.buffer ciphertext) =
      .ok (xor ((List.replicate 20 9).take 16) (ByteArr.replicate 16 3).1 ++
        (List.replicate 20 9).drop 16) :=
  ⟨_, aes_cbc_malleable (realCiphers_lawful rustCrypto).aes256Cbc (ByteArr.replicate 16 3)
    (by simp) (AES_CBC.encrypt_eq_ok_iff.mpr ⟨⟨List.replicate 32 1, by simp⟩,
      ByteArr.replicate 16 2, List.replicate 20 9, rfl, rfl, rfl, rfl⟩)⟩

end Core

end SignalisCore
