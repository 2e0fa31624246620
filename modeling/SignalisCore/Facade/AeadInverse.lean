import SignalisCore.Facade.Encryption

/-!
# The authenticated ciphers of `core.ts`

`AES_GCM`, `ChaCha20Poly1305` and `XChaCha20Poly1305` have the same four operations, with different
guards and errors in front of them. What they promise is stated once for four such operations.

* `aead_inverse`: encryption and decryption are inverse, with and without associated data.
* `nonce_reuse`: what two ciphertexts under one key and nonce give away.
-/

namespace SignalisCore

open LittleEndian ByteXor

namespace Core

/-! ### What the operations promise -/

/-- The four operations of an AEAD. -/
structure AeadOps where
  encrypt : JsValue → JsValue → JsValue → Except JsError Bytes
  decrypt : JsValue → JsValue → JsValue → Except JsError Bytes
  encryptWithAad : JsValue → JsValue → JsValue → JsValue → Except JsError Bytes
  decryptWithAad : JsValue → JsValue → JsValue → JsValue → Except JsError Bytes

section Operations

variable (P : Primitives) (C : Ciphers)

def AES_GCM.ops : AeadOps :=
  ⟨encrypt P C, decrypt P, encryptWithAad P C, decryptWithAad P⟩

def ChaCha20Poly1305.ops : AeadOps :=
  ⟨encrypt C, decrypt P, encryptWithAad C, decryptWithAad P⟩

def XChaCha20Poly1305.ops : AeadOps :=
  ⟨encrypt C, decrypt P, encryptWithAad C, decryptWithAad P⟩

end Operations

namespace AeadOps

variable (ops : AeadOps)

/-- **Encryption and decryption are inverse**, for arguments of any type, within the limits of the
cipher on lengths. -/
structure Inverse (L : Limits) : Prop where
  /-- What is encrypted is exactly what decrypts to the plaintext. -/
  withAad : ∀ key nonce plaintext aad ciphertext,
    ops.encryptWithAad key nonce plaintext aad = .ok ciphertext ↔
      ∃ text data, plaintext = .buffer text ∧ aad = .buffer data ∧
        L.encrypts text.length data.length ∧
        ops.decryptWithAad key nonce (.buffer ciphertext) aad = .ok text
  /-- Whatever is accepted is longer than what comes out of it by the tag. -/
  length_eq : ∀ key nonce ciphertext aad plaintext,
    ops.decryptWithAad key nonce ciphertext aad = .ok plaintext →
      ∃ bytes, ciphertext = .buffer bytes ∧ bytes.length = plaintext.length + 16
  /-- Without associated data means with empty associated data. -/
  encrypt_iff : ∀ key nonce plaintext out, ops.encrypt key nonce plaintext = .ok out ↔
    ops.encryptWithAad key nonce plaintext (.buffer []) = .ok out
  decrypt_iff : ∀ key nonce ciphertext out, ops.decrypt key nonce ciphertext = .ok out ↔
    ops.decryptWithAad key nonce ciphertext (.buffer []) = .ok out

variable {ops} {L : Limits}

theorem Inverse.withAad_buffer (h : ops.Inverse L) {key nonce : JsValue}
    {plaintext aad ciphertext : Bytes} :
    ops.encryptWithAad key nonce (.buffer plaintext) (.buffer aad) = .ok ciphertext ↔
      L.encrypts plaintext.length aad.length ∧
        ops.decryptWithAad key nonce (.buffer ciphertext) (.buffer aad) = .ok plaintext := by
  rw [h.withAad]
  refine ⟨?_, ?_⟩
  · rintro ⟨text, data, ⟨⟩, ⟨⟩, h_lim, h_dec⟩
    exact ⟨h_lim, h_dec⟩
  · rintro ⟨h_lim, h_dec⟩
    exact ⟨plaintext, aad, rfl, rfl, h_lim, h_dec⟩

/-- The same for the operations without associated data. -/
theorem Inverse.encrypt_iff_decrypt (h : ops.Inverse L) {key nonce : JsValue}
    {plaintext ciphertext : Bytes} (h_len : L.encrypts plaintext.length 0) :
    ops.encrypt key nonce (.buffer plaintext) = .ok ciphertext ↔
      ops.decrypt key nonce (.buffer ciphertext) = .ok plaintext := by
  rw [h.encrypt_iff, h.decrypt_iff, h.withAad_buffer]
  exact and_iff_right h_len

theorem Inverse.length_of_decrypt (h : ops.Inverse L) {key nonce ciphertext : JsValue}
    {plaintext : Bytes} (h_dec : ops.decrypt key nonce ciphertext = .ok plaintext) :
    ∃ bytes, ciphertext = .buffer bytes ∧ bytes.length = plaintext.length + 16 :=
  h.length_eq _ _ _ _ _ ((h.decrypt_iff _ _ _ _).mp h_dec)

variable (ops)

/-- **Reuse of a nonce**: in front of their tags, two ciphertexts under one key and nonce combine to
what the plaintexts combine to. -/
def LeaksXor : Prop :=
  ∀ key nonce p q aad aad' c d,
    ops.encryptWithAad key nonce (.buffer p) aad = .ok c →
    ops.encryptWithAad key nonce (.buffer q) aad' = .ok d →
    xor (c.take p.length) (d.take q.length) = xor p q

end AeadOps

/-! ### Operations that return what a cipher computes -/

section Returns

variable {nonceLen : ℕ} {enc : AeadEncryption nonceLen} {dec : AeadImpl nonceLen}
  {S : Aead.Scheme (ByteArr 32) (ByteArr nonceLen)} {L : Limits} {ops : AeadOps}

theorem inverse_of_returns (h : enc.Lawful dec S L)
    (h_enc : Returns ops.encryptWithAad enc.encrypt)
    (h_dec : Returns ops.decryptWithAad dec.decrypt)
    (h_plain : ∀ key nonce plaintext out, ops.encrypt key nonce plaintext = .ok out ↔
      ops.encryptWithAad key nonce plaintext (.buffer []) = .ok out)
    (h_plain' : ∀ key nonce ciphertext out, ops.decrypt key nonce ciphertext = .ok out ↔
      ops.decryptWithAad key nonce ciphertext (.buffer []) = .ok out) : ops.Inverse L where
  withAad key nonce plaintext aad ciphertext := by
    rw [h_enc]
    refine ⟨?_, ?_⟩
    · rintro ⟨k, n, text, data, rfl, rfl, rfl, rfl, h_out⟩
      obtain ⟨h_lim, h_open⟩ := h.encrypt_iff_decrypt.mp h_out
      exact ⟨text, data, rfl, rfl, h_lim,
        (h_dec _ _ _ _ _).mpr ⟨k, n, ciphertext, data, rfl, rfl, rfl, rfl, h_open⟩⟩
    · rintro ⟨text, data, rfl, rfl, h_lim, h_out⟩
      obtain ⟨k, n, t, a, rfl, rfl, ⟨⟩, ⟨⟩, h_open⟩ := (h_dec _ _ _ _ _).mp h_out
      exact ⟨k, n, text, data, rfl, rfl, rfl, rfl, h.encrypt_iff_decrypt.mpr ⟨h_lim, h_open⟩⟩
  length_eq key nonce ciphertext aad plaintext h_out := by
    obtain ⟨k, n, t, a, -, -, rfl, -, h_open⟩ := (h_dec _ _ _ _ _).mp h_out
    obtain ⟨-, rfl⟩ := h.decrypt_eq_some_iff.mp h_open
    exact ⟨_, rfl, by rw [Aead.Scheme.length_encrypt, h.tagLen]⟩
  encrypt_iff := h_plain
  decrypt_iff := h_plain'

theorem leaksXor_of_returns (h : enc.Lawful dec S L)
    (h_enc : Returns ops.encryptWithAad enc.encrypt) : ops.LeaksXor := by
  intro key nonce p q aad aad' c d h_c h_d
  obtain ⟨k, n, t, a, h_k, h_n, ⟨⟩, -, h_c⟩ := (h_enc _ _ _ _ _).mp h_c
  obtain ⟨k', n', t', a', h_k', h_n', ⟨⟩, -, h_d⟩ := (h_enc _ _ _ _ _).mp h_d
  -- the two calls were given one key and one nonce
  obtain rfl : k = k' := Subtype.ext (JsValue.buffer.inj (h_k.symm.trans h_k'))
  obtain rfl : n = n' := Subtype.ext (JsValue.buffer.inj (h_n.symm.trans h_n'))
  obtain ⟨-, rfl⟩ := h.encrypt_eq_some_iff.mp h_c
  obtain ⟨-, rfl⟩ := h.encrypt_eq_some_iff.mp h_d
  exact Aead.Scheme.xor_body_eq k n p q a a'

end Returns

/-! ### Without associated data -/

section Plain

variable (P : Primitives) (C : Ciphers) (key nonce text : JsValue)

/-- The two operations differ only in the errors. -/
theorem AES_GCM.decrypt_eq_ok_iff {out : Bytes} :
    AES_GCM.decrypt P key nonce text = .ok out ↔
      decryptWithAad P key nonce text (.buffer []) = .ok out := by
  simp only [AES_GCM.decrypt, AES_GCM.decryptWithAad, bind_eq_ok_iff, assertBufferOfSize_eq_ok_iff,
    assertBuffer_eq_ok_iff, assertTag_eq_ok_iff, JsValue.buffer.injEq, exists_eq_left',
    Node.aes256GcmDecrypt, Node.aes256GcmDecryptWithAad, Aes256Gcm.decrypt,
    Aes256Gcm.decryptWithAad]

theorem ChaCha20Poly1305.encrypt_eq_ok_iff {out : Bytes} :
    ChaCha20Poly1305.encrypt C key nonce text = .ok out ↔
      encryptWithAad C key nonce text (.buffer []) = .ok out := by
  simp only [ChaCha20Poly1305.encrypt, ChaCha20Poly1305.encryptWithAad, bind_eq_ok_iff,
    requireBuffer_eq_ok_iff, JsValue.buffer.injEq, exists_eq_left']
  rfl

theorem ChaCha20Poly1305.decrypt_eq_ok_iff {out : Bytes} :
    ChaCha20Poly1305.decrypt P key nonce text = .ok out ↔
      decryptWithAad P key nonce text (.buffer []) = .ok out := by
  simp only [ChaCha20Poly1305.decrypt, ChaCha20Poly1305.decryptWithAad, bind_eq_ok_iff,
    requireBuffer_eq_ok_iff, JsValue.buffer.injEq, exists_eq_left']
  rfl

theorem XChaCha20Poly1305.encrypt_eq_ok_iff {out : Bytes} :
    XChaCha20Poly1305.encrypt C key nonce text = .ok out ↔
      encryptWithAad C key nonce text (.buffer []) = .ok out := by
  simp only [XChaCha20Poly1305.encrypt, XChaCha20Poly1305.encryptWithAad, bind_eq_ok_iff,
    requireBuffer_eq_ok_iff, JsValue.buffer.injEq, exists_eq_left']
  rfl

theorem XChaCha20Poly1305.decrypt_eq_ok_iff {out : Bytes} :
    XChaCha20Poly1305.decrypt P key nonce text = .ok out ↔
      decryptWithAad P key nonce text (.buffer []) = .ok out := by
  simp only [XChaCha20Poly1305.decrypt, XChaCha20Poly1305.decryptWithAad, bind_eq_ok_iff,
    requireBuffer_eq_ok_iff, JsValue.buffer.injEq, exists_eq_left']
  rfl

end Plain

/-! ### The three ciphers -/

variable {P : Primitives} {C : Ciphers} {S : CipherSchemes}

/-- The guard on the length of a ciphertext refuses nothing that the cipher accepts. -/
theorem AES_GCM.decrypt_returns (h : C.Lawful P S) :
    Returns (AES_GCM.decryptWithAad P) P.aes256Gcm.decrypt :=
  AES_GCM.decryptWithAad_returns P fun _ _ _ _ h_short => h.aes256Gcm.decrypt_short h_short

theorem AES_GCM.inverse (h : C.Lawful P S) : (AES_GCM.ops P C).Inverse S.aes256GcmLimits :=
  inverse_of_returns h.aes256Gcm (AES_GCM.encryptWithAad_returns P C) (AES_GCM.decrypt_returns h)
    (fun _ _ _ _ => Iff.rfl) (fun key nonce text _ => AES_GCM.decrypt_eq_ok_iff P key nonce text)

/-- **Encryption and decryption are inverse in all three ciphers.** -/
theorem aead_inverse (h : C.Lawful P S) :
    (AES_GCM.ops P C).Inverse S.aes256GcmLimits ∧
      (ChaCha20Poly1305.ops P C).Inverse S.chaChaLimits ∧
      (XChaCha20Poly1305.ops P C).Inverse S.chaChaLimits := by
  refine ⟨AES_GCM.inverse h, ?_, ?_⟩
  · exact inverse_of_returns h.chaCha20Poly1305 (ChaCha20Poly1305.encryptWithAad_returns C)
      (ChaCha20Poly1305.decryptWithAad_returns P)
      (fun key nonce text _ => ChaCha20Poly1305.encrypt_eq_ok_iff C key nonce text)
      (fun key nonce text _ => ChaCha20Poly1305.decrypt_eq_ok_iff P key nonce text)
  · exact inverse_of_returns h.xChaCha20Poly1305 (XChaCha20Poly1305.encryptWithAad_returns C)
      (XChaCha20Poly1305.decryptWithAad_returns P)
      (fun key nonce text _ => XChaCha20Poly1305.encrypt_eq_ok_iff C key nonce text)
      (fun key nonce text _ => XChaCha20Poly1305.decrypt_eq_ok_iff P key nonce text)

theorem aead_inverse_real :
    (AES_GCM.ops (withRealCiphers rustCrypto) realCiphers).Inverse aesGcmLimits ∧
      (ChaCha20Poly1305.ops (withRealCiphers rustCrypto) realCiphers).Inverse chaChaLimits ∧
      (XChaCha20Poly1305.ops (withRealCiphers rustCrypto) realCiphers).Inverse chaChaLimits :=
  aead_inverse (realCiphers_lawful rustCrypto)

/-- **In all three ciphers a nonce that is used twice gives the exclusive or of the plaintexts
away.** -/
theorem nonce_reuse (h : C.Lawful P S) :
    (AES_GCM.ops P C).LeaksXor ∧ (ChaCha20Poly1305.ops P C).LeaksXor ∧
      (XChaCha20Poly1305.ops P C).LeaksXor := by
  refine ⟨?_, ?_, ?_⟩
  · exact leaksXor_of_returns h.aes256Gcm (AES_GCM.encryptWithAad_returns P C)
  · exact leaksXor_of_returns h.chaCha20Poly1305 (ChaCha20Poly1305.encryptWithAad_returns C)
  · exact leaksXor_of_returns h.xChaCha20Poly1305 (XChaCha20Poly1305.encryptWithAad_returns C)

theorem nonce_reuse_real :
    (AES_GCM.ops (withRealCiphers rustCrypto) realCiphers).LeaksXor ∧
      (ChaCha20Poly1305.ops (withRealCiphers rustCrypto) realCiphers).LeaksXor ∧
      (XChaCha20Poly1305.ops (withRealCiphers rustCrypto) realCiphers).LeaksXor :=
  nonce_reuse (realCiphers_lawful rustCrypto)

end Core

end SignalisCore
