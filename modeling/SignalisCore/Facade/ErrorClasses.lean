import SignalisCore.Crates.Encryption
import SignalisCore.Facade.Core

/-!
# The documented classes of errors

A failing call as a value: the operation with its arguments. Which class it throws is decided by the
layer that notices the failure first, since an error of the addon reaches the caller as a plain
`Error` unless the operation wraps it.

* `throws_assertBuffer_bind_iff`, `throws_assertPositiveInteger_bind_iff`: one guard of an operation
  that documents `ValidationError`.
* `throws_documented_iff`: the failing calls that throw the documented class.
-/

namespace SignalisCore

open Binary64 Ecma LittleEndian

namespace Core

/-! ### Guards -/

/-- Going through the values in order, the first that is no non-negative integer can be
reported. -/
def FirstRefusalReportable (E : Engine) : List JsValue → Prop
  | [] => False
  | value :: rest =>
    match nonNegativeInteger? value with
    | some _ => FirstRefusalReportable E rest
    | none => E.Reportable value

/-- A buffer guard in front of a call. -/
theorem throws_assertBuffer_bind_iff {α : Type} {value : JsValue} {parameter : String}
    {f : Bytes → Except JsError α} {X : Prop}
    (h : ∀ bytes, Throws (f bytes) .validationError ↔ X) :
    Throws (assertBuffer value parameter >>= f) .validationError ↔
      value.isBuffer = false ∨ X := by
  -- a buffer passes to the rest of the call; anything else is refused here
  cases h_buffer : value.isBuffer with
  | true =>
    obtain ⟨bytes, rfl⟩ := JsValue.eq_buffer_of_isBuffer h_buffer
    simp [h]
  | false =>
    obtain ⟨e, h_e, h_cls⟩ := assertBuffer_of_not_isBuffer h_buffer parameter
    rw [h_e, error_bind, throws_error_iff, h_cls]
    simp [ErrorClass.instanceOf, ErrorClass.chain]

/-- A number guard in front of a call. -/
theorem throws_assertPositiveInteger_bind_iff {α : Type} (E : Engine) {value : JsValue}
    {parameter : String} {f : Float → Except JsError α} {rest : List JsValue}
    (h : ∀ x, Throws (f x) .validationError ↔ FirstRefusalReportable E rest) :
    Throws (assertPositiveInteger E value parameter >>= f) .validationError ↔
      FirstRefusalReportable E (value :: rest) := by
  unfold FirstRefusalReportable
  -- an accepted number passes; a refused one decides, by whether it can be reported
  cases h_nat : nonNegativeInteger? value with
  | some x => rw [assertPositiveInteger_of_some E h_nat, ok_bind, h]
  | none =>
    obtain ⟨e, h_e, h_cls⟩ := assertPositiveInteger_of_none E h_nat parameter
    rw [h_e, error_bind, throws_error_iff, h_cls]

theorem throws_map_iff {α β : Type} {result : Except JsError α} {g : α → β} {c : ErrorClass} :
    Throws (result.map g) c ↔ Throws result c := by
  cases result <;> simp [Throws, Except.map]

/-! ### Failing calls -/

/-- A call of an operation that documents the class of its errors. -/
inductive Call
  /-- `PBKDF2.derive`. -/
  | pbkdf2 (password salt iterations length : JsValue)
  /-- `Argon2id.derive`. -/
  | argon2id (password salt mCost tCost pCost length : JsValue)
  /-- `HKDF.deriveSha512`. -/
  | hkdfSha512 (salt ikm info length : JsValue)
  /-- `Base64.decode`. -/
  | base64Decode (input : JsString)
  /-- `Base64.decodeUrlSafe`. -/
  | base64DecodeUrlSafe (input : JsString)
  /-- `Hex.decode`. -/
  | hexDecode (input : JsString)
  /-- `Utf8.decode`. -/
  | utf8Decode (input : Bytes)
  /-- `AES_GCM.decrypt`, or `decryptWithAad` on some associated data. -/
  | aesGcm (key : ByteArr 32) (nonce : ByteArr 12) (ciphertext : Bytes) (aad : Option Bytes)
  /-- `ChaCha20Poly1305.decrypt`, or `decryptWithAad`. -/
  | chaCha (key : ByteArr 32) (nonce : ByteArr 12) (ciphertext : Bytes) (aad : Option Bytes)
  /-- `XChaCha20Poly1305.decrypt`, or `decryptWithAad`. -/
  | xChaCha (key : ByteArr 32) (nonce : ByteArr 24) (ciphertext : Bytes) (aad : Option Bytes)

/-- A positive integer. -/
def IsPositive (value : JsValue) : Prop :=
  ∃ x, value = .number x ∧ ∃ n : ℕ, view x = .fin n ∧ 1 ≤ n

namespace Call

variable (E : Engine) (P : Primitives)

/-- The call, without what it returns. -/
def run : Call → Except JsError Unit
  | pbkdf2 password salt iterations length =>
    (PBKDF2.derive E P password salt iterations length).map fun _ => ()
  | argon2id password salt mCost tCost pCost length =>
    (Core.Argon2id.derive E P password salt mCost tCost pCost length).map fun _ => ()
  | hkdfSha512 salt ikm info length =>
    (HKDF.deriveSha512 E P salt ikm info length).map fun _ => ()
  | base64Decode input => (Base64.decode P (.string input)).map fun _ => ()
  | base64DecodeUrlSafe input => (Base64.decodeUrlSafe P (.string input)).map fun _ => ()
  | hexDecode input => (Hex.decode P (.string input)).map fun _ => ()
  | utf8Decode input => (Utf8.decode P (.buffer input)).map fun _ => ()
  | aesGcm key nonce ciphertext none =>
    (AES_GCM.decrypt P (.buffer key.1) (.buffer nonce.1) (.buffer ciphertext)).map fun _ => ()
  | aesGcm key nonce ciphertext (some aad) =>
    (AES_GCM.decryptWithAad P (.buffer key.1) (.buffer nonce.1) (.buffer ciphertext)
      (.buffer aad)).map fun _ => ()
  | chaCha key nonce ciphertext none =>
    (Core.ChaCha20Poly1305.decrypt P (.buffer key.1) (.buffer nonce.1)
      (.buffer ciphertext)).map fun _ => ()
  | chaCha key nonce ciphertext (some aad) =>
    (Core.ChaCha20Poly1305.decryptWithAad P (.buffer key.1) (.buffer nonce.1)
      (.buffer ciphertext) (.buffer aad)).map fun _ => ()
  | xChaCha key nonce ciphertext none =>
    (XChaCha20Poly1305.decrypt P (.buffer key.1) (.buffer nonce.1)
      (.buffer ciphertext)).map fun _ => ()
  | xChaCha key nonce ciphertext (some aad) =>
    (XChaCha20Poly1305.decryptWithAad P (.buffer key.1) (.buffer nonce.1) (.buffer ciphertext)
      (.buffer aad)).map fun _ => ()

/-- The class that the documentation promises. -/
def documented : Call → ErrorClass
  | pbkdf2 .. | argon2id .. | hkdfSha512 .. => .validationError
  | base64Decode _ | base64DecodeUrlSafe _ | hexDecode _ | utf8Decode _ => .rangeError
  | aesGcm .. | chaCha .. | xChaCha .. => .authenticationError

/-- The arguments that the documentation speaks about: an argument of the wrong type or range, a
malformed input, a tag that the primitive rejects. -/
def Fails : Call → Prop
  | pbkdf2 password salt iterations length =>
    (∃ value ∈ [password, salt], value.isBuffer = false) ∨
      ∃ value ∈ [iterations, length], ¬IsPositive value
  | argon2id password salt mCost tCost pCost length =>
    (∃ value ∈ [password, salt], value.isBuffer = false) ∨
      ∃ value ∈ [mCost, tCost, pCost, length], ¬IsPositive value
  | hkdfSha512 salt ikm info length =>
    (∃ value ∈ [salt, ikm, info], value.isBuffer = false) ∨ ¬IsPositive length
  | base64Decode input =>
    ∃ e, P.base64Standard (Encoding.asBytes (Node.stringArg input)) = .error e
  | base64DecodeUrlSafe input =>
    ∃ e, P.base64UrlSafeNoPad (Encoding.asBytes (Node.stringArg input)) = .error e
  | hexDecode input => ∃ e, P.hexDecode (Encoding.asBytes (Node.stringArg input)) = .error e
  | utf8Decode input => ¬(⟨input.toArray⟩ : ByteArray).IsValidUTF8
  | aesGcm key nonce ciphertext aad =>
    16 ≤ ciphertext.length ∧ P.aes256Gcm.decrypt key nonce ciphertext (aad.getD []) = none
  | chaCha key nonce ciphertext aad =>
    16 ≤ ciphertext.length ∧ P.chaCha20Poly1305.decrypt key nonce ciphertext (aad.getD []) = none
  | xChaCha key nonce ciphertext aad =>
    16 ≤ ciphertext.length ∧ P.xChaCha20Poly1305.decrypt key nonce ciphertext (aad.getD []) = none

/-- When the documentation is right. -/
def HoldsWhen : Call → Prop
  | pbkdf2 password salt iterations length =>
    password.isBuffer = false ∨ salt.isBuffer = false ∨
      FirstRefusalReportable E [iterations, length]
  | argon2id password salt mCost tCost pCost length =>
    password.isBuffer = false ∨ salt.isBuffer = false ∨
      FirstRefusalReportable E [mCost, tCost, pCost, length]
  | hkdfSha512 salt ikm info length =>
    salt.isBuffer = false ∨ ikm.isBuffer = false ∨ info.isBuffer = false ∨ E.Reportable length
  | base64Decode _ | base64DecodeUrlSafe _ | hexDecode _ | utf8Decode _ => False
  | aesGcm .. => True
  | chaCha .. | xChaCha .. => False

/-! ### Which calls throw the documented class -/

theorem throws_pbkdf2_iff (password salt iterations length : JsValue) :
    Throws (PBKDF2.derive E P password salt iterations length) .validationError ↔
      password.isBuffer = false ∨ salt.isBuffer = false ∨
        FirstRefusalReportable E [iterations, length] :=
  throws_assertBuffer_bind_iff fun _ => throws_assertBuffer_bind_iff fun _ =>
    throws_assertPositiveInteger_bind_iff E fun _ =>
      throws_assertPositiveInteger_bind_iff E fun _ =>
        iff_false_intro (not_throws_callNative _ (by decide))

theorem throws_argon2id_iff (password salt mCost tCost pCost length : JsValue) :
    Throws (Core.Argon2id.derive E P password salt mCost tCost pCost length) .validationError ↔
      password.isBuffer = false ∨ salt.isBuffer = false ∨
        FirstRefusalReportable E [mCost, tCost, pCost, length] :=
  throws_assertBuffer_bind_iff fun _ => throws_assertBuffer_bind_iff fun _ =>
    throws_assertPositiveInteger_bind_iff E fun _ =>
      throws_assertPositiveInteger_bind_iff E fun _ =>
        throws_assertPositiveInteger_bind_iff E fun _ =>
          throws_assertPositiveInteger_bind_iff E fun _ =>
            iff_false_intro (not_throws_callNative _ (by decide))

/-- A length that `deriveSha512` refuses with a `ValidationError`: zero, or a value that can be
reported. -/
def LengthRefused (length : JsValue) : Prop :=
  match nonNegativeInteger? length with
  | some x => strictEquals x 0 = true
  | none => E.Reportable length

theorem throws_hkdfSha512_iff (salt ikm info length : JsValue) :
    Throws (HKDF.deriveSha512 E P salt ikm info length) .validationError ↔
      salt.isBuffer = false ∨ ikm.isBuffer = false ∨ info.isBuffer = false ∨
        LengthRefused E length := by
  refine throws_assertBuffer_bind_iff fun salt => throws_assertBuffer_bind_iff fun ikm =>
    throws_assertBuffer_bind_iff fun info => ?_
  unfold LengthRefused
  cases h_nat : nonNegativeInteger? length with
  | none =>
    obtain ⟨e, h_e, h_cls⟩ := assertPositiveInteger_of_none E h_nat "length"
    rw [h_e, error_bind, throws_error_iff, h_cls]
  | some x =>
    rw [assertPositiveInteger_of_some E h_nat, ok_bind]
    change _ ↔ strictEquals x 0 = true
    -- zero gets a `LengthError`, which is a `ValidationError`; the rest is left to the addon
    cases h_zero : strictEquals x 0 with
    | true => exact iff_of_true ⟨_, rfl, rfl⟩ rfl
    | false => exact iff_of_false (not_throws_callNative _ (by decide)) Bool.false_ne_true

/-- A length that is not positive is refused so, if it can be reported. -/
theorem lengthRefused_iff {length : JsValue} (h : ¬IsPositive length) :
    LengthRefused E length ↔ E.Reportable length := by
  unfold LengthRefused
  cases h_nat : nonNegativeInteger? length with
  | none => rfl
  | some x =>
    obtain ⟨rfl, n, h_n⟩ := nonNegativeInteger?_eq_some_iff.1 h_nat
    have h_zero : strictEquals x 0 = true :=
      strictEquals_zero_of_not_pos h_n fun ⟨k, h_k⟩ => h ⟨x, rfl, k, h_k⟩
    exact iff_of_true h_zero (Engine.reportable_number x)

/-- On the documented arguments, only a value that cannot be reported escapes `deriveSha512`. -/
theorem throws_hkdfSha512_iff_of_fails {salt ikm info length : JsValue}
    (h : (hkdfSha512 salt ikm info length).Fails P) :
    Throws (HKDF.deriveSha512 E P salt ikm info length) .validationError ↔
      salt.isBuffer = false ∨ ikm.isBuffer = false ∨ info.isBuffer = false ∨
        E.Reportable length := by
  rw [throws_hkdfSha512_iff]
  by_cases h_pos : IsPositive length
  -- with a positive length the failure must be one of the buffers
  · have h_buffer : salt.isBuffer = false ∨ ikm.isBuffer = false ∨ info.isBuffer = false := by
      simpa [Fails, h_pos] using h
    tauto
  · rw [lengthRefused_iff E h_pos]

/-- The `catch` of AES-GCM makes every error an `AuthenticationError`. -/
theorem throws_catchAuthentication {e : JsError} :
    Throws (catchAuthentication (.error e)) .authenticationError := ⟨_, rfl, rfl⟩

theorem aes256Gcm_eq_error {cipher : ByteArr 32 → ByteArr 12 → Except Aes256Gcm.Error Bytes}
    {key : ByteArr 32} {nonce : ByteArr 12} {e : Aes256Gcm.Error}
    (h : cipher key nonce = .error e) :
    Node.aes256Gcm cipher key.1 nonce.1 = .error ⟨.genericFailure, e.toString⟩ := by
  rw [Node.aes256Gcm, dif_pos key.2, dif_pos nonce.2, h]
  rfl

/-- AES-GCM reports a wrong tag as documented. -/
theorem throws_aesGcm {key : ByteArr 32} {nonce : ByteArr 12} {ciphertext : Bytes}
    {aad : Option Bytes} (h : (aesGcm key nonce ciphertext aad).Fails P) :
    Throws (run E P (aesGcm key nonce ciphertext aad)) .authenticationError := by
  obtain ⟨h_len, h_none⟩ := h
  -- the guard on the length of the tag is passed
  have h_tag : ∀ operation, AES_GCM.assertTag ciphertext operation = .ok () :=
    fun operation => if_neg (by simpa [aes256GcmTagSize] using h_len)
  cases aad with
  | none =>
    have h_cipher : Aes256Gcm.decrypt P key nonce ciphertext =
        .error (.gcmError P.aeadErrorText) := by
      rw [Aes256Gcm.decrypt, show P.aes256Gcm.decrypt key nonce ciphertext [] = none from h_none]
      rfl
    refine throws_map_iff.2 ?_
    rw [AES_GCM.decrypt, assertBufferOfSize_buffer key.2, ok_bind,
      assertBufferOfSize_buffer nonce.2, ok_bind, assertBuffer_buffer, ok_bind, h_tag, ok_bind,
      Node.aes256GcmDecrypt, aes256Gcm_eq_error h_cipher, callNative_error]
    exact throws_catchAuthentication
  | some aad =>
    have h_cipher : Aes256Gcm.decryptWithAad P key nonce ciphertext aad =
        .error (.gcmError P.aeadErrorText) := by
      rw [Aes256Gcm.decryptWithAad,
        show P.aes256Gcm.decrypt key nonce ciphertext aad = none from h_none]
      rfl
    refine throws_map_iff.2 ?_
    rw [AES_GCM.decryptWithAad, assertBufferOfSize_buffer key.2, ok_bind,
      assertBufferOfSize_buffer nonce.2, ok_bind, assertBuffer_buffer, ok_bind,
      assertBuffer_buffer, ok_bind, h_tag, ok_bind, Node.aes256GcmDecryptWithAad,
      aes256Gcm_eq_error h_cipher, callNative_error]
    exact throws_catchAuthentication

theorem requireBufferOfSize_buffer {n : ℕ} (bytes : ByteArr n) (name : String) :
    requireBufferOfSize (.buffer bytes.1) n name = .ok bytes.1 :=
  if_neg (by simp [bytes.2])

/-- The ChaCha operations let the addon's error through. -/
theorem not_throws_chaCha (key : ByteArr 32) (nonce : ByteArr 12) (ciphertext : Bytes)
    (aad : Option Bytes) :
    ¬Throws (run E P (chaCha key nonce ciphertext aad)) .authenticationError := by
  cases aad with
  | none =>
    rw [run, throws_map_iff, Core.ChaCha20Poly1305.decrypt, requireBufferOfSize_buffer, ok_bind,
      requireBufferOfSize_buffer, ok_bind]
    exact not_throws_callNative _ (by decide)
  | some aad =>
    rw [run, throws_map_iff, Core.ChaCha20Poly1305.decryptWithAad, requireBufferOfSize_buffer,
      ok_bind, requireBufferOfSize_buffer, ok_bind]
    exact not_throws_callNative _ (by decide)

theorem not_throws_xChaCha (key : ByteArr 32) (nonce : ByteArr 24) (ciphertext : Bytes)
    (aad : Option Bytes) :
    ¬Throws (run E P (xChaCha key nonce ciphertext aad)) .authenticationError := by
  cases aad with
  | none =>
    rw [run, throws_map_iff, XChaCha20Poly1305.decrypt, requireBufferOfSize_buffer, ok_bind,
      requireBufferOfSize_buffer, ok_bind]
    exact not_throws_callNative _ (by decide)
  | some aad =>
    rw [run, throws_map_iff, XChaCha20Poly1305.decryptWithAad, requireBufferOfSize_buffer,
      ok_bind, requireBufferOfSize_buffer, ok_bind]
    exact not_throws_callNative _ (by decide)

/-- No operation documents a plain `Error`. -/
theorem documented_ne_error (c : Call) : c.documented ≠ .error := by
  cases c <;> simp [documented]

/-- **The documented classes**: which failing calls throw an error of the class that the
documentation promises. -/
theorem throws_documented_iff (c : Call) (h : c.Fails P) :
    Throws (c.run E P) c.documented ↔ c.HoldsWhen E := by
  -- one case for each operation: its own guards, then the addon
  cases c with
  | pbkdf2 password salt iterations length =>
    exact throws_map_iff.trans (throws_pbkdf2_iff E P password salt iterations length)
  | argon2id password salt mCost tCost pCost length =>
    exact throws_map_iff.trans (throws_argon2id_iff E P password salt mCost tCost pCost length)
  | hkdfSha512 salt ikm info length =>
    exact throws_map_iff.trans (throws_hkdfSha512_iff_of_fails E P h)
  | base64Decode input | base64DecodeUrlSafe input | hexDecode input | utf8Decode input =>
    exact throws_map_iff.trans
      (iff_false_intro (not_throws_callNative _ (documented_ne_error _)))
  | aesGcm key nonce ciphertext aad => exact iff_true_intro (throws_aesGcm E P h)
  | chaCha key nonce ciphertext aad =>
    exact iff_false_intro (not_throws_chaCha E P key nonce ciphertext aad)
  | xChaCha key nonce ciphertext aad =>
    exact iff_false_intro (not_throws_xChaCha E P key nonce ciphertext aad)

theorem throws_documented_iff_undefined :
    Throws ((hkdfSha512 .undefined (.buffer []) (.buffer []) (.number 32)).run plainEngine
      rustCrypto) .validationError :=
  (throws_documented_iff plainEngine rustCrypto
    (hkdfSha512 .undefined (.buffer []) (.buffer []) (.number 32))
    (.inl ⟨_, List.mem_cons_self, rfl⟩)).2 (.inl rfl)

/-- Under the zero key and nonce, the tag of the empty text is not zero. -/
theorem chaCha20Poly1305_decrypt_zero :
    (withRealCiphers rustCrypto).chaCha20Poly1305.decrypt (.replicate 32 0) (.replicate 12 0)
      (List.replicate 16 0) [] = none := by
  have h_tag : List.replicate 16 0 ≠
      (ChaChaPoly.tag (.replicate 32 0) (.replicate 12 0) [] []).1 := by
    decide +kernel
  rw [Option.eq_none_iff_forall_ne_some]
  intro text h_text
  obtain ⟨-, h_enc⟩ :=
    (realCiphers_lawful rustCrypto).chaCha20Poly1305.decrypt_eq_some_iff.1 h_text
  -- sixteen bytes are a tag and no text
  have h_len := congrArg List.length h_enc
  rw [Aead.Scheme.length_encrypt, List.length_replicate] at h_len
  obtain rfl : text = [] := List.length_eq_zero_iff.1 (Nat.add_right_cancel (m := 16) h_len)
  exact h_tag h_enc.symm

/-- No iterations, malformed UTF-8, a wrong tag: three failing calls that throw a plain `Error`. -/
theorem documented_classes_missed :
    let P := withRealCiphers rustCrypto
    ((pbkdf2 (.buffer []) (.buffer [0]) (.number 0) (.number 32)).Fails P ∧
      ¬Throws ((pbkdf2 (.buffer []) (.buffer [0]) (.number 0) (.number 32)).run plainEngine P)
        .validationError) ∧
    ((utf8Decode [0xFF]).Fails P ∧
      ¬Throws ((utf8Decode [0xFF]).run plainEngine P) .rangeError) ∧
    ((chaCha (.replicate 32 0) (.replicate 12 0) (List.replicate 16 0) none).Fails P ∧
      ¬Throws ((chaCha (.replicate 32 0) (.replicate 12 0) (List.replicate 16 0) none).run
        plainEngine P) .authenticationError) := by
  intro P
  -- zero and 32 pass the guards of `PBKDF2.derive`
  have h_zero := nonNegativeInteger?_eq_some_iff.2 ⟨rfl, 0, view_zero⟩
  have h_len := nonNegativeInteger?_eq_some_iff.2 ⟨rfl, 32, view_thirtyTwo⟩
  refine ⟨⟨.inr ⟨.number 0, by simp, ?_⟩, ?_⟩, ⟨?_, ?_⟩, ⟨by simp, ?_⟩, ?_⟩
  · rintro ⟨x, ⟨⟩, n, h_n, h_pos⟩
    have h_zero : n = 0 := natCast_unique h_n view_zero
    omega
  · rw [run, throws_map_iff, throws_pbkdf2_iff]
    simp [JsValue.isBuffer, FirstRefusalReportable, h_zero, h_len]
  · change ¬(⟨#[0xFF]⟩ : ByteArray).IsValidUTF8
    decide +kernel
  · rw [run, throws_map_iff]
    exact not_throws_callNative (c := .rangeError) (Node.utf8Decode P [0xFF]) (by decide)
  · exact chaCha20Poly1305_decrypt_zero
  · exact not_throws_chaCha _ _ _ _ _ _

end Call

end Core

end SignalisCore
