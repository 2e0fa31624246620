import SignalisCore.Facade.AeadInverse
import SignalisCore.Facade.Hashing
import SignalisCore.Facade.SplitConcat

/-!
# Encrypted files

The documented file format: a nonce of twelve bytes, and behind it the ciphertext with its tag,
under a key that HKDF derives from a password and the path. It is read back as the documentation of
`split` shows.

* `decryptFile_iff_encryptFile`: what is read is exactly what was written.
-/

namespace SignalisCore

open Binary64 Ecma LittleEndian Slicing

namespace Core

namespace EncryptedFile

variable (E : Engine) (P : Primitives) (C : Ciphers) (N : NodeBuffer)

/-- `Buffer.from(string)`: UTF-8, after unpaired surrogates are replaced. -/
def bufferFrom (s : JsString) : Bytes := Encoding.utf8Encode (Node.stringArg s)

/-- `Buffer.from('file-encryption-v1')`. -/
def keySalt : Bytes := "file-encryption-v1".toUTF8.toList

def fileKey (inputPath password : JsString) : Except JsError Bytes :=
  HKDF.derive E P (.buffer keySalt) (.buffer (bufferFrom password))
    (.buffer (bufferFrom inputPath)) (.number 32)

/-- What is written for a plaintext that was read, under a nonce that was drawn. -/
def encryptFile (inputPath password : JsString) (plaintext : Bytes) (nonce : ByteArr 12) :
    Except JsError Bytes := do
  let fileKey ← fileKey E P inputPath password
  let ciphertext ← AES_GCM.encrypt P C (.buffer fileKey) (.buffer nonce.1) (.buffer plaintext)
  concatBuffers N [nonce.1, ciphertext]

/-- An element of the array that `split` returns, or `undefined`. -/
def element (segments : List Uint8Array) (i : ℕ) : JsValue :=
  match segments[i]? with
  | some segment => .buffer segment.bytes
  | none => .undefined

/-- `const [nonce, rest] = split(blob, [12])`, and what is decrypted with them. -/
def decryptFile (inputPath password : JsString) (blob : Uint8Array) : Except JsError Bytes := do
  let fileKey ← fileKey E P inputPath password
  let segments ← Utils.split E blob [12]
  AES_GCM.decrypt P (.buffer fileKey) (element segments 0) (element segments 1)

variable {E} {P} {C} {N} {S : CipherSchemes}

/-! ### Reading -/

theorem exists_fileKey (LP : P.Lawful) (inputPath password : JsString) :
    ∃ key : ByteArr 32, fileKey E P inputPath password = .ok key.1 := by
  obtain ⟨okm, h_okm, h_len⟩ := HKDF.derive_of_view E LP keySalt (bufferFrom password)
    (bufferFrom inputPath) view_thirtyTwo (by norm_num)
  exact ⟨⟨okm, h_len⟩, h_okm⟩

theorem denote_twelve : Utils.Denote [12] [12] :=
  .cons (view_ofNat (by norm_num)) .nil

theorem element_eq (segments : List Uint8Array) (i : ℕ) :
    element segments i =
      match (segments.map (·.bytes))[i]? with
      | some bytes => .buffer bytes
      | none => .undefined := by
  rw [element, List.getElem?_map]
  cases segments[i]? <;> rfl

/-- A file with room for a nonce is cut behind it, and nothing is left of one that is no longer. -/
theorem split_twelve {blob : Uint8Array} (h : 12 ≤ blob.bytes.length) :
    ∃ segments, Utils.split E blob [12] = .ok segments ∧
      element segments 0 = .buffer (blob.bytes.take 12) ∧
      element segments 1 =
        if 12 < blob.bytes.length then .buffer (blob.bytes.drop 12)
        else .undefined := by
  obtain ⟨segments, h_split, h_pieces⟩ := Utils.splitWith_eq (E := E) "buffer" denote_twelve h
  rw [pieces_singleton] at h_pieces
  refine ⟨segments, h_split, ?_, ?_⟩
  · rw [element_eq, h_pieces]
    rfl
  · rw [element_eq, h_pieces]
    split_ifs <;> rfl

/-- Reading, behind the key. -/
theorem decryptFile_eq {inputPath password : JsString} {key : ByteArr 32} {blob : Uint8Array}
    (h_key : fileKey E P inputPath password = .ok key.1) (h : 12 ≤ blob.bytes.length) :
    decryptFile E P inputPath password blob =
      AES_GCM.decrypt P (.buffer key.1) (.buffer (blob.bytes.take 12))
        (if 12 < blob.bytes.length then .buffer (blob.bytes.drop 12)
          else .undefined) := by
  obtain ⟨segments, h_split, h_nonce, h_rest⟩ := split_twelve (E := E) h
  rw [decryptFile, h_key, ok_bind, h_split, ok_bind, h_nonce, h_rest]

theorem length_nonce {blob : Uint8Array} (h : 12 ≤ blob.bytes.length) :
    (blob.bytes.take 12).length = 12 := by
  rw [List.length_take, min_eq_left h]

/-- A file that is too short for a nonce. -/
theorem decryptFile_short {inputPath password : JsString} {key : ByteArr 32} {blob : Uint8Array}
    (h_key : fileKey E P inputPath password = .ok key.1) (h : blob.bytes.length < 12) :
    ∃ e, decryptFile E P inputPath password blob = .error e ∧ e.cls = .rangeError := by
  obtain ⟨e, h_e, h_cls⟩ := Utils.splitWith_of_refused (E := E) "buffer"
    (.inr ⟨[12], denote_twelve, h⟩ : Utils.Refused blob [12])
  refine ⟨e, ?_, h_cls⟩
  rw [decryptFile, h_key, ok_bind, Utils.split, h_e, error_bind]

/-! ### The format -/

/-- A file that was written, by what its ciphertext decrypts to. -/
theorem encryptFile_eq_ok_iff (LC : C.Lawful P S) {inputPath password : JsString}
    {key : ByteArr 32} (h_key : fileKey E P inputPath password = .ok key.1) {plaintext : Bytes}
    (h_len : S.aes256GcmLimits.encrypts plaintext.length 0) {nonce : ByteArr 12}
    {blob : Uint8Array} :
    encryptFile E P C N inputPath password plaintext nonce = .ok blob.bytes ↔
      ∃ ciphertext, blob.bytes = nonce.1 ++ ciphertext ∧
        AES_GCM.decrypt P (.buffer key.1) (.buffer nonce.1) (.buffer ciphertext) =
          .ok plaintext := by
  have h_inverse (ciphertext : Bytes) :
      AES_GCM.encrypt P C (.buffer key.1) (.buffer nonce.1) (.buffer plaintext) =
          .ok ciphertext ↔
        AES_GCM.decrypt P (.buffer key.1) (.buffer nonce.1) (.buffer ciphertext) =
          .ok plaintext := (AES_GCM.inverse LC).encrypt_iff_decrypt h_len
  simp only [encryptFile, h_key, ok_bind, bind_eq_ok_iff, h_inverse, concatBuffers_pair_eq_ok_iff]
  refine ⟨?_, ?_⟩
  · rintro ⟨ciphertext, h_dec, -, h_eq⟩
    exact ⟨ciphertext, h_eq, h_dec⟩
  · rintro ⟨ciphertext, h_eq, h_dec⟩
    exact ⟨ciphertext, h_dec, h_eq ▸ blob.length_lt, h_eq⟩

/-- **What is read is exactly what was written**: for every path and password, a file is read as a
plaintext exactly if it was written for that plaintext, under some nonce. -/
theorem decryptFile_iff_encryptFile (LP : P.Lawful) (LC : C.Lawful P S)
    (inputPath password : JsString) (blob : Uint8Array) {plaintext : Bytes}
    (h_len : S.aes256GcmLimits.encrypts plaintext.length 0) :
    decryptFile E P inputPath password blob = .ok plaintext ↔
      ∃ nonce, encryptFile E P C N inputPath password plaintext nonce = .ok blob.bytes := by
  obtain ⟨key, h_key⟩ := exists_fileKey (E := E) LP inputPath password
  simp only [encryptFile_eq_ok_iff LC h_key h_len]
  refine ⟨?_, ?_⟩
  · intro h
    have h_ge : 12 ≤ blob.bytes.length := by
      by_contra h_lt
      obtain ⟨e, h_e, -⟩ := decryptFile_short h_key (not_le.mp h_lt)
      rw [h] at h_e
      cases h_e
    rw [decryptFile_eq h_key h_ge] at h
    split_ifs at h with h_rest
    · exact ⟨⟨blob.bytes.take 12, length_nonce h_ge⟩, blob.bytes.drop 12,
        (List.take_append_drop 12 blob.bytes).symm, h⟩
    · -- nothing is decrypted that is no buffer
      obtain ⟨bytes, h_bytes, -⟩ := (AES_GCM.inverse LC).length_of_decrypt h
      cases h_bytes
  · rintro ⟨nonce, ciphertext, h_eq, h_dec⟩
    obtain ⟨_, ⟨⟩, h_tag⟩ := (AES_GCM.inverse LC).length_of_decrypt h_dec
    have h_lt : 12 < blob.bytes.length := by
      rw [h_eq, List.length_append, nonce.2, h_tag]
      omega
    rw [decryptFile_eq h_key h_lt.le, if_pos h_lt, h_eq, List.take_left' nonce.2,
      List.drop_left' nonce.2]
    exact h_dec

/-- A file of one byte. -/
theorem decryptFile_iff_encryptFile_one :
    ∃ blob : Uint8Array, blob.bytes.length = 29 ∧
      decryptFile plainEngine (withRealCiphers rustCrypto) (js "path") (js "password") blob =
        .ok [1] := by
  let nonce : ByteArr 12 := ByteArr.replicate 12 2
  obtain ⟨key, h_key⟩ := exists_fileKey (E := plainEngine)
    (withRealCiphers_lawful rustCrypto_lawful) (js "path") (js "password")
  let ciphertext := Gcm.aes256Gcm.encrypt key nonce [1] []
  have h_length : (nonce.1 ++ ciphertext).length = 29 := by
    rw [List.length_append, nonce.2, Aead.Scheme.length_encrypt]
    rfl
  let blob : Uint8Array := ⟨nonce.1 ++ ciphertext, by omega⟩
  have h_write : encryptFile plainEngine (withRealCiphers rustCrypto) realCiphers plainBuffer
      (js "path") (js "password") [1] nonce = .ok blob.bytes := by
    have h_enc : AES_GCM.encrypt (withRealCiphers rustCrypto) realCiphers (.buffer key.1)
        (.buffer nonce.1) (.buffer [1]) = .ok ciphertext :=
      (AES_GCM.encryptWithAad_returns _ _ _ _ _ _ _).mpr
        ⟨key, nonce, [1], [], rfl, rfl, rfl, rfl, rfl⟩
    rw [encryptFile, h_key, ok_bind, h_enc, ok_bind]
    exact concatBuffers_pair_eq_ok_iff.mpr ⟨by omega, rfl⟩
  exact ⟨blob, h_length, (decryptFile_iff_encryptFile (N := plainBuffer)
    (withRealCiphers_lawful rustCrypto_lawful) (realCiphers_lawful rustCrypto) _ _ blob
    (by decide)).mpr ⟨nonce, h_write⟩⟩

end EncryptedFile

end Core

end SignalisCore
