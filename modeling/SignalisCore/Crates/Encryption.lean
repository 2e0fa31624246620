import SignalisCore.Crates.Aead
import SignalisCore.Library.Cbc
import SignalisCore.Library.ChaChaPoly
import SignalisCore.Library.Gcm

/-!
# `sc-aes` and `sc-chacha20poly1305`: encryption

The encrypting half of the three AEADs, and AES-256-CBC. What the crates call is a further structure
of functions, `Ciphers`, with the laws that tie it to the decrypting half in `Primitives`: an AEAD
is a stream cipher with a tag, within limits on its lengths, and CBC chains a block cipher over the
padded text.

* `AeadEncryption.Lawful.encrypt_iff_decrypt`, `Aes256Cbc.decrypt_eq_ok_iff_encrypt`: encryption and
  decryption are inverse.
* `realCiphers`, `withRealCiphers`: AES-256-GCM, ChaCha20-Poly1305, XChaCha20-Poly1305 and
  AES-256-CBC as the standards define them.
-/

namespace SignalisCore

open LittleEndian

/-! ### The third-party crates -/

/-- The encryption of an AEAD with a 32-byte key. The last two arguments are the payload's `msg` and
`aad`. -/
structure AeadEncryption (nonceLen : ℕ) where
  /-- `encrypt`: the ciphertext with its tag, `none` for the error. -/
  encrypt : ByteArr 32 → ByteArr nonceLen → Bytes → Bytes → Option Bytes

/-- The `cbc` crate over `aes::Aes256`, with PKCS #7 padding. -/
structure CbcImpl where
  /-- `Encryptor::new(key, iv).encrypt_padded_vec_mut(msg)`. -/
  encryptPaddedVec : ByteArr 32 → ByteArr 16 → Bytes → Bytes
  /-- `Decryptor::new(key, iv).decrypt_padded_vec_mut(buf)`, `none` for the error. -/
  decryptPaddedVec : ByteArr 32 → ByteArr 16 → Bytes → Option Bytes

/-- **The third-party functions that encryption calls.** -/
structure Ciphers where
  /-- `Aes256Gcm`. -/
  aes256Gcm : AeadEncryption 12
  /-- `ChaCha20Poly1305`. -/
  chaCha20Poly1305 : AeadEncryption 12
  /-- `XChaCha20Poly1305`. -/
  xChaCha20Poly1305 : AeadEncryption 24
  /-- `cbc` over `Aes256`. -/
  aes256Cbc : CbcImpl

/-- The lengths of text and associated data that an AEAD takes. -/
structure Limits where
  /-- What is encrypted. -/
  encrypts : ℕ → ℕ → Bool
  /-- What is decrypted, the tag left out. -/
  decrypts : ℕ → ℕ → Bool
  /-- What is encrypted is decrypted. -/
  decrypts_of_encrypts : ∀ {text aad : ℕ}, encrypts text aad → decrypts text aad

/-- **The behaviour assumed of an AEAD**: within its limits, a stream cipher with a tag of sixteen
bytes behind the ciphertext. -/
structure AeadEncryption.Lawful {nonceLen : ℕ} (enc : AeadEncryption nonceLen)
    (dec : AeadImpl nonceLen) (S : Aead.Scheme (ByteArr 32) (ByteArr nonceLen)) (L : Limits) :
    Prop where
  tagLen : S.tagLen = 16
  encrypt_eq : ∀ key nonce text aad, enc.encrypt key nonce text aad =
    if L.encrypts text.length aad.length then some (S.encrypt key nonce text aad) else none
  decrypt_eq : ∀ key nonce ciphertext aad, dec.decrypt key nonce ciphertext aad =
    if L.decrypts (ciphertext.length - S.tagLen) aad.length then
      S.decrypt key nonce ciphertext aad
    else none

/-- **The behaviour assumed of `cbc`**: chaining of a block cipher, whatever it is. -/
structure CbcImpl.Lawful (I : CbcImpl) (cipher : ByteArr 32 → Equiv.Perm (ByteArr 16)) : Prop where
  encrypt_eq : ∀ key iv text,
    I.encryptPaddedVec key iv text = Cbc.encryptPadded (cipher key) iv text
  decrypt_eq : ∀ key iv ciphertext,
    I.decryptPaddedVec key iv ciphertext = Cbc.decryptPadded (cipher key) iv ciphertext

/-- What the ciphers are made of. -/
structure CipherSchemes where
  aes256Gcm : Aead.Scheme (ByteArr 32) (ByteArr 12)
  aes256GcmLimits : Limits
  chaCha20Poly1305 : Aead.Scheme (ByteArr 32) (ByteArr 12)
  xChaCha20Poly1305 : Aead.Scheme (ByteArr 32) (ByteArr 24)
  /-- The limits of both ciphers of `chacha20poly1305`. -/
  chaChaLimits : Limits
  /-- The block cipher under a key. -/
  aes256 : ByteArr 32 → Equiv.Perm (ByteArr 16)

/-- What the workspace relies on. -/
structure Ciphers.Lawful (C : Ciphers) (P : Primitives) (S : CipherSchemes) : Prop where
  aes256Gcm : C.aes256Gcm.Lawful P.aes256Gcm S.aes256Gcm S.aes256GcmLimits
  chaCha20Poly1305 :
    C.chaCha20Poly1305.Lawful P.chaCha20Poly1305 S.chaCha20Poly1305 S.chaChaLimits
  xChaCha20Poly1305 :
    C.xChaCha20Poly1305.Lawful P.xChaCha20Poly1305 S.xChaCha20Poly1305 S.chaChaLimits
  aes256Cbc : C.aes256Cbc.Lawful S.aes256

namespace AeadEncryption.Lawful

variable {nonceLen : ℕ} {enc : AeadEncryption nonceLen} {dec : AeadImpl nonceLen}
  {S : Aead.Scheme (ByteArr 32) (ByteArr nonceLen)} {L : Limits}

theorem encrypt_eq_some_iff (h : enc.Lawful dec S L) {key : ByteArr 32} {nonce : ByteArr nonceLen}
    {text aad ciphertext : Bytes} :
    enc.encrypt key nonce text aad = some ciphertext ↔
      L.encrypts text.length aad.length ∧ S.encrypt key nonce text aad = ciphertext := by
  rw [h.encrypt_eq, Option.ite_none_right_eq_some, Option.some.injEq]

theorem decrypt_eq_some_iff (h : enc.Lawful dec S L) {key : ByteArr 32} {nonce : ByteArr nonceLen}
    {text aad ciphertext : Bytes} :
    dec.decrypt key nonce ciphertext aad = some text ↔
      L.decrypts text.length aad.length ∧ S.encrypt key nonce text aad = ciphertext := by
  rw [h.decrypt_eq, Option.ite_none_right_eq_some, Aead.Scheme.decrypt_eq_some_iff]
  refine and_congr_left fun h_eq => ?_
  -- the text is what is left without the tag
  rw [← h_eq, Aead.Scheme.length_encrypt, Nat.add_sub_cancel]

/-- **Encryption and decryption are inverse**, where encryption takes the text at all. -/
theorem encrypt_iff_decrypt (h : enc.Lawful dec S L) {key : ByteArr 32} {nonce : ByteArr nonceLen}
    {text aad ciphertext : Bytes} :
    enc.encrypt key nonce text aad = some ciphertext ↔
      L.encrypts text.length aad.length ∧ dec.decrypt key nonce ciphertext aad = some text := by
  rw [h.encrypt_eq_some_iff, h.decrypt_eq_some_iff]
  refine and_congr_right fun h_enc => ?_
  rw [and_iff_right (L.decrypts_of_encrypts h_enc)]

/-- A string without room for a tag is refused. -/
theorem decrypt_short (h : enc.Lawful dec S L) {key : ByteArr 32} {nonce : ByteArr nonceLen}
    {aad ciphertext : Bytes} (h_short : ciphertext.length < 16) :
    dec.decrypt key nonce ciphertext aad = none := by
  rw [Option.eq_none_iff_forall_ne_some]
  intro text h_dec
  obtain ⟨-, rfl⟩ := h.decrypt_eq_some_iff.mp h_dec
  rw [Aead.Scheme.length_encrypt, h.tagLen] at h_short
  omega

end AeadEncryption.Lawful

/-! ### A concrete instance -/

/-- A scheme within limits. -/
def schemeEncryption {nonceLen : ℕ} (S : Aead.Scheme (ByteArr 32) (ByteArr nonceLen))
    (L : Limits) : AeadEncryption nonceLen where
  encrypt key nonce text aad :=
    if L.encrypts text.length aad.length then some (S.encrypt key nonce text aad) else none

def schemeDecryption {nonceLen : ℕ} (S : Aead.Scheme (ByteArr 32) (ByteArr nonceLen))
    (L : Limits) : AeadImpl nonceLen where
  decrypt key nonce ciphertext aad :=
    if L.decrypts (ciphertext.length - S.tagLen) aad.length then
      S.decrypt key nonce ciphertext aad
    else none

/-- The limits of `aes-gcm`: `P_MAX`, `C_MAX` and `A_MAX`. -/
def aesGcmLimits : Limits where
  encrypts text aad := text ≤ 2 ^ 36 && aad ≤ 2 ^ 36
  decrypts text aad := text ≤ 2 ^ 36 + 16 && aad ≤ 2 ^ 36
  decrypts_of_encrypts h := by
    simp only [Bool.and_eq_true, decide_eq_true_eq] at h ⊢
    omega

/-- The limit of `chacha20poly1305`: the blocks that a counter of 32 bits can number. -/
def chaChaLimits : Limits where
  encrypts text _ := text / 64 < 2 ^ 32 - 1
  decrypts text _ := text / 64 < 2 ^ 32 - 1
  decrypts_of_encrypts h := h

/-- The ciphers of the standards. -/
def realSchemes : CipherSchemes where
  aes256Gcm := Gcm.aes256Gcm
  aes256GcmLimits := aesGcmLimits
  chaCha20Poly1305 := ChaChaPoly.chaCha20Poly1305
  xChaCha20Poly1305 := ChaChaPoly.xChaCha20Poly1305
  chaChaLimits := chaChaLimits
  aes256 := Aes.aes256

/-- The four ciphers. -/
def realCiphers : Ciphers where
  aes256Gcm := schemeEncryption Gcm.aes256Gcm aesGcmLimits
  chaCha20Poly1305 := schemeEncryption ChaChaPoly.chaCha20Poly1305 chaChaLimits
  xChaCha20Poly1305 := schemeEncryption ChaChaPoly.xChaCha20Poly1305 chaChaLimits
  aes256Cbc := ⟨fun key => Cbc.encryptPadded (Aes.aes256 key),
    fun key => Cbc.decryptPadded (Aes.aes256 key)⟩

/-- The third-party functions with the decryption of the three AEADs. -/
def withRealCiphers (P : Primitives) : Primitives :=
  { P with
    aes256Gcm := schemeDecryption Gcm.aes256Gcm aesGcmLimits
    chaCha20Poly1305 := schemeDecryption ChaChaPoly.chaCha20Poly1305 chaChaLimits
    xChaCha20Poly1305 := schemeDecryption ChaChaPoly.xChaCha20Poly1305 chaChaLimits }

theorem withRealCiphers_lawful {P : Primitives} (L : P.Lawful) : (withRealCiphers P).Lawful :=
  ⟨L.hkdfSha256, L.hkdfSha512⟩

theorem realCiphers_lawful (P : Primitives) :
    realCiphers.Lawful (withRealCiphers P) realSchemes where
  aes256Gcm := ⟨rfl, fun _ _ _ _ => rfl, fun _ _ _ _ => rfl⟩
  chaCha20Poly1305 := ⟨rfl, fun _ _ _ _ => rfl, fun _ _ _ _ => rfl⟩
  xChaCha20Poly1305 := ⟨rfl, fun _ _ _ _ => rfl, fun _ _ _ _ => rfl⟩
  aes256Cbc := ⟨fun _ _ _ => rfl, fun _ _ _ => rfl⟩

/-! ### AES-256-GCM -/

namespace Aes256Gcm

variable (P : Primitives) (C : Ciphers)

/-- `Aes256GcmCipher::encrypt`: a plaintext alone is a payload without associated data. -/
def encrypt (key : ByteArr 32) (nonce : ByteArr 12) (plaintext : Bytes) : Except Error Bytes :=
  mapErr P (C.aes256Gcm.encrypt key nonce plaintext [])

def encryptWithAad (key : ByteArr 32) (nonce : ByteArr 12) (plaintext aad : Bytes) :
    Except Error Bytes :=
  mapErr P (C.aes256Gcm.encrypt key nonce plaintext aad)

theorem mapErr_eq_ok_iff {result : Option Bytes} {bytes : Bytes} :
    mapErr P result = .ok bytes ↔ result = some bytes := by
  cases result <;> simp [mapErr]

end Aes256Gcm

/-! ### AES-256-CBC -/

namespace Aes256Cbc

/-- The member of `AesError` that the cipher returns. -/
inductive Error
  | cbcPaddingError
  deriving DecidableEq

def Error.toString : Error → String
  | .cbcPaddingError => "AES-CBC padding error"

variable (C : Ciphers)

/-- `Aes256CbcCipher::encrypt`. -/
def encrypt (key : ByteArr 32) (iv : ByteArr 16) (plaintext : Bytes) : Bytes :=
  C.aes256Cbc.encryptPaddedVec key iv plaintext

/-- `Aes256CbcCipher::decrypt`. -/
def decrypt (key : ByteArr 32) (iv : ByteArr 16) (ciphertext : Bytes) : Except Error Bytes :=
  match C.aes256Cbc.decryptPaddedVec key iv ciphertext with
  | none => .error .cbcPaddingError
  | some plaintext => .ok plaintext

variable {C}

theorem decrypt_eq_ok_iff {key : ByteArr 32} {iv : ByteArr 16} {ciphertext plaintext : Bytes} :
    decrypt C key iv ciphertext = .ok plaintext ↔
      C.aes256Cbc.decryptPaddedVec key iv ciphertext = some plaintext := by
  unfold decrypt
  split <;> simp_all

/-- **What decrypts is exactly what was encrypted.** -/
theorem decrypt_eq_ok_iff_encrypt {cipher : ByteArr 32 → Equiv.Perm (ByteArr 16)}
    (L : C.aes256Cbc.Lawful cipher) {key : ByteArr 32} {iv : ByteArr 16}
    {ciphertext plaintext : Bytes} :
    decrypt C key iv ciphertext = .ok plaintext ↔ encrypt C key iv plaintext = ciphertext := by
  rw [decrypt_eq_ok_iff, L.decrypt_eq, encrypt, L.encrypt_eq,
    Cbc.decryptPadded_eq_some_iff _ (by norm_num) (by norm_num)]

theorem length_encrypt {cipher : ByteArr 32 → Equiv.Perm (ByteArr 16)}
    (L : C.aes256Cbc.Lawful cipher) (key : ByteArr 32) (iv : ByteArr 16) (plaintext : Bytes) :
    (encrypt C key iv plaintext).length = (plaintext.length / 16 + 1) * 16 := by
  rw [encrypt, L.encrypt_eq, Cbc.length_encryptPadded]

end Aes256Cbc

/-! ### ChaCha20-Poly1305 and XChaCha20-Poly1305 -/

namespace ChaCha20Poly1305

/-- The members of the crate's `Error` that encryption returns. -/
inductive EncryptError
  | invalidKeyLength (expected actual : ℕ)
  | invalidNonceLength (expected actual : ℕ)
  | encryptionFailed
  deriving DecidableEq

def EncryptError.toString : EncryptError → String
  | .invalidKeyLength expected actual => (Error.invalidKeyLength expected actual).toString
  | .invalidNonceLength expected actual => (Error.invalidNonceLength expected actual).toString
  | .encryptionFailed => "ChaCha20Poly1305: encryption failed"

/-- `new(key)?.encrypt(nonce, plaintext, aad)` for the two ciphers of the crate. -/
def encryptWith {nonceLen : ℕ} (A : AeadEncryption nonceLen) (key nonce plaintext aad : Bytes) :
    Except EncryptError Bytes :=
  if h_key : key.length = 32 then
    if h_nonce : nonce.length = nonceLen then
      match A.encrypt ⟨key, h_key⟩ ⟨nonce, h_nonce⟩ plaintext aad with
      | none => .error .encryptionFailed
      | some ciphertext => .ok ciphertext
    else .error (.invalidNonceLength nonceLen nonce.length)
  else .error (.invalidKeyLength 32 key.length)

variable (C : Ciphers)

def encryptWithAad (key nonce plaintext aad : Bytes) : Except EncryptError Bytes :=
  encryptWith C.chaCha20Poly1305 key nonce plaintext aad

def encrypt (key nonce plaintext : Bytes) : Except EncryptError Bytes :=
  encryptWith C.chaCha20Poly1305 key nonce plaintext []

def xchachaEncryptWithAad (key nonce plaintext aad : Bytes) : Except EncryptError Bytes :=
  encryptWith C.xChaCha20Poly1305 key nonce plaintext aad

def xchachaEncrypt (key nonce plaintext : Bytes) : Except EncryptError Bytes :=
  encryptWith C.xChaCha20Poly1305 key nonce plaintext []

theorem encryptWith_eq_ok_iff {nonceLen : ℕ} {A : AeadEncryption nonceLen} {key : ByteArr 32}
    {nonce : ByteArr nonceLen} {plaintext aad ciphertext : Bytes} :
    encryptWith A key.1 nonce.1 plaintext aad = .ok ciphertext ↔
      A.encrypt key nonce plaintext aad = some ciphertext := by
  rw [encryptWith, dif_pos key.2, dif_pos nonce.2]
  rcases A.encrypt key nonce plaintext aad with _ | c <;> simp

theorem decryptWith_eq_ok_iff {nonceLen : ℕ} {A : AeadImpl nonceLen} {key : ByteArr 32}
    {nonce : ByteArr nonceLen} {plaintext aad ciphertext : Bytes} :
    decryptWith A key.1 nonce.1 ciphertext aad = .ok plaintext ↔
      A.decrypt key nonce ciphertext aad = some plaintext := by
  rw [decryptWith, dif_pos key.2, dif_pos nonce.2]
  rcases A.decrypt key nonce ciphertext aad with _ | p <;> simp

end ChaCha20Poly1305

end SignalisCore
