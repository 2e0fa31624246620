import SignalisCore.Crates.Encoding
import SignalisCore.Library.Base64

/-!
# `sc-encoding`: the encoders of Base64

`base64.rs` without its decoders, which stand with the other decoders. Each pair of functions calls
one engine of the crate `base64`.

* `base64_canonical`: what is decoded is exactly what is encoded.
-/

namespace SignalisCore

open LittleEndian

/-- The encoders of the crate `base64`. -/
structure Base64Crate where
  /-- `STANDARD.encode`. -/
  standard : Bytes → String
  /-- `URL_SAFE_NO_PAD.encode`. -/
  urlSafeNoPad : Bytes → String

/-- What the workspace relies on: `STANDARD` has the alphabet with `+` and `/`, requires padding and
rejects trailing bits; `URL_SAFE_NO_PAD` has the alphabet with `-` and `_`, forbids padding and
rejects trailing bits. -/
structure Base64Crate.Lawful (B : Base64Crate) (P : Primitives) : Prop where
  standard : ∀ b, (B.standard b).toList.map Char.toNat = Base64.encodePadded Base64.standard b
  urlSafeNoPad : ∀ b,
    (B.urlSafeNoPad b).toList.map Char.toNat = Base64.encodeUnpadded Base64.urlSafe b
  standardDecode : ∀ s b, P.base64Standard s = .ok b ↔
    Base64.decodePadded Base64.standard (s.map UInt8.toNat) = some b
  urlSafeNoPadDecode : ∀ s b, P.base64UrlSafeNoPad s = .ok b ↔
    Base64.decodeUnpadded Base64.urlSafe (s.map UInt8.toNat) = some b

/-! ### A concrete instance -/

def rustBase64 : Base64Crate where
  standard b := Ascii.ofCodes (Base64.encodePadded Base64.standard b)
  urlSafeNoPad b := Ascii.ofCodes (Base64.encodeUnpadded Base64.urlSafe b)

/-- A decoder as the crate has it, with one error for all that it rejects. -/
def rustBase64Decode (decode : List ℕ → Option Bytes) (s : Bytes) : Except DecodeError Bytes :=
  match decode (s.map UInt8.toNat) with
  | some b => .ok b
  | none => .error .invalidPadding

theorem rustBase64Decode_eq_ok_iff (decode : List ℕ → Option Bytes) (s b : Bytes) :
    rustBase64Decode decode s = .ok b ↔ decode (s.map UInt8.toNat) = some b := by
  unfold rustBase64Decode
  split
  · next h => simp [h]
  · next h => simp [h]

/-- `rustCrypto` with the decoders of Base64. -/
def rustCryptoBase64 : Primitives :=
  { rustCrypto with
    base64Standard := rustBase64Decode (Base64.decodePadded Base64.standard)
    base64UrlSafeNoPad := rustBase64Decode (Base64.decodeUnpadded Base64.urlSafe) }

theorem rustBase64_lawful : rustBase64.Lawful rustCryptoBase64 where
  standard _ := Ascii.map_toNat_ofCodes (Base64.lt_of_mem_encodePadded _)
  urlSafeNoPad _ := Ascii.map_toNat_ofCodes (Base64.lt_of_mem_encodeUnpadded _)
  standardDecode := rustBase64Decode_eq_ok_iff _
  urlSafeNoPadDecode := rustBase64Decode_eq_ok_iff _

/-! ### The functions of the crate -/

namespace Encoding

variable (B : Base64Crate)

def base64Encode (input : Bytes) : String := B.standard input

def base64EncodeUrlSafe (input : Bytes) : String := B.urlSafeNoPad input

variable {B} {P : Primitives}

theorem base64Decode_eq_ok_iff (L : B.Lawful P) (s : String) (b : Bytes) :
    base64Decode P s = .ok b ↔ base64Encode B b = s := by
  rw [base64Decode, mapError_eq_ok_iff, L.standardDecode, Base64.decodePadded_eq_some_iff,
    eq_comm, map_toNat_asBytes_eq_iff (L.standard b) (Base64.lt_of_mem_encodePadded _),
    base64Encode]

theorem base64DecodeUrlSafe_eq_ok_iff (L : B.Lawful P) (s : String) (b : Bytes) :
    base64DecodeUrlSafe P s = .ok b ↔ base64EncodeUrlSafe B b = s := by
  rw [base64DecodeUrlSafe, mapError_eq_ok_iff, L.urlSafeNoPadDecode,
    Base64.decodeUnpadded_eq_some_iff, eq_comm,
    map_toNat_asBytes_eq_iff (L.urlSafeNoPad b) (Base64.lt_of_mem_encodeUnpadded _),
    base64EncodeUrlSafe]

/-- A decoder that inverts an encoder rejects what is no encoding. -/
theorem exists_error_of_forall_ne {decode : String → Except Error Bytes} {encode : Bytes → String}
    (h : ∀ s b, decode s = .ok b ↔ encode b = s) {s : String} (h_ne : ∀ b, encode b ≠ s) :
    ∃ e, decode s = .error e := by
  cases h_s : decode s with
  | error e => exact ⟨e, rfl⟩
  | ok b => exact absurd ((h s b).1 h_s) (h_ne b)

/-- **What is decoded is exactly what is encoded**, by the same pair of functions: the encoding of a
byte string is the one spelling of it that is accepted, and all that is no encoding is refused. -/
theorem base64_canonical (L : B.Lawful P) :
    (∀ s b, base64Decode P s = .ok b ↔ base64Encode B b = s) ∧
    (∀ s b, base64DecodeUrlSafe P s = .ok b ↔ base64EncodeUrlSafe B b = s) ∧
    (∀ s, (∀ b, base64Encode B b ≠ s) → ∃ e, base64Decode P s = .error e) ∧
    ∀ s, (∀ b, base64EncodeUrlSafe B b ≠ s) → ∃ e, base64DecodeUrlSafe P s = .error e :=
  ⟨base64Decode_eq_ok_iff L, base64DecodeUrlSafe_eq_ok_iff L,
    fun _ => exists_error_of_forall_ne (base64Decode_eq_ok_iff L),
    fun _ => exists_error_of_forall_ne (base64DecodeUrlSafe_eq_ok_iff L)⟩

/-- `"Zg=="` is the byte `0x66`. -/
theorem base64_canonical_f :
    base64Decode rustCryptoBase64 (base64Encode rustBase64 [0x66]) = .ok [0x66] :=
  ((base64_canonical rustBase64_lawful).1 _ _).2 rfl

end Encoding

end SignalisCore
