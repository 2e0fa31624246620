import SignalisCore.Crates.Primitives
import SignalisCore.Library.Ascii

/-!
# `sc-encoding`: Base64, hex and UTF-8

The decoders of the crate, each an external decoder with its errors renamed. A Rust string is a
`String`, whose bytes are valid UTF-8 by construction; `core::str::from_utf8` accepts exactly the
byte strings that a `String` can have.

* `utf8Decode_utf8Encode`, `utf8Encode_of_utf8Decode`: the two directions of UTF-8 are inverse.
-/

namespace SignalisCore

open LittleEndian

namespace Encoding

inductive Error
  | invalidCharacter (encoding : String) (position : ℕ)
  | invalidLength (encoding : String) (length : ℕ) (expected : String)
  | invalidPadding
  | invalidUtf8 (reason : String)
  deriving DecidableEq

def Error.toString : Error → String
  | .invalidCharacter encoding position =>
    "invalid character(s) in " ++ encoding ++ " input at position " ++ position.repr
  | .invalidLength encoding length expected =>
    "invalid length for " ++ encoding ++ ": " ++ length.repr ++ " (expected " ++ expected ++ ")"
  | .invalidPadding => "invalid Base64 padding"
  | .invalidUtf8 reason => "invalid UTF-8: " ++ reason

/-- `as_bytes` of a string. -/
def asBytes (s : String) : Bytes := s.toUTF8.data.toList

/-- The bytes of a string are those of its characters. -/
theorem asBytes_ofList (cs : List Char) : asBytes (.ofList cs) = Ascii.utf8 cs := by
  rw [asBytes, String.toUTF8_eq_toByteArray, String.toByteArray_ofList, List.utf8Encode,
    List.data_toByteArray]
  rfl

theorem fromUTF8?_asBytes (s : String) : String.fromUTF8? ⟨(asBytes s).toArray⟩ = some s := by
  have h_bytes : (⟨(asBytes s).toArray⟩ : ByteArray) = s.toByteArray := rfl
  rw [h_bytes, String.fromUTF8?, dif_pos s.isValidUTF8]
  rfl

theorem asBytes_of_fromUTF8? {b : Bytes} {s : String} (h : String.fromUTF8? ⟨b.toArray⟩ = some s) :
    asBytes s = b := by
  rw [String.fromUTF8?] at h
  split_ifs at h
  cases h
  rfl

theorem asBytes_injective : Function.Injective asBytes := by
  intro s t h
  have h_s := fromUTF8?_asBytes s
  rw [h, fromUTF8?_asBytes] at h_s
  exact (Option.some.inj h_s).symm

/-- A string of ASCII codes is the only one with these bytes. -/
theorem map_toNat_asBytes_eq_iff {t : String} {codes : List ℕ}
    (h_codes : t.toList.map Char.toNat = codes) (h_lt : ∀ c ∈ codes, c < 128) (s : String) :
    (asBytes s).map UInt8.toNat = codes ↔ t = s := by
  subst h_codes
  rw [List.forall_mem_map] at h_lt
  have h_t : (asBytes t).map UInt8.toNat = t.toList.map Char.toNat := by
    conv_lhs => rw [← String.ofList_toList (s := t), asBytes_ofList,
      Ascii.utf8_of_forall_lt h_lt, List.map_map]
    refine List.map_congr_left fun c h_c => ?_
    have h_c_lt := h_lt c h_c
    rw [Function.comp_apply, UInt8.toNat_ofNat', Nat.mod_eq_of_lt (by omega)]
  rw [← h_t]
  refine ⟨?_, ?_⟩
  · intro h
    have h_toNat : Function.Injective UInt8.toNat := fun _ _ => UInt8.toNat_inj.1
    exact (asBytes_injective (List.map_injective_iff.2 h_toNat h)).symm
  · rintro rfl
    rfl

variable (P : Primitives)

/-! ### Base64 and hex -/

theorem mapError_eq_ok_iff {ε : Type} {f : ε → Error} {result : Except ε Bytes} {b : Bytes} :
    result.mapError f = .ok b ↔ result = .ok b := by
  cases result <;> simp [Except.mapError]

def mapBase64Error : DecodeError → Error
  | .invalidByte position _ => .invalidCharacter "base64" position
  | .invalidLength length => .invalidLength "base64" length
      "multiple of 4 (or unpadded length congruent to 0/2/3 mod 4)"
  | .invalidLastSymbol position _ => .invalidCharacter "base64" position
  | .invalidPadding => .invalidPadding

def base64Decode (input : String) : Except Error Bytes :=
  (P.base64Standard (asBytes input)).mapError mapBase64Error

def base64DecodeUrlSafe (input : String) : Except Error Bytes :=
  (P.base64UrlSafeNoPad (asBytes input)).mapError mapBase64Error

def mapHexError : FromHexError → Error
  | .invalidHexCharacter index => .invalidCharacter "hex" index
  -- the source does not know the length here and reports zero
  | .oddLength => .invalidLength "hex" 0 "even (multiple of 2)"
  | .invalidStringLength => .invalidLength "hex" 0 "matches expected buffer size"

def hexDecode (input : String) : Except Error Bytes :=
  (P.hexDecode (asBytes input)).mapError mapHexError

/-! ### UTF-8 -/

def utf8Encode (input : String) : Bytes := asBytes input

def utf8Decode (input : Bytes) : Except Error String :=
  match String.fromUTF8? ⟨input.toArray⟩ with
  | some s => .ok s
  | none => .error (.invalidUtf8 (P.utf8ErrorText input))

def utf8IsValid (input : Bytes) : Bool := (String.fromUTF8? ⟨input.toArray⟩).isSome

/-- Encoded strings are decoded. -/
theorem utf8Decode_utf8Encode (s : String) : utf8Decode P (utf8Encode s) = .ok s := by
  rw [utf8Decode, utf8Encode, fromUTF8?_asBytes]

/-- Decoded bytes are an encoding. -/
theorem utf8Encode_of_utf8Decode {b : Bytes} {s : String} (h : utf8Decode P b = .ok s) :
    utf8Encode s = b := by
  unfold utf8Decode at h
  split at h
  · next s' h_s' =>
    cases h
    exact asBytes_of_fromUTF8? h_s'
  · cases h

end Encoding

end SignalisCore
