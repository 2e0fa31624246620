import SignalisCore.Crates.Encoding
import SignalisCore.Library.Base16

/-!
# `sc-encoding`: the encoders of hex, and its validation

`hex.rs` without its decoder, which stands with the other decoders. Encoding is left to the crate
`hex`; `is_valid` is the crate's own loop over the bytes of the string.

* `hexIsValid_iff`: `is_valid` accepts what Base16 decodes.
* `hexDecode_eq_ok_iff`: and so does `decode`.
-/

namespace SignalisCore

open LittleEndian

/-- The encoders of the crate `hex`. -/
structure HexCrate where
  /-- `hex::encode`. -/
  encode : Bytes → String
  /-- `hex::encode_upper`. -/
  encodeUpper : Bytes → String

/-- What the workspace relies on: `hex::decode` rejects an odd number of bytes and every byte that
is no digit, and otherwise pairs the digits, the high half first; the encoders write such pairs. -/
structure HexCrate.Lawful (H : HexCrate) (P : Primitives) : Prop where
  decode : ∀ s b, P.hexDecode s = .ok b ↔ Base16.decode (s.map UInt8.toNat) = some b
  encode : ∀ b, (H.encode b).toList.map Char.toNat = Base16.encode Base16.lowerDigit b
  encodeUpper : ∀ b, (H.encodeUpper b).toList.map Char.toNat = Base16.encode Base16.upperDigit b

/-! ### A concrete instance -/

def rustHex : HexCrate where
  encode b := Ascii.ofCodes (Base16.encode Base16.lowerDigit b)
  encodeUpper b := Ascii.ofCodes (Base16.encode Base16.upperDigit b)

/-- The decoder of the crate `hex`: the length first, then the first byte that is no digit. -/
def rustHexDecode (s : Bytes) : Except FromHexError Bytes :=
  match Base16.decode (s.map UInt8.toNat) with
  | some b => .ok b
  | none =>
    if s.length % 2 ≠ 0 then .error .oddLength
    else .error (.invalidHexCharacter (s.findIdx fun x => (Base16.digit? x.toNat).isNone))

theorem rustHex_lawful : rustHex.Lawful { rustCrypto with hexDecode := rustHexDecode } where
  decode s b := by
    change rustHexDecode s = .ok b ↔ _
    unfold rustHexDecode
    split
    · next h => simp [h]
    · next h => split_ifs <;> simp [h]
  encode b :=
    Ascii.map_toNat_ofCodes fun c => Base16.lt_of_mem_encode fun v => Base16.lowerDigit_lt
  encodeUpper b :=
    Ascii.map_toNat_ofCodes fun c => Base16.lt_of_mem_encode fun v => Base16.upperDigit_lt

/-! ### The functions of the crate -/

namespace Encoding

/-- `u8::is_ascii_hexdigit`. -/
def isAsciiHexdigit (b : UInt8) : Bool :=
  48 ≤ b.toNat && b.toNat ≤ 57 || 65 ≤ b.toNat && b.toNat ≤ 70 || 97 ≤ b.toNat && b.toNat ≤ 102

variable (H : HexCrate)

def hexEncode (input : Bytes) : String := H.encode input

def hexEncodeUpper (input : Bytes) : String := H.encodeUpper input

def hexIsValid (input : String) : Bool :=
  if (asBytes input).length % 2 ≠ 0 then false
  else (asBytes input).all isAsciiHexdigit

theorem isAsciiHexdigit_iff (b : UInt8) : isAsciiHexdigit b ↔ (Base16.digit? b.toNat).isSome := by
  rw [Base16.digit?_isSome_iff]
  simp only [isAsciiHexdigit, Bool.or_eq_true, Bool.and_eq_true, decide_eq_true_eq]
  omega

/-- **`is_valid`** accepts what Base16 decodes. -/
theorem hexIsValid_iff (input : String) :
    hexIsValid input ↔ (Base16.decode ((asBytes input).map UInt8.toNat)).isSome := by
  rw [Base16.decode_isSome_iff, List.length_map, List.forall_mem_map, hexIsValid]
  simp only [← isAsciiHexdigit_iff, ← List.all_eq_true]
  split_ifs with h_length
  · simp [h_length]
  · simp [not_not.1 h_length]

variable {H} {P : Primitives}

/-- **`decode`** decodes Base16. -/
theorem hexDecode_eq_ok_iff (L : H.Lawful P) (input : String) (b : Bytes) :
    hexDecode P input = .ok b ↔ Base16.decode ((asBytes input).map UInt8.toNat) = some b := by
  rw [hexDecode, mapError_eq_ok_iff, L.decode]

end Encoding

end SignalisCore
