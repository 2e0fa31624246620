import SignalisCore.Facade.Core

/-!
# UTF-8 between JavaScript strings and bytes

Decoding is strict: what it accepts, it inverts. Encoding is not: the binding converts the string to
UTF-8 on the way in, and the conversion replaces what it cannot represent. So a string comes back
exactly when it is well formed.

* `lossless_iff`: the strings that survive encoding and decoding.
* `encode_of_decode`: decoded bytes are encoded to themselves.
-/

namespace SignalisCore

open LittleEndian

namespace Core.Utf8

variable (P : Primitives)

theorem encode_string (s : JsString) : encode (.string s) = .ok (Node.utf8Encode s) := rfl

theorem decode_buffer (b : Bytes) : decode P (.buffer b) = callNative (Node.utf8Decode P b) := rfl

/-- The addon decodes what it encoded, up to the replacement of unpaired surrogates. -/
theorem utf8Decode_utf8Encode (s : JsString) :
    Node.utf8Decode P (Node.utf8Encode s) = .ok (Utf16.encode (Utf16.decodeLossy s)) := by
  rw [Node.utf8Decode, Node.utf8Encode, Encoding.utf8Decode_utf8Encode]
  simp [Node.mapErr, Except.mapError, Except.map, Node.stringResult, Node.stringArg]

/-- Encoding `s` throws, or gives bytes that are decoded to `s`. -/
def Lossless (s : JsString) : Prop :=
  (∃ e, encode (.string s) = .error e) ∨
    ∃ b, encode (.string s) = .ok b ∧ decode P (.buffer b) = .ok s

/-- **A string survives** exactly when its surrogates are paired. -/
theorem lossless_iff (s : JsString) : Lossless P s ↔ Utf16.isWellFormed s = true := by
  rw [← Utf16.encode_decodeLossy_iff, Lossless]
  simp [encode_string, decode_buffer, utf8Decode_utf8Encode]

/-- **Decoded bytes are encoded to themselves.** -/
theorem encode_of_decode {b : Bytes} {t : JsString} (h : decode P (.buffer b) = .ok t) :
    encode (.string t) = .ok b := by
  rw [decode_buffer, callNative_eq_ok_iff, Node.utf8Decode] at h
  cases h_s : Encoding.utf8Decode P b with
  | error e =>
    rw [h_s] at h
    cases h
  | ok s =>
    rw [h_s] at h
    cases h
    -- a Rust string becomes a JavaScript string and back without loss
    have h_arg : Node.stringArg (Node.stringResult s) = s := by
      rw [Node.stringArg, Node.stringResult, Utf16.decodeLossy_encode, String.ofList_toList]
    rw [encode_string, Node.utf8Encode, h_arg, Encoding.utf8Encode_of_utf8Decode P h_s]

/-- **What is lossless**: from strings, exactly the well-formed ones; from bytes, everything that is
decoded at all. -/
theorem roundTrip_iff :
    (∀ s : JsString, Lossless P s ↔ Utf16.isWellFormed s = true) ∧
    ∀ (b : Bytes) (t : JsString), decode P (.buffer b) = .ok t → encode (.string t) = .ok b :=
  ⟨lossless_iff P, fun _ _ => encode_of_decode P⟩

theorem roundTrip_iff_ascii :
    decode rustCrypto (.buffer [0x61]) = .ok [0x61] ∧ encode (.string [0x61]) = .ok [0x61] := by
  have h : decode rustCrypto (.buffer [0x61]) = .ok [0x61] :=
    congrArg callNative (utf8Decode_utf8Encode rustCrypto [0x61])
  exact ⟨h, (roundTrip_iff rustCrypto).2 [0x61] [0x61] h⟩

/-- A lone surrogate is encoded as U+FFFD, and does not come back. -/
theorem unpaired_surrogate_replaced :
    encode (.string [0xD800]) = .ok [0xEF, 0xBF, 0xBD] ∧
    decode rustCrypto (.buffer [0xEF, 0xBF, 0xBD]) = .ok [0xFFFD] ∧
    ¬Lossless rustCrypto [0xD800] := by
  refine ⟨rfl, congrArg callNative (utf8Decode_utf8Encode rustCrypto [0xD800]), ?_⟩
  rw [lossless_iff]
  decide

end Core.Utf8

end SignalisCore
