import SignalisCore.Facade.Utils

/-!
# Base64 between JavaScript strings and bytes

`Base64` in `core.ts` is strict and goes through the addon; `toBase64`, `fromBase64` and their
URL-safe siblings in `utils.ts` are Node's own, whose decoders take what they can and never throw.
A string that the addon accepts is ASCII, so nothing is lost on the way to it and back.

* `encode_eq_ok_iff`, `decode_eq_ok_iff`: the operations of `core.ts`, on the codes of a string.
* `base64_agrees`: the two pairs of `core.ts` and the two pairs of `utils.ts` agree.
-/

namespace SignalisCore

open LittleEndian

/-! ### Strings of known codes -/

namespace Node

variable {t : String} {codes : List ℕ} {s : List UInt16}

theorem map_toNat_injective : Function.Injective (List.map UInt16.toNat) :=
  List.map_injective_iff.2 fun _ _ => UInt16.toNat_inj.1

/-- An ASCII string on its way to JavaScript. -/
theorem stringResult_eq_iff (h_codes : t.toList.map Char.toNat = codes)
    (h_lt : ∀ c ∈ codes, c < 128) : stringResult t = s ↔ s.map UInt16.toNat = codes := by
  subst h_codes
  rw [List.forall_mem_map] at h_lt
  have h_t : (stringResult t).map UInt16.toNat = t.toList.map Char.toNat :=
    Ascii.map_toNat_encode h_lt
  rw [← h_t, map_toNat_injective.eq_iff, eq_comm]

/-- And on its way back: no other string is converted to it. -/
theorem eq_stringArg_iff (h_codes : t.toList.map Char.toNat = codes)
    (h_lt : ∀ c ∈ codes, c < 128) : t = stringArg s ↔ s.map UInt16.toNat = codes := by
  rw [← Encoding.map_toNat_asBytes_eq_iff h_codes h_lt, stringArg, Encoding.asBytes_ofList]
  refine ⟨?_, ?_⟩
  · intro h
    -- the bytes are ASCII, and so are the code units
    have h_bytes : ∀ b ∈ Ascii.utf8 (Utf16.decodeLossy s), b.toNat < 128 := by
      rw [← List.forall_mem_map (f := UInt8.toNat) (P := (· < 128)), h]
      exact h_lt
    rw [← Ascii.map_toNat_utf8 ((Ascii.forall_lt_iff s).1 h_bytes), h]
  · intro h
    rw [← h, List.forall_mem_map] at h_lt
    rw [Ascii.map_toNat_utf8 h_lt, h]

end Node

/-! ### The helpers of `utils.ts` -/

theorem map_toNat_map_ofNat {codes : List ℕ} (h : ∀ c ∈ codes, c < 128) :
    (codes.map UInt16.ofNat).map UInt16.toNat = codes := by
  rw [List.map_map]
  refine (List.map_congr_left fun c h_c => ?_).trans (List.map_id codes)
  have h_lt := h c h_c
  rw [Function.comp_apply, UInt16.toNat_ofNat', Nat.mod_eq_of_lt (by omega), id]

namespace Utils

/-- `buf.toString('base64')` encodes as the standard has it. -/
def toBase64 (buf : Bytes) : JsString :=
  (Base64.encodePadded Base64.standard buf).map UInt16.ofNat

/-- `Buffer.from(string, 'base64')` takes the symbols of both alphabets, skips what is none, and
stops at the padding. -/
def fromBase64 (b64 : JsString) : Bytes := Base64.decodeLenient (b64.map UInt16.toNat)

/-- `buf.toString('base64url')` leaves the padding away. -/
def toBase64Url (buf : Bytes) : JsString :=
  (Base64.encodeUnpadded Base64.urlSafe buf).map UInt16.ofNat

/-- `Buffer.from(string, 'base64url')` decodes as `Buffer.from(string, 'base64')` does. -/
def fromBase64Url (b64url : JsString) : Bytes := Base64.decodeLenient (b64url.map UInt16.toNat)

theorem map_toNat_toBase64 (b : Bytes) :
    (toBase64 b).map UInt16.toNat = Base64.encodePadded Base64.standard b :=
  map_toNat_map_ofNat (Base64.lt_of_mem_encodePadded _)

theorem map_toNat_toBase64Url (b : Bytes) :
    (toBase64Url b).map UInt16.toNat = Base64.encodeUnpadded Base64.urlSafe b :=
  map_toNat_map_ofNat (Base64.lt_of_mem_encodeUnpadded _)

end Utils

/-- `s.replaceAll('=', '').replaceAll('+', '-').replaceAll('/', '_')`. -/
def JsString.toBase64Url (s : JsString) : JsString :=
  (s.filter fun u => u.toNat ≠ Base64.pad).map fun u => .ofNat (Base64.toUrlSafe u.toNat)

namespace Core.Base64

variable {B : Base64Crate} {P : Primitives}

/-! ### The operations of `core.ts` -/

theorem encode_eq_ok_iff (L : B.Lawful P) {b : Bytes} {s : JsString} :
    encode B (.buffer b) = .ok s ↔
      s.map UInt16.toNat = Base64.encodePadded Base64.standard b := by
  have h_encode : encode B (.buffer b) = .ok (Node.base64Encode B b) := rfl
  rw [h_encode, Except.ok.injEq, Node.base64Encode, Encoding.base64Encode,
    Node.stringResult_eq_iff (L.standard b) (Base64.lt_of_mem_encodePadded _)]

theorem encodeUrlSafe_eq_ok_iff (L : B.Lawful P) {b : Bytes} {s : JsString} :
    encodeUrlSafe B (.buffer b) = .ok s ↔
      s.map UInt16.toNat = Base64.encodeUnpadded Base64.urlSafe b := by
  have h_encode : encodeUrlSafe B (.buffer b) = .ok (Node.base64EncodeUrlSafe B b) := rfl
  rw [h_encode, Except.ok.injEq, Node.base64EncodeUrlSafe, Encoding.base64EncodeUrlSafe,
    Node.stringResult_eq_iff (L.urlSafeNoPad b) (Base64.lt_of_mem_encodeUnpadded _)]

theorem decode_eq_ok_iff (L : B.Lawful P) {b : Bytes} {s : JsString} :
    decode P (.string s) = .ok b ↔
      s.map UInt16.toNat = Base64.encodePadded Base64.standard b := by
  have h_decode : decode P (.string s) = callNative (Node.base64Decode P s) := rfl
  rw [h_decode, callNative_eq_ok_iff, Node.base64Decode, Node.mapErr_eq_ok_iff,
    Encoding.base64Decode_eq_ok_iff L, Encoding.base64Encode,
    Node.eq_stringArg_iff (L.standard b) (Base64.lt_of_mem_encodePadded _)]

theorem decodeUrlSafe_eq_ok_iff (L : B.Lawful P) {b : Bytes} {s : JsString} :
    decodeUrlSafe P (.string s) = .ok b ↔
      s.map UInt16.toNat = Base64.encodeUnpadded Base64.urlSafe b := by
  have h_decode : decodeUrlSafe P (.string s) = callNative (Node.base64DecodeUrlSafe P s) := rfl
  rw [h_decode, callNative_eq_ok_iff, Node.base64DecodeUrlSafe, Node.mapErr_eq_ok_iff,
    Encoding.base64DecodeUrlSafe_eq_ok_iff L, Encoding.base64EncodeUrlSafe,
    Node.eq_stringArg_iff (L.urlSafeNoPad b) (Base64.lt_of_mem_encodeUnpadded _)]

/-! ### Agreement -/

/-- The URL-safe form of a string, on its codes. -/
theorem map_toNat_urlSafe {s : JsString} {b : Bytes}
    (h : s.map UInt16.toNat = Base64.encodePadded Base64.standard b) :
    (JsString.toBase64Url s).map UInt16.toNat = Base64.encodeUnpadded Base64.urlSafe b := by
  have h_codes : (s.filter fun u => u.toNat ≠ Base64.pad).map UInt16.toNat =
      (Base64.encodePadded Base64.standard b).filter (· ≠ Base64.pad) := by
    rw [← h, List.filter_map]
    rfl
  have h_map : (s.filter fun u => u.toNat ≠ Base64.pad).map (fun u => Base64.toUrlSafe u.toNat) =
      Base64.encodeUnpadded Base64.urlSafe b := by
    rw [← Base64.map_toUrlSafe_filter_encodePadded, ← h_codes, List.map_map]
    rfl
  -- the codes are small enough to be code units
  have h_units := map_toNat_map_ofNat (Base64.lt_of_mem_encodeUnpadded Base64.urlSafe (b := b))
  rw [← h_map, List.map_map, List.map_map] at h_units
  rw [JsString.toBase64Url, List.map_map, ← h_map]
  exact h_units

/-- **Base64 agrees**: each pair of `core.ts` is inverse on all strings, the URL-safe form is the
standard one rewritten, a string of both forms is no different in either, and the helpers of
`utils.ts` encode to the same strings and decode whatever `core.ts` accepts to the same bytes. -/
theorem base64_agrees (L : B.Lawful P) :
    (∀ (s : JsString) (b : Bytes),
      (decode P (.string s) = .ok b ↔ encode B (.buffer b) = .ok s) ∧
      (decodeUrlSafe P (.string s) = .ok b ↔ encodeUrlSafe B (.buffer b) = .ok s)) ∧
    (∀ b : Bytes, encode B (.buffer b) = .ok (Utils.toBase64 b) ∧
      encodeUrlSafe B (.buffer b) = .ok (Utils.toBase64Url b) ∧
      Utils.toBase64Url b = JsString.toBase64Url (Utils.toBase64 b)) ∧
    (∀ (s : JsString) (b c : Bytes), decode P (.string s) = .ok b →
      decodeUrlSafe P (.string s) = .ok c → b = c) ∧
    ∀ (s : JsString) (b : Bytes),
      decode P (.string s) = .ok b ∨ decodeUrlSafe P (.string s) = .ok b →
        Utils.fromBase64 s = b ∧ Utils.fromBase64Url s = b := by
  simp only [decode_eq_ok_iff L, decodeUrlSafe_eq_ok_iff L, encode_eq_ok_iff L,
    encodeUrlSafe_eq_ok_iff L, iff_self, and_self, implies_true, true_and]
  refine ⟨?_, ?_, ?_⟩
  · intro b
    have h_url := map_toNat_urlSafe (Utils.map_toNat_toBase64 b)
    exact ⟨Utils.map_toNat_toBase64 b, Utils.map_toNat_toBase64Url b,
      Node.map_toNat_injective ((Utils.map_toNat_toBase64Url b).trans h_url.symm)⟩
  · intro s b c h_b h_c
    exact Base64.eq_of_encodePadded_eq (h_b.symm.trans h_c)
  · intro s b h
    -- both helpers decode the codes of the string, which is an encoding of the bytes
    have h_lenient : Base64.decodeLenient (s.map UInt16.toNat) = b :=
      Base64.decodeLenient_of_strict (h.imp Eq.symm Eq.symm)
    exact ⟨h_lenient, h_lenient⟩

/-- The bytes of `"+/8="` and `"-_8"`. -/
theorem base64_agrees_fbff :
    encode rustBase64 (.buffer [0xFB, 0xFF]) = .ok (Utils.toBase64 [0xFB, 0xFF]) ∧
      Utils.toBase64 [0xFB, 0xFF] = js "+/8=" ∧
      decode rustCryptoBase64 (.string (js "+/8=")) = .ok [0xFB, 0xFF] ∧
      Utils.fromBase64 (js "-_8") = [0xFB, 0xFF] := by
  obtain ⟨h_inverse, h_encode, -, h_lenient⟩ := base64_agrees rustBase64_lawful
  have h_padded : Utils.toBase64 [0xFB, 0xFF] = js "+/8=" := by decide
  have h_unpadded : Utils.toBase64Url [0xFB, 0xFF] = js "-_8" := by decide
  obtain ⟨h_standard, h_url, -⟩ := h_encode [0xFB, 0xFF]
  refine ⟨h_standard, h_padded, ?_, ?_⟩
  · rw [← h_padded]
    exact (h_inverse _ _).1.mpr h_standard
  · rw [← h_unpadded]
    exact (h_lenient _ _ (.inr ((h_inverse _ _).2.mpr h_url))).1

end Core.Base64

end SignalisCore
