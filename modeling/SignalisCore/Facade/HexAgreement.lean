import SignalisCore.Facade.Utils

/-!
# The hexadecimal decoders

`fromHex`, `Hex.isValid` and `Hex.decode` measure the length of a string in different units and test
its characters in different ways: `fromHex` on UTF-16, before the length, the other two on the UTF-8
that the addon receives, after it. They agree on all strings, since a string that any of them
accepts is ASCII.

* `decode_asBytes_stringArg`: both encodings of a string decode to the same bytes.
* `hex_agrees`: the acceptors and decoders agree, and the encoders invert them up to case.
-/

namespace SignalisCore

open LittleEndian

/-- Digits and the letters of either case up to `f`, an even number of them. -/
def JsString.IsHex (s : JsString) : Prop :=
  s.length % 2 = 0 ∧ ∀ u ∈ s, 48 ≤ u.toNat ∧ u.toNat ≤ 57 ∨ 97 ≤ u.toNat ∧ u.toNat ≤ 102 ∨
    65 ≤ u.toNat ∧ u.toNat ≤ 70

/-- `toLowerCase`, on ASCII. -/
def JsString.toLowerCase (s : JsString) : JsString :=
  s.map fun u => .ofNat (Base16.toLower u.toNat)

/-- `toUpperCase`, on ASCII. -/
def JsString.toUpperCase (s : JsString) : JsString :=
  s.map fun u => .ofNat (Base16.toUpper u.toNat)

namespace Core.Hex

theorem isHex_iff (s : JsString) :
    JsString.IsHex s ↔ (Base16.decode (s.map UInt16.toNat)).isSome := by
  rw [Base16.decode_isSome_iff, List.length_map, List.forall_mem_map, JsString.IsHex]
  simp only [Base16.digit?_isSome_iff]
  refine and_congr_right fun _ => forall₂_congr fun u _ => ?_
  omega

/-- **Both encodings of a string** decode to the same bytes, or not at all. -/
theorem decode_asBytes_stringArg (s : JsString) :
    Base16.decode ((Encoding.asBytes (Node.stringArg s)).map UInt8.toNat) =
      Base16.decode (s.map UInt16.toNat) := by
  rw [Node.stringArg, Encoding.asBytes_ofList]
  by_cases h : ∀ u ∈ s, u.toNat < 128
  · rw [Ascii.map_toNat_utf8 h]
  -- a string that is not ASCII is not ASCII in UTF-8 either, and neither is decoded
  · have h_units : Base16.decode (s.map UInt16.toNat) = none := by
      rw [← Option.not_isSome_iff_eq_none]
      intro h_some
      exact h (List.forall_mem_map.1 (Base16.lt_of_decode_isSome h_some))
    have h_bytes :
        Base16.decode ((Ascii.utf8 (Utf16.decodeLossy s)).map UInt8.toNat) = none := by
      rw [← Option.not_isSome_iff_eq_none]
      intro h_some
      exact h ((Ascii.forall_lt_iff s).1
        (List.forall_mem_map.1 (Base16.lt_of_decode_isSome h_some)))
    rw [h_units, h_bytes]

variable {H : HexCrate} {P : Primitives} {N : NodeBuffer}

theorem decode_string_eq_ok_iff (L : H.Lawful P) (s : JsString) (b : Bytes) :
    decode P (.string s) = .ok b ↔ Base16.decode (s.map UInt16.toNat) = some b := by
  have h_decode : decode P (.string s) = callNative (Node.hexDecode P s) := rfl
  rw [h_decode, callNative_eq_ok_iff, Node.hexDecode, Node.mapErr_eq_ok_iff,
    Encoding.hexDecode_eq_ok_iff L, decode_asBytes_stringArg]

theorem isValid_string_iff (s : JsString) :
    isValid (.string s) = .ok true ↔ (Base16.decode (s.map UInt16.toNat)).isSome := by
  have h_isValid : isValid (.string s) = .ok (Node.hexIsValid s) := rfl
  rw [h_isValid, Except.ok.injEq, Node.hexIsValid, Encoding.hexIsValid_iff,
    decode_asBytes_stringArg]

/-- The string of an encoder, whose characters are those of `s` after `fold`. -/
theorem stringResult_of_decode {digit fold : ℕ → ℕ}
    (h_digit : ∀ c v, Base16.digit? c = some v → digit v = fold c)
    (h_lt : ∀ v < 16, digit v < 128) {s : JsString} {b : Bytes} {t : String}
    (h_decode : Base16.decode (s.map UInt16.toNat) = some b)
    (h_t : t.toList.map Char.toNat = Base16.encode digit b) :
    Node.stringResult t = s.map fun u => .ofNat (fold u.toNat) := by
  have h_ascii : ∀ c ∈ t.toList, c.toNat < 128 := by
    rw [← List.forall_mem_map (f := Char.toNat) (P := (· < 128)), h_t]
    exact fun c => Base16.lt_of_mem_encode h_lt
  have h_codes : (Node.stringResult t).map UInt16.toNat = s.map fun u => fold u.toNat := by
    rw [Node.stringResult, Ascii.map_toNat_encode h_ascii, h_t,
      Base16.encode_of_decode h_digit h_decode, List.map_map]
    rfl
  have h_units : ∀ l : List UInt16, (l.map UInt16.toNat).map UInt16.ofNat = l := by
    intro l
    rw [List.map_map]
    refine (List.map_congr_left fun u _ => ?_).trans (List.map_id l)
    exact UInt16.ofNat_toNat
  calc Node.stringResult t = ((Node.stringResult t).map UInt16.toNat).map UInt16.ofNat :=
        (h_units _).symm
    _ = (s.map fun u => fold u.toNat).map UInt16.ofNat := by rw [h_codes]
    _ = s.map fun u => .ofNat (fold u.toNat) := by
        rw [List.map_map]
        rfl

/-- **The acceptors and the decoders agree**: on every string they accept hexadecimal, and decode it
to the same bytes, which are encoded to the string in lower or in upper case. -/
theorem hex_agrees (L : H.Lawful P) (L_node : N.Lawful) (s : JsString) :
    ((∃ b, Utils.fromHex N s = .ok b) ↔ JsString.IsHex s) ∧
    (isValid (.string s) = .ok true ↔ JsString.IsHex s) ∧
    ((∃ b, decode P (.string s) = .ok b) ↔ JsString.IsHex s) ∧
    (JsString.IsHex s → ∃ b, Utils.fromHex N s = .ok b ∧ decode P (.string s) = .ok b ∧
      encode H (.buffer b) = .ok (JsString.toLowerCase s) ∧
      encodeUpper H (.buffer b) = .ok (JsString.toUpperCase s)) := by
  simp only [Utils.fromHex_eq_ok_iff L_node, isValid_string_iff, decode_string_eq_ok_iff L,
    isHex_iff, Option.isSome_iff_exists, true_and]
  rintro ⟨b, h_b⟩
  refine ⟨b, h_b, h_b, congrArg Except.ok ?_, congrArg Except.ok ?_⟩
  · exact stringResult_of_decode (fun _ _ => Base16.lowerDigit_of_digit?)
      (fun _ => Base16.lowerDigit_lt) h_b (L.encode b)
  · exact stringResult_of_decode (fun _ _ => Base16.upperDigit_of_digit?)
      (fun _ => Base16.upperDigit_lt) h_b (L.encodeUpper b)

/-- `"aF"`. -/
theorem hex_agrees_aF :
    JsString.IsHex [0x61, 0x46] ∧ ∃ b, Utils.fromHex plainBuffer [0x61, 0x46] = .ok b ∧
      decode { rustCrypto with hexDecode := rustHexDecode } (.string [0x61, 0x46]) = .ok b ∧
      encode rustHex (.buffer b) = .ok (JsString.toLowerCase [0x61, 0x46]) ∧
      encodeUpper rustHex (.buffer b) = .ok (JsString.toUpperCase [0x61, 0x46]) := by
  have h_hex : JsString.IsHex [0x61, 0x46] := by simp [JsString.IsHex]
  exact ⟨h_hex, (hex_agrees rustHex_lawful plainBuffer_lawful [0x61, 0x46]).2.2.2 h_hex⟩

end Core.Hex

end SignalisCore
