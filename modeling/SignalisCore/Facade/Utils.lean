import SignalisCore.Facade.Core

/-!
# `utils.ts`

The helpers that do not go through the addon: `fromHex`, a regular expression and a parity check in
front of Node's own decoder, and the two pairs of functions that cut bytes up and put them together,
one for `Buffer` and one for `Uint8Array`.

* `fromHex_eq_ok_iff`: what `fromHex` returns.
-/

namespace SignalisCore

open Ecma LittleEndian

/-- A `Uint8Array`, or a `Buffer`, which is one: its length is at most `2 ^ 53 - 1`. -/
@[ext]
structure Uint8Array where
  bytes : Bytes
  length_lt : bytes.length < 2 ^ 53

namespace Uint8Array

/-- `array.length`. -/
def length (array : Uint8Array) : Float := .ofNat array.bytes.length

theorem length_subarray_lt (array : Uint8Array) (begin finish : Float) :
    (Ecma.subarray array.bytes begin finish).elems.length < 2 ^ 53 := by
  have h_lt := array.length_lt
  rw [Ecma.subarray, List.length_take, List.length_drop]
  omega

theorem length_subarrayFrom_lt (array : Uint8Array) (begin : Float) :
    (Ecma.subarrayFrom array.bytes begin).elems.length < 2 ^ 53 := by
  have h_lt := array.length_lt
  rw [Ecma.subarrayFrom, List.length_drop]
  omega

/-- `array.subarray(begin, end)`. -/
def subarray (array : Uint8Array) (begin finish : Float) : Uint8Array :=
  ⟨(Ecma.subarray array.bytes begin finish).elems, array.length_subarray_lt begin finish⟩

/-- `array.subarray(begin)`. -/
def subarrayFrom (array : Uint8Array) (begin : Float) : Uint8Array :=
  ⟨(Ecma.subarrayFrom array.bytes begin).elems, array.length_subarrayFrom_lt begin⟩

end Uint8Array

/-- What Node.js provides. -/
structure NodeBuffer where
  /-- `Buffer.from(string, 'hex')`. -/
  fromHex : JsString → Bytes
  /-- What is thrown for an array whose length would be this. -/
  lengthError : Float → JsError

/-- On hexadecimal strings of even length, Node.js decodes Base16. -/
structure NodeBuffer.Lawful (N : NodeBuffer) : Prop where
  fromHex : ∀ s b, Base16.decode (s.map UInt16.toNat) = some b → N.fromHex s = b

/-- A decoder that returns nothing on other strings. -/
def plainBuffer : NodeBuffer where
  fromHex s := (Base16.decode (s.map UInt16.toNat)).getD []
  lengthError x :=
    .rangeError (js "Invalid typed array length: " ++ plainEngine.numberToString x)

theorem plainBuffer_lawful : plainBuffer.Lawful where
  fromHex s b h := by simp [plainBuffer, h]

namespace Utils

/-! ### Decoding -/

section FromHex

/-- The class `[0-9a-fA-F]`. -/
def isHexUnit (u : UInt16) : Bool :=
  48 ≤ u.toNat && u.toNat ≤ 57 || 97 ≤ u.toNat && u.toNat ≤ 102 || 65 ≤ u.toNat && u.toNat ≤ 70

variable (N : NodeBuffer)

def fromHex (hex : JsString) : Except JsError Bytes :=
  if !hex.all isHexUnit then
    .error (.error (js "Invalid hex string: contains non-hex characters"))
  else if hex.length % 2 ≠ 0 then
    .error (.error (js "Invalid hex string: odd number of characters"))
  else .ok (N.fromHex hex)

theorem isHexUnit_iff (u : UInt16) : isHexUnit u ↔ (Base16.digit? u.toNat).isSome := by
  rw [Base16.digit?_isSome_iff]
  simp only [isHexUnit, Bool.or_eq_true, Bool.and_eq_true, decide_eq_true_eq]
  omega

variable {N}

/-- **`fromHex`** decodes Base16. -/
theorem fromHex_eq_ok_iff (L : N.Lawful) (hex : JsString) (b : Bytes) :
    fromHex N hex = .ok b ↔ Base16.decode (hex.map UInt16.toNat) = some b := by
  by_cases h : (Base16.decode (hex.map UInt16.toNat)).isSome
  · obtain ⟨out, h_out⟩ := Option.isSome_iff_exists.1 h
    rw [Base16.decode_isSome_iff, List.length_map, List.forall_mem_map] at h
    have h_all : hex.all isHexUnit = true := by
      rw [List.all_eq_true]
      exact fun u h_u => (isHexUnit_iff u).2 (h.2 u h_u)
    rw [fromHex, h_all, Bool.not_true, if_neg Bool.false_ne_true, if_neg (not_not.2 h.1),
      L.fromHex hex out h_out, h_out, Except.ok.injEq, Option.some.injEq]
  · have h_none := Option.not_isSome_iff_eq_none.1 h
    rw [Base16.decode_isSome_iff, List.length_map, List.forall_mem_map] at h
    have h_error : ¬(hex.all isHexUnit = true ∧ hex.length % 2 = 0) := by
      rintro ⟨h_all, h_length⟩
      rw [List.all_eq_true] at h_all
      exact h ⟨h_length, fun u h_u => (isHexUnit_iff u).1 (h_all u h_u)⟩
    unfold fromHex
    split_ifs with h_all h_length
    · simp [h_none]
    · simp [h_none]
    · exact absurd ⟨by simpa using h_all, not_not.1 h_length⟩ h_error

end FromHex

/-! ### Cutting up -/

variable (E : Engine) (N : NodeBuffer)

/-- One turn of the first loop: the size is checked and added. -/
def addSize (total size : Float) : Except JsError Float :=
  if !isInteger size || lessThan size 0 then
    .error (.rangeError
      (js "each size must be a non-negative integer, got " ++ E.numberToString size))
  else .ok (total + size)

/-- One turn of the second loop: the next segment is pushed, and the offset moves on. -/
def pushSegment (buf : Uint8Array) (state : List Uint8Array × Float) (size : Float) :
    List Uint8Array × Float :=
  (state.1 ++ [buf.subarray state.2 (state.2 + size)], state.2 + size)

/-- `split` and `splitBytes`, which differ in the word for `buf`. -/
def splitWith (noun : String) (buf : Uint8Array) (sizes : List Float) :
    Except JsError (List Uint8Array) := do
  let total ← sizes.foldlM (addSize E) 0
  if lessThan buf.length total then
    .error (.rangeError (js "sizes sum to " ++ E.numberToString total ++
      js (" but " ++ noun ++ " is only ") ++ E.numberToString buf.length ++ js " byte(s) long"))
  else
    let (segments, offset) := sizes.foldl (pushSegment buf) ([], 0)
    if lessThan offset buf.length then .ok (segments ++ [buf.subarrayFrom offset])
    else .ok segments

def split (buf : Uint8Array) (sizes : List Float) : Except JsError (List Uint8Array) :=
  splitWith E "buffer" buf sizes

def splitBytes (bytes : Uint8Array) (sizes : List Float) : Except JsError (List Uint8Array) :=
  splitWith E "array" bytes sizes

/-! ### Putting together -/

/-- `Buffer.concat(buffers)`. -/
def bufferConcat (buffers : List Uint8Array) : Except JsError Uint8Array :=
  if h : (buffers.map (·.bytes)).flatten.length < 2 ^ 53 then .ok ⟨_, h⟩
  else .error (N.lengthError (.ofNat (buffers.map (·.bytes)).flatten.length))

def concat (buffers : List Uint8Array) : Except JsError Uint8Array := bufferConcat N buffers

/-- `new Uint8Array(length)`. -/
def alloc (length : Float) : Except JsError Uint8Array :=
  match toIndex? length with
  | some n => .ok ⟨.replicate n 0, by rw [List.length_replicate]; exact n.2⟩
  | none => .error (N.lengthError length)

/-- `out.set(arr, offset)`. -/
def set (out arr : Uint8Array) (offset : Float) : Except JsError Uint8Array :=
  match toIndex? offset with
  | some i =>
    if h : i + arr.bytes.length ≤ out.bytes.length then
      .ok ⟨out.bytes.take i ++ arr.bytes ++ out.bytes.drop (i + arr.bytes.length), by
        have h_lt := out.length_lt
        simp only [List.length_append, List.length_take, List.length_drop]
        omega⟩
    else .error (.rangeError (js "offset is out of bounds"))
  | none => .error (.rangeError (js "offset is out of bounds"))

/-- One turn of the second loop: the array is written at the offset, which moves on. -/
def setNext (state : Uint8Array × Float) (arr : Uint8Array) :
    Except JsError (Uint8Array × Float) := do
  let out ← set state.1 arr state.2
  return (out, state.2 + arr.length)

def concatBytes (arrays : List Uint8Array) : Except JsError Uint8Array := do
  let total := arrays.foldl (fun total arr => total + arr.length) 0
  let out ← alloc N total
  let (out, _) ← arrays.foldlM setNext (out, 0)
  return out

end Utils

end SignalisCore
