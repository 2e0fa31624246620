import Mathlib.Data.Char
import Mathlib.Tactic.NormNum

/-!
# UTF-16

An ECMAScript string is a list of 16-bit code units. Decoding it to characters replaces each
surrogate that is not part of a pair by U+FFFD, which is what the conversion to UTF-8 does; so a
string survives the way there and back exactly when all of its surrogates are paired.

* `decodeLossy_encode`: encoding loses nothing.
* `encode_decodeLossy_iff`: decoding loses nothing exactly on well-formed strings.
-/

namespace Utf16

/-- U+D800..U+DBFF. -/
def isHigh (u : UInt16) : Bool := 0xD800 ≤ u.toNat && u.toNat < 0xDC00

/-- U+DC00..U+DFFF. -/
def isLow (u : UInt16) : Bool := 0xDC00 ≤ u.toNat && u.toNat < 0xE000

/-- U+FFFD. -/
def replacement : Char := '\uFFFD'

/-- The character of a code unit that stands alone. -/
def charOfUnit (u : UInt16) : Char :=
  if isHigh u || isLow u then replacement else .ofNat u.toNat

/-- The character of a surrogate pair. -/
def charOfPair (u v : UInt16) : Char :=
  .ofNat (0x10000 + (u.toNat - 0xD800) * 0x400 + (v.toNat - 0xDC00))

/-- Decoding, with U+FFFD for every unpaired surrogate. -/
def decodeLossy : List UInt16 → List Char
  | [] => []
  | [u] => [charOfUnit u]
  | u :: v :: rest =>
    if isHigh u && isLow v then charOfPair u v :: decodeLossy rest
    else charOfUnit u :: decodeLossy (v :: rest)

/-- The code units of a character. -/
def encodeChar (c : Char) : List UInt16 :=
  if c.toNat < 0x10000 then [.ofNat c.toNat]
  else
    [.ofNat (0xD800 + (c.toNat - 0x10000) / 0x400), .ofNat (0xDC00 + (c.toNat - 0x10000) % 0x400)]

/-- Encoding. -/
def encode (cs : List Char) : List UInt16 := cs.flatMap encodeChar

/-- Every surrogate is part of a pair. -/
def isWellFormed : List UInt16 → Bool
  | [] => true
  | [u] => !(isHigh u || isLow u)
  | u :: v :: rest =>
    if isHigh u && isLow v then isWellFormed rest
    else !(isHigh u || isLow u) && isWellFormed (v :: rest)

/-! ### Single characters -/

theorem toNat_ofNat {n : ℕ} (h : n.isValidChar) : (Char.ofNat n).toNat = n := by
  rw [Char.ofNat, dif_pos h]
  rfl

theorem isHigh_iff {u : UInt16} : isHigh u ↔ 0xD800 ≤ u.toNat ∧ u.toNat < 0xDC00 := by
  simp [isHigh]

theorem isLow_iff {u : UInt16} : isLow u ↔ 0xDC00 ≤ u.toNat ∧ u.toNat < 0xE000 := by
  simp [isLow]

/-- A code unit that is no surrogate is its own encoding; a surrogate is replaced. -/
theorem encodeChar_charOfUnit (u : UInt16) :
    encodeChar (charOfUnit u) = [if isHigh u || isLow u then 0xFFFD else u] := by
  unfold charOfUnit
  by_cases h : (isHigh u || isLow u) = true
  · rw [if_pos h, if_pos h]
    decide
  -- a code unit outside the surrogates is a character below U+10000
  · have h_lt := u.toNat_lt
    have h_valid : u.toNat.isValidChar := by
      rw [Bool.or_eq_true, isHigh_iff, isLow_iff] at h
      rw [Nat.isValidChar]
      omega
    rw [if_neg h, if_neg h, encodeChar, toNat_ofNat h_valid, if_pos (by omega),
      UInt16.ofNat_toNat]

/-- No code unit is replaced by itself. -/
theorem replaced_eq_iff (u : UInt16) :
    (if isHigh u || isLow u then 0xFFFD else u) = u ↔ (isHigh u || isLow u) = false := by
  split_ifs with h
  · have h_ne : u ≠ 0xFFFD := by
      rintro rfl
      revert h
      decide
    simp [h, h_ne.symm]
  · simpa using h

theorem encodeChar_charOfPair {u v : UInt16} (h_u : isHigh u) (h_v : isLow v) :
    encodeChar (charOfPair u v) = [u, v] := by
  rw [isHigh_iff] at h_u
  rw [isLow_iff] at h_v
  have h_valid : (0x10000 + (u.toNat - 0xD800) * 0x400 + (v.toNat - 0xDC00)).isValidChar := by
    rw [Nat.isValidChar]
    omega
  rw [charOfPair, encodeChar, toNat_ofNat h_valid, if_neg (by omega)]
  -- the halves of the character are the two code units again
  have h_high : 0xD800 + (0x10000 + (u.toNat - 0xD800) * 0x400 + (v.toNat - 0xDC00) - 0x10000) /
      0x400 = u.toNat := by omega
  have h_low : 0xDC00 + (0x10000 + (u.toNat - 0xD800) * 0x400 + (v.toNat - 0xDC00) - 0x10000) %
      0x400 = v.toNat := by omega
  rw [h_high, h_low, UInt16.ofNat_toNat, UInt16.ofNat_toNat]

/-! ### Strings -/

theorem encode_cons (c : Char) (cs : List Char) : encode (c :: cs) = encodeChar c ++ encode cs :=
  rfl

/-- The code units of a character, decoded in front of a string. -/
theorem decodeLossy_encodeChar_append (c : Char) (rest : List UInt16) :
    decodeLossy (encodeChar c ++ rest) = c :: decodeLossy rest := by
  have h_valid : c.toNat < 0xD800 ∨ 0xDFFF < c.toNat ∧ c.toNat < 0x110000 := c.valid
  by_cases h_bmp : c.toNat < 0x10000
  -- one code unit, which is no surrogate
  · have h_toNat : (UInt16.ofNat c.toNat).toNat = c.toNat := by
      rw [UInt16.toNat_ofNat', Nat.mod_eq_of_lt h_bmp]
    have h_high : isHigh (.ofNat c.toNat) = false := by
      rw [Bool.eq_false_iff, Ne, isHigh_iff, h_toNat]
      omega
    have h_low : isLow (.ofNat c.toNat) = false := by
      rw [Bool.eq_false_iff, Ne, isLow_iff, h_toNat]
      omega
    have h_unit : charOfUnit (.ofNat c.toNat) = c := by
      rw [charOfUnit, h_high, h_low, h_toNat]
      exact Char.ofNat_toNat c
    rw [encodeChar, if_pos h_bmp]
    cases rest with
    | nil => simp [decodeLossy, h_unit]
    | cons v rest => simp [decodeLossy, h_unit, h_high]
  -- two code units: a high surrogate and a low one
  · have h_u : (UInt16.ofNat (0xD800 + (c.toNat - 0x10000) / 0x400)).toNat =
        0xD800 + (c.toNat - 0x10000) / 0x400 := by
      rw [UInt16.toNat_ofNat', Nat.mod_eq_of_lt (by omega)]
    have h_v : (UInt16.ofNat (0xDC00 + (c.toNat - 0x10000) % 0x400)).toNat =
        0xDC00 + (c.toNat - 0x10000) % 0x400 := by
      rw [UInt16.toNat_ofNat', Nat.mod_eq_of_lt (by omega)]
    have h_high := isHigh_iff.2 (by rw [h_u]; omega)
    have h_low := isLow_iff.2 (by rw [h_v]; omega)
    have h_sum : 0x10000 + (0xD800 + (c.toNat - 0x10000) / 0x400 - 0xD800) * 0x400 +
        (0xDC00 + (c.toNat - 0x10000) % 0x400 - 0xDC00) = c.toNat := by omega
    rw [encodeChar, if_neg h_bmp]
    simp only [List.cons_append, List.nil_append, decodeLossy, h_high, h_low, Bool.and_self,
      ↓reduceIte, charOfPair, h_u, h_v, h_sum, Char.ofNat_toNat]

/-- **Encoding loses nothing.** -/
theorem decodeLossy_encode (cs : List Char) : decodeLossy (encode cs) = cs := by
  induction cs with
  | nil => rfl
  | cons c cs ih => rw [encode_cons, decodeLossy_encodeChar_append, ih]

/-- **Decoding loses nothing** exactly where every surrogate is part of a pair. -/
theorem encode_decodeLossy_iff (s : List UInt16) :
    encode (decodeLossy s) = s ↔ isWellFormed s = true := by
  induction s using decodeLossy.induct with
  | case1 => simp [decodeLossy, isWellFormed, encode]
  | case2 u =>
    -- a last code unit comes back exactly if it is no surrogate
    rw [decodeLossy, encode_cons, isWellFormed, encodeChar_charOfUnit]
    simpa [encode] using replaced_eq_iff u
  | case3 u v rest h_pair ih =>
    -- a pair comes back, and the rest decides
    rw [decodeLossy, isWellFormed, if_pos h_pair, if_pos h_pair, encode_cons, ← ih]
    rw [Bool.and_eq_true] at h_pair
    rw [encodeChar_charOfPair h_pair.1 h_pair.2]
    simp
  | case4 u v rest h_pair ih =>
    -- no pair at the front: the first code unit decides, together with the rest
    rw [decodeLossy, isWellFormed, if_neg h_pair, if_neg h_pair, encode_cons,
      encodeChar_charOfUnit, List.singleton_append, List.cons.injEq, replaced_eq_iff, ih]
    simp

end Utf16
