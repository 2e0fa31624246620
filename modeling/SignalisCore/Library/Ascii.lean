import SignalisCore.Library.Utf16

/-!
# ASCII strings in UTF-8 and UTF-16

A string of characters below U+0080 has one code unit for each character in either encoding, with
the code of the character. Nothing else looks like one: a string with a code unit of 128 or more has
a byte of 128 or more in its UTF-8 form, also after the replacement of unpaired surrogates.

* `forall_lt_iff`: a string is ASCII in UTF-16 exactly when its UTF-8 form is.
* `map_toNat_utf8`: then both are the same numbers.
* `map_toNat_encode`: from characters to UTF-16.
-/

namespace Ascii

open Utf16

/-- The UTF-8 bytes of a list of characters. -/
def utf8 (cs : List Char) : List UInt8 := cs.flatMap String.utf8EncodeChar

/-- Codes as a string. -/
def ofCodes (codes : List ℕ) : String := .ofList (codes.map Char.ofNat)

theorem toNat_ofNat_of_lt {n : ℕ} (h : n < 128) : (Char.ofNat n).toNat = n :=
  toNat_ofNat (.inl (by omega))

theorem map_toNat_ofCodes {codes : List ℕ} (h : ∀ c ∈ codes, c < 128) :
    (ofCodes codes).toList.map Char.toNat = codes := by
  rw [ofCodes, String.toList_ofList, List.map_map]
  refine (List.map_congr_left fun c h_c => ?_).trans (List.map_id codes)
  exact toNat_ofNat_of_lt (h c h_c)

/-! ### UTF-8 -/

theorem utf8EncodeChar_of_lt {c : Char} (h : c.toNat < 128) :
    String.utf8EncodeChar c = [.ofNat c.toNat] :=
  if_pos (Nat.le_of_lt_succ h)

/-- The last byte of a longer encoding is at least 128. -/
theorem lt_of_utf8EncodeChar {c : Char} (h : ∀ b ∈ String.utf8EncodeChar c, b.toNat < 128) :
    c.toNat < 128 := by
  have h_lt : c.val.toNat % 64 + 128 < 256 := by omega
  have h_last : UInt8.ofNat (c.val.toNat % 64 + 128) ∉ String.utf8EncodeChar c := by
    intro h_mem
    have h_byte := h _ h_mem
    rw [UInt8.toNat_ofNat', Nat.mod_eq_of_lt h_lt] at h_byte
    omega
  by_contra h_ge
  have h_val : ¬c.val.toNat ≤ 127 := fun h_le => h_ge (Nat.lt_succ_of_le h_le)
  apply h_last
  unfold String.utf8EncodeChar
  rw [if_neg h_val]
  split_ifs <;> simp

/-- An ASCII string is its own UTF-8. -/
theorem utf8_of_forall_lt {cs : List Char} (h : ∀ c ∈ cs, c.toNat < 128) :
    utf8 cs = cs.map fun c => .ofNat c.toNat := by
  induction cs with
  | nil => rfl
  | cons c cs ih =>
    rw [List.forall_mem_cons] at h
    rw [utf8, List.flatMap_cons, utf8EncodeChar_of_lt h.1, ← utf8, ih h.2]
    rfl

theorem forall_lt_of_utf8 {cs : List Char} (h : ∀ b ∈ utf8 cs, b.toNat < 128) :
    ∀ c ∈ cs, c.toNat < 128 := fun c h_c =>
  lt_of_utf8EncodeChar fun b h_b => h b (List.mem_flatMap.2 ⟨c, h_c, h_b⟩)

/-! ### UTF-16 -/

/-- A code unit below 128 is no surrogate. -/
theorem charOfUnit_of_lt {u : UInt16} (h : u.toNat < 128) : charOfUnit u = .ofNat u.toNat := by
  have h_not : (isHigh u || isLow u) = false := by
    rw [Bool.eq_false_iff, Ne, Bool.or_eq_true, isHigh_iff, isLow_iff]
    omega
  rw [charOfUnit, h_not, if_neg Bool.false_ne_true]

theorem decodeLossy_of_forall_lt {s : List UInt16} (h : ∀ u ∈ s, u.toNat < 128) :
    decodeLossy s = s.map fun u => .ofNat u.toNat := by
  induction s using decodeLossy.induct with
  | case1 => rfl
  | case2 u =>
    rw [decodeLossy, charOfUnit_of_lt (h u List.mem_cons_self)]
    rfl
  | case3 u v rest h_pair ih =>
    -- there is no pair of surrogates
    have h_lt := h u List.mem_cons_self
    rw [Bool.and_eq_true, isHigh_iff] at h_pair
    omega
  | case4 u v rest h_pair ih =>
    rw [List.forall_mem_cons] at h
    rw [decodeLossy, if_neg h_pair, charOfUnit_of_lt h.1, ih h.2]
    rfl

/-- A code unit whose character is ASCII is that character. -/
theorem lt_of_charOfUnit {u : UInt16} (h : (charOfUnit u).toNat < 128) : u.toNat < 128 := by
  unfold charOfUnit at h
  split_ifs at h with h_surrogate
  -- the replacement character is not ASCII
  · exact absurd h (by decide)
  · have h_lt := u.toNat_lt
    rw [Bool.or_eq_true, isHigh_iff, isLow_iff] at h_surrogate
    have h_valid : u.toNat.isValidChar := by
      rw [Nat.isValidChar]
      omega
    rwa [toNat_ofNat h_valid] at h

theorem forall_lt_of_decodeLossy {s : List UInt16} (h : ∀ c ∈ decodeLossy s, c.toNat < 128) :
    ∀ u ∈ s, u.toNat < 128 := by
  induction s using decodeLossy.induct with
  | case1 => simp
  | case2 u =>
    simp only [decodeLossy, List.mem_singleton, forall_eq] at h ⊢
    exact lt_of_charOfUnit h
  | case3 u v rest h_pair ih =>
    -- the character of a pair is not ASCII
    rw [decodeLossy, if_pos h_pair, List.forall_mem_cons] at h
    rw [Bool.and_eq_true, isHigh_iff, isLow_iff] at h_pair
    have h_valid : (0x10000 + (u.toNat - 0xD800) * 0x400 + (v.toNat - 0xDC00)).isValidChar := by
      rw [Nat.isValidChar]
      omega
    have h_char := h.1
    rw [charOfPair, toNat_ofNat h_valid] at h_char
    omega
  | case4 u v rest h_pair ih =>
    rw [decodeLossy, if_neg h_pair, List.forall_mem_cons] at h
    rw [List.forall_mem_cons]
    exact ⟨lt_of_charOfUnit h.1, ih h.2⟩

/-! ### Both encodings -/

/-- **An ASCII string** is the same numbers in both encodings. -/
theorem map_toNat_utf8 {s : List UInt16} (h : ∀ u ∈ s, u.toNat < 128) :
    (utf8 (decodeLossy s)).map UInt8.toNat = s.map UInt16.toNat := by
  have h_chars : ∀ c ∈ decodeLossy s, c.toNat < 128 := by
    rw [decodeLossy_of_forall_lt h]
    intro c h_c
    obtain ⟨u, h_u, rfl⟩ := List.mem_map.1 h_c
    rw [toNat_ofNat_of_lt (h u h_u)]
    exact h u h_u
  rw [utf8_of_forall_lt h_chars, decodeLossy_of_forall_lt h, List.map_map, List.map_map]
  refine List.map_congr_left fun u h_u => ?_
  have h_lt := h u h_u
  rw [Function.comp_apply, Function.comp_apply, toNat_ofNat_of_lt h_lt, UInt8.toNat_ofNat',
    Nat.mod_eq_of_lt (by omega)]

/-- **ASCII in one encoding is ASCII in the other.** -/
theorem forall_lt_iff (s : List UInt16) :
    (∀ b ∈ utf8 (decodeLossy s), b.toNat < 128) ↔ ∀ u ∈ s, u.toNat < 128 := by
  refine ⟨fun h => forall_lt_of_decodeLossy (forall_lt_of_utf8 h), fun h b h_b => ?_⟩
  have h_mem := List.mem_map_of_mem (f := UInt8.toNat) h_b
  rw [map_toNat_utf8 h] at h_mem
  obtain ⟨u, h_u, h_eq⟩ := List.mem_map.1 h_mem
  rw [← h_eq]
  exact h u h_u

/-- ASCII characters are encoded as their codes. -/
theorem map_toNat_encode {cs : List Char} (h : ∀ c ∈ cs, c.toNat < 128) :
    (encode cs).map UInt16.toNat = cs.map Char.toNat := by
  induction cs with
  | nil => rfl
  | cons c cs ih =>
    rw [List.forall_mem_cons] at h
    have h_toNat : (UInt16.ofNat c.toNat).toNat = c.toNat := by
      rw [UInt16.toNat_ofNat', Nat.mod_eq_of_lt (by omega)]
    rw [encode_cons, encodeChar, if_pos (by omega), List.map_append, ih h.2, List.map_cons,
      List.map_cons, List.map_nil, h_toNat]
    rfl

end Ascii
