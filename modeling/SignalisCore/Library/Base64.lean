import Mathlib.Data.List.Basic
import Mathlib.Data.UInt

/-!
# Base64

Four symbols for three bytes, two or three for a last group of one or two bytes, followed by padding
or not. Decoding is strict: the unused bits of the last symbol are zero, and the padding is what
completes the last group, no more and no less. So each byte string has one encoding that decodes.

* `decodeValues_eq_some_iff`: on the values of the symbols.
* `decodeUnpadded_eq_some_iff`: with an alphabet.
* `decodePadded_eq_some_iff`: with an alphabet and padding.
* `map_toUrlSafe_filter_encodePadded`, `eq_of_encodePadded_eq`: the two usual alphabets.
* `decodeLenient_of_strict`: a decoder that takes what it can agrees where the strict ones decode.
-/

namespace Base64

/-- The code of `=`. -/
def pad : ℕ := 61

/-- Symbols for the numbers below 64, as codes of ASCII characters other than the padding. -/
structure Alphabet where
  symbol : ℕ → ℕ
  value? : ℕ → Option ℕ
  value?_eq_some_iff : ∀ c v, value? c = some v ↔ v < 64 ∧ symbol v = c
  symbol_lt : ∀ v < 64, symbol v < 128
  symbol_ne_pad : ∀ v < 64, symbol v ≠ pad

/-- `A` to `Z`, `a` to `z`, `0` to `9`, and two more. -/
def latinSymbol (c62 c63 v : ℕ) : ℕ :=
  if v < 26 then 65 + v
  else if v < 52 then 71 + v
  else if v < 62 then v - 4
  else if v = 62 then c62
  else c63

def latinValue? (c62 c63 c : ℕ) : Option ℕ :=
  if 65 ≤ c ∧ c < 91 then some (c - 65)
  else if 97 ≤ c ∧ c < 123 then some (c - 71)
  else if 48 ≤ c ∧ c < 58 then some (c + 4)
  else if c = c62 then some 62
  else if c = c63 then some 63
  else none

/-- The last two symbols are `+` and `/`. -/
def standard : Alphabet where
  symbol := latinSymbol 43 47
  value? := latinValue? 43 47
  value?_eq_some_iff c v := by
    unfold latinValue? latinSymbol
    split_ifs <;> simp only [Option.some.injEq, false_iff] <;> omega
  symbol_lt v h := by
    unfold latinSymbol
    split_ifs <;> omega
  symbol_ne_pad v h := by
    unfold latinSymbol pad
    split_ifs <;> omega

/-- The last two symbols are `-` and `_`. -/
def urlSafe : Alphabet where
  symbol := latinSymbol 45 95
  value? := latinValue? 45 95
  value?_eq_some_iff c v := by
    unfold latinValue? latinSymbol
    split_ifs <;> simp only [Option.some.injEq, false_iff] <;> omega
  symbol_lt v h := by
    unfold latinSymbol
    split_ifs <;> omega
  symbol_ne_pad v h := by
    unfold latinSymbol pad
    split_ifs <;> omega

/-! ### Values -/

/-- The values of the symbols for bytes. -/
def encodeValues : List UInt8 → List ℕ
  | [] => []
  | [x] => [x.toNat / 4, x.toNat % 4 * 16]
  | [x, y] => [x.toNat / 4, x.toNat % 4 * 16 + y.toNat / 16, y.toNat % 16 * 4]
  | x :: y :: z :: rest =>
    x.toNat / 4 :: (x.toNat % 4 * 16 + y.toNat / 16) :: (y.toNat % 16 * 4 + z.toNat / 64) ::
      z.toNat % 64 :: encodeValues rest

/-- The first byte of a group. -/
def byte1 (a b : ℕ) : UInt8 := .ofNat (a * 4 + b / 16)

/-- The second byte of a group. -/
def byte2 (b c : ℕ) : UInt8 := .ofNat (b % 16 * 16 + c / 4)

/-- The third byte of a group. -/
def byte3 (c d : ℕ) : UInt8 := .ofNat (c % 4 * 64 + d)

/-- The bytes for values of symbols, unless the unused bits of the last one are not zero. -/
def decodeValues : List ℕ → Option (List UInt8)
  | [] => some []
  | [_] => none
  | [a, b] => if b % 16 = 0 then some [byte1 a b] else none
  | [a, b, c] => if c % 4 = 0 then some [byte1 a b, byte2 b c] else none
  | a :: b :: c :: d :: rest =>
    (decodeValues rest).map fun bytes => byte1 a b :: byte2 b c :: byte3 c d :: bytes

section Groups

variable {a b c d : ℕ} {x y z : UInt8}

theorem byte1_eq_iff (h_a : a < 64) (h_b : b < 64) :
    byte1 a b = x ↔ a * 4 + b / 16 = x.toNat := by
  rw [byte1, ← UInt8.toNat_inj, UInt8.toNat_ofNat', Nat.mod_eq_of_lt (by omega)]

theorem byte2_eq_iff (h_c : c < 64) : byte2 b c = y ↔ b % 16 * 16 + c / 4 = y.toNat := by
  rw [byte2, ← UInt8.toNat_inj, UInt8.toNat_ofNat', Nat.mod_eq_of_lt (by omega)]

theorem byte3_eq_iff (h_d : d < 64) : byte3 c d = z ↔ c % 4 * 64 + d = z.toNat := by
  rw [byte3, ← UInt8.toNat_inj, UInt8.toNat_ofNat', Nat.mod_eq_of_lt (by omega)]

end Groups

theorem lt_of_mem_encodeValues {b : List UInt8} : ∀ v ∈ encodeValues b, v < 64 := by
  induction b using encodeValues.induct with
  | case1 => simp [encodeValues]
  | case2 x =>
    have h_x := x.toNat_lt
    simp only [encodeValues, List.mem_cons, List.not_mem_nil, or_false, forall_eq_or_imp, forall_eq]
    omega
  | case3 x y =>
    have h_x := x.toNat_lt
    have h_y := y.toNat_lt
    simp only [encodeValues, List.mem_cons, List.not_mem_nil, or_false, forall_eq_or_imp, forall_eq]
    omega
  | case4 x y z rest ih =>
    have h_x := x.toNat_lt
    have h_y := y.toNat_lt
    have h_z := z.toNat_lt
    simp only [encodeValues, List.forall_mem_cons]
    exact ⟨by omega, by omega, by omega, by omega, ih⟩

/-- What is encoded is decoded. -/
theorem decodeValues_encodeValues (b : List UInt8) : decodeValues (encodeValues b) = some b := by
  induction b using encodeValues.induct with
  | case1 => rfl
  | case2 x =>
    have h_x := x.toNat_lt
    have h_1 : byte1 (x.toNat / 4) (x.toNat % 4 * 16) = x :=
      (byte1_eq_iff (by omega) (by omega)).2 (by omega)
    rw [encodeValues, decodeValues, if_pos (by omega), h_1]
  | case3 x y =>
    have h_x := x.toNat_lt
    have h_y := y.toNat_lt
    have h_1 : byte1 (x.toNat / 4) (x.toNat % 4 * 16 + y.toNat / 16) = x :=
      (byte1_eq_iff (by omega) (by omega)).2 (by omega)
    have h_2 : byte2 (x.toNat % 4 * 16 + y.toNat / 16) (y.toNat % 16 * 4) = y :=
      (byte2_eq_iff (by omega)).2 (by omega)
    rw [encodeValues, decodeValues, if_pos (by omega), h_1, h_2]
  | case4 x y z rest ih =>
    have h_x := x.toNat_lt
    have h_y := y.toNat_lt
    have h_z := z.toNat_lt
    have h_1 : byte1 (x.toNat / 4) (x.toNat % 4 * 16 + y.toNat / 16) = x :=
      (byte1_eq_iff (by omega) (by omega)).2 (by omega)
    have h_2 : byte2 (x.toNat % 4 * 16 + y.toNat / 16) (y.toNat % 16 * 4 + z.toNat / 64) = y :=
      (byte2_eq_iff (by omega)).2 (by omega)
    have h_3 : byte3 (y.toNat % 16 * 4 + z.toNat / 64) (z.toNat % 64) = z :=
      (byte3_eq_iff (by omega)).2 (by omega)
    rw [encodeValues, decodeValues, ih, Option.map_some, h_1, h_2, h_3]

/-- What is decoded is the encoding of its bytes. -/
theorem encodeValues_of_decodeValues {s : List ℕ} {b : List UInt8} (h_lt : ∀ v ∈ s, v < 64)
    (h : decodeValues s = some b) : encodeValues b = s := by
  induction s using decodeValues.induct generalizing b with
  | case1 =>
    cases h
    rfl
  | case2 a => cases h
  | case3 u v h_unused =>
    simp only [List.mem_cons, List.not_mem_nil, or_false, forall_eq_or_imp, forall_eq] at h_lt
    rw [decodeValues, if_pos h_unused] at h
    cases h
    have h_1 := (byte1_eq_iff h_lt.1 h_lt.2).1 rfl
    rw [encodeValues, ← h_1]
    congr 2 <;> omega
  | case4 u v h_unused =>
    rw [decodeValues, if_neg h_unused] at h
    cases h
  | case5 u v w h_unused =>
    simp only [List.mem_cons, List.not_mem_nil, or_false, forall_eq_or_imp, forall_eq] at h_lt
    rw [decodeValues, if_pos h_unused] at h
    cases h
    have h_1 := (byte1_eq_iff h_lt.1 h_lt.2.1).1 rfl
    have h_2 := (byte2_eq_iff (b := v) h_lt.2.2).1 rfl
    rw [encodeValues, ← h_1, ← h_2]
    congr 3 <;> omega
  | case6 u v w h_unused =>
    rw [decodeValues, if_neg h_unused] at h
    cases h
  | case7 t u v w rest ih =>
    simp only [List.forall_mem_cons] at h_lt
    obtain ⟨h_t, h_u, h_v, h_w, h_rest⟩ := h_lt
    rw [decodeValues, Option.map_eq_some_iff] at h
    obtain ⟨bytes, h_bytes, rfl⟩ := h
    have h_1 := (byte1_eq_iff h_t h_u).1 rfl
    have h_2 := (byte2_eq_iff (b := u) h_v).1 rfl
    have h_3 := (byte3_eq_iff (c := v) h_w).1 rfl
    rw [encodeValues, ih h_rest h_bytes, ← h_1, ← h_2, ← h_3]
    congr 4 <;> omega

/-- **On values**, the decoder inverts the encoder, and accepts nothing else. -/
theorem decodeValues_eq_some_iff {s : List ℕ} (h_lt : ∀ v ∈ s, v < 64) {b : List UInt8} :
    decodeValues s = some b ↔ encodeValues b = s := by
  refine ⟨encodeValues_of_decodeValues h_lt, ?_⟩
  rintro rfl
  exact decodeValues_encodeValues b

/-! ### Symbols -/

variable (A : Alphabet)

/-- The values of symbols, if there are no other characters. -/
def values? : List ℕ → Option (List ℕ)
  | [] => some []
  | c :: s => do
    let v ← A.value? c
    let vs ← values? s
    return v :: vs

def encodeUnpadded (b : List UInt8) : List ℕ := (encodeValues b).map A.symbol

def decodeUnpadded (s : List ℕ) : Option (List UInt8) := values? A s >>= decodeValues

/-- What completes a last group of symbols. -/
def padding (n : ℕ) : List ℕ := List.replicate ((4 - n % 4) % 4) pad

def encodePadded (b : List UInt8) : List ℕ :=
  encodeUnpadded A b ++ padding (encodeUnpadded A b).length

/-- The symbols are followed by their padding and by nothing else. -/
def decodePadded (s : List ℕ) : Option (List UInt8) :=
  let symbols := s.takeWhile (· ≠ pad)
  if s = symbols ++ padding symbols.length then decodeUnpadded A symbols else none

theorem values?_eq_some_iff {s vs : List ℕ} :
    values? A s = some vs ↔ (∀ v ∈ vs, v < 64) ∧ vs.map A.symbol = s := by
  induction s generalizing vs with
  | nil =>
    rw [values?, Option.some.injEq, List.map_eq_nil_iff]
    refine ⟨?_, ?_⟩
    · rintro rfl
      exact ⟨List.forall_mem_nil _, rfl⟩
    · rintro ⟨-, rfl⟩
      rfl
  | cons c s ih =>
    simp only [values?, Option.bind_eq_bind, Option.bind_eq_some_iff, Option.pure_def,
      Option.some.injEq, A.value?_eq_some_iff, ih]
    refine ⟨?_, ?_⟩
    · rintro ⟨v, ⟨h_v, rfl⟩, vs, ⟨h_vs, rfl⟩, rfl⟩
      exact ⟨List.forall_mem_cons.2 ⟨h_v, h_vs⟩, rfl⟩
    · rintro ⟨h_lt, h_map⟩
      obtain ⟨v, vs, rfl, rfl, rfl⟩ := List.map_eq_cons_iff.1 h_map
      rw [List.forall_mem_cons] at h_lt
      exact ⟨v, ⟨h_lt.1, rfl⟩, vs, ⟨h_lt.2, rfl⟩, rfl⟩

/-- **Without padding**, a string decodes to the bytes of which it is the encoding. -/
theorem decodeUnpadded_eq_some_iff {s : List ℕ} {b : List UInt8} :
    decodeUnpadded A s = some b ↔ encodeUnpadded A b = s := by
  simp only [decodeUnpadded, Option.bind_eq_bind, Option.bind_eq_some_iff, values?_eq_some_iff]
  refine ⟨?_, ?_⟩
  · rintro ⟨vs, ⟨h_lt, rfl⟩, h_b⟩
    rw [encodeUnpadded, (decodeValues_eq_some_iff h_lt).1 h_b]
  · rintro rfl
    exact ⟨encodeValues b, ⟨lt_of_mem_encodeValues, rfl⟩, decodeValues_encodeValues b⟩

/-- The symbols of an encoding are what precedes its padding. -/
theorem takeWhile_encodePadded (b : List UInt8) :
    (encodePadded A b).takeWhile (· ≠ pad) = encodeUnpadded A b := by
  have h_symbols : ∀ c ∈ encodeUnpadded A b, decide (c ≠ pad) = true := by
    intro c h_c
    obtain ⟨v, h_v, rfl⟩ := List.mem_map.1 h_c
    exact decide_eq_true (A.symbol_ne_pad v (lt_of_mem_encodeValues v h_v))
  rw [encodePadded, List.takeWhile_append_of_pos h_symbols, padding, List.takeWhile_replicate]
  simp

/-- **With padding**, a string decodes to the bytes of which it is the encoding. -/
theorem decodePadded_eq_some_iff {s : List ℕ} {b : List UInt8} :
    decodePadded A s = some b ↔ encodePadded A b = s := by
  rw [decodePadded, Option.ite_none_right_eq_some, decodeUnpadded_eq_some_iff]
  refine ⟨?_, ?_⟩
  · rintro ⟨h_s, h_b⟩
    rw [encodePadded, h_b, ← h_s]
  · rintro rfl
    rw [takeWhile_encodePadded]
    exact ⟨rfl, rfl⟩

/-- Encodings are ASCII. -/
theorem lt_of_mem_encodeUnpadded {b : List UInt8} : ∀ c ∈ encodeUnpadded A b, c < 128 := by
  intro c h_c
  obtain ⟨v, h_v, rfl⟩ := List.mem_map.1 h_c
  exact A.symbol_lt v (lt_of_mem_encodeValues v h_v)

theorem lt_of_mem_encodePadded {b : List UInt8} : ∀ c ∈ encodePadded A b, c < 128 := by
  intro c h_c
  rw [encodePadded, List.mem_append] at h_c
  rcases h_c with h_symbol | h_pad
  · exact lt_of_mem_encodeUnpadded A c h_symbol
  · rw [List.eq_of_mem_replicate h_pad, pad]
    omega

/-! ### Two alphabets -/

/-- The symbol of the other alphabet. -/
def toUrlSafe (c : ℕ) : ℕ :=
  if c = 43 then 45
  else if c = 47 then 95
  else c

theorem toUrlSafe_symbol {v : ℕ} (h : v < 64) :
    toUrlSafe (standard.symbol v) = urlSafe.symbol v := by
  simp only [toUrlSafe, standard, urlSafe, latinSymbol]
  split_ifs <;> omega

/-- No character is a symbol for two numbers. -/
theorem eq_of_symbol_eq {v w : ℕ} (h_v : v < 64) (h_w : w < 64)
    (h : standard.symbol v = urlSafe.symbol w) : v = w := by
  simp only [standard, urlSafe, latinSymbol] at h
  split_ifs at h <;> omega

theorem ne_pad_of_mem {b : List UInt8} : ∀ c ∈ encodeUnpadded A b, decide (c ≠ pad) = true := by
  intro c h_c
  obtain ⟨v, h_v, rfl⟩ := List.mem_map.1 h_c
  exact decide_eq_true (A.symbol_ne_pad v (lt_of_mem_encodeValues v h_v))

theorem filter_encodePadded (b : List UInt8) :
    (encodePadded A b).filter (· ≠ pad) = encodeUnpadded A b := by
  rw [encodePadded, List.filter_append, List.filter_eq_self.2 (ne_pad_of_mem A), padding,
    List.filter_replicate]
  simp

/-- **One form from the other**: without the padding, and symbol by symbol. -/
theorem map_toUrlSafe_filter_encodePadded (b : List UInt8) :
    ((encodePadded standard b).filter (· ≠ pad)).map toUrlSafe = encodeUnpadded urlSafe b := by
  rw [filter_encodePadded, encodeUnpadded, encodeUnpadded, List.map_map]
  exact List.map_congr_left fun v h_v => toUrlSafe_symbol (lt_of_mem_encodeValues v h_v)

/-- **A string of both forms** encodes the same bytes in both. -/
theorem eq_of_encodePadded_eq {b c : List UInt8}
    (h : encodePadded standard b = encodeUnpadded urlSafe c) : b = c := by
  -- there is no padding, since the other form has none
  have h_unpadded : encodeUnpadded standard b = encodeUnpadded urlSafe c := by
    rw [← filter_encodePadded, h, List.filter_eq_self.2 (ne_pad_of_mem urlSafe)]
  -- symbol by symbol, the values are the same
  have h_values : encodeValues b = encodeValues c := by
    refine List.ext_getElem ?_ fun i h_i h_i' => ?_
    · simpa [encodeUnpadded] using congrArg List.length h_unpadded
    · refine eq_of_symbol_eq (lt_of_mem_encodeValues _ (List.getElem_mem h_i))
        (lt_of_mem_encodeValues _ (List.getElem_mem h_i')) ?_
      have h_get := congrArg (·[i]?) h_unpadded
      simpa [encodeUnpadded, h_i, h_i'] using h_get
  have h_decode := decodeValues_encodeValues b
  rw [h_values, decodeValues_encodeValues c] at h_decode
  exact (Option.some.inj h_decode).symm

/-! ### Lenient decoding -/

/-- The bytes for values of symbols, whatever the unused bits are; a last symbol that stands alone
is dropped. -/
def decodeLenientValues : List ℕ → List UInt8
  | [] => []
  | [_] => []
  | [a, b] => [byte1 a b]
  | [a, b, c] => [byte1 a b, byte2 b c]
  | a :: b :: c :: d :: rest =>
    byte1 a b :: byte2 b c :: byte3 c d :: decodeLenientValues rest

/-- The value of a symbol of either alphabet. -/
def eitherValue? (c : ℕ) : Option ℕ := standard.value? c <|> urlSafe.value? c

/-- The symbols of either alphabet up to the padding, without all other characters. -/
def decodeLenient (s : List ℕ) : List UInt8 :=
  decodeLenientValues ((s.takeWhile (· ≠ pad)).filterMap eitherValue?)

theorem decodeLenientValues_of_decodeValues {vs : List ℕ} {b : List UInt8}
    (h : decodeValues vs = some b) : decodeLenientValues vs = b := by
  induction vs using decodeValues.induct generalizing b with
  | case1 => exact Option.some.inj h
  | case2 a => cases h
  | case3 u v h_unused =>
    rw [decodeValues, if_pos h_unused] at h
    exact Option.some.inj h
  | case4 u v h_unused =>
    rw [decodeValues, if_neg h_unused] at h
    cases h
  | case5 u v w h_unused =>
    rw [decodeValues, if_pos h_unused] at h
    exact Option.some.inj h
  | case6 u v w h_unused =>
    rw [decodeValues, if_neg h_unused] at h
    cases h
  | case7 t u v w rest ih =>
    rw [decodeValues, Option.map_eq_some_iff] at h
    obtain ⟨bytes, h_bytes, rfl⟩ := h
    rw [decodeLenientValues, ih h_bytes]

theorem eitherValue?_standard {v : ℕ} (h : v < 64) :
    eitherValue? (standard.symbol v) = some v := by
  rw [eitherValue?, (standard.value?_eq_some_iff _ v).2 ⟨h, rfl⟩]
  rfl

theorem eitherValue?_urlSafe {v : ℕ} (h : v < 64) :
    eitherValue? (urlSafe.symbol v) = some v := by
  cases h_standard : standard.value? (urlSafe.symbol v) with
  | none =>
    rw [eitherValue?, h_standard, (urlSafe.value?_eq_some_iff _ v).2 ⟨h, rfl⟩]
    rfl
  | some w =>
    -- what both alphabets have stands for the same number in both
    obtain ⟨h_w, h_eq⟩ := (standard.value?_eq_some_iff _ w).1 h_standard
    rw [eitherValue?, h_standard, eq_of_symbol_eq h_w h h_eq]
    rfl

/-- Symbols with their padding, or without. -/
theorem decodeLenient_append {A : Alphabet} (h : ∀ v < 64, eitherValue? (A.symbol v) = some v)
    (b : List UInt8) (n : ℕ) :
    decodeLenient (encodeUnpadded A b ++ List.replicate n pad) = b := by
  have h_values : (encodeUnpadded A b).filterMap eitherValue? = encodeValues b := by
    rw [encodeUnpadded, List.filterMap_map]
    refine (List.filterMap_congr fun v h_v => ?_).trans List.filterMap_some
    exact h v (lt_of_mem_encodeValues v h_v)
  have h_pad : (List.replicate n pad).takeWhile (· ≠ pad) = [] := by
    rw [List.takeWhile_replicate]
    simp
  rw [decodeLenient, List.takeWhile_append_of_pos (ne_pad_of_mem A), h_pad, List.append_nil,
    h_values]
  exact decodeLenientValues_of_decodeValues (decodeValues_encodeValues b)

/-- **Where a strict decoder decodes**, the lenient one returns the same bytes. -/
theorem decodeLenient_of_strict {s : List ℕ} {b : List UInt8}
    (h : encodePadded standard b = s ∨ encodeUnpadded urlSafe b = s) : decodeLenient s = b := by
  obtain rfl | rfl := h
  · exact decodeLenient_append (fun _ => eitherValue?_standard) b _
  · have h_lenient := decodeLenient_append (fun _ => eitherValue?_urlSafe) b 0
    rwa [List.replicate_zero, List.append_nil] at h_lenient

end Base64
