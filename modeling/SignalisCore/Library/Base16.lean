import Mathlib.Data.List.Basic
import Mathlib.Data.UInt

/-!
# Base16

Two hexadecimal digits for each byte, the high half first. The digits are numbers, the codes of
their characters, so that the same functions read a string in any encoding that contains ASCII.
Decoding takes digits of either case; encoding is given the digits of one case.

* `decode_isSome_iff`: what is decoded.
* `encode_of_decode`: a decoded string is the encoding of its bytes, up to case.
-/

namespace Base16

/-- The value of a digit. -/
def digit? (c : ℕ) : Option ℕ :=
  if 48 ≤ c ∧ c < 58 then some (c - 48)
  else if 65 ≤ c ∧ c < 71 then some (c - 55)
  else if 97 ≤ c ∧ c < 103 then some (c - 87)
  else none

/-- The code of a digit below ten or of a letter, `a` being ten. -/
def lowerDigit (v : ℕ) : ℕ := if v < 10 then 48 + v else 87 + v

/-- The same, with `A` for ten. -/
def upperDigit (v : ℕ) : ℕ := if v < 10 then 48 + v else 55 + v

/-- `A` to `Z` become `a` to `z`. -/
def toLower (c : ℕ) : ℕ := if 65 ≤ c ∧ c < 91 then c + 32 else c

/-- `a` to `z` become `A` to `Z`. -/
def toUpper (c : ℕ) : ℕ := if 97 ≤ c ∧ c < 123 then c - 32 else c

/-- Pairs of digits, as bytes. -/
def decode : List ℕ → Option (List UInt8)
  | [] => some []
  | [_] => none
  | c :: d :: rest => do
    let high ← digit? c
    let low ← digit? d
    let bytes ← decode rest
    return .ofNat (16 * high + low) :: bytes

/-- Bytes as pairs of digits. -/
def encode (digit : ℕ → ℕ) (b : List UInt8) : List ℕ :=
  b.flatMap fun x => [digit (x.toNat / 16), digit (x.toNat % 16)]

/-! ### Digits -/

theorem digit?_lt {c v : ℕ} (h : digit? c = some v) : v < 16 := by
  unfold digit? at h
  split_ifs at h <;> cases h <;> omega

theorem digit?_isSome_iff {c : ℕ} :
    (digit? c).isSome ↔ 48 ≤ c ∧ c < 58 ∨ 65 ≤ c ∧ c < 71 ∨ 97 ≤ c ∧ c < 103 := by
  unfold digit?
  split_ifs with h_decimal h_upper h_lower
  · simp [h_decimal]
  · simp [h_upper]
  · simp [h_lower]
  · simp [h_decimal, h_upper, h_lower]

theorem lowerDigit_of_digit? {c v : ℕ} (h : digit? c = some v) : lowerDigit v = toLower c := by
  unfold digit? at h
  unfold lowerDigit toLower
  split_ifs at h <;> cases h <;> split_ifs <;> omega

theorem upperDigit_of_digit? {c v : ℕ} (h : digit? c = some v) : upperDigit v = toUpper c := by
  unfold digit? at h
  unfold upperDigit toUpper
  split_ifs at h <;> cases h <;> split_ifs <;> omega

theorem lowerDigit_lt {v : ℕ} (h : v < 16) : lowerDigit v < 128 := by
  unfold lowerDigit
  split_ifs <;> omega

theorem upperDigit_lt {v : ℕ} (h : v < 16) : upperDigit v < 128 := by
  unfold upperDigit
  split_ifs <;> omega

/-! ### Strings -/

/-- Encodings are ASCII. -/
theorem lt_of_mem_encode {digit : ℕ → ℕ} (h_digit : ∀ v < 16, digit v < 128) {b : List UInt8}
    {c : ℕ} (h : c ∈ encode digit b) : c < 128 := by
  obtain ⟨x, -, h_c⟩ := List.mem_flatMap.1 h
  have h_x := x.toNat_lt
  rw [List.mem_pair] at h_c
  rcases h_c with rfl | rfl
  · exact h_digit _ (by omega)
  · exact h_digit _ (by omega)

theorem decode_cons_cons_eq_some_iff {c d : ℕ} {rest : List ℕ} {b : List UInt8} :
    decode (c :: d :: rest) = some b ↔ ∃ high low bytes, digit? c = some high ∧
      digit? d = some low ∧ decode rest = some bytes ∧ b = .ofNat (16 * high + low) :: bytes := by
  simp only [decode, Option.bind_eq_bind, Option.bind_eq_some_iff, Option.pure_def,
    Option.some.injEq]
  refine ⟨?_, ?_⟩
  · rintro ⟨high, h_high, low, h_low, bytes, h_bytes, rfl⟩
    exact ⟨high, low, bytes, h_high, h_low, h_bytes, rfl⟩
  · rintro ⟨high, low, bytes, h_high, h_low, h_bytes, rfl⟩
    exact ⟨high, h_high, low, h_low, bytes, h_bytes, rfl⟩

/-- **What is decoded**: digits, an even number of them. -/
theorem decode_isSome_iff (s : List ℕ) :
    (decode s).isSome ↔ s.length % 2 = 0 ∧ ∀ c ∈ s, (digit? c).isSome := by
  induction s using decode.induct with
  | case1 => simp [decode]
  | case2 c => simp [decode]
  | case3 c d rest ih =>
    have h_length : (c :: d :: rest).length % 2 = rest.length % 2 := by
      rw [List.length_cons, List.length_cons]
      omega
    rw [h_length, List.forall_mem_cons, List.forall_mem_cons]
    have h_decode : (decode (c :: d :: rest)).isSome ↔
        (digit? c).isSome ∧ (digit? d).isSome ∧ (decode rest).isSome := by
      simp only [Option.isSome_iff_exists, decode_cons_cons_eq_some_iff]
      refine ⟨?_, ?_⟩
      · rintro ⟨_, high, low, bytes, h_high, h_low, h_bytes, -⟩
        exact ⟨⟨high, h_high⟩, ⟨low, h_low⟩, ⟨bytes, h_bytes⟩⟩
      · rintro ⟨⟨high, h_high⟩, ⟨low, h_low⟩, ⟨bytes, h_bytes⟩⟩
        exact ⟨_, high, low, bytes, h_high, h_low, h_bytes, rfl⟩
    rw [h_decode, ih]
    tauto

/-- What is decoded is ASCII. -/
theorem lt_of_decode_isSome {s : List ℕ} (h : (decode s).isSome) : ∀ c ∈ s, c < 128 := by
  intro c h_c
  have h_digit := ((decode_isSome_iff s).1 h).2 c h_c
  rw [digit?_isSome_iff] at h_digit
  omega

/-- **A decoded string is the encoding of its bytes**, in the case of the encoder's digits. -/
theorem encode_of_decode {digit fold : ℕ → ℕ}
    (h_digit : ∀ c v, digit? c = some v → digit v = fold c) {s : List ℕ} {b : List UInt8}
    (h : decode s = some b) : encode digit b = s.map fold := by
  induction s using decode.induct generalizing b with
  | case1 =>
    cases h
    rfl
  | case2 c => cases h
  | case3 c d rest ih =>
    obtain ⟨high, low, bytes, h_high, h_low, h_bytes, rfl⟩ := decode_cons_cons_eq_some_iff.1 h
    have h_high_lt := digit?_lt h_high
    have h_low_lt := digit?_lt h_low
    -- the byte falls apart into its halves again
    have h_byte : (UInt8.ofNat (16 * high + low)).toNat = 16 * high + low := by
      rw [UInt8.toNat_ofNat', Nat.mod_eq_of_lt (by omega)]
    have h_div : (16 * high + low) / 16 = high := by omega
    have h_mod : (16 * high + low) % 16 = low := by omega
    rw [encode, List.flatMap_cons, ← encode, ih h_bytes, h_byte, h_div, h_mod,
      h_digit c high h_high, h_digit d low h_low]
    rfl

end Base16
