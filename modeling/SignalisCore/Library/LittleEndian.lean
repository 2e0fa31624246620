import Mathlib.Data.List.Basic
import Mathlib.Data.Nat.Digits.Defs
import Mathlib.Tactic.NormNum

/-!
# Byte strings read as little-endian integers

A byte string is a `List UInt8`; a byte array of a fixed length carries its length as the second
field of a subtype, so an array of the wrong length cannot be built.

* `leValue` reads a byte string as a little-endian integer, and `leBytes` writes one of a given
  length: `leValue_leBytes`, and `ByteArr.ofLe_leValue` for arrays.
* `ByteArr.modify` is the assignment `a[i] = f(a[i])`. Its effect on the value is read off the two
  ends that bit masks act on: the low byte (`leValue_modify_zero`) and the top byte
  (`leValue_modify_last`).
-/

namespace LittleEndian

/-- A byte string: a slice, a vector, a buffer. -/
abbrev Bytes := List UInt8

/-- A byte array of exactly `n` bytes. -/
abbrev ByteArr (n : ℕ) := {l : Bytes // l.length = n}

/-- The little-endian value of a byte string. -/
def leValue (l : Bytes) : ℕ := Nat.ofDigits 256 (l.map UInt8.toNat)

/-- The `len` low-order bytes of `n`, least significant first. -/
def leBytes : ℕ → ℕ → Bytes
  | 0, _ => []
  | len + 1, n => UInt8.ofNat (n % 256) :: leBytes len (n / 256)

@[simp] theorem leValue_nil : leValue [] = 0 := rfl

@[simp] theorem leValue_cons (b : UInt8) (l : Bytes) :
    leValue (b :: l) = b.toNat + 256 * leValue l := by
  simp [leValue, Nat.ofDigits_cons]

@[simp] theorem leValue_append (l m : Bytes) :
    leValue (l ++ m) = leValue l + 256 ^ l.length * leValue m := by
  simp [leValue, Nat.ofDigits_append]

/-- The digits of a byte string are below the radix. -/
theorem toNat_lt_of_mem_map {l : Bytes} : ∀ d ∈ l.map UInt8.toNat, d < 256 := by
  intro d hd
  obtain ⟨b, -, rfl⟩ := List.mem_map.mp hd
  exact b.toNat_lt

theorem leValue_lt (l : Bytes) : leValue l < 256 ^ l.length := by
  have h := Nat.ofDigits_lt_base_pow_length (b := 256) (by norm_num) (toNat_lt_of_mem_map (l := l))
  simpa [leValue] using h

/-- Byte strings of one length are determined by their values. -/
theorem leValue_inj {l m : Bytes} (h_len : l.length = m.length) :
    leValue l = leValue m ↔ l = m := by
  refine ⟨fun h => ?_, fun h => by rw [h]⟩
  -- the digit lists agree, and a digit determines its byte
  have h_digits := Nat.ofDigits_inj_of_len_eq (b := 256) (by norm_num) (by simpa using h_len)
    toNat_lt_of_mem_map toNat_lt_of_mem_map h
  exact List.map_injective_iff.mpr (fun _ _ h_byte => UInt8.toNat_inj.mp h_byte) h_digits

@[simp] theorem length_leBytes (len n : ℕ) : (leBytes len n).length = len := by
  induction len generalizing n with
  | zero => rfl
  | succ len ih => simp [leBytes, ih]

@[simp] theorem leValue_leBytes (len n : ℕ) : leValue (leBytes len n) = n % 256 ^ len := by
  induction len generalizing n with
  | zero => simp [leBytes, Nat.mod_one]
  | succ len ih =>
    -- the low byte is the residue, and the induction hypothesis reads the quotient
    have h_low : (UInt8.ofNat (n % 256)).toNat = n % 256 := by simp
    rw [leBytes, leValue_cons, ih, h_low, pow_succ', Nat.mod_mul]

theorem leValue_leBytes_of_lt {len n : ℕ} (h : n < 256 ^ len) : leValue (leBytes len n) = n := by
  rw [leValue_leBytes, Nat.mod_eq_of_lt h]

/-! ### The two ends of a byte string -/

/-- Dropping bytes divides the value. -/
theorem leValue_div_pow (l : Bytes) (i : ℕ) : leValue l / 256 ^ i = leValue (l.drop i) := by
  rw [leValue, Nat.ofDigits_div_pow_eq_ofDigits_drop i (by norm_num) _ toNat_lt_of_mem_map,
    leValue, List.map_drop]

/-- Keeping a prefix reduces the value. -/
theorem leValue_mod_pow (l : Bytes) (i : ℕ) : leValue l % 256 ^ i = leValue (l.take i) := by
  rw [leValue, Nat.ofDigits_mod_pow_eq_ofDigits_take i (by norm_num) _ toNat_lt_of_mem_map,
    leValue, List.map_take]

/-- The low byte is the value's residue. -/
theorem leValue_mod_256 {l : Bytes} (h : 0 < l.length) : leValue l % 256 = l[0].toNat := by
  cases l with
  | nil => simp at h
  | cons b l =>
    have hb := b.toNat_lt
    rw [leValue_cons, List.getElem_cons_zero]
    omega

/-- The top byte is the value's quotient. -/
theorem leValue_div_last {l : Bytes} {n : ℕ} (h : l.length = n + 1) :
    leValue l / 256 ^ n = l[n].toNat := by
  rw [leValue_div_pow, List.drop_eq_getElem_cons (by omega), List.drop_of_length_le (by omega)]
  simp

/-- Writing the low byte. -/
theorem leValue_modify_zero {l : Bytes} (h : 0 < l.length) (f : UInt8 → UInt8) :
    leValue (l.modify 0 f) = (f l[0]).toNat + 256 * (leValue l / 256) := by
  cases l with
  | nil => simp at h
  | cons b l =>
    have hb := b.toNat_lt
    -- the bytes above the low one stay
    have h_div : (b.toNat + 256 * leValue l) / 256 = leValue l := by omega
    simp [h_div]

/-- Writing the top byte. -/
theorem leValue_modify_last {l : Bytes} {n : ℕ} (h : l.length = n + 1) (f : UInt8 → UInt8) :
    leValue (l.modify n f) = leValue l % 256 ^ n + 256 ^ n * (f l[n]).toNat := by
  rw [leValue_mod_pow, List.modify_eq_take_cons_drop (by omega), leValue_append, leValue_cons,
    List.drop_of_length_le (by omega)]
  simp [h]

/-! ### Byte arrays -/

namespace ByteArr

variable {m n : ℕ}

/-- The array whose little-endian value is `v` (mod `256 ^ n`). -/
def ofLe (n v : ℕ) : ByteArr n := ⟨leBytes n v, length_leBytes n v⟩

/-- The array of `n` copies of one byte. -/
def replicate (n : ℕ) (b : UInt8) : ByteArr n := ⟨List.replicate n b, List.length_replicate⟩

/-- The byte at an index below the length. -/
def get (a : ByteArr n) (i : ℕ) (h : i < n) : UInt8 := a.1.get ⟨i, by rw [a.2]; exact h⟩

/-- In-place update of one byte: `a[i] = f(a[i])`. -/
def modify (a : ByteArr n) (i : ℕ) (f : UInt8 → UInt8) : ByteArr n :=
  ⟨a.1.modify i f, by rw [List.length_modify, a.2]⟩

/-- Two arrays one after the other. -/
def append (a : ByteArr m) (b : ByteArr n) : ByteArr (m + n) :=
  ⟨a.1 ++ b.1, by rw [List.length_append, a.2, b.2]⟩

/-- The first `m` bytes. -/
def take (m : ℕ) (a : ByteArr (m + n)) : ByteArr m :=
  ⟨a.1.take m, by rw [List.length_take, a.2]; omega⟩

/-- The bytes after the first `m`. -/
def drop (m : ℕ) (a : ByteArr (m + n)) : ByteArr n :=
  ⟨a.1.drop m, by rw [List.length_drop, a.2]; omega⟩

@[simp] theorem take_append (a : ByteArr m) (b : ByteArr n) : (a.append b).take m = a :=
  Subtype.ext (List.take_left' a.2)

@[simp] theorem drop_append (a : ByteArr m) (b : ByteArr n) : (a.append b).drop m = b :=
  Subtype.ext (List.drop_left' a.2)

theorem leValue_lt (a : ByteArr n) : leValue a.1 < 256 ^ n := by
  have h := LittleEndian.leValue_lt a.1
  rwa [a.2] at h

/-- Arrays of one length are determined by their values. -/
theorem ext_leValue {a b : ByteArr n} (h : leValue a.1 = leValue b.1) : a = b :=
  Subtype.ext ((leValue_inj (a.2.trans b.2.symm)).mp h)

theorem leValue_ofLe {v : ℕ} (h : v < 256 ^ n) : leValue (ofLe n v).1 = v :=
  leValue_leBytes_of_lt h

@[simp] theorem ofLe_leValue (a : ByteArr n) : ofLe n (leValue a.1) = a :=
  ext_leValue (leValue_ofLe a.leValue_lt)

end ByteArr

end LittleEndian
