import Mathlib.Algebra.Group.End
import SignalisCore.Library.ByteXor

/-!
# Cipher block chaining with PKCS #7 padding

A block cipher under one key is a permutation of the blocks of `n` bytes. `Cbc.encrypt` chains it
over a list of blocks, and `encryptPadded` over a byte string that is padded to whole blocks.

* `unpad_eq_some_iff`: the padding is unambiguous, and nothing else is accepted for it.
* `decryptPadded_eq_some_iff`: what decrypts is exactly what was encrypted.
* `decryptPadded_xor_iv`: a change of the initialization vector changes the first block of the
  plaintext alike, and is not noticed.
-/

namespace Cbc

open LittleEndian ByteXor

variable {n : ℕ}

/-! ### Blocks -/

/-- The first `n` bytes, filled up with zeros. -/
def block (n : ℕ) (l : Bytes) : ByteArr n :=
  ⟨(l ++ List.replicate n 0).take n, by simp⟩

/-- The first blocks of a byte string. -/
def blocks (n : ℕ) : ℕ → Bytes → List (ByteArr n)
  | 0, _ => []
  | count + 1, l => block n l :: blocks n count (l.drop n)

/-- Blocks one after the other. -/
def flatten (bs : List (ByteArr n)) : Bytes := bs.flatMap Subtype.val

@[simp] theorem length_flatten (bs : List (ByteArr n)) :
    (flatten bs).length = bs.length * n := by
  induction bs with
  | nil => simp [flatten]
  | cons b bs ih =>
    rw [flatten, List.flatMap_cons, List.length_append, b.2, List.length_cons, Nat.succ_mul,
      ← ih, flatten, Nat.add_comm]

@[simp] theorem length_blocks (count : ℕ) (l : Bytes) : (blocks n count l).length = count := by
  induction count generalizing l with
  | zero => rfl
  | succ count ih => rw [blocks, List.length_cons, ih]

theorem block_append (b : ByteArr n) (l : Bytes) : block n (b.1 ++ l) = b := by
  apply Subtype.ext
  simp only [block, List.append_assoc]
  exact List.take_left' b.2

theorem block_val {l : Bytes} (h : n ≤ l.length) : (block n l).1 = l.take n :=
  List.take_append_of_le_length h

/-- A string of whole blocks is its blocks. -/
theorem flatten_blocks {count : ℕ} {l : Bytes} (h : l.length = count * n) :
    flatten (blocks n count l) = l := by
  induction count generalizing l with
  | zero =>
    rw [Nat.zero_mul, List.length_eq_zero_iff] at h
    rw [h]
    rfl
  | succ count ih =>
    rw [Nat.succ_mul] at h
    have h_rest : (l.drop n).length = count * n := by
      rw [List.length_drop]
      omega
    calc flatten (blocks n (count + 1) l)
        = (block n l).1 ++ flatten (blocks n count (l.drop n)) := rfl
      _ = l.take n ++ l.drop n := by rw [block_val (by omega), ih h_rest]
      _ = l := List.take_append_drop n l

theorem blocks_flatten (bs : List (ByteArr n)) : blocks n bs.length (flatten bs) = bs := by
  induction bs with
  | nil => rfl
  | cons b bs ih =>
    have h_drop : (flatten (b :: bs)).drop n = flatten bs := List.drop_left' b.2
    have h_block : block n (flatten (b :: bs)) = b := block_append b _
    rw [List.length_cons, blocks, h_block, h_drop, ih]

/-! ### Padding -/

/-- The number of bytes that fill up the last block, one at least. -/
def padLen (n len : ℕ) : ℕ := n - len % n

/-- PKCS #7: as many bytes as are missing, each of that value. -/
def pad (n : ℕ) (l : Bytes) : Bytes :=
  l ++ List.replicate (padLen n l.length) (UInt8.ofNat (padLen n l.length))

/-- The bytes in front of the padding that the last byte announces, if it is one. -/
def unpad (n : ℕ) (l : Bytes) : Option Bytes :=
  match l.getLast? with
  | none => none
  | some last =>
    let textLen := l.length - last.toNat
    if 1 ≤ last.toNat ∧ last.toNat ≤ n ∧ (l.drop textLen).all (· == last) then
      some (l.take textLen)
    else none

theorem padLen_pos (h : 0 < n) (len : ℕ) : 0 < padLen n len :=
  Nat.sub_pos_of_lt (Nat.mod_lt len h)

theorem padLen_le (len : ℕ) : padLen n len ≤ n := Nat.sub_le _ _

theorem length_pad (l : Bytes) : (pad n l).length = l.length + padLen n l.length := by
  rw [pad, List.length_append, List.length_replicate]

/-- A padded string is one block longer than the whole blocks of the text. -/
theorem length_pad_eq (h : 0 < n) (l : Bytes) : (pad n l).length = (l.length / n + 1) * n := by
  have h_div := Nat.div_add_mod' l.length n
  have h_lt := Nat.mod_lt l.length h
  rw [length_pad, padLen, Nat.succ_mul]
  omega

theorem toNat_padLen (h : n < 256) (len : ℕ) : (UInt8.ofNat (padLen n len)).toNat = padLen n len :=
  UInt8.toNat_ofNat_of_lt' ((padLen_le len).trans_lt h)

theorem unpad_pad (h_pos : 0 < n) (h_lt : n < 256) (l : Bytes) : unpad n (pad n l) = some l := by
  have h_pad := padLen_pos h_pos l.length
  have h_last : (pad n l).getLast? = some (UInt8.ofNat (padLen n l.length)) := by
    rw [pad, List.getLast?_append, List.getLast?_replicate, if_neg h_pad.ne', Option.some_or]
  have h_len : (pad n l).length - padLen n l.length = l.length := by
    rw [length_pad, Nat.add_sub_cancel]
  simp only [unpad, h_last, toNat_padLen h_lt, h_len, List.all_eq_true, beq_iff_eq]
  rw [if_pos, pad, List.take_left]
  refine ⟨h_pad, padLen_le _, fun b h_b => ?_⟩
  rw [pad, List.drop_left] at h_b
  exact List.eq_of_mem_replicate h_b

/-- **The padding is unambiguous**: a string of whole blocks is unpadded to the one text that pads
to it, if there is one. -/
theorem unpad_eq_some_iff (h_pos : 0 < n) (h_lt : n < 256) {l text : Bytes} (h_dvd : n ∣ l.length) :
    unpad n l = some text ↔ pad n text = l := by
  refine ⟨?_, ?_⟩
  · intro h
    rcases h_last : l.getLast? with _ | last
    · simp [unpad, h_last] at h
    simp only [unpad, h_last, Option.ite_none_right_eq_some, Option.some.injEq, List.all_eq_true,
      beq_iff_eq] at h
    obtain ⟨⟨h_one, h_le, h_all⟩, rfl⟩ := h
    have h_ne : l.length ≠ 0 := by
      rw [Ne, List.length_eq_zero_iff]
      rintro rfl
      simp at h_last
    have h_block : n ≤ l.length := Nat.le_of_dvd (Nat.pos_of_ne_zero h_ne) h_dvd
    -- the announced padding is the one that the length of the text asks for
    have h_len : (l.take (l.length - last.toNat)).length = l.length - last.toNat := by
      rw [List.length_take]
      omega
    have h_pad : padLen n (l.length - last.toNat) = last.toNat := by
      obtain ⟨q, h_q⟩ := h_dvd
      obtain ⟨q, rfl⟩ : ∃ q', q = q' + 1 := Nat.exists_eq_succ_of_ne_zero (by
        rintro rfl
        omega)
      have h_sub : l.length - last.toNat = n - last.toNat + n * q := by
        rw [h_q, Nat.mul_succ]
        omega
      rw [padLen, h_sub, Nat.add_mul_mod_self_left]
      rcases Nat.eq_or_lt_of_le h_one with h_eq | h_gt
      · rw [Nat.mod_eq_of_lt (by omega)]
        omega
      · rw [Nat.mod_eq_of_lt (by omega)]
        omega
    have h_drop : l.drop (l.length - last.toNat) = List.replicate last.toNat last := by
      rw [List.eq_replicate_iff, List.length_drop]
      exact ⟨by omega, h_all⟩
    rw [pad, h_len, h_pad, UInt8.ofNat_toNat, ← h_drop, List.take_append_drop]
  · rintro rfl
    exact unpad_pad h_pos h_lt text

/-! ### Chaining -/

/-- Each block is combined with the block of ciphertext before it, the first one with the
initialization vector. -/
def encrypt (E : Equiv.Perm (ByteArr n)) : ByteArr n → List (ByteArr n) → List (ByteArr n)
  | _, [] => []
  | previous, p :: ps =>
    let c := E (p.xor previous)
    c :: encrypt E c ps

def decrypt (E : Equiv.Perm (ByteArr n)) : ByteArr n → List (ByteArr n) → List (ByteArr n)
  | _, [] => []
  | previous, c :: cs => (E.symm c).xor previous :: decrypt E c cs

variable (E : Equiv.Perm (ByteArr n))

@[simp] theorem length_encrypt (iv : ByteArr n) (ps : List (ByteArr n)) :
    (encrypt E iv ps).length = ps.length := by
  induction ps generalizing iv with
  | nil => rfl
  | cons p ps ih => rw [encrypt, List.length_cons, ih, List.length_cons]

@[simp] theorem length_decrypt (iv : ByteArr n) (cs : List (ByteArr n)) :
    (decrypt E iv cs).length = cs.length := by
  induction cs generalizing iv with
  | nil => rfl
  | cons c cs ih => rw [decrypt, List.length_cons, ih, List.length_cons]

theorem decrypt_encrypt (iv : ByteArr n) (ps : List (ByteArr n)) :
    decrypt E iv (encrypt E iv ps) = ps := by
  induction ps generalizing iv with
  | nil => rfl
  | cons p ps ih => rw [encrypt, decrypt, ih, Equiv.symm_apply_apply, ByteArr.xor_xor_cancel]

theorem encrypt_decrypt (iv : ByteArr n) (cs : List (ByteArr n)) :
    encrypt E iv (decrypt E iv cs) = cs := by
  induction cs generalizing iv with
  | nil => rfl
  | cons c cs ih => rw [decrypt, encrypt, ByteArr.xor_xor_cancel, Equiv.apply_symm_apply, ih]

/-- The vector and the first block may be changed alike. -/
theorem encrypt_xor_iv (iv δ p : ByteArr n) (ps : List (ByteArr n)) :
    encrypt E (iv.xor δ) (p.xor δ :: ps) = encrypt E iv (p :: ps) := by
  have h_xor : (p.xor δ).xor (iv.xor δ) = p.xor iv :=
    Subtype.ext (xor_xor_xor_cancel p.1 iv.1 δ.1 (by rw [p.2, iv.2, δ.2, min_self]))
  rw [encrypt, encrypt, h_xor]

/-! ### Byte strings -/

/-- The padded text, encrypted. -/
def encryptPadded (iv : ByteArr n) (text : Bytes) : Bytes :=
  flatten (encrypt E iv (blocks n (text.length / n + 1) (pad n text)))

/-- Whole blocks are decrypted, and the padding is checked and cut off. -/
def decryptPadded (iv : ByteArr n) (ciphertext : Bytes) : Option Bytes :=
  if n ∣ ciphertext.length then
    unpad n (flatten (decrypt E iv (blocks n (ciphertext.length / n) ciphertext)))
  else none

theorem length_encryptPadded (iv : ByteArr n) (text : Bytes) :
    (encryptPadded E iv text).length = (text.length / n + 1) * n := by
  rw [encryptPadded, length_flatten, length_encrypt, length_blocks]

/-- **What decrypts is exactly what was encrypted.** -/
theorem decryptPadded_eq_some_iff (h_pos : 0 < n) (h_lt : n < 256) {iv : ByteArr n}
    {ciphertext text : Bytes} :
    decryptPadded E iv ciphertext = some text ↔ encryptPadded E iv text = ciphertext := by
  refine ⟨?_, ?_⟩
  · intro h
    simp only [decryptPadded, Option.ite_none_right_eq_some] at h
    obtain ⟨h_dvd, h⟩ := h
    have h_count : ciphertext.length = ciphertext.length / n * n :=
      (Nat.div_mul_cancel h_dvd).symm
    have h_pad := (unpad_eq_some_iff h_pos h_lt (by simp)).mp h
    -- the padded text has as many blocks as the ciphertext
    have h_blocks : text.length / n + 1 = ciphertext.length / n := by
      have h_len := congrArg List.length h_pad
      rw [length_pad_eq h_pos, length_flatten, length_decrypt, length_blocks] at h_len
      exact Nat.eq_of_mul_eq_mul_right h_pos h_len
    have h_back := blocks_flatten (decrypt E iv (blocks n (ciphertext.length / n) ciphertext))
    rw [length_decrypt, length_blocks] at h_back
    rw [encryptPadded, h_pad, h_blocks, h_back, encrypt_decrypt, flatten_blocks h_count]
  · rintro rfl
    have h_count : (encryptPadded E iv text).length / n = text.length / n + 1 := by
      rw [length_encryptPadded, Nat.mul_div_cancel _ h_pos]
    have h_back := blocks_flatten (encrypt E iv (blocks n (text.length / n + 1) (pad n text)))
    rw [length_encrypt, length_blocks] at h_back
    rw [decryptPadded, if_pos (by rw [length_encryptPadded]; exact Nat.dvd_mul_left _ _), h_count,
      encryptPadded, h_back, decrypt_encrypt, flatten_blocks (length_pad_eq h_pos text)]
    exact unpad_pad h_pos h_lt text

/-- **An unnoticed change**: an initialization vector that differs by `δ` decrypts to a text whose
first block differs by `δ`. -/
theorem decryptPadded_xor_iv (h_pos : 0 < n) (h_lt : n < 256) (iv δ : ByteArr n) {text : Bytes}
    (h : n ≤ text.length) :
    decryptPadded E (iv.xor δ) (encryptPadded E iv text) =
      some (xor (text.take n) δ.1 ++ text.drop n) := by
  have h_first : (xor (text.take n) δ.1).length = n := by
    rw [length_xor, List.length_take, δ.2]
    omega
  have h_len : (xor (text.take n) δ.1 ++ text.drop n).length = text.length := by
    rw [List.length_append, h_first, List.length_drop]
    omega
  -- the padding is the same, and the first block is the only one that changes
  have h_pad : pad n text = text.take n ++ (pad n text).drop n := by
    rw [pad, List.drop_append_of_le_length h, ← List.append_assoc, List.take_append_drop]
  have h_pad' : pad n (xor (text.take n) δ.1 ++ text.drop n) =
      xor (text.take n) δ.1 ++ (pad n text).drop n := by
    rw [pad, h_len, pad, List.drop_append_of_le_length h, List.append_assoc]
  rw [decryptPadded_eq_some_iff E h_pos h_lt, encryptPadded, encryptPadded, h_len, h_pad', blocks,
    blocks]
  have h_block := block_append ⟨_, h_first⟩ ((pad n text).drop n)
  have h_drop : (xor (text.take n) δ.1 ++ (pad n text).drop n).drop n = (pad n text).drop n :=
    List.drop_left' h_first
  have h_plain : (block n (pad n text)).xor δ = ⟨xor (text.take n) δ.1, h_first⟩ := by
    apply Subtype.ext
    simp only [ByteArr.xor]
    rw [block_val (by rw [length_pad]; omega), pad, List.take_append_of_le_length h]
  rw [h_block, h_drop, ← h_plain, encrypt_xor_iv]

end Cbc
