import Mathlib.Algebra.Group.End
import SignalisCore.Library.ByteXor

/-!
# AES-256

The block cipher of FIPS 197 with a key of 32 bytes. Every step of a round is built as a permutation
of the states, with the inverse step beside it, so that the cipher is a permutation of the blocks by
composition.

* `mixColumn_invMixColumn`, `invMixColumn_mixColumn`: both maps are additive, and commute with
  rotation, so that one byte decides whether they are inverse to each other.
* `aes256`: the permutation of the blocks under a key.
-/

namespace Aes

open LittleEndian

/-! ### Bytes -/

/-- Multiplication by `x` in the field of bytes. -/
def xtime (b : UInt8) : UInt8 := b <<< 1 ^^^ if b < 0x80 then 0 else 0x1b

/-- The reduction as shifts of the top bit. -/
theorem xtime_eq (b : UInt8) :
    xtime b = b <<< 1 ^^^ b >>> 7 ^^^ b >>> 7 <<< 1 ^^^ b >>> 7 <<< 3 ^^^ b >>> 7 <<< 4 := by
  -- the top bit is the condition of the reduction
  have h_all : ∀ n < 256, (if UInt8.ofNat n < 0x80 then (0 : UInt8) else 0x1b) =
      UInt8.ofNat n >>> 7 ^^^ UInt8.ofNat n >>> 7 <<< 1 ^^^ UInt8.ofNat n >>> 7 <<< 3 ^^^
        UInt8.ofNat n >>> 7 <<< 4 := by decide +kernel
  have h := h_all b.toNat b.toNat_lt
  rw [UInt8.ofNat_toNat] at h
  rw [xtime, h]
  ac_rfl

theorem xtime_xor (a b : UInt8) : xtime (a ^^^ b) = xtime a ^^^ xtime b := by
  simp only [xtime_eq, UInt8.shiftLeft_xor, UInt8.shiftRight_xor]
  ac_rfl

/-- The entry of a table in the row of the high four bits and the column of the low ones. -/
def lookup (table : List (List UInt8)) (b : UInt8) : UInt8 :=
  (table.getD (b.toNat / 16) []).getD (b.toNat % 16) 0

/-- The substitution table. -/
def sboxTable : List (List UInt8) := [
  [0x63, 0x7c, 0x77, 0x7b, 0xf2, 0x6b, 0x6f, 0xc5,
   0x30, 0x01, 0x67, 0x2b, 0xfe, 0xd7, 0xab, 0x76],
  [0xca, 0x82, 0xc9, 0x7d, 0xfa, 0x59, 0x47, 0xf0,
   0xad, 0xd4, 0xa2, 0xaf, 0x9c, 0xa4, 0x72, 0xc0],
  [0xb7, 0xfd, 0x93, 0x26, 0x36, 0x3f, 0xf7, 0xcc,
   0x34, 0xa5, 0xe5, 0xf1, 0x71, 0xd8, 0x31, 0x15],
  [0x04, 0xc7, 0x23, 0xc3, 0x18, 0x96, 0x05, 0x9a,
   0x07, 0x12, 0x80, 0xe2, 0xeb, 0x27, 0xb2, 0x75],
  [0x09, 0x83, 0x2c, 0x1a, 0x1b, 0x6e, 0x5a, 0xa0,
   0x52, 0x3b, 0xd6, 0xb3, 0x29, 0xe3, 0x2f, 0x84],
  [0x53, 0xd1, 0x00, 0xed, 0x20, 0xfc, 0xb1, 0x5b,
   0x6a, 0xcb, 0xbe, 0x39, 0x4a, 0x4c, 0x58, 0xcf],
  [0xd0, 0xef, 0xaa, 0xfb, 0x43, 0x4d, 0x33, 0x85,
   0x45, 0xf9, 0x02, 0x7f, 0x50, 0x3c, 0x9f, 0xa8],
  [0x51, 0xa3, 0x40, 0x8f, 0x92, 0x9d, 0x38, 0xf5,
   0xbc, 0xb6, 0xda, 0x21, 0x10, 0xff, 0xf3, 0xd2],
  [0xcd, 0x0c, 0x13, 0xec, 0x5f, 0x97, 0x44, 0x17,
   0xc4, 0xa7, 0x7e, 0x3d, 0x64, 0x5d, 0x19, 0x73],
  [0x60, 0x81, 0x4f, 0xdc, 0x22, 0x2a, 0x90, 0x88,
   0x46, 0xee, 0xb8, 0x14, 0xde, 0x5e, 0x0b, 0xdb],
  [0xe0, 0x32, 0x3a, 0x0a, 0x49, 0x06, 0x24, 0x5c,
   0xc2, 0xd3, 0xac, 0x62, 0x91, 0x95, 0xe4, 0x79],
  [0xe7, 0xc8, 0x37, 0x6d, 0x8d, 0xd5, 0x4e, 0xa9,
   0x6c, 0x56, 0xf4, 0xea, 0x65, 0x7a, 0xae, 0x08],
  [0xba, 0x78, 0x25, 0x2e, 0x1c, 0xa6, 0xb4, 0xc6,
   0xe8, 0xdd, 0x74, 0x1f, 0x4b, 0xbd, 0x8b, 0x8a],
  [0x70, 0x3e, 0xb5, 0x66, 0x48, 0x03, 0xf6, 0x0e,
   0x61, 0x35, 0x57, 0xb9, 0x86, 0xc1, 0x1d, 0x9e],
  [0xe1, 0xf8, 0x98, 0x11, 0x69, 0xd9, 0x8e, 0x94,
   0x9b, 0x1e, 0x87, 0xe9, 0xce, 0x55, 0x28, 0xdf],
  [0x8c, 0xa1, 0x89, 0x0d, 0xbf, 0xe6, 0x42, 0x68,
   0x41, 0x99, 0x2d, 0x0f, 0xb0, 0x54, 0xbb, 0x16]]

/-- The table of the inverse substitution. -/
def invSboxTable : List (List UInt8) := [
  [0x52, 0x09, 0x6a, 0xd5, 0x30, 0x36, 0xa5, 0x38,
   0xbf, 0x40, 0xa3, 0x9e, 0x81, 0xf3, 0xd7, 0xfb],
  [0x7c, 0xe3, 0x39, 0x82, 0x9b, 0x2f, 0xff, 0x87,
   0x34, 0x8e, 0x43, 0x44, 0xc4, 0xde, 0xe9, 0xcb],
  [0x54, 0x7b, 0x94, 0x32, 0xa6, 0xc2, 0x23, 0x3d,
   0xee, 0x4c, 0x95, 0x0b, 0x42, 0xfa, 0xc3, 0x4e],
  [0x08, 0x2e, 0xa1, 0x66, 0x28, 0xd9, 0x24, 0xb2,
   0x76, 0x5b, 0xa2, 0x49, 0x6d, 0x8b, 0xd1, 0x25],
  [0x72, 0xf8, 0xf6, 0x64, 0x86, 0x68, 0x98, 0x16,
   0xd4, 0xa4, 0x5c, 0xcc, 0x5d, 0x65, 0xb6, 0x92],
  [0x6c, 0x70, 0x48, 0x50, 0xfd, 0xed, 0xb9, 0xda,
   0x5e, 0x15, 0x46, 0x57, 0xa7, 0x8d, 0x9d, 0x84],
  [0x90, 0xd8, 0xab, 0x00, 0x8c, 0xbc, 0xd3, 0x0a,
   0xf7, 0xe4, 0x58, 0x05, 0xb8, 0xb3, 0x45, 0x06],
  [0xd0, 0x2c, 0x1e, 0x8f, 0xca, 0x3f, 0x0f, 0x02,
   0xc1, 0xaf, 0xbd, 0x03, 0x01, 0x13, 0x8a, 0x6b],
  [0x3a, 0x91, 0x11, 0x41, 0x4f, 0x67, 0xdc, 0xea,
   0x97, 0xf2, 0xcf, 0xce, 0xf0, 0xb4, 0xe6, 0x73],
  [0x96, 0xac, 0x74, 0x22, 0xe7, 0xad, 0x35, 0x85,
   0xe2, 0xf9, 0x37, 0xe8, 0x1c, 0x75, 0xdf, 0x6e],
  [0x47, 0xf1, 0x1a, 0x71, 0x1d, 0x29, 0xc5, 0x89,
   0x6f, 0xb7, 0x62, 0x0e, 0xaa, 0x18, 0xbe, 0x1b],
  [0xfc, 0x56, 0x3e, 0x4b, 0xc6, 0xd2, 0x79, 0x20,
   0x9a, 0xdb, 0xc0, 0xfe, 0x78, 0xcd, 0x5a, 0xf4],
  [0x1f, 0xdd, 0xa8, 0x33, 0x88, 0x07, 0xc7, 0x31,
   0xb1, 0x12, 0x10, 0x59, 0x27, 0x80, 0xec, 0x5f],
  [0x60, 0x51, 0x7f, 0xa9, 0x19, 0xb5, 0x4a, 0x0d,
   0x2d, 0xe5, 0x7a, 0x9f, 0x93, 0xc9, 0x9c, 0xef],
  [0xa0, 0xe0, 0x3b, 0x4d, 0xae, 0x2a, 0xf5, 0xb0,
   0xc8, 0xeb, 0xbb, 0x3c, 0x83, 0x53, 0x99, 0x61],
  [0x17, 0x2b, 0x04, 0x7e, 0xba, 0x77, 0xd6, 0x26,
   0xe1, 0x69, 0x14, 0x63, 0x55, 0x21, 0x0c, 0x7d]]

def sbox (b : UInt8) : UInt8 := lookup sboxTable b

def invSbox (b : UInt8) : UInt8 := lookup invSboxTable b

theorem invSbox_sbox (b : UInt8) : invSbox (sbox b) = b := by
  have h_all : ∀ n < 256, invSbox (sbox (.ofNat n)) = .ofNat n := by decide +kernel
  have h := h_all b.toNat b.toNat_lt
  rwa [UInt8.ofNat_toNat] at h

theorem sbox_invSbox (b : UInt8) : sbox (invSbox b) = b := by
  have h_all : ∀ n < 256, sbox (invSbox (.ofNat n)) = .ofNat n := by decide +kernel
  have h := h_all b.toNat b.toNat_lt
  rwa [UInt8.ofNat_toNat] at h

/-! ### Columns -/

/-- A column of the state: a word of four bytes. -/
@[ext]
structure Column where
  b0 : UInt8
  b1 : UInt8
  b2 : UInt8
  b3 : UInt8
  deriving DecidableEq

namespace Column

def map (f : UInt8 → UInt8) (c : Column) : Column := ⟨f c.b0, f c.b1, f c.b2, f c.b3⟩

def xor (c d : Column) : Column :=
  ⟨c.b0 ^^^ d.b0, c.b1 ^^^ d.b1, c.b2 ^^^ d.b2, c.b3 ^^^ d.b3⟩

theorem xor_xor_cancel (c d : Column) : (c.xor d).xor d = c := by
  simp only [xor, UInt8.xor_assoc, UInt8.xor_self, UInt8.xor_zero]

/-- `RotWord`. -/
def rot (c : Column) : Column := ⟨c.b1, c.b2, c.b3, c.b0⟩

/-- The columns with one nonzero byte, turned into place. -/
theorem eq_xor_rot (c : Column) :
    c = (Column.mk c.b0 0 0 0).xor ((Column.mk c.b1 0 0 0).rot.rot.rot.xor
      ((Column.mk c.b2 0 0 0).rot.rot.xor (Column.mk c.b3 0 0 0).rot)) := by
  simp only [xor, rot, UInt8.xor_zero, UInt8.zero_xor]

end Column

/-- `MixColumns` on a column: the matrix with rows `2 3 1 1` rotated. -/
def mixColumn (c : Column) : Column where
  b0 := xtime c.b0 ^^^ (xtime c.b1 ^^^ c.b1) ^^^ c.b2 ^^^ c.b3
  b1 := c.b0 ^^^ xtime c.b1 ^^^ (xtime c.b2 ^^^ c.b2) ^^^ c.b3
  b2 := c.b0 ^^^ c.b1 ^^^ xtime c.b2 ^^^ (xtime c.b3 ^^^ c.b3)
  b3 := (xtime c.b0 ^^^ c.b0) ^^^ c.b1 ^^^ c.b2 ^^^ xtime c.b3

/-- Multiplication by `9`, `11`, `13` and `14`. -/
def mul9 (b : UInt8) : UInt8 := xtime (xtime (xtime b)) ^^^ b

def mul11 (b : UInt8) : UInt8 := xtime (xtime (xtime b)) ^^^ xtime b ^^^ b

def mul13 (b : UInt8) : UInt8 := xtime (xtime (xtime b)) ^^^ xtime (xtime b) ^^^ b

def mul14 (b : UInt8) : UInt8 := xtime (xtime (xtime b)) ^^^ xtime (xtime b) ^^^ xtime b

/-- `InvMixColumns` on a column: the matrix with rows `14 11 13 9` rotated. -/
def invMixColumn (c : Column) : Column where
  b0 := mul14 c.b0 ^^^ mul11 c.b1 ^^^ mul13 c.b2 ^^^ mul9 c.b3
  b1 := mul9 c.b0 ^^^ mul14 c.b1 ^^^ mul11 c.b2 ^^^ mul13 c.b3
  b2 := mul13 c.b0 ^^^ mul9 c.b1 ^^^ mul14 c.b2 ^^^ mul11 c.b3
  b3 := mul11 c.b0 ^^^ mul13 c.b1 ^^^ mul9 c.b2 ^^^ mul14 c.b3

theorem mixColumn_xor (c d : Column) :
    mixColumn (c.xor d) = (mixColumn c).xor (mixColumn d) := by
  simp only [mixColumn, Column.xor, xtime_xor]
  ext <;> ac_rfl

theorem invMixColumn_xor (c d : Column) :
    invMixColumn (c.xor d) = (invMixColumn c).xor (invMixColumn d) := by
  simp only [invMixColumn, mul9, mul11, mul13, mul14, Column.xor, xtime_xor]
  ext <;> ac_rfl

theorem mixColumn_rot (c : Column) : mixColumn c.rot = (mixColumn c).rot := by
  simp only [mixColumn, Column.rot]
  ext <;> ac_rfl

theorem invMixColumn_rot (c : Column) : invMixColumn c.rot = (invMixColumn c).rot := by
  simp only [invMixColumn, Column.rot]
  ext <;> ac_rfl

/-- An additive map that commutes with rotation is the identity if it is on the first byte. -/
theorem eq_self_of_additive {f : Column → Column} (h_xor : ∀ c d, f (c.xor d) = (f c).xor (f d))
    (h_rot : ∀ c : Column, f c.rot = (f c).rot)
    (h_byte : ∀ n < 256, f ⟨.ofNat n, 0, 0, 0⟩ = ⟨.ofNat n, 0, 0, 0⟩) (c : Column) : f c = c := by
  have h_first : ∀ b : UInt8, f ⟨b, 0, 0, 0⟩ = ⟨b, 0, 0, 0⟩ := by
    intro b
    have h := h_byte b.toNat b.toNat_lt
    rwa [UInt8.ofNat_toNat] at h
  conv_lhs => rw [c.eq_xor_rot]
  simp only [h_xor, h_rot, h_first]
  exact c.eq_xor_rot.symm

theorem invMixColumn_mixColumn (c : Column) : invMixColumn (mixColumn c) = c :=
  eq_self_of_additive (f := fun c => invMixColumn (mixColumn c))
    (fun c d => by simp only [mixColumn_xor, invMixColumn_xor])
    (fun c => by simp only [mixColumn_rot, invMixColumn_rot]) (by decide +kernel) c

theorem mixColumn_invMixColumn (c : Column) : mixColumn (invMixColumn c) = c :=
  eq_self_of_additive (f := fun c => mixColumn (invMixColumn c))
    (fun c d => by simp only [mixColumn_xor, invMixColumn_xor])
    (fun c => by simp only [mixColumn_rot, invMixColumn_rot]) (by decide +kernel) c

/-! ### States -/

/-- A state: four columns. -/
structure State where
  c0 : Column
  c1 : Column
  c2 : Column
  c3 : Column
  deriving DecidableEq

/-- A map of the bytes with its inverse, on every byte of the state. -/
def subBytes : Equiv.Perm State where
  toFun s := ⟨s.c0.map sbox, s.c1.map sbox, s.c2.map sbox, s.c3.map sbox⟩
  invFun s := ⟨s.c0.map invSbox, s.c1.map invSbox, s.c2.map invSbox, s.c3.map invSbox⟩
  left_inv s := by simp only [Column.map, invSbox_sbox]
  right_inv s := by simp only [Column.map, sbox_invSbox]

/-- Row `i` is turned by `i` columns. -/
def shiftRows : Equiv.Perm State where
  toFun s :=
    ⟨⟨s.c0.b0, s.c1.b1, s.c2.b2, s.c3.b3⟩, ⟨s.c1.b0, s.c2.b1, s.c3.b2, s.c0.b3⟩,
      ⟨s.c2.b0, s.c3.b1, s.c0.b2, s.c1.b3⟩, ⟨s.c3.b0, s.c0.b1, s.c1.b2, s.c2.b3⟩⟩
  invFun s :=
    ⟨⟨s.c0.b0, s.c3.b1, s.c2.b2, s.c1.b3⟩, ⟨s.c1.b0, s.c0.b1, s.c3.b2, s.c2.b3⟩,
      ⟨s.c2.b0, s.c1.b1, s.c0.b2, s.c3.b3⟩, ⟨s.c3.b0, s.c2.b1, s.c1.b2, s.c0.b3⟩⟩
  left_inv _ := rfl
  right_inv _ := rfl

def mixColumns : Equiv.Perm State where
  toFun s := ⟨mixColumn s.c0, mixColumn s.c1, mixColumn s.c2, mixColumn s.c3⟩
  invFun s := ⟨invMixColumn s.c0, invMixColumn s.c1, invMixColumn s.c2, invMixColumn s.c3⟩
  left_inv s := by simp only [invMixColumn_mixColumn]
  right_inv s := by simp only [mixColumn_invMixColumn]

def addRoundKey (k : State) : Equiv.Perm State where
  toFun s := ⟨s.c0.xor k.c0, s.c1.xor k.c1, s.c2.xor k.c2, s.c3.xor k.c3⟩
  invFun s := ⟨s.c0.xor k.c0, s.c1.xor k.c1, s.c2.xor k.c2, s.c3.xor k.c3⟩
  left_inv s := by simp only [Column.xor_xor_cancel]
  right_inv s := by simp only [Column.xor_xor_cancel]

/-! ### The cipher -/

/-- The next eight words of the key schedule, as two round keys. -/
def nextKeys (rcon : UInt8) (a b : State) : State × State :=
  let a0 := (a.c0.xor (b.c3.rot.map sbox)).xor ⟨rcon, 0, 0, 0⟩
  let a1 := a.c1.xor a0
  let a2 := a.c2.xor a1
  let a3 := a.c3.xor a2
  -- in the middle of the eight words the substitution alone
  let b0 := b.c0.xor (a3.map sbox)
  let b1 := b.c1.xor b0
  let b2 := b.c2.xor b1
  let b3 := b.c3.xor b2
  (⟨a0, a1, a2, a3⟩, ⟨b0, b1, b2, b3⟩)

/-- The round keys, two in each step. -/
def roundKeys : ℕ → UInt8 → State → State → List State
  | 0, _, _, _ => []
  | n + 1, rcon, a, b =>
    let next := nextKeys rcon a b
    a :: b :: roundKeys n (xtime rcon) next.1 next.2

/-- The rounds with the given keys. The last one does not mix the columns. -/
def rounds : List State → Equiv.Perm State
  | [] => Equiv.refl State
  | [k] => subBytes.trans (shiftRows.trans (addRoundKey k))
  | k :: ks =>
    (subBytes.trans (shiftRows.trans (mixColumns.trans (addRoundKey k)))).trans (rounds ks)

/-- `Cipher`, under a list of round keys. -/
def cipher : List State → Equiv.Perm State
  | [] => Equiv.refl State
  | k :: ks => (addRoundKey k).trans (rounds ks)

/-! ### Byte blocks -/

/-- The four bytes from an index on. -/
def column (l : Bytes) (i : ℕ) : Column :=
  ⟨l.getD i 0, l.getD (i + 1) 0, l.getD (i + 2) 0, l.getD (i + 3) 0⟩

def toState (l : Bytes) : State := ⟨column l 0, column l 4, column l 8, column l 12⟩

def ofState (s : State) : Bytes :=
  [s.c0.b0, s.c0.b1, s.c0.b2, s.c0.b3, s.c1.b0, s.c1.b1, s.c1.b2, s.c1.b3,
    s.c2.b0, s.c2.b1, s.c2.b2, s.c2.b3, s.c3.b0, s.c3.b1, s.c3.b2, s.c3.b3]

/-- Blocks are states. -/
def blockEquiv : ByteArr 16 ≃ State where
  toFun b := toState b.1
  invFun s := ⟨ofState s, rfl⟩
  left_inv
    | ⟨[_, _, _, _, _, _, _, _, _, _, _, _, _, _, _, _], _⟩ => rfl
  right_inv _ := rfl

/-- **AES-256** under a key, with fourteen rounds. -/
def aes256 (key : ByteArr 32) : Equiv.Perm (ByteArr 16) :=
  let keys := (roundKeys 8 1 (toState key.1) (toState (key.1.drop 16))).take 15
  blockEquiv.trans ((cipher keys).trans blockEquiv.symm)

/-- The test vector of the standard. -/
example : aes256 ⟨(List.range 32).map .ofNat, rfl⟩
    ⟨(List.range 16).map fun i => .ofNat (17 * i), rfl⟩ =
      ⟨[0x8e, 0xa2, 0xb7, 0xca, 0x51, 0x67, 0x45, 0xbf, 0xea, 0xfc, 0x49, 0x90, 0x4b, 0x49, 0x60,
        0x89], rfl⟩ := by
  decide +kernel

end Aes
