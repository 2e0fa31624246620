import SignalisCore.Library.Aead
import SignalisCore.Library.Aes

/-!
# Galois/counter mode

GCM (NIST SP 800-38D) over an arbitrary block function, for nonces of twelve bytes: the key stream
is the block function on consecutive counters, and the tag is the polynomial hash of the padded
associated data and ciphertext, masked by the block of the first counter.
-/

namespace Gcm

open LittleEndian

/-! ### The polynomial hash -/

/-- Multiplication by `x`, where the coefficients stand in the reverse order of the bits. -/
def mulX (V : BitVec 128) : BitVec 128 :=
  if V.getLsbD 0 then V >>> 1 ^^^ 0xe1 <<< 120 else V >>> 1

/-- The sum of the multiples of `V` that the bits of `X` ask for, from the top. -/
def mulLoop (X : BitVec 128) : ℕ → BitVec 128 → BitVec 128 → BitVec 128
  | 0, Z, _ => Z
  | i + 1, Z, V => mulLoop X i (if X.getLsbD i then Z ^^^ V else Z) (mulX V)

/-- Multiplication in the field of blocks. -/
def mul (X Y : BitVec 128) : BitVec 128 := mulLoop X 128 0 Y

/-- A block as a big-endian number. -/
def ofBlock (b : Bytes) : BitVec 128 := .ofNat 128 (leValue b.reverse)

/-- The hash of `count` blocks. -/
def ghash (H : BitVec 128) : ℕ → Bytes → BitVec 128 → BitVec 128
  | 0, _, Y => Y
  | count + 1, l, Y => ghash H count (l.drop 16) (mul (Y ^^^ ofBlock (l.take 16)) H)

/-- A length in bits, as eight big-endian bytes. -/
def bitLength (l : Bytes) : Bytes := (leBytes 8 (8 * l.length)).reverse

/-- What is hashed. -/
def hashInput (aad ciphertext : Bytes) : Bytes :=
  Aead.padded aad ++ Aead.padded ciphertext ++ bitLength aad ++ bitLength ciphertext

/-! ### The mode -/

variable (E : ByteArr 16 → ByteArr 16)

/-- The nonce with a counter behind it. -/
def counterBlock (nonce : ByteArr 12) (i : ℕ) : ByteArr 16 :=
  nonce.append ⟨(leBytes 4 i).reverse, by rw [List.length_reverse, length_leBytes]⟩

/-- The tag of associated data and a ciphertext. -/
def tag (nonce : ByteArr 12) (aad ciphertext : Bytes) : ByteArr 16 :=
  let input := hashInput aad ciphertext
  let H := ofBlock (E (ByteArr.replicate 16 0)).1
  let S := (ghash H (input.length / 16) input 0).toNat
  (E (counterBlock nonce 1)).xor
    ⟨(leBytes 16 S).reverse, by rw [List.length_reverse, length_leBytes]⟩

/-- **The scheme**, for a block cipher. The counter starts at two: the first one masks the tag. -/
def scheme {Key : Type*} (cipher : Key → ByteArr 16 → ByteArr 16) :
    Aead.Scheme Key (ByteArr 12) where
  tagLen := 16
  keystream key nonce := Aead.blockStream fun i => cipher key (counterBlock nonce (i + 2))
  length_keystream _ _ := Aead.length_blockStream _ (by norm_num)
  take_keystream _ _ _ _ := Aead.take_blockStream _ (by norm_num)
  tag key nonce aad ciphertext := tag (cipher key) nonce aad ciphertext

/-- AES-256-GCM. -/
def aes256Gcm : Aead.Scheme (ByteArr 32) (ByteArr 12) := scheme fun key => Aes.aes256 key

/-- The empty text under the zero key and nonce. -/
example : aes256Gcm.encrypt (ByteArr.replicate 32 0) (ByteArr.replicate 12 0) [] [] =
    [0x53, 0x0f, 0x8a, 0xfb, 0xc7, 0x45, 0x36, 0xb9, 0xa9, 0x63, 0xb4, 0xf1, 0xc4, 0xcb, 0x73,
      0x8b] := by
  decide +kernel

end Gcm
