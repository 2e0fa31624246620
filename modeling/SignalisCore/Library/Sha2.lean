import SignalisCore.Library.BlockHash

/-!
# SHA-256 and SHA-512

The two hash functions as one definition over the word width `w`, written so that the kernel can
evaluate them on short inputs: a block is a fold over the round constants, with the message schedule
kept as a sliding window of sixteen words.

* `scheme_hash`: the digest block by block.
-/

namespace Sha2

open LittleEndian

/-- The eight working variables. -/
structure Vars (w : ℕ) where
  a : BitVec w
  b : BitVec w
  c : BitVec w
  d : BitVec w
  e : BitVec w
  f : BitVec w
  g : BitVec w
  h : BitVec w

/-- What distinguishes the members of the family. -/
structure Params (w : ℕ) where
  /-- The round constants. -/
  K : List (BitVec w)
  /-- The initial hash value. -/
  init : Vars w
  /-- The rotations of `Σ₀`. -/
  bigSigma0 : ℕ × ℕ × ℕ
  /-- The rotations of `Σ₁`. -/
  bigSigma1 : ℕ × ℕ × ℕ
  /-- The two rotations and the shift of `σ₀`. -/
  smallSigma0 : ℕ × ℕ × ℕ
  /-- The two rotations and the shift of `σ₁`. -/
  smallSigma1 : ℕ × ℕ × ℕ

variable {w : ℕ}

/-- Right rotation. -/
def rotr (x : BitVec w) (n : ℕ) : BitVec w := x >>> n ||| x <<< (w - n)

/-- `Σ`: three rotations. -/
def bigSigma (r : ℕ × ℕ × ℕ) (x : BitVec w) : BitVec w :=
  rotr x r.1 ^^^ rotr x r.2.1 ^^^ rotr x r.2.2

/-- `σ`: two rotations and a shift. -/
def smallSigma (r : ℕ × ℕ × ℕ) (x : BitVec w) : BitVec w :=
  rotr x r.1 ^^^ rotr x r.2.1 ^^^ x >>> r.2.2

/-- One word leaves the window, and the word sixteen rounds later enters it. -/
def slide (p : Params w) (W : List (BitVec w)) : List (BitVec w) :=
  W.drop 1 ++ [smallSigma p.smallSigma1 (W.getD 14 0) + W.getD 9 0 +
    smallSigma p.smallSigma0 (W.getD 1 0) + W.getD 0 0]

/-- One round. -/
def round (p : Params w) (v : Vars w) (k x : BitVec w) : Vars w :=
  -- the choice function on `e`, `f`, `g`
  let t₁ := v.h + bigSigma p.bigSigma1 v.e + ((v.e &&& v.f) ^^^ (~~~v.e &&& v.g)) + k + x
  -- the majority function on `a`, `b`, `c`
  let t₂ := bigSigma p.bigSigma0 v.a + ((v.a &&& v.b) ^^^ (v.a &&& v.c) ^^^ (v.b &&& v.c))
  ⟨t₁ + t₂, v.a, v.b, v.c, v.d + t₁, v.e, v.f, v.g⟩

/-- All rounds on one block. -/
def rounds (p : Params w) : List (BitVec w) → List (BitVec w) → Vars w → Vars w
  | [], _, v => v
  | k :: ks, W, v => rounds p ks (slide p W) (round p v k (W.getD 0 0))

/-- The compression function. -/
def compress (p : Params w) (H : Vars w) (W : List (BitVec w)) : Vars w :=
  let v := rounds p p.K W H
  ⟨H.a + v.a, H.b + v.b, H.c + v.c, H.d + v.d, H.e + v.e, H.f + v.f, H.g + v.g, H.h + v.h⟩

/-- `n` big-endian words off the front of a byte string. -/
def wordsOf (w : ℕ) : ℕ → Bytes → List (BitVec w)
  | 0, _ => []
  | n + 1, l => BitVec.ofNat w (leValue (l.take (w / 8)).reverse) :: wordsOf w n (l.drop (w / 8))

/-- The compression of `n` blocks of sixteen words. -/
def blocks (p : Params w) : ℕ → Bytes → Vars w → Vars w
  | 0, _, H => H
  | n + 1, l, H => blocks p n (l.drop (2 * w)) (compress p H (wordsOf w 16 l))

/-- Padding: a one bit, zeros, and the bit length in two words. -/
def pad (w : ℕ) (l : Bytes) : Bytes :=
  -- the message, the byte of the one bit and the length field
  let tail := l.length + 1 + w / 4
  l ++ 0x80 :: List.replicate ((2 * w - tail % (2 * w)) % (2 * w)) 0 ++
    (leBytes (w / 4) (8 * l.length)).reverse

/-- The big-endian bytes of a word. -/
def wordBytes (x : BitVec w) : Bytes := (leBytes (w / 8) x.toNat).reverse

/-- The digest. -/
def digest (p : Params w) (l : Bytes) : Bytes :=
  let padded := pad w l
  let H := blocks p (padded.length / (2 * w)) padded p.init
  wordBytes H.a ++ wordBytes H.b ++ wordBytes H.c ++ wordBytes H.d ++ wordBytes H.e ++
    wordBytes H.f ++ wordBytes H.g ++ wordBytes H.h

theorem length_digest (p : Params w) (l : Bytes) : (digest p l).length = 8 * (w / 8) := by
  simp only [digest, wordBytes, List.length_append, List.length_reverse, length_leBytes]
  omega

/-- The parameters of SHA-256. -/
def params256 : Params 32 where
  K := [
    0x428a2f98, 0x71374491, 0xb5c0fbcf, 0xe9b5dba5, 0x3956c25b, 0x59f111f1, 0x923f82a4, 0xab1c5ed5,
    0xd807aa98, 0x12835b01, 0x243185be, 0x550c7dc3, 0x72be5d74, 0x80deb1fe, 0x9bdc06a7, 0xc19bf174,
    0xe49b69c1, 0xefbe4786, 0x0fc19dc6, 0x240ca1cc, 0x2de92c6f, 0x4a7484aa, 0x5cb0a9dc, 0x76f988da,
    0x983e5152, 0xa831c66d, 0xb00327c8, 0xbf597fc7, 0xc6e00bf3, 0xd5a79147, 0x06ca6351, 0x14292967,
    0x27b70a85, 0x2e1b2138, 0x4d2c6dfc, 0x53380d13, 0x650a7354, 0x766a0abb, 0x81c2c92e, 0x92722c85,
    0xa2bfe8a1, 0xa81a664b, 0xc24b8b70, 0xc76c51a3, 0xd192e819, 0xd6990624, 0xf40e3585, 0x106aa070,
    0x19a4c116, 0x1e376c08, 0x2748774c, 0x34b0bcb5, 0x391c0cb3, 0x4ed8aa4a, 0x5b9cca4f, 0x682e6ff3,
    0x748f82ee, 0x78a5636f, 0x84c87814, 0x8cc70208, 0x90befffa, 0xa4506ceb, 0xbef9a3f7, 0xc67178f2]
  init := ⟨
    0x6a09e667, 0xbb67ae85, 0x3c6ef372, 0xa54ff53a,
    0x510e527f, 0x9b05688c, 0x1f83d9ab, 0x5be0cd19⟩
  bigSigma0 := (2, 13, 22)
  bigSigma1 := (6, 11, 25)
  smallSigma0 := (7, 18, 3)
  smallSigma1 := (17, 19, 10)

/-- The parameters of SHA-512. -/
def params512 : Params 64 where
  K := [
    0x428a2f98d728ae22, 0x7137449123ef65cd, 0xb5c0fbcfec4d3b2f, 0xe9b5dba58189dbbc,
    0x3956c25bf348b538, 0x59f111f1b605d019, 0x923f82a4af194f9b, 0xab1c5ed5da6d8118,
    0xd807aa98a3030242, 0x12835b0145706fbe, 0x243185be4ee4b28c, 0x550c7dc3d5ffb4e2,
    0x72be5d74f27b896f, 0x80deb1fe3b1696b1, 0x9bdc06a725c71235, 0xc19bf174cf692694,
    0xe49b69c19ef14ad2, 0xefbe4786384f25e3, 0x0fc19dc68b8cd5b5, 0x240ca1cc77ac9c65,
    0x2de92c6f592b0275, 0x4a7484aa6ea6e483, 0x5cb0a9dcbd41fbd4, 0x76f988da831153b5,
    0x983e5152ee66dfab, 0xa831c66d2db43210, 0xb00327c898fb213f, 0xbf597fc7beef0ee4,
    0xc6e00bf33da88fc2, 0xd5a79147930aa725, 0x06ca6351e003826f, 0x142929670a0e6e70,
    0x27b70a8546d22ffc, 0x2e1b21385c26c926, 0x4d2c6dfc5ac42aed, 0x53380d139d95b3df,
    0x650a73548baf63de, 0x766a0abb3c77b2a8, 0x81c2c92e47edaee6, 0x92722c851482353b,
    0xa2bfe8a14cf10364, 0xa81a664bbc423001, 0xc24b8b70d0f89791, 0xc76c51a30654be30,
    0xd192e819d6ef5218, 0xd69906245565a910, 0xf40e35855771202a, 0x106aa07032bbd1b8,
    0x19a4c116b8d2d0c8, 0x1e376c085141ab53, 0x2748774cdf8eeb99, 0x34b0bcb5e19b48a8,
    0x391c0cb3c5c95a63, 0x4ed8aa4ae3418acb, 0x5b9cca4f7763e373, 0x682e6ff3d6b2b8a3,
    0x748f82ee5defb2fc, 0x78a5636f43172f60, 0x84c87814a1f0ab72, 0x8cc702081a6439ec,
    0x90befffa23631e28, 0xa4506cebde82bde9, 0xbef9a3f7b2c67915, 0xc67178f2e372532b,
    0xca273eceea26619c, 0xd186b8c721c0c207, 0xeada7dd6cde0eb1e, 0xf57d4f7fee6ed178,
    0x06f067aa72176fba, 0x0a637dc5a2c898a6, 0x113f9804bef90dae, 0x1b710b35131c471b,
    0x28db77f523047d84, 0x32caab7b40c72493, 0x3c9ebe0a15c9bebc, 0x431d67c49c100d4c,
    0x4cc5d4becb3e42b6, 0x597f299cfc657e2a, 0x5fcb6fab3ad6faec, 0x6c44198c4a475817]
  init := ⟨
    0x6a09e667f3bcc908, 0xbb67ae8584caa73b, 0x3c6ef372fe94f82b, 0xa54ff53a5f1d36f1,
    0x510e527fade682d1, 0x9b05688c2b3e6c1f, 0x1f83d9abfb41bd6b, 0x5be0cd19137e2179⟩
  bigSigma0 := (28, 34, 39)
  bigSigma1 := (14, 18, 41)
  smallSigma0 := (1, 8, 7)
  smallSigma1 := (19, 61, 6)

/-- **SHA-256.** -/
def sha256 (l : Bytes) : ByteArr 32 := ⟨digest params256 l, length_digest params256 l⟩

/-- **SHA-512.** -/
def sha512 (l : Bytes) : ByteArr 64 := ⟨digest params512 l, length_digest params512 l⟩

/-- The published digests of the bytes of `abc`. -/
example : (sha256 [0x61, 0x62, 0x63]).1.take 4 = [0xba, 0x78, 0x16, 0xbf] := by decide +kernel

example : (sha512 [0x61, 0x62, 0x63]).1.take 4 = [0xdd, 0xaf, 0x35, 0xa1] := by decide +kernel

/-! ### Block by block -/

/-- Words are taken off the front. -/
theorem wordsOf_take {n k : ℕ} (h : n * (w / 8) ≤ k) (l : Bytes) :
    wordsOf w n (l.take k) = wordsOf w n l := by
  induction n generalizing k l with
  | zero => rfl
  | succ n ih =>
    rw [Nat.succ_mul] at h
    rw [wordsOf, wordsOf, List.take_take, min_eq_left (by omega), List.drop_take,
      ih (by omega)]

theorem dvd_add_complement {m : ℕ} (h : 0 < m) (t : ℕ) : m ∣ t + (m - t % m) % m := by
  have h_div := Nat.div_add_mod' t m
  have h_lt := Nat.mod_lt t h
  rcases Nat.eq_zero_or_pos (t % m) with h_zero | h_pos
  · rw [h_zero, Nat.sub_zero, Nat.mod_self, add_zero]
    exact Nat.dvd_of_mod_eq_zero h_zero
  · have h_succ : (t / m + 1) * m = t / m * m + m := Nat.succ_mul _ _
    rw [Nat.mod_eq_of_lt (show m - t % m < m by omega)]
    refine ⟨t / m + 1, ?_⟩
    rw [mul_comm m, h_succ]
    omega

/-- A member of the family as a compression function with its padding. -/
def scheme (p : Params w) (h : 0 < w) : BlockHash.Scheme (Vars w) (ByteArr (8 * (w / 8))) where
  blockLen := 2 * w
  blockLen_pos := by omega
  init := p.init
  compress H block := compress p H (wordsOf w 16 block)
  padding n :=
    0x80 :: List.replicate ((2 * w - (n + 1 + w / 4) % (2 * w)) % (2 * w)) 0 ++
      (leBytes (w / 4) (8 * n)).reverse
  dvd_padded n := by
    have h_dvd := dvd_add_complement (show 0 < 2 * w by omega) (n + 1 + w / 4)
    rw [List.length_append, List.length_cons, List.length_replicate, List.length_reverse,
      length_leBytes]
    convert h_dvd using 1
    omega
  output H := ⟨wordBytes H.a ++ wordBytes H.b ++ wordBytes H.c ++ wordBytes H.d ++
    wordBytes H.e ++ wordBytes H.f ++ wordBytes H.g ++ wordBytes H.h, by
      simp only [wordBytes, List.length_append, List.length_reverse, length_leBytes]
      omega⟩

theorem scheme_absorb (p : Params w) (h : 0 < w) (n : ℕ) (l : Bytes) (H : Vars w) :
    (scheme p h).absorb n l H = blocks p n l H := by
  induction n generalizing l H with
  | zero => rfl
  | succ n ih =>
    rw [BlockHash.Scheme.absorb, blocks, ih]
    change blocks p n (l.drop (2 * w)) (compress p H (wordsOf w 16 (l.take (2 * w)))) = _
    rw [wordsOf_take (by omega)]

/-- **The digest block by block.** -/
theorem scheme_hash (p : Params w) (h : 0 < w) (l : Bytes) :
    ((scheme p h).hash l).1 = digest p l := by
  have h_pad : l ++ (scheme p h).padding l.length = pad w l := (List.append_assoc _ _ _).symm
  rw [BlockHash.Scheme.hash, h_pad, BlockHash.Scheme.absorbAll, scheme_absorb]
  rfl

end Sha2
