import SignalisCore.Library.BlockHash

/-!
# SHA-3

The two hash functions of FIPS 202 that are used most, over the permutation Keccak-f[1600]. A state
is 25 lanes of 64 bits, row by row; a block is xored into the first lanes and the state is permuted.

* `sha3`: a scheme for each length of the hash, with its padding.
-/

namespace Keccak

open LittleEndian

/-- 25 lanes. -/
abbrev State := List (BitVec 64)

/-- The lane at column `x` and row `y`. -/
def lane (s : State) (x y : ℕ) : BitVec 64 := s.getD (x % 5 + 5 * (y % 5)) 0

/-- A state from its lanes. -/
def ofLanes (f : ℕ → ℕ → BitVec 64) : State := (List.range 25).map fun i => f (i % 5) (i / 5)

/-! ### The permutation -/

/-- `θ`: the parities of two columns are added to each lane. -/
def theta (s : State) : State :=
  let parity := (List.range 5).map fun x =>
    lane s x 0 ^^^ lane s x 1 ^^^ lane s x 2 ^^^ lane s x 3 ^^^ lane s x 4
  ofLanes fun x y => lane s x y ^^^ parity.getD ((x + 4) % 5) 0 ^^^
    (parity.getD ((x + 1) % 5) 0).rotateLeft 1

/-- The rotations of `ρ`, row by row. -/
def offsets : List ℕ := [
  0, 1, 62, 28, 27,
  36, 44, 6, 55, 20,
  3, 10, 43, 25, 39,
  41, 45, 15, 21, 8,
  18, 2, 61, 56, 14]

/-- `ρ`: every lane is rotated. -/
def rho (s : State) : State := s.zipWith (fun a n => a.rotateLeft n) offsets

/-- `π`: the lanes change places. -/
def pi (s : State) : State := ofLanes fun x y => lane s (x + 3 * y) x

/-- `χ`: the rows, the only step that is not linear. -/
def chi (s : State) : State :=
  ofLanes fun x y => lane s x y ^^^ (~~~lane s (x + 1) y &&& lane s (x + 2) y)

/-- The constants of `ι`. -/
def roundConstants : List (BitVec 64) := [
  0x0000000000000001, 0x0000000000008082, 0x800000000000808a, 0x8000000080008000,
  0x000000000000808b, 0x0000000080000001, 0x8000000080008081, 0x8000000000008009,
  0x000000000000008a, 0x0000000000000088, 0x0000000080008009, 0x000000008000000a,
  0x000000008000808b, 0x800000000000008b, 0x8000000000008089, 0x8000000000008003,
  0x8000000000008002, 0x8000000000000080, 0x000000000000800a, 0x800000008000000a,
  0x8000000080008081, 0x8000000000008080, 0x0000000080000001, 0x8000000080008008]

/-- `ι`: a constant is added to the first lane. -/
def iota (s : State) (c : BitVec 64) : State := s.modifyHead (· ^^^ c)

def round (s : State) (c : BitVec 64) : State := iota (chi (pi (rho (theta s)))) c

/-- **Keccak-f[1600].** -/
def keccakF (s : State) : State := roundConstants.foldl round s

/-! ### The sponge -/

/-- A block is xored into the first lanes. -/
def xorBlock (s : State) (block : Bytes) : State :=
  s.mapIdx fun i a => a ^^^ .ofNat 64 (leValue ((block.drop (8 * i)).take 8))

/-- The bits `01`, and a one bit at either end of what completes the last block. -/
def padding (rate n : ℕ) : Bytes :=
  if n % rate = rate - 1 then [0x86]
  else 0x06 :: List.replicate (rate - 2 - n % rate) 0 ++ [0x80]

/-- The lanes of a state as one number. -/
def value (s : State) : ℕ := s.foldr (fun a rest => a.toNat + 2 ^ 64 * rest) 0

theorem dvd_padded {rate : ℕ} (h : 2 ≤ rate) (n : ℕ) : rate ∣ n + (padding rate n).length := by
  have h_div := Nat.div_add_mod' n rate
  have h_lt := Nat.mod_lt n (show 0 < rate by omega)
  have h_succ : (n / rate + 1) * rate = n / rate * rate + rate := Nat.succ_mul _ _
  refine ⟨n / rate + 1, ?_⟩
  rw [mul_comm rate, h_succ]
  unfold padding
  split_ifs with h_last
  · rw [List.length_singleton]
    omega
  · rw [List.length_append, List.length_cons, List.length_replicate, List.length_singleton]
    omega

/-- **SHA-3** with a hash of `d` bytes and a capacity of twice that. -/
def sha3 (d : ℕ) (h : 2 * d + 2 ≤ 200) : BlockHash.Scheme State (ByteArr d) where
  blockLen := 200 - 2 * d
  blockLen_pos := by omega
  init := List.replicate 25 0
  compress s block := keccakF (xorBlock s block)
  padding := padding (200 - 2 * d)
  dvd_padded := dvd_padded (by omega)
  output s := ⟨leBytes d (value s), length_leBytes _ _⟩

def sha3_256 : BlockHash.Scheme State (ByteArr 32) := sha3 32 (by norm_num)

def sha3_512 : BlockHash.Scheme State (ByteArr 64) := sha3 64 (by norm_num)

/-- The published digest of the bytes of `abc`. -/
example : (sha3_256.hash [0x61, 0x62, 0x63]).1.take 4 = [0x3a, 0x98, 0x5d, 0xa7] := by
  decide +kernel

end Keccak
