import SignalisCore.Library.BlockHash

/-!
# HMAC and the key derivation functions over it

HMAC (RFC 2104) over an arbitrary hash function, with HKDF (RFC 5869) and PBKDF2 (RFC 8018) on top.
Both derive their output in blocks of one HMAC and cut it to the requested length, so the output is
a byte array of exactly that length.

* `hasher_implements`: HMAC of a message that is still arriving.
* `keyBlock_append_zeros`, `keyBlock_hash`, `pbkdf2_congr`: keys that nothing here distinguishes.
* `hkdfExpand_take`, `pbkdf2_take`: shorter outputs are where longer ones begin.
* `hkdfExpand_block`: each block of HKDF-Expand is the HMAC of the one before it.
-/

namespace Hmac

open LittleEndian

/-- A hash function with the block length that HMAC pads keys to. -/
structure Hash where
  /-- The length of a block. -/
  blockLen : ℕ
  /-- The length of a hash. -/
  outLen : ℕ
  /-- A hash is not empty. -/
  outLen_pos : 0 < outLen
  /-- The hash function. -/
  hash : Bytes → ByteArr outLen

variable (H : Hash)

/-- The key as a block: hashed if it is too long, padded with zeros. -/
def keyBlock (key : Bytes) : Bytes :=
  let short := if H.blockLen < key.length then (H.hash key).1 else key
  short ++ List.replicate (H.blockLen - short.length) 0

/-- `HMAC(key, text)`. -/
def hmac (key text : Bytes) : ByteArr H.outLen :=
  -- the outer hash of the inner one, each behind the key with its pad
  let block := keyBlock H key
  H.hash (block.map (· ^^^ 0x5c) ++ (H.hash (block.map (· ^^^ 0x36) ++ text)).1)

/-- The number of blocks that hold `len` bytes. -/
def blockCount (len : ℕ) : ℕ := (len + H.outLen - 1) / H.outLen

theorem le_mul_blockCount (len : ℕ) : len ≤ blockCount H len * H.outLen := by
  have h_mod := Nat.div_add_mod' (len + H.outLen - 1) H.outLen
  have h_lt := Nat.mod_lt (len + H.outLen - 1) H.outLen_pos
  have h_pos := H.outLen_pos
  unfold blockCount
  omega

/-! ### HKDF -/

/-- HKDF-Extract. -/
def hkdfExtract (salt ikm : Bytes) : ByteArr H.outLen := hmac H salt ikm

/-- The blocks `T(i), T(i + 1), ...` of HKDF-Expand, where `T(i - 1)` is given. -/
def hkdfBlocks (prk info : Bytes) : ℕ → ℕ → Bytes → Bytes
  | 0, _, _ => []
  | count + 1, i, previous =>
    -- each block authenticates the one before it, the context and the counter
    let T := hmac H prk (previous ++ info ++ [.ofNat i])
    T.1 ++ hkdfBlocks prk info count (i + 1) T.1

theorem length_hkdfBlocks (prk info : Bytes) (count i : ℕ) (previous : Bytes) :
    (hkdfBlocks H prk info count i previous).length = count * H.outLen := by
  induction count generalizing i previous with
  | zero => simp [hkdfBlocks]
  | succ count ih =>
    rw [hkdfBlocks, List.length_append, ih, (hmac H prk _).2, Nat.succ_mul, add_comm]

/-- HKDF-Expand. -/
def hkdfExpand (prk info : Bytes) (len : ℕ) : ByteArr len :=
  ⟨(hkdfBlocks H prk info (blockCount H len) 1 []).take len, by
    rw [List.length_take, length_hkdfBlocks, min_eq_left (le_mul_blockCount H len)]⟩

/-! ### PBKDF2 -/

/-- `U_1 ^ U_2 ^ ... ` after `rounds` further applications of HMAC. -/
def pbkdf2Rounds (password : Bytes) : ℕ → Bytes → Bytes → Bytes
  | 0, _, acc => acc
  | rounds + 1, U, acc =>
    let next := (hmac H password U).1
    pbkdf2Rounds password rounds next (acc.zipWith (· ^^^ ·) next)

theorem length_pbkdf2Rounds (password : Bytes) (rounds : ℕ) (U acc : Bytes)
    (h : acc.length = H.outLen) : (pbkdf2Rounds H password rounds U acc).length = H.outLen := by
  induction rounds generalizing U acc with
  | zero => exact h
  | succ rounds ih =>
    refine ih _ _ ?_
    rw [List.length_zipWith, h, (hmac H password U).2, min_self]

/-- Block `i` of PBKDF2. -/
def pbkdf2Block (password salt : Bytes) (rounds i : ℕ) : Bytes :=
  -- the first round takes the salt and the index of the block
  let U := (hmac H password (salt ++ (leBytes 4 i).reverse)).1
  pbkdf2Rounds H password (rounds - 1) U U

theorem length_pbkdf2Block (password salt : Bytes) (rounds i : ℕ) :
    (pbkdf2Block H password salt rounds i).length = H.outLen :=
  length_pbkdf2Rounds H password _ _ _ (hmac H password _).2

/-- PBKDF2 with the given number of rounds. -/
def pbkdf2 (password salt : Bytes) (rounds len : ℕ) : ByteArr len :=
  ⟨((List.range (blockCount H len)).flatMap fun i =>
      pbkdf2Block H password salt rounds (i + 1)).take len, by
    have h_len : ((List.range (blockCount H len)).flatMap fun i =>
        pbkdf2Block H password salt rounds (i + 1)).length = blockCount H len * H.outLen := by
      simp [List.length_flatMap, length_pbkdf2Block]
    rw [List.length_take, h_len, min_eq_left (le_mul_blockCount H len)]⟩

/-! ### Messages that are still arriving -/

/-- HMAC over a hasher: the key with its pad is absorbed first. -/
def hasher (S : BlockHash.Hasher (ByteArr H.outLen)) (key : Bytes) :
    BlockHash.Hasher (ByteArr H.outLen) :=
  S.after ((keyBlock H key).map (· ^^^ 0x36)) fun inner =>
    H.hash ((keyBlock H key).map (· ^^^ 0x5c) ++ inner.1)

theorem hasher_implements {S : BlockHash.Hasher (ByteArr H.outLen)} (h : S.Implements H.hash)
    (key : Bytes) : (hasher H S key).Implements (hmac H key) :=
  h.after _ _

/-! ### Keys that nothing distinguishes -/

variable {H}

/-- Zeros up to the length of a block do not count. -/
theorem keyBlock_append_zeros {key : Bytes} {n : ℕ} (h : key.length + n ≤ H.blockLen) :
    keyBlock H (key ++ List.replicate n 0) = keyBlock H key := by
  have h_long : ¬H.blockLen < (key ++ List.replicate n (0 : UInt8)).length := by
    rw [List.length_append, List.length_replicate]
    omega
  have h_short : ¬H.blockLen < key.length := by omega
  simp only [keyBlock, if_neg h_long, if_neg h_short]
  rw [List.append_assoc, List.replicate_append_replicate, List.length_append,
    List.length_replicate]
  congr 2
  omega

/-- A key that is longer than a block counts as its hash. -/
theorem keyBlock_hash {key : Bytes} (h : H.blockLen < key.length) (h_out : H.outLen ≤ H.blockLen) :
    keyBlock H (H.hash key).1 = keyBlock H key := by
  have h_hash : ¬H.blockLen < (H.hash key).1.length := by
    rw [(H.hash key).2]
    omega
  simp only [keyBlock, if_neg h_hash, if_pos h]

theorem hmac_congr {k k' : Bytes} (h : keyBlock H k = keyBlock H k') : hmac H k = hmac H k' := by
  funext text
  rw [hmac, hmac, h]

theorem pbkdf2Rounds_congr {k k' : Bytes} (h : hmac H k = hmac H k') (rounds : ℕ)
    (U acc : Bytes) : pbkdf2Rounds H k rounds U acc = pbkdf2Rounds H k' rounds U acc := by
  induction rounds generalizing U acc with
  | zero => rfl
  | succ rounds ih => rw [pbkdf2Rounds, pbkdf2Rounds, h, ih]

/-- **PBKDF2** uses its password as a key only. -/
theorem pbkdf2_congr {k k' : Bytes} (h : hmac H k = hmac H k') (salt : Bytes) (rounds len : ℕ) :
    pbkdf2 H k salt rounds len = pbkdf2 H k' salt rounds len := by
  have h_block : pbkdf2Block H k salt rounds = pbkdf2Block H k' salt rounds := by
    funext i
    rw [pbkdf2Block, pbkdf2Block, h, pbkdf2Rounds_congr h]
  apply Subtype.ext
  change List.take len _ = List.take len _
  rw [h_block]

/-! ### One stream -/

theorem val_hkdfExpand (prk info : Bytes) (len : ℕ) :
    (hkdfExpand H prk info len).1 =
      (hkdfBlocks H prk info (blockCount H len) 1 []).take len := rfl

/-- The first blocks do not depend on how many follow. -/
theorem hkdfBlocks_take (prk info : Bytes) (count more i : ℕ) (previous : Bytes) :
    (hkdfBlocks H prk info (count + more) i previous).take (count * H.outLen) =
      hkdfBlocks H prk info count i previous := by
  induction count generalizing i previous with
  | zero => simp [hkdfBlocks]
  | succ count ih =>
    have h_len := (hmac H prk (previous ++ info ++ [.ofNat i])).2
    rw [Nat.succ_add, hkdfBlocks, hkdfBlocks, Nat.succ_mul, add_comm _ H.outLen,
      List.take_append, h_len, List.take_of_length_le (by omega), Nat.add_sub_cancel_left, ih]

/-- **Shorter outputs** are where longer ones begin. -/
theorem hkdfExpand_take {prk info : Bytes} {len max : ℕ} (h : len ≤ max) :
    (hkdfExpand H prk info len).1 = (hkdfExpand H prk info max).1.take len := by
  have h_count : blockCount H len ≤ blockCount H max :=
    Nat.div_le_div_right (by omega)
  obtain ⟨more, h_more⟩ := Nat.exists_eq_add_of_le h_count
  have h_len := le_mul_blockCount H len
  rw [val_hkdfExpand, val_hkdfExpand, List.take_take, min_eq_left h, h_more,
    ← hkdfBlocks_take prk info _ more, List.take_take, min_eq_left h_len]

theorem length_flatMap_pbkdf2Block (password salt : Bytes) (rounds : ℕ) (l : List ℕ) :
    (l.flatMap fun i => pbkdf2Block H password salt rounds (i + 1)).length =
      l.length * H.outLen := by
  simp [List.length_flatMap, length_pbkdf2Block]

/-- PBKDF2 is one stream, too. -/
theorem pbkdf2_take {password salt : Bytes} {rounds len max : ℕ} (h : len ≤ max) :
    (pbkdf2 H password salt rounds len).1 = (pbkdf2 H password salt rounds max).1.take len := by
  have h_count : blockCount H len ≤ blockCount H max := Nat.div_le_div_right (by omega)
  obtain ⟨more, h_more⟩ := Nat.exists_eq_add_of_le h_count
  have h_len : len ≤ ((List.range (blockCount H len)).flatMap fun i =>
      pbkdf2Block H password salt rounds (i + 1)).length := by
    rw [length_flatMap_pbkdf2Block, List.length_range]
    exact le_mul_blockCount H len
  change List.take len _ = List.take len (List.take max _)
  rw [List.take_take, min_eq_left h, h_more, List.range_add, List.flatMap_append,
    List.take_append_of_le_length h_len]

/-- Block `j` of a byte string. -/
def blockAt (n : ℕ) (l : Bytes) (j : ℕ) : Bytes := (l.drop (j * n)).take n

theorem blockAt_hkdfBlocks (prk info : Bytes) (count i : ℕ) (previous : Bytes) {j : ℕ}
    (h : j < count) :
    blockAt H.outLen (hkdfBlocks H prk info count i previous) j =
      (hmac H prk ((if j = 0 then previous
        else blockAt H.outLen (hkdfBlocks H prk info count i previous) (j - 1)) ++ info ++
          [.ofNat (i + j)])).1 := by
  induction count generalizing i previous j with
  | zero => exact absurd h (Nat.not_lt_zero j)
  | succ count ih =>
    have h_len := (hmac H prk (previous ++ info ++ [.ofNat i])).2
    -- behind the first block, the blocks are those of the rest
    have h_rest (k : ℕ) : blockAt H.outLen (hkdfBlocks H prk info (count + 1) i previous) (k + 1) =
        blockAt H.outLen (hkdfBlocks H prk info count (i + 1)
          (hmac H prk (previous ++ info ++ [.ofNat i])).1) k := by
      rw [blockAt, blockAt, hkdfBlocks, Nat.succ_mul, add_comm _ H.outLen, ← List.drop_drop,
        List.drop_left' h_len]
    have h_first : blockAt H.outLen (hkdfBlocks H prk info (count + 1) i previous) 0 =
        (hmac H prk (previous ++ info ++ [.ofNat i])).1 := by
      rw [blockAt, Nat.zero_mul, List.drop_zero, hkdfBlocks, List.take_left' h_len]
    cases j with
    | zero => rw [h_first, if_pos rfl, add_zero]
    | succ k =>
      rw [h_rest, ih _ _ (Nat.lt_of_succ_lt_succ h), if_neg (Nat.succ_ne_zero k),
        Nat.add_sub_cancel, show i + 1 + k = i + (k + 1) by omega]
      cases k with
      | zero => rw [if_pos rfl, h_first]
      | succ k => rw [if_neg (Nat.succ_ne_zero k), Nat.add_sub_cancel, h_rest]

/-- **Each block** of HKDF-Expand is the HMAC of the one before it, the context and a counter. -/
theorem hkdfExpand_block {prk info : Bytes} {count j : ℕ} (h : j < count) :
    blockAt H.outLen (hkdfExpand H prk info (count * H.outLen)).1 j =
      (hmac H prk ((if j = 0 then []
        else blockAt H.outLen (hkdfExpand H prk info (count * H.outLen)).1 (j - 1)) ++ info ++
          [.ofNat (j + 1)])).1 := by
  have h_count : blockCount H (count * H.outLen) = count := by
    have h_pos := H.outLen_pos
    rw [blockCount, show count * H.outLen + H.outLen - 1 = H.outLen - 1 + count * H.outLen by omega,
      Nat.add_mul_div_right _ _ h_pos, Nat.div_eq_of_lt (by omega), zero_add]
  have h_expand : (hkdfExpand H prk info (count * H.outLen)).1 =
      hkdfBlocks H prk info count 1 [] := by
    rw [val_hkdfExpand, h_count, List.take_of_length_le]
    rw [length_hkdfBlocks]
  rw [h_expand, blockAt_hkdfBlocks prk info count 1 [] h, add_comm 1 j]

end Hmac
