import SignalisCore.Facade.Hashing
import SignalisCore.Library.ByteXor

/-!
# Comparing and combining bytes

The functions of `utils.ts` that work on two buffers, beside the native comparison of `core.ts` and
the operations that verify a tag.

* `comparisons_agree`: there is one comparison, and to verify a tag is to compute it and to compare.
* `xor_eq`: the loop of `xor` combines byte by byte.
-/

namespace SignalisCore

open LittleEndian

namespace Utils

/-! ### Comparing -/

/-- `timingSafeEqual(a, b)` of Node.js. -/
def timingSafeEqual (a b : Bytes) : Except JsError Bool :=
  if a.length ≠ b.length then
    .error (.rangeError (js "Input buffers must have the same byte length"))
  else .ok (a == b)

def constantTimeEqual (a b : Bytes) : Except JsError Bool :=
  if a.length ≠ b.length then do
    -- compared with itself, and the result is dropped
    let _ ← timingSafeEqual a a
    return false
  else timingSafeEqual a b

def bytesEqual (a b : Bytes) : Bool := a.length == b.length && a == b

theorem constantTimeEqual_eq (a b : Bytes) : constantTimeEqual a b = .ok (decide (a = b)) := by
  unfold constantTimeEqual timingSafeEqual
  split_ifs with h h_self
  · exact absurd rfl h_self
  · have h_ne : a ≠ b := fun h_eq => h (congrArg List.length h_eq)
    simp [h_ne]
  · rw [beq_eq_decide]

theorem bytesEqual_eq (a b : Bytes) : bytesEqual a b = decide (a = b) := by
  by_cases h : a = b
  · simp [bytesEqual, h]
  · simp [bytesEqual, h]

/-! ### Combining -/

/-- One turn of the loop: a byte is written at its index. -/
def writeXor (a b result : Bytes) (i : ℕ) : Bytes := result.set i (a[i]! ^^^ b[i]!)

/-- `xor`, whose result is zero before the loop. -/
def xor (a b : Bytes) : Except JsError Bytes :=
  if a.length ≠ b.length then
    .error (.error (js ("XOR operands must have equal length: " ++ a.length.repr ++ " vs " ++
      b.length.repr)))
  else .ok ((List.range a.length).foldl (writeXor a b) (List.replicate a.length 0))

/-- One turn of the loop, where the bytes before the index are written already. -/
theorem writeXor_take {a b : Bytes} (h : a.length = b.length) {i : ℕ} (h_lt : i < a.length) :
    writeXor a b ((ByteXor.xor a b).take i ++ List.replicate (a.length - i) 0) i =
      (ByteXor.xor a b).take (i + 1) ++ List.replicate (a.length - (i + 1)) 0 := by
  have h_len : (ByteXor.xor a b).length = a.length := by simp [h]
  have h_take : ((ByteXor.xor a b).take i).length = i := by
    rw [List.length_take, h_len, min_eq_left h_lt.le]
  have h_at : i < (ByteXor.xor a b).length := h_len.symm ▸ h_lt
  have h_byte : (ByteXor.xor a b)[i] = a[i]! ^^^ b[i]! := by
    rw [getElem!_pos a i h_lt, getElem!_pos b i (h ▸ h_lt)]
    exact List.getElem_zipWith
  have h_succ : a.length - i = (a.length - (i + 1)) + 1 := by omega
  rw [writeXor, List.set_append_right _ _ (le_of_eq h_take), h_take, Nat.sub_self, h_succ,
    List.replicate_succ, List.set_cons_zero, ← h_byte, List.take_succ_eq_append_getElem,
    List.append_assoc, List.singleton_append]

/-- **The loop** combines byte by byte. -/
theorem foldl_writeXor {a b : Bytes} (h : a.length = b.length) {i : ℕ} (h_le : i ≤ a.length) :
    (List.range i).foldl (writeXor a b) (List.replicate a.length 0) =
      (ByteXor.xor a b).take i ++ List.replicate (a.length - i) 0 := by
  induction i with
  | zero => simp
  | succ i ih =>
    rw [List.range_succ, List.foldl_append, ih (Nat.le_of_succ_le h_le)]
    exact writeXor_take h h_le

theorem xor_eq {a b : Bytes} (h : a.length = b.length) : xor a b = .ok (ByteXor.xor a b) := by
  have h_len : (ByteXor.xor a b).length = a.length := by simp [h]
  rw [xor, if_neg (not_not.mpr h), foldl_writeXor h (le_refl _), Nat.sub_self,
    List.replicate_zero, List.append_nil, List.take_of_length_le h_len.le]

/-- **Involution**: what was combined with a mask is recovered with the same mask. -/
theorem xor_of_xor {a b c : Bytes} (h : xor a b = .ok c) : xor c b = .ok a ∧ xor b a = .ok c := by
  have h_len : a.length = b.length := by
    by_contra h_ne
    rw [xor, if_pos h_ne] at h
    cases h
  rw [xor_eq h_len] at h
  obtain rfl := Except.ok.inj h
  refine ⟨?_, ?_⟩
  · rw [xor_eq (by simp [h_len]), ByteXor.xor_xor_cancel h_len.le]
  · rw [xor_eq h_len.symm, ByteXor.xor_comm]

end Utils

namespace Core

variable {H : Hashes} {B : Blake3Impl}

theorem constantTimeEq_buffer (L : H.Lawful) (a b : Bytes) :
    constantTimeEq H (.buffer a) (.buffer b) = .ok (decide (a = b)) := by
  change Except.ok (if a.length ≠ b.length then false else H.ctEq a b) = _
  split_ifs with h
  · have h_ne : a ≠ b := fun h_eq => h (congrArg List.length h_eq)
    simp [h_ne]
  · rw [Bool.eq_iff_iff.mpr ((L.ctEq a b).trans decide_eq_true_iff.symm)]

/-- The guards come in one order, and the tag is compared behind them. -/
theorem HMAC.verifyWith_eq (native : Bytes → Bytes → Bytes) (verify : Bytes → Bytes → Bytes → Bool)
    (h : ∀ k d t, verify k d t = true ↔ native k d = t) (key data : JsValue) (tag : Bytes) :
    HMAC.verifyWith verify key data (.buffer tag) =
      (do let computed ← HMAC.macWith native key data; Utils.constantTimeEqual computed tag) := by
  rw [HMAC.verifyWith, HMAC.macWith]
  rcases assertBuffer key "key" with e | k
  · rfl
  rcases assertBuffer data "data" with e | d
  · rfl
  simp only [ok_bind, assertBuffer_buffer]
  rw [Bool.eq_iff_iff.mpr ((h k d tag).trans decide_eq_true_iff.symm)]
  exact (Utils.constantTimeEqual_eq _ _).symm

theorem BLAKE3.keyedHashVerify_eq (L : H.Lawful) (key data : JsValue) (tag : Bytes) :
    BLAKE3.keyedHashVerify H B key data (.buffer tag) =
      (do let computed ← BLAKE3.keyedHash B key data; Utils.constantTimeEqual computed tag) := by
  rw [BLAKE3.keyedHashVerify, BLAKE3.keyedHash]
  rcases h_key : assertBufferOfSize key 32 "key" with e | k
  · rfl
  rcases assertBuffer data "data" with e | d
  · rfl
  obtain ⟨-, h_len⟩ := assertBufferOfSize_eq_ok_iff.mp h_key
  have h_verify := Bool.eq_iff_iff.mpr ((L.ctEq (B.keyedHash ⟨k, h_len⟩ d).1 tag).trans
    decide_eq_true_iff.symm)
  simp only [ok_bind, assertBuffer_buffer, Node.blake3KeyedHashVerify, Node.blake3KeyedHash,
    Node.blake3Keyed, dif_pos h_len]
  rw [Blake3.keyedHashVerify, Blake3.keyedHash, h_verify]
  exact (Utils.constantTimeEqual_eq _ _).symm

/-- **One comparison**: the three functions that compare two buffers agree, and each operation that
verifies a tag does what computing the tag and comparing does, errors included. -/
theorem comparisons_agree (L : H.Lawful) :
    (∀ a b : Bytes, constantTimeEq H (.buffer a) (.buffer b) = .ok (decide (a = b)) ∧
      Utils.constantTimeEqual a b = .ok (decide (a = b)) ∧
      Utils.bytesEqual a b = decide (a = b)) ∧
    ∀ (key data : JsValue) (tag : Bytes),
      HMAC.verifySha256 H key data (.buffer tag) =
        (do let computed ← HMAC.sha256 H key data; Utils.constantTimeEqual computed tag) ∧
      HMAC.verifySha512 H key data (.buffer tag) =
        (do let computed ← HMAC.sha512 H key data; Utils.constantTimeEqual computed tag) ∧
      BLAKE3.keyedHashVerify H B key data (.buffer tag) =
        (do let computed ← BLAKE3.keyedHash B key data; Utils.constantTimeEqual computed tag) := by
  refine ⟨?_, fun key data tag => ⟨?_, ?_, BLAKE3.keyedHashVerify_eq L key data tag⟩⟩
  · exact fun a b =>
      ⟨constantTimeEq_buffer L a b, Utils.constantTimeEqual_eq a b, Utils.bytesEqual_eq a b⟩
  · exact HMAC.verifyWith_eq (Node.hmacSha256 H) (Node.hmacSha256Verify H)
      (fun _ _ _ => Node.verifyTag_isOk_iff L) key data tag
  · exact HMAC.verifyWith_eq (Node.hmacSha512 H) (Node.hmacSha512Verify H)
      (fun _ _ _ => Node.verifyTag_isOk_iff L) key data tag

/-- The tag of one byte under a key of one byte. -/
theorem comparisons_agree_byte :
    let tag := Node.hmacSha256 rustHashes [1] [2]
    tag.length = 32 ∧
      HMAC.verifySha256 rustHashes (.buffer [1]) (.buffer [2]) (.buffer tag) =
        (do
          let computed ← HMAC.sha256 rustHashes (.buffer [1]) (.buffer [2])
          Utils.constantTimeEqual computed tag) ∧
      constantTimeEq rustHashes (.buffer tag) (.buffer [3]) = .ok (decide (tag = [3])) :=
  let zeros : ByteArr 32 := ByteArr.replicate 32 0
  have h := comparisons_agree (B := ⟨fun _ => zeros, fun _ _ => zeros, fun _ _ => zeros⟩)
    rustHashes_lawful
  ⟨(ScHmac.hmacSha256 rustHashes [1] [2]).2, (h.2 _ _ _).1, (h.1 _ _).1⟩

end Core

end SignalisCore
