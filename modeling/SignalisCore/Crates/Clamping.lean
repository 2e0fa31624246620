import SignalisCore.Crates.XEd25519
import SignalisCore.Crates.ZeroSecret

/-!
# The arithmetic of clamping

`sc-xed25519` and `sc-curve25519` each write out the same three mask assignments. The bytes that
they leave alone are those of the integers of `IsClamped`, and `ℓ` divides none of these, since a
common multiple of `8` and `ℓ` is zero or lies above the range.

* `maskEnds_eq_self_iff`: clamped bytes are the bytes of clamped integers.
* `PrivateKey.isClamped`: every private key of `sc-curve25519` holds such an integer.
* `clamp_arithmetic`: what the XEd25519 signer gets from it, a scalar other than zero and a key
  point of large order.
-/

namespace SignalisCore

open LittleEndian

/-! ### Clamped bytes -/

/-- **Clamped bytes** are the bytes of clamped integers. -/
theorem maskEnds_eq_self_iff (key : ByteArr 32) :
    maskEnds 248 127 64 key = key ↔ IsClamped (leValue key.1) := by
  refine ⟨?_, ?_⟩
  · intro h
    have h_clamped := isClamped_maskEnds key
    rwa [h] at h_clamped
  · intro h
    apply ByteArr.ext_leValue
    rw [leValue_maskEnds, h.clampInteger_eq]

theorem Curve25519.PrivateKey.isClamped (key : Curve25519.PrivateKey) :
    IsClamped (leValue key.bytes.1) :=
  (maskEnds_eq_self_iff key.bytes).mp key.clamped

namespace XEd25519

variable {D : Dalek}

/-! ### The scalar and the key of the signer -/

/-- The signer's scalar is the residue of the clamped bytes. -/
theorem intOf_privateToScalar (L : D.Lawful) (k : ByteArr 32) :
    D.intOf (privateToScalar D k) = leValue (clamp k).1 % ell :=
  L.fromBytesModOrder_value (clamp k)

/-- The residue is not zero, and neither is the scalar. -/
theorem privateToScalar_ne_zero (L : D.Lawful) (k : ByteArr 32) :
    D.toBytes (privateToScalar D k) ≠ ByteArr.replicate 32 0 := by
  intro h_zero
  have h_int : D.intOf (privateToScalar D k) = 0 := eq_replicate_zero_iff.mp h_zero
  rw [intOf_privateToScalar L, clamp, leValue_maskEnds] at h_int
  exact clampInteger_mod_ell_ne_zero k h_int

/-- **The arithmetic of clamping.** Both crates store the same bytes, which a second clamping leaves
alone; their value is a multiple of eight in `[2 ^ 254, 2 ^ 255)` and no multiple of `ℓ`; and so the
signer's scalar is not zero, and its key `A` is no point of small order. -/
theorem clamp_arithmetic (L : D.Lawful) (k : ByteArr 32) :
    ((Curve25519.PrivateKey.fromBytesClamped k).toBytes = clamp k ∧
      clamp (clamp k) = clamp k ∧
      (Curve25519.PrivateKey.fromBytesClamped (clamp k)).toBytes = clamp k) ∧
    (2 ^ 254 ≤ leValue (clamp k).1 ∧ leValue (clamp k).1 < 2 ^ 255 ∧ 8 ∣ leValue (clamp k).1 ∧
      ¬ 2 ^ 252 + 27742317777372353535851937790883648493 ∣ leValue (clamp k).1) ∧
    D.toBytes (privateToScalar D k) ≠ ByteArr.replicate 32 0 ∧
    (D.ed25519BasepointPoint * privateToScalar D k =
        (leValue (clamp k).1 % (2 ^ 252 + 27742317777372353535851937790883648493)) •
          D.ed25519BasepointPoint ∧
      D.ed25519BasepointPoint * privateToScalar D k ≠ 0 ∧
      ¬ addOrderOf (D.ed25519BasepointPoint * privateToScalar D k) ∣ 8) := by
  have h_clamped : IsClamped (leValue (clamp k).1) := isClamped_maskEnds k
  have h_A := basepoint_mul_privateToScalar L k
  rw [← ell_eq]
  refine ⟨⟨rfl, maskEnds_maskEnds k, maskEnds_maskEnds k⟩,
    ⟨h_clamped.le, h_clamped.lt, h_clamped.eight_dvd,
      h_clamped.not_dvd (by norm_num) (by norm_num)⟩,
    privateToScalar_ne_zero L k, ?_, ?_, ?_⟩
  · rw [L.mulScalar_eq, intOf_privateToScalar L]
  · rw [h_A]
    exact clampInteger_nsmul_ne_zero L k
  · rw [h_A]
    exact Curve25519.not_dvd_eight_of_clamped L k

/-- The theorem at Curve25519 and the all-ones key. -/
theorem clamp_arithmetic_ones :
    (2 ^ 254 ≤ leValue (clamp (ByteArr.replicate 32 0xFF)).1 ∧
      leValue (clamp (ByteArr.replicate 32 0xFF)).1 < 2 ^ 255) ∧
    ¬ addOrderOf (edwards25519.ed25519BasepointPoint *
      privateToScalar edwards25519 (ByteArr.replicate 32 0xFF)) ∣ 8 := by
  obtain ⟨-, ⟨h_le, h_lt, -⟩, -, -, -, h_order⟩ :=
    clamp_arithmetic edwards25519_lawful (ByteArr.replicate 32 0xFF)
  exact ⟨⟨h_le, h_lt⟩, h_order⟩

end XEd25519

end SignalisCore
