import SignalisCore.Dalek.Primes
import SignalisCore.Library.LittleEndian
import SignalisCore.Library.MontgomeryCurve
import Mathlib.GroupTheory.OrderOfElement

/-!
# The interface of curve25519-dalek

The crates call into `curve25519-dalek`, whose code is not part of the repository. What they use of
it is a parameter of the model: `Dalek` lists the types and functions, and `Dalek.Lawful` the
documented behaviour that the results assume, one field per function. Nothing here is proved about
the functions themselves; the consequences below are what the rest of the development cites:

* `Lawful.decompress_compress`: the standard encoding round-trips.
* `Lawful.toEdwards_toMontgomery`: the birational map loses only the sign of `x`.
* `Lawful.fromCanonicalBytes_iff`: a scalar is its canonical bytes.
-/

namespace SignalisCore

open LittleEndian

/-! ### Field elements in bytes -/

/-- The coefficient `d` of the twisted Edwards curve `-x² + y² = 1 + d·x²y²`. -/
def edwardsD : ZMod p25519 := -121665 / 121666

/-- A positive number below `p` is not zero in the field. -/
theorem natCast_ne_zero {n : ℕ} (h_pos : 0 < n) (h_lt : n < p25519) :
    (n : ZMod p25519) ≠ 0 := by
  rw [Ne, ZMod.natCast_eq_zero_iff]
  exact Nat.not_dvd_of_pos_of_lt h_pos h_lt

theorem field_two_ne_zero : (2 : ZMod p25519) ≠ 0 :=
  natCast_ne_zero (n := 2) (by norm_num) (by norm_num)

theorem field_den_ne_zero : (121666 : ZMod p25519) ≠ 0 :=
  natCast_ne_zero (n := 121666) (by norm_num) (by norm_num)

theorem edwardsD_eq : edwardsD * 121666 = -121665 := by
  rw [edwardsD, div_mul_cancel₀ _ field_den_ne_zero]

/-- The equation of the twisted Edwards curve. -/
def OnCurve (x y : ZMod p25519) : Prop := -x ^ 2 + y ^ 2 = 1 + edwardsD * x ^ 2 * y ^ 2

/-- The points on the `y`-axis are `(0, 1)` and `(0, -1)`. -/
theorem OnCurve.x_eq_zero_iff {x y : ZMod p25519} (h : OnCurve x y) : x = 0 ↔ y ^ 2 = 1 := by
  unfold OnCurve at h
  refine ⟨?_, ?_⟩
  · rintro rfl
    linear_combination h
  · intro h_y
    -- the equation leaves `(1 + d) x² = 0`
    have h_sq : x ^ 2 = 0 := by
      linear_combination (-121666 : ZMod p25519) * h + (121666 : ZMod p25519) * h_y -
        121666 * edwardsD * x ^ 2 * h_y - x ^ 2 * edwardsD_eq
    exact pow_eq_zero_iff two_ne_zero |>.mp h_sq

/-- The field element in the low 255 bits, reduced mod `p`. -/
def fieldOfBytes (b : ByteArr 32) : ZMod p25519 := (leValue b.1 % 2 ^ 255 : ℕ)

/-- Bit 255. -/
def signBit (b : ByteArr 32) : ℕ := leValue b.1 / 2 ^ 255

/-- The sign of a field element: the low bit of its canonical representative. -/
def parity (x : ZMod p25519) : ℕ := x.val % 2

/-- The integer of a clamped scalar: the low three bits cleared, bit 255 cleared, bit 254 set. -/
def clampInteger (k : ByteArr 32) : ℕ := leValue k.1 / 8 % 2 ^ 251 * 8 + 2 ^ 254

theorem p25519_odd : p25519 % 2 = 1 := by norm_num

/-- The value of a byte array from its field bits and its sign bit. -/
theorem leValue_eq_add_signBit (b : ByteArr 32) :
    leValue b.1 = leValue b.1 % 2 ^ 255 + 2 ^ 255 * signBit b :=
  (Nat.mod_add_div _ _).symm

theorem signBit_le_one (b : ByteArr 32) : signBit b ≤ 1 := by
  have h_lt := b.leValue_lt
  unfold signBit
  omega

theorem parity_le_one (x : ZMod p25519) : parity x ≤ 1 := by
  unfold parity
  omega

@[simp] theorem parity_zero : parity 0 = 0 := by
  rw [parity, ZMod.val_zero]

/-- Opposite field elements have opposite signs. -/
theorem parity_neg {x : ZMod p25519} (h : x ≠ 0) : parity (-x) = 1 - parity x :=
  MontgomeryCurve.val_neg_mod_two p25519_odd h

/-- A canonical value with a sign bit on top is read back. -/
theorem fieldOfBytes_of_value {b : ByteArr 32} {y : ZMod p25519} {s : ℕ}
    (h : leValue b.1 = y.val + 2 ^ 255 * s) : fieldOfBytes b = y ∧ signBit b = s := by
  have h_lt : y.val < 2 ^ 255 := (ZMod.val_lt y).trans (by norm_num)
  -- the canonical value fits into the low 255 bits
  have h_mod : leValue b.1 % 2 ^ 255 = y.val := by omega
  refine ⟨?_, ?_⟩
  · rw [fieldOfBytes, h_mod, ZMod.natCast_zmod_val]
  · unfold signBit
    omega

/-- The integers of clamped keys. -/
structure IsClamped (n : ℕ) : Prop where
  /-- Bit 254 is set. -/
  le : 2 ^ 254 ≤ n
  /-- Bit 255 is clear. -/
  lt : n < 2 ^ 255
  /-- The low three bits are clear. -/
  eight_dvd : 8 ∣ n

theorem isClamped_clampInteger (k : ByteArr 32) : IsClamped (clampInteger k) := by
  unfold clampInteger
  refine ⟨?_, ?_, ?_⟩ <;> omega

/-- Clamping leaves the clamped integers as they are. -/
theorem IsClamped.clampInteger_eq {k : ByteArr 32} (h : IsClamped (leValue k.1)) :
    clampInteger k = leValue k.1 := by
  obtain ⟨h_le, h_lt, h_eight⟩ := h
  unfold clampInteger
  omega

/-- A clamped integer is a multiple of eight that is too small to be one of `8 * q`, so an odd `q`
does not divide it. -/
theorem IsClamped.not_dvd {n q : ℕ} (h : IsClamped n) (h_cop : Nat.Coprime 8 q)
    (h_large : 2 ^ 255 ≤ q * 8) : ¬ q ∣ n := by
  intro h_q
  have h_pos : 0 < n := lt_of_lt_of_le (by norm_num) h.le
  -- the common multiples of the coprime `q` and `8` are those of their product
  have h_mul : q * 8 ∣ n := h_cop.symm.mul_dvd_of_dvd_of_dvd h_q h.eight_dvd
  have h_absurd : n < n := calc
    n < 2 ^ 255 := h.lt
    _ ≤ q * 8 := h_large
    _ ≤ n := Nat.le_of_dvd h_pos h_mul
  exact lt_irrefl n h_absurd

theorem not_dvd_clampInteger {q : ℕ} (h_cop : Nat.Coprime 8 q) (h_large : 2 ^ 255 ≤ q * 8)
    (k : ByteArr 32) : ¬ q ∣ clampInteger k :=
  (isClamped_clampInteger k).not_dvd h_cop h_large

/-- A clamped scalar is never a multiple of the basepoint order. -/
theorem clampInteger_mod_ell_ne_zero (k : ByteArr 32) : clampInteger k % ell ≠ 0 := fun h_mod =>
  not_dvd_clampInteger (by norm_num) (by norm_num) k (Nat.dvd_of_mod_eq_zero h_mod)

/-! ### The functions used -/

/-- `CompressedEdwardsY([u8; 32])`. -/
abbrev CompressedEdwardsY := ByteArr 32

/-- `MontgomeryPoint([u8; 32])`. -/
abbrev MontgomeryPoint := ByteArr 32

/-- The types and functions of `curve25519-dalek` that the crates use. The affine coordinates `x`
and `y` are called by no crate: they are what the laws speak about. -/
structure Dalek where
  /-- `EdwardsPoint`, with its group operations. -/
  EdwardsPoint : Type
  [addCommGroup : AddCommGroup EdwardsPoint]
  /-- `==` on points. -/
  [decidableEq : DecidableEq EdwardsPoint]
  x : EdwardsPoint → ZMod p25519
  y : EdwardsPoint → ZMod p25519
  ed25519BasepointPoint : EdwardsPoint
  /-- `EdwardsPoint::compress`. -/
  compress : EdwardsPoint → CompressedEdwardsY
  /-- `CompressedEdwardsY::decompress`. -/
  decompress : CompressedEdwardsY → Option EdwardsPoint
  /-- `EdwardsPoint::to_montgomery`. -/
  toMontgomery : EdwardsPoint → MontgomeryPoint
  /-- `MontgomeryPoint::to_edwards`, on the sign of the point. -/
  toEdwards : MontgomeryPoint → UInt8 → Option EdwardsPoint
  /-- `MontgomeryPoint::mul_base_clamped`. -/
  mulBaseClamped : ByteArr 32 → MontgomeryPoint
  /-- `MontgomeryPoint::mul_clamped`, the receiver before the bytes. -/
  mulClamped : MontgomeryPoint → ByteArr 32 → MontgomeryPoint
  /-- `Scalar`, with `+`, `*` and unary `-`. -/
  Scalar : Type
  [scalarAdd : Add Scalar]
  [scalarMul : Mul Scalar]
  [scalarNeg : Neg Scalar]
  /-- `EdwardsPoint * Scalar`. -/
  mulScalar : EdwardsPoint → Scalar → EdwardsPoint
  /-- `Scalar::from_bytes_mod_order`. -/
  fromBytesModOrder : ByteArr 32 → Scalar
  /-- `Scalar::from_bytes_mod_order_wide`. -/
  fromBytesModOrderWide : ByteArr 64 → Scalar
  /-- `Scalar::from_canonical_bytes`. -/
  fromCanonicalBytes : ByteArr 32 → Option Scalar
  /-- `Scalar::to_bytes`. -/
  toBytes : Scalar → ByteArr 32

namespace Dalek

instance (D : Dalek) : AddCommGroup D.EdwardsPoint := D.addCommGroup

instance (D : Dalek) : DecidableEq D.EdwardsPoint := D.decidableEq

instance (D : Dalek) : Add D.Scalar := D.scalarAdd

instance (D : Dalek) : Mul D.Scalar := D.scalarMul

instance (D : Dalek) : Neg D.Scalar := D.scalarNeg

instance (D : Dalek) : HMul D.EdwardsPoint D.Scalar D.EdwardsPoint := ⟨D.mulScalar⟩

/-- The canonical integer of a scalar. -/
def intOf (D : Dalek) (s : D.Scalar) : ℕ := leValue (D.toBytes s).1

/-! ### Their documented behaviour -/

/-- **The behaviour assumed of `curve25519-dalek`.** -/
structure Lawful (D : Dalek) : Prop where
  /-- The Edwards points form a group of order `8ℓ`. -/
  card_points : Nat.card D.EdwardsPoint = 8 * ell
  /-- The basepoint has prime order `ℓ`. -/
  order_basepoint : addOrderOf D.ed25519BasepointPoint = ell
  /-- Points satisfy the curve equation. -/
  onCurve : ∀ P, OnCurve (D.x P) (D.y P)
  /-- Every solution of the curve equation is a point. -/
  exists_point : ∀ x y, OnCurve x y → ∃ P, D.x P = x ∧ D.y P = y
  /-- Points are their coordinates. -/
  point_ext : ∀ {P Q}, D.x P = D.x Q → D.y P = D.y Q → P = Q
  /-- The identity is `(0, 1)`. -/
  x_zero : D.x 0 = 0
  /-- The identity is `(0, 1)`. -/
  y_zero : D.y 0 = 1
  /-- Negation flips `x`. -/
  x_neg : ∀ P, D.x (-P) = -D.x P
  /-- Negation keeps `y`. -/
  y_neg : ∀ P, D.y (-P) = D.y P
  /-- Compression writes the canonical `y`, with the sign of `x` in bit 255. -/
  compress_value : ∀ P, leValue (D.compress P).1 = (D.y P).val + 2 ^ 255 * parity (D.x P)
  /-- Decompression reduces `y` mod `p` and takes the root of the requested sign; a sign bit
  on `x = 0` is ignored. -/
  decompress_eq_some : ∀ b P, D.decompress b = some P ↔
    D.y P = fieldOfBytes b ∧ (parity (D.x P) = signBit b ∨ D.x P = 0)
  /-- The birational map to the Montgomery `u`-coordinate, with `1 / 0 = 0`. -/
  toMontgomery_value : ∀ P, leValue (D.toMontgomery P).1 = ((1 + D.y P) / (1 - D.y P)).val
  /-- The birational map back: bit 255 of `u` is ignored, `u` is reduced mod `p`, `u = -1` is
  refused, and `y = (u - 1) / (u + 1)` is decompressed with the requested sign. -/
  toEdwards_eq_some : ∀ u s P, D.toEdwards u s = some P ↔
    fieldOfBytes u ≠ -1 ∧ D.y P = (fieldOfBytes u - 1) / (fieldOfBytes u + 1) ∧
      (parity (D.x P) = s.toNat % 2 ∨ D.x P = 0)
  /-- Fixed-base X25519: the `u`-coordinate of `[clamp(k)]B`. -/
  mulBaseClamped_eq : ∀ k,
    D.mulBaseClamped k = D.toMontgomery (clampInteger k • D.ed25519BasepointPoint)
  /-- X25519 on the curve: the `u`-coordinate of `[clamp(k)]P` for any `P` above `u`. -/
  mulClamped_eq : ∀ u k P, fieldOfBytes u = fieldOfBytes (D.toMontgomery P) →
    D.mulClamped u k = D.toMontgomery (clampInteger k • P)
  /-- Scalars are reduced mod `ℓ`. -/
  intOf_lt : ∀ s, D.intOf s < ell
  /-- Reduction of 32 bytes. -/
  fromBytesModOrder_value : ∀ b, D.intOf (D.fromBytesModOrder b) = leValue b.1 % ell
  /-- Reduction of 64 bytes. -/
  fromBytesModOrderWide_value : ∀ b, D.intOf (D.fromBytesModOrderWide b) = leValue b.1 % ell
  /-- Only the canonical bytes of a scalar are accepted. -/
  fromCanonicalBytes_eq_some : ∀ b s, D.fromCanonicalBytes b = some s ↔ D.toBytes s = b
  /-- Addition mod `ℓ`. -/
  add_value : ∀ s t, D.intOf (s + t) = (D.intOf s + D.intOf t) % ell
  /-- Multiplication mod `ℓ`. -/
  mul_value : ∀ s t, D.intOf (s * t) = D.intOf s * D.intOf t % ell
  /-- Negation mod `ℓ`. -/
  neg_value : ∀ s, D.intOf (-s) = (ell - D.intOf s) % ell
  /-- Scalar multiplication by the canonical integer. -/
  mulScalar_eq : ∀ (P : D.EdwardsPoint) (s : D.Scalar), P * s = D.intOf s • P

/-! ### Consequences -/

namespace Lawful

variable {D : Dalek}

/-- The basepoint is killed by `ℓ`. -/
theorem ell_nsmul_basepoint (L : D.Lawful) : ell • D.ed25519BasepointPoint = 0 := by
  rw [← L.order_basepoint, addOrderOf_nsmul_eq_zero]

/-- A clamped multiple of the basepoint has the order of the basepoint. -/
theorem addOrderOf_clampInteger_nsmul (L : D.Lawful) (k : ByteArr 32) :
    addOrderOf (clampInteger k • D.ed25519BasepointPoint) = ell := by
  have h_cop : Nat.Coprime (addOrderOf D.ed25519BasepointPoint) (clampInteger k) := by
    rw [L.order_basepoint, prime_ell.coprime_iff_not_dvd]
    exact not_dvd_clampInteger (by norm_num) (by norm_num) k
  rw [h_cop.addOrderOf_nsmul, L.order_basepoint]

/-- Canonical bytes are those below `ℓ`. -/
theorem fromCanonicalBytes_iff (L : D.Lawful) (b : ByteArr 32) (n : ℕ) :
    (∃ s, D.fromCanonicalBytes b = some s ∧ D.intOf s = n) ↔
      leValue b.1 < ell ∧ leValue b.1 = n := by
  refine ⟨?_, ?_⟩
  · rintro ⟨s, h_some, rfl⟩
    rw [L.fromCanonicalBytes_eq_some] at h_some
    rw [← h_some]
    exact ⟨L.intOf_lt s, rfl⟩
  · rintro ⟨h_lt, rfl⟩
    -- the reduced scalar of the bytes has these very bytes
    have h_value := L.fromBytesModOrder_value b
    rw [Nat.mod_eq_of_lt h_lt] at h_value
    exact ⟨_, (L.fromCanonicalBytes_eq_some b _).mpr (ByteArr.ext_leValue h_value), h_value⟩

theorem fieldOfBytes_compress (L : D.Lawful) (P : D.EdwardsPoint) :
    fieldOfBytes (D.compress P) = D.y P :=
  (fieldOfBytes_of_value (L.compress_value P)).1

theorem signBit_compress (L : D.Lawful) (P : D.EdwardsPoint) :
    signBit (D.compress P) = parity (D.x P) :=
  (fieldOfBytes_of_value (L.compress_value P)).2

/-- **The standard encoding round-trips.** -/
theorem decompress_compress (L : D.Lawful) (P : D.EdwardsPoint) :
    D.decompress (D.compress P) = some P := by
  rw [L.decompress_eq_some, L.fieldOfBytes_compress, L.signBit_compress]
  exact ⟨rfl, Or.inl rfl⟩

theorem fieldOfBytes_toMontgomery (L : D.Lawful) (P : D.EdwardsPoint) :
    fieldOfBytes (D.toMontgomery P) = (1 + D.y P) / (1 - D.y P) := by
  have h_value := L.toMontgomery_value P
  rw [← Nat.add_zero (ZMod.val _), ← Nat.mul_zero (2 ^ 255)] at h_value
  exact (fieldOfBytes_of_value h_value).1

/-- Opposite points have one `u`-coordinate. -/
theorem toMontgomery_neg (L : D.Lawful) (P : D.EdwardsPoint) :
    D.toMontgomery (-P) = D.toMontgomery P := by
  apply ByteArr.ext_leValue
  rw [L.toMontgomery_value, L.toMontgomery_value, L.y_neg]

/-- The identity is the only point at `y = 1`. -/
theorem y_ne_one (L : D.Lawful) {P : D.EdwardsPoint} (h : P ≠ 0) : D.y P ≠ 1 := by
  intro h_one
  -- at `y = 1` the curve equation leaves `x = 0`
  have h_x : D.x P = 0 := (L.onCurve P).x_eq_zero_iff.mpr (by rw [h_one, one_pow])
  exact h (L.point_ext (by rw [L.x_zero, h_x]) (by rw [L.y_zero, h_one]))

/-- The points at `x = 0` are killed by two. -/
theorem two_nsmul_eq_zero (L : D.Lawful) {P : D.EdwardsPoint} (h : D.x P = 0) : 2 • P = 0 := by
  -- such a point is its own negative
  have h_neg : -P = P := L.point_ext (by rw [L.x_neg, h, neg_zero]) (L.y_neg P)
  rw [two_nsmul]
  nth_rewrite 1 [← h_neg]
  exact neg_add_cancel P

/-- **The birational map and back**: from the `u`-coordinate of a point other than the identity,
the conversion with sign `0` finds the point itself, provided its `x` has sign `0`. -/
theorem toEdwards_toMontgomery (L : D.Lawful) {P : D.EdwardsPoint} (h_ne : P ≠ 0)
    (h_sign : parity (D.x P) = 0) : D.toEdwards (D.toMontgomery P) 0 = some P := by
  have h_den : 1 - D.y P ≠ 0 := sub_ne_zero.mpr (L.y_ne_one h_ne).symm
  have h_two := field_two_ne_zero
  rw [L.toEdwards_eq_some, L.fieldOfBytes_toMontgomery]
  refine ⟨?_, ?_, Or.inl h_sign⟩
  · intro h_minus
    field_simp at h_minus
    exact h_two (by linear_combination h_minus)
  -- the denominator `u + 1` of the way back
  · have h_plus : (1 + D.y P) / (1 - D.y P) + 1 = 2 / (1 - D.y P) := by
      field_simp
      ring
    rw [h_plus]
    field_simp
    ring

end Lawful

end Dalek

end SignalisCore
