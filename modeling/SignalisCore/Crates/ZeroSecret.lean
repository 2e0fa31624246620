import SignalisCore.Crates.Curve25519
import SignalisCore.Dalek.Twist

/-!
# The all-zero X25519 secret

A clamped scalar is a multiple of eight, so it kills every point whose order divides eight on the
curve or four on the twist; and it is a multiple of neither of the two large primes, so it sends no
other point to the coordinate zero.

* `mulClamped_eq_zero_iff_of_curve`, `mulClamped_eq_zero_iff_of_twist`: the two cases.
* `diffieHellman_eq_zero_iff`: the peer keys with which the secret is zero.
-/

namespace SignalisCore

open LittleEndian Edwards25519

/-- In a group of `c * q` elements, a point that is killed by a number prime to `q` has an order
dividing `c`. -/
theorem addOrderOf_dvd_of_coprime {G : Type*} [AddGroup G] {c q m : ℕ} {P : G}
    (h_card : Nat.card G = c * q) (h_cop : Nat.Coprime m q) (h_kill : m • P = 0) :
    addOrderOf P ∣ c := by
  have h_dvd : addOrderOf P ∣ m := addOrderOf_dvd_of_nsmul_eq_zero h_kill
  have h_mul : addOrderOf P ∣ c * q := h_card ▸ addOrderOf_dvd_natCard P
  exact (h_cop.coprime_dvd_left h_dvd).dvd_of_dvd_mul_right h_mul

/-- A clamped scalar, doubled, is prime to a large prime. -/
theorem coprime_two_mul_clampInteger {q : ℕ} (h_q : q.Prime) (h_large : 2 ^ 255 ≤ q * 8)
    (k : ByteArr 32) : Nat.Coprime (2 * clampInteger k) q := by
  have h_odd : Nat.Coprime 2 q :=
    (Nat.coprime_primes Nat.prime_two h_q).mpr (by omega)
  have h_not := not_dvd_clampInteger (Nat.Coprime.pow_left 3 h_odd) h_large k
  exact h_odd.mul_left ((h_q.coprime_iff_not_dvd.mpr h_not).symm)

theorem eq_replicate_zero_iff {a : ByteArr 32} : a = ByteArr.replicate 32 0 ↔ leValue a.1 = 0 := by
  have h_zero : leValue (ByteArr.replicate 32 0).1 = 0 := by decide
  refine ⟨?_, ?_⟩
  · rintro rfl
    exact h_zero
  · intro h
    exact ByteArr.ext_leValue (h.trans h_zero.symm)

variable {D : Dalek}

/-! ### On the curve -/

/-- The points at the coordinate zero are killed by two. -/
theorem Dalek.Lawful.two_nsmul_eq_zero_of_toMontgomery (L : D.Lawful) {P : D.EdwardsPoint}
    (h : D.toMontgomery P = ByteArr.replicate 32 0) : 2 • P = 0 := by
  rw [eq_replicate_zero_iff, L.toMontgomery_value, ZMod.val_eq_zero] at h
  have h_sq : D.y P ^ 2 = 1 := MontgomeryCurve.sq_eq_one_of_div_eq_zero h
  exact L.two_nsmul_eq_zero ((L.onCurve P).x_eq_zero_iff.mpr h_sq)

theorem Dalek.Lawful.toMontgomery_zero (L : D.Lawful) :
    D.toMontgomery 0 = ByteArr.replicate 32 0 := by
  rw [eq_replicate_zero_iff, L.toMontgomery_value, L.y_zero, sub_self, div_zero, ZMod.val_zero]

/-- **On the curve**, a clamped scalar sends to the coordinate zero what eight kills. -/
theorem mulClamped_eq_zero_iff_of_curve (L : D.Lawful) {u k : ByteArr 32} {P : D.EdwardsPoint}
    (h : fieldOfBytes u = fieldOfBytes (D.toMontgomery P)) :
    D.mulClamped u k = ByteArr.replicate 32 0 ↔ addOrderOf P ∣ 8 := by
  rw [L.mulClamped_eq u k P h]
  refine ⟨?_, ?_⟩
  · intro h_zero
    have h_kill := L.two_nsmul_eq_zero_of_toMontgomery h_zero
    rw [← mul_nsmul'] at h_kill
    exact addOrderOf_dvd_of_coprime L.card_points
      (coprime_two_mul_clampInteger prime_ell (by norm_num) k) h_kill
  · intro h_dvd
    rw [addOrderOf_dvd_iff_nsmul_eq_zero.mp (h_dvd.trans (isClamped_clampInteger k).eight_dvd)]
    exact L.toMontgomery_zero

/-- Above a coordinate with a root there is a point. -/
theorem Dalek.Lawful.exists_point_of_sq (L : D.Lawful) {u : ByteArr 32} {v : ZMod p25519}
    (h : v ^ 2 = fieldOfBytes u ^ 3 + 486662 * fieldOfBytes u ^ 2 + fieldOfBytes u) :
    ∃ P : D.EdwardsPoint, fieldOfBytes u = fieldOfBytes (D.toMontgomery P) := by
  -- the Edwards coordinates of the Montgomery point are those of some point
  obtain ⟨P, -, h_y⟩ := L.exists_point _ _ (Edwards25519.onCurve (.some _ v (mk_nonsingular h)))
  refine ⟨P, ?_⟩
  rw [L.fieldOfBytes_toMontgomery, h_y]
  exact (uCoord_some (mk_nonsingular h)).symm

/-! ### On the twist -/

/-- **On the twist**, a clamped scalar sends to the coordinate zero what four kills. -/
theorem mulClamped_eq_zero_iff_of_twist (T : D.TwistLawful) {u k : ByteArr 32} {Q : TwistPt}
    (h : fieldOfBytes u = twistU Q) :
    D.mulClamped u k = ByteArr.replicate 32 0 ↔ addOrderOf Q ∣ 4 := by
  rw [eq_replicate_zero_iff, T.mulClamped_eq u k Q h, ZMod.val_eq_zero]
  refine ⟨?_, ?_⟩
  · intro h_zero
    have h_kill := two_nsmul_eq_zero_of_twistU h_zero
    rw [← mul_nsmul'] at h_kill
    exact addOrderOf_dvd_of_coprime card_twist
      (coprime_two_mul_clampInteger prime_twistEll (by norm_num) k) h_kill
  · intro h_dvd
    have h_four : addOrderOf Q ∣ clampInteger k :=
      (h_dvd.trans (by norm_num : 4 ∣ 8)).trans (isClamped_clampInteger k).eight_dvd
    rw [addOrderOf_dvd_iff_nsmul_eq_zero.mp h_four]
    rfl

/-! ### The secret -/

namespace Curve25519

variable (D) in
/-- The bytes, read as a `u`-coordinate, belong to a point whose order divides eight on the curve or
four on the twist. -/
def SmallOrder (u : ByteArr 32) : Prop :=
  (∃ P : D.EdwardsPoint, fieldOfBytes u = fieldOfBytes (D.toMontgomery P) ∧ addOrderOf P ∣ 8) ∨
    ∃ Q : TwistPt, fieldOfBytes u = twistU Q ∧ addOrderOf Q ∣ 4

theorem mulClamped_eq_zero_iff (L : D.Lawful) (T : D.TwistLawful) (u k : ByteArr 32) :
    D.mulClamped u k = ByteArr.replicate 32 0 ↔ SmallOrder D u := by
  refine ⟨?_, ?_⟩
  · intro h
    -- the coordinate lies on one of the curves, and there the point has small order
    obtain ⟨v, h_v⟩ | ⟨Q, h_Q⟩ := exists_curve_or_twist (fieldOfBytes u)
    · obtain ⟨P, h_P⟩ := L.exists_point_of_sq h_v
      exact .inl ⟨P, h_P, (mulClamped_eq_zero_iff_of_curve L h_P).mp h⟩
    · exact .inr ⟨Q, h_Q.symm, (mulClamped_eq_zero_iff_of_twist T h_Q.symm).mp h⟩
  · rintro (⟨P, h_P, h_dvd⟩ | ⟨Q, h_Q, h_dvd⟩)
    · exact (mulClamped_eq_zero_iff_of_curve L h_P).mpr h_dvd
    · exact (mulClamped_eq_zero_iff_of_twist T h_Q).mpr h_dvd

/-- All zeros encode the identity. -/
theorem smallOrder_zero (L : D.Lawful) : SmallOrder D (ByteArr.replicate 32 0) := by
  refine .inl ⟨0, ?_, ?_⟩
  · rw [L.toMontgomery_zero]
  · rw [addOrderOf_zero]
    exact one_dvd 8

/-- A derived public key is a point of order `ℓ`. -/
theorem not_dvd_eight_of_clamped (L : D.Lawful) (k : ByteArr 32) :
    ¬ addOrderOf (clampInteger k • D.ed25519BasepointPoint) ∣ 8 := by
  intro h_dvd
  rw [L.addOrderOf_clampInteger_nsmul k] at h_dvd
  exact absurd (Nat.le_of_dvd (by norm_num) h_dvd) (by norm_num)

/-- **The all-zero secret** is the small-order case: for every private key, and every peer key in
whatever encoding and on either curve. Two keys of the crate never share it. -/
theorem diffieHellman_eq_zero_iff (L : D.Lawful) (T : D.TwistLawful) :
    (∀ (k u : ByteArr 32) (key : PrivateKey), PrivateKey.tryFromBytes k.1 = .ok key →
      (((KeyPair.fromPrivate D key).diffieHellman D (.fromBytes u)).toBytes =
        ByteArr.replicate 32 0 ↔ SmallOrder D u)) ∧
    ∀ a b : PrivateKey,
      ((KeyPair.fromPrivate D a).diffieHellman D (KeyPair.fromPrivate D b).pub).toBytes ≠
        ByteArr.replicate 32 0 := by
  refine ⟨fun k u key _ => mulClamped_eq_zero_iff L T u key.bytes, fun a b h => ?_⟩
  -- the peer key lies above a multiple of the basepoint
  have h_pub : D.mulBaseClamped b.bytes =
      D.toMontgomery (clampInteger b.bytes • D.ed25519BasepointPoint) := L.mulBaseClamped_eq _
  exact not_dvd_eight_of_clamped L b.bytes
    ((mulClamped_eq_zero_iff_of_curve L (congrArg fieldOfBytes h_pub)).mp h)

/-- The zero key computes the zero secret with the all-zero peer key, which encodes the identity. -/
theorem diffieHellman_eq_zero_iff_zero :
    SmallOrder edwards25519 (ByteArr.replicate 32 0) ∧
    ((KeyPair.fromPrivate edwards25519 (.fromBytesClamped (ByteArr.replicate 32 0))).diffieHellman
      edwards25519 (.fromBytes (ByteArr.replicate 32 0))).toBytes = ByteArr.replicate 32 0 := by
  have h_small : SmallOrder edwards25519 (ByteArr.replicate 32 0) :=
    smallOrder_zero edwards25519_lawful
  exact ⟨h_small, ((diffieHellman_eq_zero_iff edwards25519_lawful edwards25519_twistLawful).1 _ _ _
    (PrivateKey.tryFromBytes_eq (ByteArr.replicate 32 0))).mpr h_small⟩

end Curve25519

end SignalisCore
