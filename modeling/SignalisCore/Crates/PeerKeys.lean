import SignalisCore.Crates.ZeroSecret

/-!
# Which keys X25519 tells apart

A clamped scalar is a multiple of the cofactor and prime to the large prime, so its multiples tell
points apart exactly as the multiples by the cofactor do, and the `u`-coordinate forgets a sign.

* `mulClamped_eq_iff`: the peer keys with which a private key has one secret, which are the same for
  all private keys.
* `mulClamped_const_iff`: the peer keys with which all private keys have one secret.
* `mulBaseClamped_eq_iff`: the private keys with one public key, which come in pairs.
* `mulClamped_eq_of_mulBaseClamped_eq`: such a pair has one secret with every peer on the curve.
-/

namespace SignalisCore

open LittleEndian Edwards25519

/-! ### Multiples that tell points apart -/

section Cofactor

variable {G F : Type*} [AddCommGroup G] {c q m : ℕ}

/-- In a group of `c * q` elements, a multiple of `c` prime to `q` tells points apart as `c`
does. -/
theorem nsmul_eq_nsmul_iff_cofactor (h_card : Nat.card G = c * q) (h_dvd : c ∣ m)
    (h_cop : Nat.Coprime m q) {P Q : G} : m • P = m • Q ↔ c • P = c • Q := by
  rw [← sub_eq_zero, ← nsmul_sub, ← sub_eq_zero (a := c • P), ← nsmul_sub,
    ← addOrderOf_dvd_iff_nsmul_eq_zero, ← addOrderOf_dvd_iff_nsmul_eq_zero]
  refine ⟨fun h => ?_, fun h => h.trans h_dvd⟩
  exact addOrderOf_dvd_of_coprime h_card h_cop (addOrderOf_dvd_iff_nsmul_eq_zero.mp h)

/-- **A coordinate that forgets the sign**, of such a multiple. -/
theorem coord_nsmul_eq_iff [Zero F] (coord : G → F) (h_neg : ∀ P, coord (-P) = coord P)
    (h_two : ∀ P, coord P = 0 → 2 • P = 0)
    (h_sign : ∀ P Q, coord P = coord Q → coord P ≠ 0 → P = Q ∨ P = -Q)
    (h_card : Nat.card G = c * q) (h_dvd : c ∣ m) (h_cop : Nat.Coprime (2 * m) q) {P Q : G} :
    coord (m • P) = coord (m • Q) ↔ c • P = c • Q ∨ c • P = c • -Q := by
  have h_cop' : Nat.Coprime m q := h_cop.coprime_dvd_left (Nat.dvd_mul_left m 2)
  rw [← nsmul_eq_nsmul_iff_cofactor h_card h_dvd h_cop',
    ← nsmul_eq_nsmul_iff_cofactor h_card h_dvd h_cop']
  refine ⟨?_, ?_⟩
  · intro h
    by_cases h_zero : coord (m • P) = 0
    · -- both points are killed by the cofactor
      have h_kill (R : G) (h_R : coord (m • R) = 0) : m • R = 0 := by
        have h_double := h_two _ h_R
        rw [← mul_nsmul'] at h_double
        exact addOrderOf_dvd_iff_nsmul_eq_zero.mp
          ((addOrderOf_dvd_of_coprime h_card h_cop h_double).trans h_dvd)
      rw [h_kill P h_zero, h_kill Q (h ▸ h_zero)]
      exact .inl rfl
    · obtain h_eq | h_eq := h_sign _ _ h h_zero
      · exact .inl h_eq
      · exact .inr (by rw [h_eq, neg_nsmul])
  · rintro (h | h)
    · rw [h]
    · rw [h, neg_nsmul, h_neg]

/-- Two multiples with one coordinate kill the point, up to the cofactor. -/
theorem addOrderOf_dvd_of_coord_eq [Zero F] (coord : G → F)
    (h_sign : ∀ P Q, coord P = coord Q → coord P ≠ 0 → P = Q ∨ P = -Q)
    (h_card : Nat.card G = c * q) {n : ℕ} (h_le : m ≤ n) (h_sub : Nat.Coprime (n - m) q)
    (h_add : Nat.Coprime (n + m) q) {P : G} (h : coord (n • P) = coord (m • P))
    (h_ne : coord (n • P) ≠ 0) : addOrderOf P ∣ c := by
  obtain h_eq | h_eq := h_sign _ _ h h_ne
  · refine addOrderOf_dvd_of_coprime h_card h_sub ?_
    rw [sub_nsmul P h_le, h_eq, add_neg_cancel]
  · refine addOrderOf_dvd_of_coprime h_card h_add ?_
    rw [add_nsmul, h_eq, neg_add_cancel]

end Cofactor

variable {D : Dalek}

/-! ### On the two curves -/

/-- Points with one `y` are equal or opposite. -/
theorem Dalek.Lawful.eq_or_eq_neg (L : D.Lawful) {P Q : D.EdwardsPoint} (h : D.y P = D.y Q) :
    P = Q ∨ P = -Q := by
  -- the curve equation determines `x ^ 2` from `y`
  have h_sq : D.x P ^ 2 = D.x Q ^ 2 := by
    have h_P := L.onCurve P
    have h_Q := L.onCurve Q
    rw [OnCurve, h] at h_P
    unfold OnCurve at h_Q
    apply mul_right_cancel₀ (one_add_ne_zero (D.y Q))
    linear_combination h_Q - h_P
  rcases sq_eq_sq_iff_eq_or_eq_neg.mp h_sq with h_x | h_x
  · exact .inl (L.point_ext h_x h)
  · exact .inr (L.point_ext (by rw [h_x, L.x_neg]) (by rw [h, L.y_neg]))

/-- Points with one coordinate, not zero, are equal or opposite. -/
theorem Dalek.Lawful.eq_or_eq_neg_of_toMontgomery (L : D.Lawful) {P Q : D.EdwardsPoint}
    (h : leValue (D.toMontgomery P).1 = leValue (D.toMontgomery Q).1)
    (h_ne : leValue (D.toMontgomery P).1 ≠ 0) : P = Q ∨ P = -Q := by
  have h_ne' := h ▸ h_ne
  rw [L.toMontgomery_value, Ne, ZMod.val_eq_zero] at h_ne h_ne'
  rw [L.toMontgomery_value, L.toMontgomery_value] at h
  have h_u := ZMod.val_injective _ h
  have h_P : 1 - D.y P ≠ 0 := fun h_den => h_ne (by rw [h_den, div_zero])
  have h_Q : 1 - D.y Q ≠ 0 := fun h_den => h_ne' (by rw [h_den, div_zero])
  -- the quotient determines `y`
  rw [div_eq_div_iff h_P h_Q] at h_u
  have h_mul : (2 : ZMod p25519) * (D.y P - D.y Q) = 0 := by linear_combination h_u
  exact L.eq_or_eq_neg (sub_eq_zero.mp ((mul_eq_zero.mp h_mul).resolve_left field_two_ne_zero))

/-- **On the curve**, secrets agree where the multiples by eight do, up to sign. -/
theorem mulClamped_eq_iff_of_curve (L : D.Lawful) {u u' k : ByteArr 32} {P P' : D.EdwardsPoint}
    (h : fieldOfBytes u = fieldOfBytes (D.toMontgomery P))
    (h' : fieldOfBytes u' = fieldOfBytes (D.toMontgomery P')) :
    D.mulClamped u k = D.mulClamped u' k ↔ 8 • P = 8 • P' ∨ 8 • P = 8 • -P' := by
  have h_coord := coord_nsmul_eq_iff (fun P => leValue (D.toMontgomery P).1)
    (fun P => by rw [L.toMontgomery_neg])
    (fun P h_P => L.two_nsmul_eq_zero_of_toMontgomery (eq_replicate_zero_iff.mpr h_P))
    (fun _ _ => L.eq_or_eq_neg_of_toMontgomery) L.card_points
    (isClamped_clampInteger k).eight_dvd
    (coprime_two_mul_clampInteger prime_ell (by norm_num) k) (P := P) (Q := P')
  rw [← h_coord, L.mulClamped_eq u k P h, L.mulClamped_eq u' k P' h']
  exact ⟨fun h_eq => by rw [h_eq], ByteArr.ext_leValue⟩

/-- **On the twist**, secrets agree where the multiples by four do, up to sign. -/
theorem mulClamped_eq_iff_of_twist (T : D.TwistLawful) {u u' k : ByteArr 32} {Q Q' : TwistPt}
    (h : fieldOfBytes u = twistU Q) (h' : fieldOfBytes u' = twistU Q') :
    D.mulClamped u k = D.mulClamped u' k ↔ 4 • Q = 4 • Q' ∨ 4 • Q = 4 • -Q' := by
  have h_coord := coord_nsmul_eq_iff twistU
    (by rintro (_ | ⟨a, b, h_Q⟩) <;> rfl) (fun _ => two_nsmul_eq_zero_of_twistU)
    (fun _ _ => twist_eq_or_eq_neg) card_twist
    ((by norm_num : 4 ∣ 8).trans (isClamped_clampInteger k).eight_dvd)
    (coprime_two_mul_clampInteger prime_twistEll (by norm_num) k) (P := Q) (Q := Q')
  have h_value := T.mulClamped_eq u k Q h
  have h_value' := T.mulClamped_eq u' k Q' h'
  rw [← h_coord]
  refine ⟨?_, ?_⟩
  · intro h_eq
    rw [h_eq, h_value'] at h_value
    exact (ZMod.val_injective _ h_value).symm
  · intro h_eq
    apply ByteArr.ext_leValue
    rw [h_value, h_value', h_eq]

/-- **Between the two curves**, secrets agree only if they are zero. -/
theorem mulClamped_ne_of_curve_of_twist (L : D.Lawful) (T : D.TwistLawful) {u u' k : ByteArr 32}
    {P : D.EdwardsPoint} {Q : TwistPt} (h : fieldOfBytes u = fieldOfBytes (D.toMontgomery P))
    (h' : fieldOfBytes u' = twistU Q) (h_ne : D.mulClamped u k ≠ ByteArr.replicate 32 0) :
    D.mulClamped u k ≠ D.mulClamped u' k := by
  intro h_eq
  apply h_ne
  have h_value := T.mulClamped_eq u' k Q h'
  rw [← h_eq, L.mulClamped_eq u k P h, L.toMontgomery_value] at h_value
  -- the Edwards coordinates of the multiple are those of a point of the curve
  obtain ⟨R, -, h_y⟩ := exists_point _ _ (L.onCurve (clampInteger k • P))
  have h_coord : uCoord R = twistU (clampInteger k • Q) := by
    rw [uCoord, h_y]
    exact ZMod.val_injective _ h_value
  have h_zero := uCoord_eq_zero_of_twist h_coord
  rw [uCoord, h_y] at h_zero
  rw [L.mulClamped_eq u k P h, eq_replicate_zero_iff, L.toMontgomery_value, h_zero, ZMod.val_zero]

namespace Curve25519

/-! ### Peer keys -/

variable (D) in
/-- Two peer keys that no private key tells apart: both of small order, or on one curve with one
multiple by the cofactor, for points above the coordinates. -/
def SamePeer (u u' : ByteArr 32) : Prop :=
  (SmallOrder D u ∧ SmallOrder D u') ∨
    (∃ P P' : D.EdwardsPoint, fieldOfBytes u = fieldOfBytes (D.toMontgomery P) ∧
      fieldOfBytes u' = fieldOfBytes (D.toMontgomery P') ∧ 8 • P = 8 • P') ∨
    ∃ Q Q' : TwistPt, fieldOfBytes u = twistU Q ∧ fieldOfBytes u' = twistU Q' ∧ 4 • Q = 4 • Q'

/-- **Peer keys with one secret**: which they are does not depend on the private key. -/
theorem mulClamped_eq_iff (L : D.Lawful) (T : D.TwistLawful) (u u' k : ByteArr 32) :
    D.mulClamped u k = D.mulClamped u' k ↔ SamePeer D u u' := by
  refine ⟨?_, ?_⟩
  · intro h
    by_cases h_zero : D.mulClamped u k = ByteArr.replicate 32 0
    · exact .inl ⟨(mulClamped_eq_zero_iff L T u k).mp h_zero,
        (mulClamped_eq_zero_iff L T u' k).mp (h ▸ h_zero)⟩
    have h_zero' : D.mulClamped u' k ≠ ByteArr.replicate 32 0 := h ▸ h_zero
    -- each coordinate lies on one of the curves
    obtain ⟨v, h_v⟩ | ⟨Q, h_Q⟩ := exists_curve_or_twist (fieldOfBytes u)
    · obtain ⟨P, h_P⟩ := L.exists_point_of_sq h_v
      obtain ⟨v', h_v'⟩ | ⟨Q', h_Q'⟩ := exists_curve_or_twist (fieldOfBytes u')
      · obtain ⟨P', h_P'⟩ := L.exists_point_of_sq h_v'
        obtain h_eq | h_eq := (mulClamped_eq_iff_of_curve L h_P h_P').mp h
        · exact .inr (.inl ⟨P, P', h_P, h_P', h_eq⟩)
        · exact .inr (.inl ⟨P, -P', h_P, by rw [h_P', L.toMontgomery_neg], h_eq⟩)
      · exact absurd h (mulClamped_ne_of_curve_of_twist L T h_P h_Q'.symm h_zero)
    · obtain ⟨v', h_v'⟩ | ⟨Q', h_Q'⟩ := exists_curve_or_twist (fieldOfBytes u')
      · obtain ⟨P', h_P'⟩ := L.exists_point_of_sq h_v'
        exact absurd h.symm (mulClamped_ne_of_curve_of_twist L T h_P' h_Q.symm h_zero')
      · obtain h_eq | h_eq := (mulClamped_eq_iff_of_twist T h_Q.symm h_Q'.symm).mp h
        · exact .inr (.inr ⟨Q, Q', h_Q.symm, h_Q'.symm, h_eq⟩)
        · refine .inr (.inr ⟨Q, -Q', h_Q.symm, ?_, h_eq⟩)
          rw [← h_Q']
          rcases Q' with _ | ⟨a, b, h_Q'⟩ <;> rfl
  · rintro (⟨h_small, h_small'⟩ | ⟨P, P', h_P, h_P', h_eq⟩ | ⟨Q, Q', h_Q, h_Q', h_eq⟩)
    · rw [(mulClamped_eq_zero_iff L T u k).mpr h_small,
        (mulClamped_eq_zero_iff L T u' k).mpr h_small']
    · exact (mulClamped_eq_iff_of_curve L h_P h_P').mpr (.inl h_eq)
    · exact (mulClamped_eq_iff_of_twist T h_Q h_Q').mpr (.inl h_eq)

/-- The basepoint, with bit 255 clear and set. -/
theorem samePeer_basepoint :
    SamePeer edwards25519 (ByteArr.ofLe 32 9) (ByteArr.ofLe 32 (9 + 2 ^ 255)) := by
  have h_base : fieldOfBytes (edwards25519.toMontgomery Edwards25519.basepoint) = (9 : ℕ) :=
    (Edwards25519.encode_field _).trans (Edwards25519.uCoord_some _)
  have h_peer (u : ByteArr 32) (h : leValue u.1 % 2 ^ 255 = 9) :
      fieldOfBytes u = fieldOfBytes (edwards25519.toMontgomery Edwards25519.basepoint) := by
    rw [h_base, fieldOfBytes, h]
  exact .inr (.inl ⟨_, _, h_peer _ (by decide +kernel), h_peer _ (by decide +kernel), rfl⟩)

/-- A derived public key is told apart from the identity. -/
theorem not_samePeer_zero (L : D.Lawful) (T : D.TwistLawful) (k : ByteArr 32) :
    ¬SamePeer D (D.mulBaseClamped k) (ByteArr.replicate 32 0) := by
  intro h
  have h_secret := (mulClamped_eq_zero_iff L T _ k).mpr (smallOrder_zero L)
  rw [← (mulClamped_eq_iff L T _ _ k).mpr h] at h_secret
  exact not_dvd_eight_of_clamped L k ((mulClamped_eq_zero_iff_of_curve L
    (congrArg fieldOfBytes (L.mulBaseClamped_eq k))).mp h_secret)

/-- **A secret without a private key**: the peer keys with which all private keys have one secret
are those of small order. -/
theorem mulClamped_const_iff (L : D.Lawful) (T : D.TwistLawful) (u : ByteArr 32) :
    (∀ k k', D.mulClamped u (maskEnds 248 127 64 k) = D.mulClamped u (maskEnds 248 127 64 k')) ↔
      SmallOrder D u := by
  refine ⟨?_, ?_⟩
  · intro h
    -- two clamped scalars next to each other
    let k := maskEnds 248 127 64 (ByteArr.ofLe 32 (2 ^ 254 + 8))
    let k' := maskEnds 248 127 64 (ByteArr.ofLe 32 (2 ^ 254))
    have h_eq : D.mulClamped u k = D.mulClamped u k' := h _ _
    have h_k : clampInteger k = 2 ^ 254 + 8 := by decide +kernel
    have h_k' : clampInteger k' = 2 ^ 254 := by decide +kernel
    by_cases h_zero : D.mulClamped u k = ByteArr.replicate 32 0
    · exact (mulClamped_eq_zero_iff L T u k).mp h_zero
    obtain ⟨v, h_v⟩ | ⟨Q, h_Q⟩ := exists_curve_or_twist (fieldOfBytes u)
    · obtain ⟨P, h_P⟩ := L.exists_point_of_sq h_v
      refine .inl ⟨P, h_P, ?_⟩
      rw [L.mulClamped_eq u k P h_P, L.mulClamped_eq u k' P h_P, h_k, h_k'] at h_eq
      rw [L.mulClamped_eq u k P h_P, h_k, eq_replicate_zero_iff] at h_zero
      exact addOrderOf_dvd_of_coord_eq (fun P => leValue (D.toMontgomery P).1)
        (fun _ _ => L.eq_or_eq_neg_of_toMontgomery) L.card_points (Nat.le_add_right _ _)
        (by norm_num) (by norm_num) (congrArg (fun bytes : ByteArr 32 => leValue bytes.1) h_eq)
        h_zero
    · refine .inr ⟨Q, h_Q.symm, ?_⟩
      have h_value := T.mulClamped_eq u k Q h_Q.symm
      have h_value' := T.mulClamped_eq u k' Q h_Q.symm
      rw [← h_eq, h_value, h_k, h_k'] at h_value'
      rw [eq_replicate_zero_iff, h_value, h_k, ZMod.val_eq_zero] at h_zero
      exact addOrderOf_dvd_of_coord_eq twistU (fun _ _ => twist_eq_or_eq_neg) card_twist
        (Nat.le_add_right _ _) (by norm_num) (by norm_num) (ZMod.val_injective _ h_value') h_zero
  · intro h k k'
    rw [(mulClamped_eq_zero_iff L T u _).mpr h, (mulClamped_eq_zero_iff L T u _).mpr h]

/-! ### Private keys -/

/-- Clamped integers that agree up to sign modulo `ℓ` are equal or add up to `8ℓ`. -/
theorem IsClamped.eq_or_add_eq {m n : ℕ} (h_m : IsClamped m) (h_n : IsClamped n)
    (h : m ≡ n [MOD ell] ∨ ell ∣ m + n) : m = n ∨ m + n = 8 * ell := by
  have h_cop : Nat.Coprime 8 ell := by norm_num
  obtain h | h := h
  · left
    have h_eight : m ≡ n [MOD 8] :=
      (Nat.modEq_zero_iff_dvd.mpr h_m.eight_dvd).trans
        (Nat.modEq_zero_iff_dvd.mpr h_n.eight_dvd).symm
    have h_mod := (Nat.modEq_and_modEq_iff_modEq_mul h_cop).mp ⟨h_eight, h⟩
    -- both lie in an interval shorter than `8ℓ`
    have h_lt : 2 ^ 255 < 8 * ell := by norm_num
    exact h_mod.eq_of_lt_of_lt (h_m.lt.trans h_lt) (h_n.lt.trans h_lt)
  · right
    have h_mul : 8 * ell ∣ m + n :=
      h_cop.mul_dvd_of_dvd_of_dvd (Nat.dvd_add h_m.eight_dvd h_n.eight_dvd) h
    obtain ⟨t, h_t⟩ := h_mul
    -- the sum is positive and below `16ℓ`
    have h_bounds : 2 ^ 255 ≤ m + n ∧ m + n < 2 ^ 256 := by
      have h₁ := h_m.le
      have h₂ := h_n.le
      have h₃ := h_m.lt
      have h₄ := h_n.lt
      omega
    have h_lt : 2 ^ 256 < 8 * ell * 2 := by norm_num
    have h_two : t < 2 := by
      by_contra h_ge
      have h_le : 8 * ell * 2 ≤ m + n := by
        rw [h_t]
        exact Nat.mul_le_mul_left _ (not_lt.mp h_ge)
      exact lt_asymm h_bounds.2 (h_lt.trans_le h_le)
    interval_cases t
    · rw [h_t, mul_zero] at h_bounds
      exact absurd h_bounds.1 (by norm_num)
    · rw [h_t, mul_one]

/-- **Private keys with one public key**: their clamped integers are equal or add up to `8ℓ`. -/
theorem mulBaseClamped_eq_iff (L : D.Lawful) (k k' : ByteArr 32) :
    D.mulBaseClamped k = D.mulBaseClamped k' ↔
      clampInteger k = clampInteger k' ∨ clampInteger k + clampInteger k' = 8 * ell := by
  have h_zero (j : ByteArr 32) :
      leValue (D.toMontgomery (clampInteger j • D.ed25519BasepointPoint)).1 ≠ 0 := by
    intro h
    have h_two := L.two_nsmul_eq_zero_of_toMontgomery (eq_replicate_zero_iff.mpr h)
    have h_order := L.addOrderOf_clampInteger_nsmul j
    rw [← addOrderOf_dvd_iff_nsmul_eq_zero, h_order] at h_two
    exact absurd (Nat.le_of_dvd two_pos h_two) (by norm_num)
  rw [L.mulBaseClamped_eq, L.mulBaseClamped_eq]
  refine ⟨?_, ?_⟩
  · intro h
    apply IsClamped.eq_or_add_eq (isClamped_clampInteger k) (isClamped_clampInteger k')
    have h_value := congrArg (fun bytes : ByteArr 32 => leValue bytes.1) h
    obtain h_eq | h_eq := L.eq_or_eq_neg_of_toMontgomery h_value (h_zero k)
    · left
      rw [nsmul_eq_nsmul_iff_modEq, L.order_basepoint] at h_eq
      exact h_eq
    · right
      rw [← add_eq_zero_iff_eq_neg, ← add_nsmul, ← addOrderOf_dvd_iff_nsmul_eq_zero,
        L.order_basepoint] at h_eq
      exact h_eq
  · rintro (h | h)
    · rw [h]
    · have h_sum : (clampInteger k + clampInteger k') • D.ed25519BasepointPoint = 0 := by
        rw [h, mul_nsmul', L.ell_nsmul_basepoint, nsmul_zero]
      rw [add_nsmul, add_eq_zero_iff_eq_neg] at h_sum
      rw [h_sum, L.toMontgomery_neg]

/-- **Such a pair has one secret** with every peer on the curve. -/
theorem mulClamped_eq_of_mulBaseClamped_eq (L : D.Lawful) {k k' u : ByteArr 32}
    {P : D.EdwardsPoint} (h : D.mulBaseClamped k = D.mulBaseClamped k')
    (h_u : fieldOfBytes u = fieldOfBytes (D.toMontgomery P)) :
    D.mulClamped u k = D.mulClamped u k' := by
  rw [L.mulClamped_eq u k P h_u, L.mulClamped_eq u k' P h_u]
  obtain h_eq | h_eq := (mulBaseClamped_eq_iff L k k').mp h
  · rw [h_eq]
  · -- the group has `8ℓ` elements
    have h_sum : (clampInteger k + clampInteger k') • P = 0 := by
      rw [h_eq, ← L.card_points]
      exact card_nsmul_eq_zero'
    rw [add_nsmul, add_eq_zero_iff_eq_neg] at h_sum
    rw [h_sum, L.toMontgomery_neg]

end Curve25519

end SignalisCore
