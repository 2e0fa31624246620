import SignalisCore.Dalek.Edwards25519
import SignalisCore.Library.QuadraticTwist

/-!
# The twist of Curve25519

A byte string that is read as a `u`-coordinate lies on the curve or on its quadratic twist, and
X25519 multiplies on either. The twist has `4ℓ'` points for a prime `ℓ'` near `2 ^ 253`, so the
points on the two curves that a clamped scalar sends to the coordinate zero are those of small
order.

* `card_twist`: the curve and its twist have `2p + 2` points together, of which the curve has `8ℓ`.
* `exists_curve_or_twist`: every coordinate lies on one of them.
* `Dalek.TwistLawful`: the behaviour assumed of `mul_clamped` on the twist.
-/

namespace SignalisCore

open LittleEndian MontgomeryCurve PrimeCertificate WeierstrassCurve.Affine

/-! ### The prime of the twist -/

/-- The order `ℓ'` of the large subgroup of the twist. -/
abbrev twistEll : ℕ :=
  14474011154664524427946373126085988481603263447650325797860494125407373907997

/-- The primes below a million that the chain starts from. -/
def smallTwistPrimes : List ℕ :=
  [2, 3, 5, 7, 11, 13, 19, 31, 79, 181, 383, 467, 487, 2281, 3637, 3911, 4363, 8053, 11351, 12527,
   28859, 84457, 117223, 727169]

theorem prime_of_mem_smallTwistPrimes : ∀ q ∈ smallTwistPrimes, q.Prime := by
  simp only [smallTwistPrimes, List.forall_mem_cons]
  norm_num

/-- The chain down from `ℓ'`. -/
def chainTwistEll : List Link := [
  ⟨6418733, 2, [2, 2, 19, 84457]⟩,
  ⟨1110318119, 7, [2, 7, 13, 487, 12527]⟩,
  ⟨2220636239, 23, [2, 1110318119]⟩,
  ⟨743104567, 6, [2, 3, 3, 3637, 11351]⟩,
  ⟨1013266244677, 2, [2, 2, 3, 7, 383, 3911, 8053]⟩,
  ⟨5171003929967, 5, [2, 7, 31, 181, 2281, 28859]⟩,
  ⟨22561162540501040539, 3, [2, 3, 727169, 5171003929967]⟩,
  ⟨203852586375664218368381551393371968928013, 2,
    [2, 2, 3, 743104567, 1013266244677, 22561162540501040539]⟩,
  ⟨104719073621178708975837602950775180438320278101, 2,
    [2, 2, 5, 5, 11, 467, 203852586375664218368381551393371968928013]⟩,
  ⟨27413359092552162435694767700453926735143482401279781, 2,
    [2, 2, 3, 5, 4363, 104719073621178708975837602950775180438320278101]⟩,
  ⟨14474011154664524427946373126085988481603263447650325797860494125407373907997, 2,
    [2, 2, 79, 117223, 6418733, 2220636239,
      27413359092552162435694767700453926735143482401279781]⟩]

theorem prime_twistEll : twistEll.Prime :=
  prime_of_checkChain prime_of_mem_smallTwistPrimes
    (show checkChain 256 smallTwistPrimes chainTwistEll = true by decide +kernel) _
    (List.mem_of_getLast? (show chainTwistEll.getLast? = some _ from rfl))

namespace Edwards25519

/-! ### The points of the twist -/

/-- The points of the twist, scaled by the nonsquare two. -/
abbrev TwistPt := (curve p25519 973324 4).Point

theorem not_isSquare_two : ¬ IsSquare ((2 : ℕ) : ZMod p25519) :=
  not_isSquare_of_powMod (by norm_num : p25519 < 2 ^ 256) (by norm_num) (by decide +kernel)

theorem disc_ne_zero :
    (16 * (1 : ℕ) ^ 2 * ((486662 : ℕ) ^ 2 - 4 * (1 : ℕ)) : ZMod p25519) ≠ 0 := by
  push_cast
  decide +kernel

/-- **The twist has `4ℓ'` points.** -/
theorem card_twist : Nat.card TwistPt = 4 * twistEll := by
  have h : Nat.card Pt + Nat.card TwistPt = 2 * p25519 + 2 :=
    card_point_add_card_twist (by norm_num) disc_ne_zero not_isSquare_two
  rw [card_point] at h
  have h_sum : 8 * ell + 4 * twistEll = 2 * p25519 + 2 := by norm_num
  omega

/-- The cubic of the curve equation. -/
theorem cubic_eq (u : ZMod p25519) :
    cubic p25519 486662 1 u = u ^ 3 + 486662 * u ^ 2 + u := by
  unfold cubic
  push_cast
  ring

theorem twist_nonsingular {u w : ZMod p25519} (h : w ^ 2 = cubic p25519 973324 4 (2 * u)) :
    (curve p25519 973324 4).Nonsingular (2 * u) w := by
  apply nonsingular_of_equation
  · push_cast
    decide +kernel
  · exact h

/-- **Every coordinate** lies on the curve or on the twist. -/
theorem exists_curve_or_twist (u : ZMod p25519) :
    (∃ v, v ^ 2 = u ^ 3 + 486662 * u ^ 2 + u) ∨ ∃ Q : TwistPt, twistU Q = u := by
  obtain ⟨v, h_v⟩ | ⟨w, h_w⟩ := exists_sq_or_exists_sq_twist not_isSquare_two 486662 1 u
  · exact .inl ⟨v, h_v.trans (cubic_eq u)⟩
  · refine .inr ⟨.some _ _ (twist_nonsingular (u := u) h_w), ?_⟩
    simp only [twistU]
    exact mul_div_cancel_left₀ u field_two_ne_zero

/-! ### Multiples by coordinate -/

theorem two_nsmul_some {a : ZMod p25519} (h : (curve p25519 973324 4).Nonsingular a 0) :
    2 • (Point.some a 0 h : TwistPt) = 0 := by
  rw [two_nsmul]
  exact Point.add_self_of_Y_eq (by rw [negY_eq, neg_zero])

/-- The points of the twist at the coordinate zero are killed by two. -/
theorem two_nsmul_eq_zero_of_twistU {Q : TwistPt} (h : twistU Q = 0) : 2 • Q = 0 := by
  rcases Q with _ | ⟨a, b, h_Q⟩
  · exact nsmul_zero 2
  · simp only [twistU] at h
    obtain rfl : a = 0 := (div_eq_zero_iff.mp h).resolve_right field_two_ne_zero
    -- at `x = 0` the equation leaves `y ^ 2 = 0`
    have h_sq : b ^ 2 = 0 := by
      rw [(MontgomeryCurve.equation_iff _ _).mp h_Q.1]
      ring
    obtain rfl : b = 0 := pow_eq_zero_iff two_ne_zero |>.mp h_sq
    exact two_nsmul_some h_Q

/-- Points of the twist with one coordinate, not zero, are equal or opposite. -/
theorem twist_eq_or_eq_neg {Q R : TwistPt} (h : twistU Q = twistU R) (h_ne : twistU Q ≠ 0) :
    Q = R ∨ Q = -R := by
  rcases Q with _ | ⟨a, b, h_Q⟩
  · exact absurd rfl h_ne
  rcases R with _ | ⟨a', b', h_R⟩
  · exact absurd h h_ne
  simp only [twistU] at h
  obtain rfl : a = a' := (div_left_inj' field_two_ne_zero).mp h
  rcases Y_eq_of_X_eq h_Q.1 h_R.1 rfl with rfl | h_neg
  · exact .inl rfl
  · right
    rw [Point.neg_some, Point.some.injEq]
    exact ⟨rfl, h_neg⟩

/-- Even multiples of a point of the twist depend on its coordinate alone, up to sign. -/
theorem twistU_nsmul {Q R : TwistPt} {n : ℕ} (h_even : 2 ∣ n) (h : twistU Q = twistU R) :
    twistU (n • Q) = twistU (n • R) := by
  have h_neg : ∀ Q : TwistPt, twistU (-Q) = twistU Q := by
    rintro (_ | ⟨a, b, h_Q⟩) <;> rfl
  exact coord_nsmul h_neg (fun _ => two_nsmul_eq_zero_of_twistU) (fun _ _ => twist_eq_or_eq_neg)
    h_even h

/-- The Edwards coordinates of a point give back its `u`. -/
theorem uCoord_some {u v : ZMod p25519} (h : (curve p25519 486662 1).Nonsingular u v) :
    uCoord (.some u v h) = u := by
  have h_den := u_ne_neg_one (equation h)
  have h_two := field_two_ne_zero
  have h_sub : 1 - (u - 1) / (u + 1) = 2 / (u + 1) := by
    field_simp
    ring
  simp only [uCoord, y]
  rw [h_sub]
  field_simp
  ring

/-- Only the coordinate zero lies on both curves. -/
theorem uCoord_eq_zero_of_twist {P : Pt} {Q : TwistPt} (h : uCoord P = twistU Q) :
    uCoord P = 0 := by
  rcases Q with _ | ⟨a, w, h_Q⟩
  · exact h
  rcases P with _ | ⟨u, v, h_P⟩
  · simp [uCoord, y]
  rw [uCoord_some] at h ⊢
  have h_a : a = 2 * u := by
    rw [h, twistU, mul_div_cancel₀ a field_two_ne_zero]
  -- the cubic has a square on both sides, so it vanishes
  have h_v := equation h_P
  rw [← cubic_eq] at h_v
  have h_w := (MontgomeryCurve.equation_iff _ _).mp h_Q.1
  rw [h_a] at h_w
  have h_root := cubic_eq_zero_of_sq_of_sq_twist not_isSquare_two h_v h_w
  rw [h_root] at h_v
  exact u_eq_zero (equation h_P) (pow_eq_zero_iff two_ne_zero |>.mp h_v)

theorem mulU_twistU {u' : ZMod p25519} {n : ℕ} (h_even : 2 ∣ n) {Q : TwistPt}
    (h : u' = twistU Q) : mulU u' n = twistU (n • Q) := by
  by_cases h_curve : ∃ P, u' = uCoord P
  · -- a coordinate on both curves is zero, and so are all of its even multiples
    obtain ⟨P, h_P⟩ := h_curve
    have h_zero := uCoord_eq_zero_of_twist (h_P.symm.trans h)
    have h_twist : twistU Q = 0 := h.symm.trans (h_P.trans h_zero)
    rw [mulU_uCoord h_even h_P,
      nsmul_eq_zero_of_two_dvd h_even (two_nsmul_eq_zero_of_uCoord h_zero),
      nsmul_eq_zero_of_two_dvd h_even (two_nsmul_eq_zero_of_twistU h_twist)]
    simp [uCoord, y, twistU]
  · have h_twist : ∃ Q, u' = twistU Q := ⟨Q, h⟩
    rw [mulU, dif_neg h_curve, dif_pos h_twist]
    exact twistU_nsmul h_even (h_twist.choose_spec.symm.trans h)

end Edwards25519

/-! ### Multiplication on the twist -/

/-- **The behaviour assumed of `mul_clamped` on the twist**: it computes the coordinate of
`[clamp(k)]Q` for any `Q` above `u`, with `0` for the identity. -/
structure Dalek.TwistLawful (D : Dalek) : Prop where
  mulClamped_eq : ∀ (u k : ByteArr 32) (Q : Edwards25519.TwistPt),
    fieldOfBytes u = Edwards25519.twistU Q →
      leValue (D.mulClamped u k).1 = (Edwards25519.twistU (clampInteger k • Q)).val

open Edwards25519 in
/-- **The assumption holds of Curve25519.** -/
theorem edwards25519_twistLawful : edwards25519.TwistLawful where
  mulClamped_eq u k Q h := by
    have h_value : leValue (edwards25519.mulClamped u k).1 =
        (mulU (fieldOfBytes u) (clampInteger k)).val + 2 ^ 255 * 0 :=
      encode_value _ zero_le_one
    rw [h_value, mulU_twistU (two_dvd_clampInteger k) h, mul_zero, add_zero]

end SignalisCore
