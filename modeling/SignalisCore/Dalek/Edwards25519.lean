import SignalisCore.Dalek.Interface
import SignalisCore.Library.PrimeCertificate

/-!
# Curve25519 as an instance of the interface

`edwards25519` is the curve itself, so the assumptions collected in `Dalek.Lawful` hold of
something: `edwards25519_lawful`. The points are those of Mathlib's group on the Montgomery curve
`v² = u³ + 486662u² + u`, with Edwards coordinates by the birational map. Square roots and lifts are
chosen, not computed, so the instance is noncomputable; what it decides, it decides by its laws.

* `addOrderOf_basepoint`, `addOrderOf_torsion`: orders of explicit points, by evaluation.
* `card_point`: there are `8ℓ` points, since `8ℓ` divides a number below `16ℓ`.
* `onCurve`, `exists_point`, `point_ext`: the coordinates identify the points with the solutions of
  the Edwards equation.
-/

namespace SignalisCore

open LittleEndian MontgomeryCurve PrimeCertificate WeierstrassCurve.Affine

namespace Edwards25519

/-- The points of the Montgomery curve. -/
abbrev Pt := (curve p25519 486662 1).Point

theorem mk_nonsingular {u v : ZMod p25519} (h : v ^ 2 = u ^ 3 + 486662 * u ^ 2 + u) :
    (curve p25519 486662 1).Nonsingular u v := by
  apply nonsingular_of_equation
  · push_cast
    decide +kernel
  · push_cast
    linear_combination h

theorem equation {u v : ZMod p25519} (h : (curve p25519 486662 1).Nonsingular u v) :
    v ^ 2 = u ^ 3 + 486662 * u ^ 2 + u := by
  have h_eq := (MontgomeryCurve.equation_iff u v).mp h.1
  push_cast at h_eq
  linear_combination h_eq

/-! ### The group order -/

/-- The `v`-coordinate of the basepoint. -/
def baseV : ℕ := 14781619447589544791020593568409986887264606134616475288964881837755586237401

theorem nonsingular_basepoint : (curve p25519 486662 1).Nonsingular (9 : ℕ) baseV :=
  mk_nonsingular (by rw [baseV]; decide +kernel)

/-- The basepoint, at `u = 9`. -/
def basepoint : Pt := .some _ _ nonsingular_basepoint

/-- The coordinates of a point of order eight. -/
def torsionU : ℕ := 325606250916557431795983626356110631294008115727848805560023387167927233504

/-- The coordinates of a point of order eight. -/
def torsionV : ℕ := 32026303591712962751241307547882981359278212717910236697706316503764922500307

theorem nonsingular_torsion : (curve p25519 486662 1).Nonsingular torsionU torsionV :=
  mk_nonsingular (by rw [torsionU, torsionV]; decide +kernel)

/-- A point of order eight. -/
def torsion : Pt := .some _ _ nonsingular_torsion

theorem ell_nsmul_basepoint : ell • basepoint = 0 := by
  -- `(ℓ - 1) * B` evaluates to `-B`
  obtain ⟨h, h_mul⟩ := nsmul_eq_of_mulCheck nonsingular_basepoint
    (show mulCheck p25519 486662 1 9 baseV 253 (ell - 1) 9 (p25519 - baseV) = true by
      decide +kernel)
  have h_neg : (ell - 1) • basepoint = -basepoint := by
    have h_v : ((p25519 - baseV : ℕ) : ZMod p25519) = -baseV := by
      rw [Nat.cast_sub (by norm_num [baseV]), CharP.cast_eq_zero, zero_sub]
    rw [basepoint, h_mul, Point.neg_some, Point.some.injEq, negY_eq]
    exact ⟨rfl, h_v⟩
  rw [show ell = ell - 1 + 1 from rfl, succ_nsmul, h_neg, neg_add_cancel]

theorem addOrderOf_basepoint : addOrderOf basepoint = ell :=
  addOrderOf_eq_prime ell_nsmul_basepoint (Point.some_ne_zero _)

theorem addOrderOf_torsion : addOrderOf torsion = 8 := by
  -- `4 * T` evaluates to `(0, 0)`, which has order two
  obtain ⟨h, h_four⟩ := nsmul_eq_of_mulCheck nonsingular_torsion
    (show mulCheck p25519 486662 1 torsionU torsionV 4 4 0 0 = true by decide +kernel)
  have h_four : 4 • torsion = .some _ _ h := h_four
  refine addOrderOf_eq_prime_pow (p := 2) (n := 2) ?_ ?_
  · rw [show 2 ^ 2 = 4 from rfl, h_four]
    exact Point.some_ne_zero _
  · -- the point `(0, 0)` is its own negative
    rw [show 2 ^ (2 + 1) = 4 * 2 from rfl, mul_nsmul, h_four, two_nsmul]
    exact Point.add_self_of_Y_eq (by rw [negY_eq, Nat.cast_zero, neg_zero])

instance : Finite Pt := (card_point_le p25519_odd).1

theorem card_point : Nat.card Pt = 8 * ell := by
  -- the orders 8 and `ℓ` are coprime, so the sum of the two points has their product as order
  have h_order : addOrderOf (torsion + basepoint) = 8 * ell := by
    rw [(AddCommute.all _ _).addOrderOf_add_eq_mul_addOrderOf_of_coprime, addOrderOf_torsion,
      addOrderOf_basepoint]
    rw [addOrderOf_torsion, addOrderOf_basepoint]
    norm_num
  obtain ⟨m, h_m⟩ : 8 * ell ∣ Nat.card Pt := by
    rw [← h_order]
    exact addOrderOf_dvd_natCard _
  -- there are not twice as many points
  have h_lt : Nat.card Pt < 8 * ell * 2 :=
    (card_point_le p25519_odd).2.trans_lt (by norm_num)
  have h_pos : 0 < Nat.card Pt := Nat.card_pos
  rw [h_m] at h_lt h_pos ⊢
  -- `8ℓ` divides a positive number below `16ℓ`
  have h_two : m < 2 := Nat.lt_of_mul_lt_mul_left h_lt
  have h_one : 0 < m := Nat.pos_of_mul_pos_left h_pos
  rw [show m = 1 by omega, mul_one]

/-! ### Edwards coordinates -/

/-- A square root of `-486664`, the scale of the birational map. -/
def scale : ℕ := 51042569399160536130206135233146329284152202253034631822681833788666877215207

theorem scale_sq : (scale : ZMod p25519) ^ 2 = -486664 := by
  unfold scale
  decide +kernel

theorem scale_ne_zero : (scale : ZMod p25519) ≠ 0 :=
  natCast_ne_zero (by norm_num [scale]) (by norm_num [scale])

/-- `x = scale * u / v`, which is `0` at both points without a quotient. -/
def x : Pt → ZMod p25519
  | .zero => 0
  | .some u v _ => scale * u / v

/-- `y = (u - 1) / (u + 1)`. -/
def y : Pt → ZMod p25519
  | .zero => 1
  | .some u _ _ => (u - 1) / (u + 1)

/-- `u = -1` lies on the twist. -/
theorem u_ne_neg_one {u v : ZMod p25519} (h : v ^ 2 = u ^ 3 + 486662 * u ^ 2 + u) : u + 1 ≠ 0 := by
  intro h_zero
  -- at `u = -1` the equation makes 486660 a square
  have h_square : ¬ IsSquare ((486660 : ℕ) : ZMod p25519) :=
    not_isSquare_of_powMod (by norm_num : p25519 < 2 ^ 256) (by norm_num)
      (by decide +kernel)
  apply h_square
  refine ⟨v, ?_⟩
  push_cast
  linear_combination (-u ^ 2 - 486661 * u + 486660) * h_zero - h

/-- The only point with `v = 0` is `(0, 0)`. -/
theorem u_eq_zero {u v : ZMod p25519} (h : v ^ 2 = u ^ 3 + 486662 * u ^ 2 + u) (h_v : v = 0) :
    u = 0 := by
  have h_square : ¬ IsSquare ((486662 ^ 2 - 4 : ℕ) : ZMod p25519) :=
    not_isSquare_of_powMod (by norm_num : p25519 < 2 ^ 256) (by norm_num)
      (by decide +kernel)
  -- at `v = 0` the cubic has a root, and its quadratic factor has none
  have h_mul : u * (u ^ 2 + 486662 * u + 1) = 0 := by
    rw [h_v] at h
    linear_combination -h
  rcases mul_eq_zero.mp h_mul with h_u | h_quad
  · exact h_u
  · -- completing the square
    exfalso
    apply h_square
    refine ⟨2 * u + 486662, ?_⟩
    push_cast
    linear_combination -4 * h_quad

/-- The only point with `u = 0` is `(0, 0)`. -/
theorem v_eq_zero {u v : ZMod p25519} (h : v ^ 2 = u ^ 3 + 486662 * u ^ 2 + u) (h_u : u = 0) :
    v = 0 := by
  have h_sq : v ^ 2 = 0 := by
    rw [h, h_u]
    ring
  exact pow_eq_zero_iff two_ne_zero |>.mp h_sq

theorem onCurve (P : Pt) : OnCurve (x P) (y P) := by
  unfold OnCurve
  rcases P with _ | ⟨u, v, h⟩
  · simp [x, y]
  have h_curve := equation h
  have h_u := u_ne_neg_one h_curve
  by_cases h_v : v = 0
  · obtain rfl := u_eq_zero h_curve h_v
    simp [x, y]
  have h_den := field_den_ne_zero
  simp only [x, y]
  rw [div_pow, mul_pow, scale_sq, edwardsD]
  field_simp
  linear_combination (-4 * 121666 * u) * h_curve

/-- The inverse map, `u = (1 + y) / (1 - y)` and `v = scale * u / x`, arrives on the curve. -/
theorem curve_of_onCurve {x' y' : ZMod p25519} (h : OnCurve x' y') (h_x : x' ≠ 0)
    (h_sub : 1 - y' ≠ 0) (h_add : 1 + y' ≠ 0) :
    (scale * ((1 + y') / (1 - y')) / x') ^ 2 =
      ((1 + y') / (1 - y')) ^ 3 + 486662 * ((1 + y') / (1 - y')) ^ 2 + (1 + y') / (1 - y') := by
  unfold OnCurve at h
  rw [div_pow, mul_pow, scale_sq]
  field_simp
  linear_combination (486664 : ZMod p25519) * h + 4 * x' ^ 2 * y' ^ 2 * edwardsD_eq

/-- Every solution of the Edwards equation comes from a point. -/
theorem exists_point (x' y' : ZMod p25519) (h : OnCurve x' y') :
    ∃ P, x P = x' ∧ y P = y' := by
  -- the Edwards points without an affine Montgomery point of their own: `(0, 1)` and `(0, -1)`
  by_cases h_one : y' = 1
  · refine ⟨0, ?_, h_one.symm⟩
    exact (h.x_eq_zero_iff.mpr (by rw [h_one, one_pow])).symm
  by_cases h_neg : y' = -1
  · refine ⟨.some 0 0 (mk_nonsingular (by ring)), ?_, ?_⟩
    · rw [h.x_eq_zero_iff.mpr (by rw [h_neg]; ring)]
      simp [x]
    · rw [h_neg]
      simp [y]
  have h_x : x' ≠ 0 := by
    intro h_zero
    exact sq_ne_one_iff.mpr ⟨h_one, h_neg⟩ (h.x_eq_zero_iff.mp h_zero)
  have h_sub : 1 - y' ≠ 0 := sub_ne_zero.mpr (Ne.symm h_one)
  have h_add : 1 + y' ≠ 0 := by
    rw [add_comm]
    exact fun h_zero => h_neg (eq_neg_of_add_eq_zero_left h_zero)
  have h_scale := scale_ne_zero
  have h_two := field_two_ne_zero
  have h_u : (1 + y') / (1 - y') + 1 = 2 / (1 - y') := by
    field_simp
    ring
  refine ⟨.some _ _ (mk_nonsingular (curve_of_onCurve h h_x h_sub h_add)), ?_, ?_⟩
  · simp only [x]
    field_simp
  · simp only [y]
    rw [h_u]
    field_simp
    ring

/-- Points are their coordinates. -/
theorem point_ext {P Q : Pt} (h_x : x P = x Q) (h_y : y P = y Q) : P = Q := by
  have h_two := field_two_ne_zero
  -- no affine point has the `y` of the identity
  have h_one : ∀ {u : ZMod p25519}, u + 1 ≠ 0 → (u - 1) / (u + 1) ≠ 1 := by
    intro u h_u h_eq
    rw [div_eq_one_iff_eq h_u] at h_eq
    exact h_two (by linear_combination -h_eq)
  rcases P with _ | ⟨u, v, h⟩ <;> rcases Q with _ | ⟨u', v', h'⟩
  · rfl
  · exact absurd h_y.symm (h_one (u_ne_neg_one (equation h')))
  · exact absurd h_y (h_one (u_ne_neg_one (equation h)))
  have h_den := u_ne_neg_one (equation h)
  have h_den' := u_ne_neg_one (equation h')
  simp only [x, y] at h_x h_y
  obtain rfl : u = u' := by
    rw [div_eq_div_iff h_den h_den'] at h_y
    have h_mul : (2 : ZMod p25519) * (u - u') = 0 := by linear_combination h_y
    exact sub_eq_zero.mp ((mul_eq_zero.mp h_mul).resolve_left h_two)
  by_cases h_v : v = 0
  · -- then `u = 0`, and `v' = 0` as well
    obtain rfl := u_eq_zero (equation h) h_v
    obtain rfl := v_eq_zero (equation h') rfl
    simp [h_v]
  have h_v' : v' ≠ 0 := by
    rintro rfl
    obtain rfl := u_eq_zero (equation h') rfl
    exact h_v (v_eq_zero (equation h) rfl)
  have h_u : u ≠ 0 := by
    rintro rfl
    exact h_v (v_eq_zero (equation h) rfl)
  have h_scale := scale_ne_zero
  have h_eq : v = v' := by
    rw [div_eq_div_iff h_v h_v'] at h_x
    exact (mul_left_cancel₀ (mul_ne_zero h_scale h_u) h_x).symm
  subst h_eq
  rfl

theorem x_neg (P : Pt) : x (-P) = -x P := by
  rcases P with _ | ⟨u, v, h⟩
  · exact neg_zero.symm
  · rw [Point.neg_some]
    simp only [x, negY_eq, div_neg]

theorem y_neg (P : Pt) : y (-P) = y P := by
  rcases P with _ | ⟨u, v, h⟩ <;> rfl

/-! ### Lifting a coordinate -/

/-- `1 + d·y²` never vanishes, `-d` being no square. -/
theorem one_add_ne_zero (y' : ZMod p25519) : 1 + edwardsD * y' ^ 2 ≠ 0 := by
  intro h_zero
  -- a root would make `-d`, and with it this product, a square
  have h_square : ¬ IsSquare ((121665 * 121666 : ℕ) : ZMod p25519) :=
    not_isSquare_of_powMod (by norm_num : p25519 < 2 ^ 256) (by norm_num) (by decide +kernel)
  apply h_square
  refine ⟨121665 * y', ?_⟩
  push_cast
  linear_combination (121665 * 121666 : ZMod p25519) * h_zero - 121665 * y' ^ 2 * edwardsD_eq

/-- Points with one `y` are equal or opposite. -/
theorem eq_or_eq_neg {P Q : Pt} (h : y P = y Q) : P = Q ∨ P = -Q := by
  -- the curve equation determines `x ^ 2` from `y`
  have h_sq : x P ^ 2 = x Q ^ 2 := by
    have h_P := onCurve P
    have h_Q := onCurve Q
    rw [OnCurve, h] at h_P
    unfold OnCurve at h_Q
    apply mul_right_cancel₀ (one_add_ne_zero (y Q))
    linear_combination h_Q - h_P
  rcases sq_eq_sq_iff_eq_or_eq_neg.mp h_sq with h_x | h_x
  · exact Or.inl (point_ext h_x h)
  · exact Or.inr (point_ext (by rw [h_x, x_neg]) (by rw [h, y_neg]))

/-- A `y` and a sign determine the point. -/
theorem lift_unique {P Q : Pt} {s : ℕ} (h : y P = y Q) (h_P : parity (x P) = s ∨ x P = 0)
    (h_Q : parity (x Q) = s ∨ x Q = 0) : P = Q := by
  rcases eq_or_eq_neg h with h_eq | h_neg
  · exact h_eq
  · have h_x : x P = -x Q := by rw [h_neg, x_neg]
    by_cases h_zero : x Q = 0
    · exact point_ext (by rw [h_x, h_zero, neg_zero]) h
    · -- opposite signs cannot both be the requested one
      have h_ne : x P ≠ 0 := by rwa [h_x, neg_ne_zero]
      have h_flip := parity_neg h_zero
      have h_s := h_P.resolve_right h_ne
      have h_t := h_Q.resolve_right h_zero
      have h_le := parity_le_one (x Q)
      rw [← h_x, h_s, h_t] at h_flip
      omega

open Classical in
/-- The point at height `y'` with the requested sign of `x`, if there is one. -/
noncomputable def lift (y' : ZMod p25519) (s : ℕ) : Option Pt :=
  if h : ∃ P, y P = y' ∧ (parity (x P) = s ∨ x P = 0) then some h.choose else none

theorem lift_eq_some (y' : ZMod p25519) (s : ℕ) (P : Pt) :
    lift y' s = some P ↔ y P = y' ∧ (parity (x P) = s ∨ x P = 0) := by
  unfold lift
  split
  · rename_i h
    have h_spec := h.choose_spec
    rw [Option.some.injEq]
    refine ⟨fun h_eq => by rwa [← h_eq], fun ⟨h_y, h_s⟩ => ?_⟩
    exact lift_unique (h_spec.1.trans h_y.symm) h_spec.2 h_s
  · rename_i h
    exact ⟨fun h_eq => (nomatch h_eq), fun h_P => absurd ⟨P, h_P⟩ h⟩

/-! ### Multiplication by `u`-coordinate -/

/-- The `u`-coordinate, `0` at the identity. -/
def uCoord (P : Pt) : ZMod p25519 := (1 + y P) / (1 - y P)

theorem two_nsmul_eq_zero {P : Pt} (h : y P ^ 2 = 1) : 2 • P = 0 := by
  have h_x : x P = 0 := (onCurve P).x_eq_zero_iff.mpr h
  have h_neg : -P = P := point_ext (by rw [x_neg, h_x, neg_zero]) (y_neg P)
  rw [two_nsmul]
  nth_rewrite 1 [← h_neg]
  exact neg_add_cancel P

/-- The points at the coordinate zero are killed by two. -/
theorem two_nsmul_eq_zero_of_uCoord {P : Pt} (h : uCoord P = 0) : 2 • P = 0 :=
  two_nsmul_eq_zero (sq_eq_one_of_div_eq_zero h)

/-- Points with one coordinate, not zero, are equal or opposite. -/
theorem eq_or_eq_neg_of_uCoord {P Q : Pt} (h : uCoord P = uCoord Q) (h_ne : uCoord P ≠ 0) :
    P = Q ∨ P = -Q := by
  have h_P : 1 - y P ≠ 0 := fun h_den => h_ne (by rw [uCoord, h_den, div_zero])
  have h_Q : 1 - y Q ≠ 0 := fun h_den => h_ne (by rw [h, uCoord, h_den, div_zero])
  -- the quotient determines `y`, and `y` the point up to sign
  rw [uCoord, uCoord, div_eq_div_iff h_P h_Q] at h
  have h_mul : (2 : ZMod p25519) * (y P - y Q) = 0 := by linear_combination h
  exact eq_or_eq_neg (sub_eq_zero.mp ((mul_eq_zero.mp h_mul).resolve_left field_two_ne_zero))

/-- Even multiples of a point depend on its `u`-coordinate alone, up to sign. -/
theorem uCoord_nsmul {P Q : Pt} {n : ℕ} (h_even : 2 ∣ n) (h : uCoord P = uCoord Q) :
    uCoord (n • P) = uCoord (n • Q) :=
  coord_nsmul (fun P => by rw [uCoord, uCoord, y_neg]) (fun _ => two_nsmul_eq_zero_of_uCoord)
    (fun _ _ => eq_or_eq_neg_of_uCoord) h_even h

/-- The `u`-coordinate on the quadratic twist `y² = x³ + 2·486662x² + 4x`, where `u = x / 2`. -/
def twistU : (curve p25519 973324 4).Point → ZMod p25519
  | .zero => 0
  | .some x' _ _ => x' / 2

open Classical in
/-- The `u`-coordinate of `n` times a point above `u'`, on the curve or else on the twist. -/
noncomputable def mulU (u' : ZMod p25519) (n : ℕ) : ZMod p25519 :=
  if h : ∃ P, u' = uCoord P then uCoord (n • h.choose)
  else if h : ∃ P, u' = twistU P then twistU (n • h.choose)
  else 0

theorem mulU_uCoord {u' : ZMod p25519} {n : ℕ} (h_even : 2 ∣ n) {P : Pt} (h : u' = uCoord P) :
    mulU u' n = uCoord (n • P) := by
  have h_ex : ∃ P, u' = uCoord P := ⟨P, h⟩
  rw [mulU, dif_pos h_ex]
  exact uCoord_nsmul h_even (h_ex.choose_spec.symm.trans h)

/-! ### The instance -/

/-- The bytes of a field element, with a bit above them. -/
def encode (a : ZMod p25519) (s : ℕ) : ByteArr 32 := ByteArr.ofLe 32 (a.val + 2 ^ 255 * s)

theorem encode_value (a : ZMod p25519) {s : ℕ} (h : s ≤ 1) :
    leValue (encode a s).1 = a.val + 2 ^ 255 * s := by
  have h_lt : a.val < 2 ^ 255 := (ZMod.val_lt a).trans (by norm_num)
  exact ByteArr.leValue_ofLe (by omega)

theorem encode_field (a : ZMod p25519) : fieldOfBytes (encode a 0) = a :=
  (fieldOfBytes_of_value (encode_value a zero_le_one)).1

end Edwards25519

open Edwards25519 in
/-- **Curve25519.** -/
noncomputable def edwards25519 : Dalek where
  EdwardsPoint := Pt
  x := x
  y := y
  ed25519BasepointPoint := basepoint
  compress P := encode (y P) (parity (x P))
  decompress b := lift (fieldOfBytes b) (signBit b)
  toMontgomery P := encode (uCoord P) 0
  toEdwards u s :=
    if fieldOfBytes u = -1 then none
    else lift ((fieldOfBytes u - 1) / (fieldOfBytes u + 1)) (s.toNat % 2)
  mulBaseClamped k := encode (uCoord (clampInteger k • basepoint)) 0
  mulClamped u k := encode (mulU (fieldOfBytes u) (clampInteger k)) 0
  Scalar := Fin ell
  mulScalar P s := s.val • P
  fromBytesModOrder b := Fin.ofNat ell (leValue b.1)
  fromBytesModOrderWide b := Fin.ofNat ell (leValue b.1)
  fromCanonicalBytes b := if h : leValue b.1 < ell then some ⟨leValue b.1, h⟩ else none
  toBytes s := ByteArr.ofLe 32 s.val

namespace Edwards25519

theorem toEdwards_eq_some (u : ByteArr 32) (s : UInt8) (P : Pt) :
    edwards25519.toEdwards u s = some P ↔ fieldOfBytes u ≠ -1 ∧
      y P = (fieldOfBytes u - 1) / (fieldOfBytes u + 1) ∧
        (parity (x P) = s.toNat % 2 ∨ x P = 0) := by
  rw [← lift_eq_some]
  simp only [edwards25519]
  split
  · rename_i h_minus
    simp [h_minus]
  · rename_i h_minus
    exact ⟨fun h => ⟨h_minus, h⟩, fun h => h.2⟩

theorem two_dvd_clampInteger (k : ByteArr 32) : 2 ∣ clampInteger k :=
  (by norm_num : 2 ∣ 8).trans (isClamped_clampInteger k).eight_dvd

theorem mulClamped_eq (u k : ByteArr 32) (P : Pt) (h : fieldOfBytes u = uCoord P) :
    edwards25519.mulClamped u k = encode (uCoord (clampInteger k • P)) 0 := by
  simp only [edwards25519]
  rw [mulU_uCoord (two_dvd_clampInteger k) h]

theorem intOf_eq (s : Fin ell) : edwards25519.intOf s = s.val :=
  ByteArr.leValue_ofLe (s.isLt.trans (by norm_num))

theorem fromCanonicalBytes_eq_some (b : ByteArr 32) (s : Fin ell) :
    edwards25519.fromCanonicalBytes b = some s ↔ edwards25519.toBytes s = b := by
  simp only [edwards25519]
  refine ⟨?_, ?_⟩
  · intro h_some
    split at h_some
    · rw [← Option.some.inj h_some]
      exact ByteArr.ofLe_leValue b
    · exact nomatch h_some
  · intro h_bytes
    -- the bytes of a scalar are below `ℓ`, hence accepted, and give it back
    have h_value : leValue b.1 = s.val := by
      rw [← h_bytes]
      exact intOf_eq s
    rw [dif_pos (by rw [h_value]; exact s.isLt)]
    exact congrArg some (Fin.ext h_value)

theorem add_value (s t : Fin ell) : edwards25519.intOf (s + t : Fin ell) =
    (edwards25519.intOf s + edwards25519.intOf t) % ell := by
  rw [intOf_eq, intOf_eq, intOf_eq, Fin.val_add]

theorem mul_value (s t : Fin ell) : edwards25519.intOf (s * t : Fin ell) =
    edwards25519.intOf s * edwards25519.intOf t % ell := by
  rw [intOf_eq, intOf_eq, intOf_eq, Fin.val_mul]

theorem neg_value (s : Fin ell) :
    edwards25519.intOf (-s : Fin ell) = (ell - edwards25519.intOf s) % ell := by
  rw [intOf_eq, intOf_eq, Fin.val_neg']

end Edwards25519

open Edwards25519 in
/-- **The assumptions hold of Curve25519.** -/
theorem edwards25519_lawful : edwards25519.Lawful where
  card_points := card_point
  order_basepoint := addOrderOf_basepoint
  onCurve := onCurve
  exists_point := exists_point
  point_ext := point_ext
  x_zero := rfl
  y_zero := rfl
  x_neg := x_neg
  y_neg := y_neg
  compress_value _ := encode_value _ (parity_le_one _)
  decompress_eq_some _ _ := lift_eq_some _ _ _
  toMontgomery_value _ := encode_value _ zero_le_one
  toEdwards_eq_some := toEdwards_eq_some
  mulBaseClamped_eq _ := rfl
  mulClamped_eq u k P h := mulClamped_eq u k P (h.trans (encode_field _))
  intOf_lt s := (intOf_eq s).trans_lt (Fin.isLt _)
  fromBytesModOrder_value _ := intOf_eq _
  fromBytesModOrderWide_value _ := intOf_eq _
  fromCanonicalBytes_eq_some := fromCanonicalBytes_eq_some
  add_value := add_value
  mul_value := mul_value
  neg_value := neg_value
  mulScalar_eq P s := congrArg (· • P) (intOf_eq s).symm

end SignalisCore
