import Mathlib.AlgebraicGeometry.EllipticCurve.Affine.Point
import Mathlib.Algebra.Field.ZMod
import Mathlib.SetTheory.Cardinal.Finite

/-!
# Curves `y² = x³ + a₂x² + a₄x` over a prime field, computed on natural numbers

The group of points is Mathlib's. A multiple `n • P` is evaluated by double-and-add in homogeneous
coordinates, all reduced mod `p`, so that the kernel can check it for an `n` of cryptographic size:

* `Represents P Q`: the triple of naturals `P` stands for the affine point `Q`.
* `double_represents`, `addMixed_represents`: one doubling, one addition of an affine point.
* `mulTriple_represents`: a run of double-and-add.
* `nsmul_eq_of_mulCheck`: a check that evaluates to `true` gives `n • P` its coordinates.
* `card_point_le`: there are at most `2p + 1` points.
* `coord_nsmul`: a coordinate that forgets the sign of a point is enough for even multiples.
-/

namespace MontgomeryCurve

open WeierstrassCurve.Affine

variable {p : ℕ} [Fact p.Prime] {a₂ a₄ : ℕ}

/-- The curve `y² = x³ + a₂x² + a₄x` over `ZMod p`. -/
def curve (p a₂ a₄ : ℕ) : WeierstrassCurve.Affine (ZMod p) :=
  { a₁ := 0, a₂ := a₂, a₃ := 0, a₄ := a₄, a₆ := 0 }

theorem equation_iff (x y : ZMod p) :
    (curve p a₂ a₄).Equation x y ↔ y ^ 2 = x ^ 3 + a₂ * x ^ 2 + a₄ * x := by
  rw [WeierstrassCurve.Affine.equation_iff]
  simp [curve]

@[simp] theorem negY_eq (x y : ZMod p) : (curve p a₂ a₄).negY x y = -y := by
  simp [negY, curve]

/-- On a curve of non-zero discriminant every solution is a nonsingular point. -/
theorem nonsingular_of_equation (h_disc : (16 * a₄ ^ 2 * (a₂ ^ 2 - 4 * a₄) : ZMod p) ≠ 0)
    {x y : ZMod p} (h : y ^ 2 = x ^ 3 + a₂ * x ^ 2 + a₄ * x) :
    (curve p a₂ a₄).Nonsingular x y := by
  have h_Δ : (curve p a₂ a₄).Δ ≠ 0 := by
    convert h_disc using 1
    simp only [curve, WeierstrassCurve.Δ, WeierstrassCurve.b₂, WeierstrassCurve.b₄,
      WeierstrassCurve.b₆, WeierstrassCurve.b₈]
    ring
  exact (equation_iff_nonsingular_of_Δ_ne_zero h_Δ).mp ((equation_iff x y).mpr h)

/-! ### Coordinates that forget the sign -/

section Coordinates

theorem nsmul_eq_zero_of_two_dvd {G : Type*} [AddMonoid G] {P : G} {n : ℕ} (h_even : 2 ∣ n)
    (h : 2 • P = 0) : n • P = 0 := by
  obtain ⟨m, rfl⟩ := h_even
  rw [mul_nsmul, h, nsmul_zero]

/-- **Even multiples** depend on the coordinate alone, if it determines points up to sign wherever
it does not vanish, and vanishes only where doubling gives zero. -/
theorem coord_nsmul {G F : Type*} [AddGroup G] [Zero F] {c : G → F} (h_neg : ∀ P, c (-P) = c P)
    (h_two : ∀ P, c P = 0 → 2 • P = 0) (h_sign : ∀ P Q, c P = c Q → c P ≠ 0 → P = Q ∨ P = -Q)
    {P Q : G} {n : ℕ} (h_even : 2 ∣ n) (h : c P = c Q) : c (n • P) = c (n • Q) := by
  by_cases h_zero : c P = 0
  · rw [nsmul_eq_zero_of_two_dvd h_even (h_two P h_zero),
      nsmul_eq_zero_of_two_dvd h_even (h_two Q (h ▸ h_zero))]
  · rcases h_sign P Q h h_zero with rfl | rfl
    · rfl
    · rw [neg_nsmul, h_neg]

/-- The Edwards height above the Montgomery coordinate zero. -/
theorem sq_eq_one_of_div_eq_zero {F : Type*} [Field F] {y : F} (h : (1 + y) / (1 - y) = 0) :
    y ^ 2 = 1 := by
  rcases div_eq_zero_iff.mp h with h_num | h_den
  · linear_combination (y - 1) * h_num
  · linear_combination (-y - 1) * h_den

end Coordinates

/-! ### Triples -/

/-- Homogeneous coordinates, as naturals to be read mod `p`. -/
structure Triple where
  /-- The numerator of `x`. -/
  X : ℕ
  /-- The numerator of `y`. -/
  Y : ℕ
  /-- The common denominator. -/
  Z : ℕ

/-- Subtraction mod `p` without leaving the naturals. -/
def subMod (p a b : ℕ) : ℕ := (a + (p - b % p)) % p

theorem cast_subMod (a b : ℕ) : (subMod p a b : ZMod p) = a - b := by
  have h_pos : 0 < p := (Fact.out : p.Prime).pos
  rw [subMod, ZMod.natCast_mod, Nat.cast_add, Nat.cast_sub (Nat.mod_lt _ h_pos).le]
  simp [sub_eq_add_neg]

/-- The tangent construction, with slope `w / s`. -/
def double (p a₂ a₄ : ℕ) (P : Triple) : Triple :=
  let s := 2 * P.Y * P.Z % p
  let w := (3 * P.X * P.X + 2 * a₂ * P.X * P.Z + a₄ * P.Z * P.Z) % p
  let s₂ := s * s % p
  let n := subMod p (w * w * P.Z) (a₂ * s₂ * P.Z + 2 * P.X * s₂)
  ⟨s * n % p, subMod p (w * subMod p (P.X * s₂) n) (P.Y * s₂ * s), s₂ * s * P.Z % p⟩

/-- The chord construction through `P` and the affine point `(x, y)`, with slope `w / s`. -/
def addMixed (p a₂ x y : ℕ) (P : Triple) : Triple :=
  let s := subMod p (x * P.Z) P.X
  let w := subMod p (y * P.Z) P.Y
  let s₂ := s * s % p
  let d := s₂ * P.Z % p
  let n := subMod p (w * w * P.Z) (a₂ * d + P.X * s₂ + x * d)
  ⟨s * n % p, subMod p (w * subMod p (x * d) n) (y * d * s), d * s % p⟩

/-- The triple `P` stands for the affine point `Q`. -/
structure Represents (P : Triple) (Q : (curve p a₂ a₄).Point) : Prop where
  /-- The denominator is invertible. -/
  Z_ne_zero : (P.Z : ZMod p) ≠ 0
  /-- The quotients are the coordinates. -/
  coords : ∃ x y, ∃ h, Q = Point.some x y h ∧ (P.X : ZMod p) = x * P.Z ∧ (P.Y : ZMod p) = y * P.Z

theorem double_Z (P : Triple) :
    ((double p a₂ a₄ P).Z : ZMod p) = (2 * P.Y * P.Z) ^ 3 * P.Z := by
  simp only [double]
  push_cast [ZMod.natCast_mod]
  ring

theorem addMixed_Z (x y : ℕ) (P : Triple) :
    ((addMixed p a₂ x y P).Z : ZMod p) = (x * P.Z - P.X) ^ 3 * P.Z := by
  simp only [addMixed]
  push_cast [ZMod.natCast_mod, cast_subMod]
  ring

/-- **One doubling**, where the denominator it computes is not zero. -/
theorem double_represents {P : Triple} {Q : (curve p a₂ a₄).Point} (h : Represents P Q)
    (h_Z : ((double p a₂ a₄ P).Z : ZMod p) ≠ 0) : Represents (double p a₂ a₄ P) (Q + Q) := by
  obtain ⟨hZ, x, y, hQ, rfl, hX, hY⟩ := h
  -- the denominator of the result has `2 * y` as a factor
  have h_two : 2 * y ≠ 0 := by
    rintro h_zero
    rw [double_Z, hY, ← mul_assoc, h_zero] at h_Z
    simp at h_Z
  have h_2 : (2 : ZMod p) ≠ 0 := left_ne_zero_of_mul h_two
  have h_y : y ≠ 0 := right_ne_zero_of_mul h_two
  have h_ne : y ≠ (curve p a₂ a₄).negY x y := by
    rw [negY_eq, Ne, eq_neg_iff_add_eq_zero, ← two_mul]
    exact h_two
  -- the tangent has the slope that `double` computes
  have h_slope : (curve p a₂ a₄).slope x x y y = (3 * x ^ 2 + 2 * a₂ * x + a₄) / (2 * y) := by
    rw [slope_of_Y_ne rfl h_ne, negY_eq]
    simp [curve, two_mul]
  -- both coordinates are identities between quotients
  refine ⟨h_Z, _, _, _, Point.add_self_of_Y_ne h_ne, ?_, ?_⟩
  · rw [h_slope, double_Z]
    simp only [double, addX]
    push_cast [ZMod.natCast_mod, cast_subMod]
    rw [hX, hY]
    simp only [curve]
    field_simp
    ring
  · rw [h_slope, double_Z]
    simp only [double, addY, negAddY, addX, negY_eq]
    push_cast [ZMod.natCast_mod, cast_subMod]
    rw [hX, hY]
    simp only [curve]
    field_simp
    ring

/-- **One addition** of an affine point, where the denominator it computes is not zero. -/
theorem addMixed_represents {P : Triple} {Q : (curve p a₂ a₄).Point} (h : Represents P Q)
    {x y : ℕ} (h_G : (curve p a₂ a₄).Nonsingular x y)
    (h_Z : ((addMixed p a₂ x y P).Z : ZMod p) ≠ 0) :
    Represents (addMixed p a₂ x y P) (Q + Point.some _ _ h_G) := by
  obtain ⟨hZ, x', y', hQ, rfl, hX, hY⟩ := h
  -- the denominator of the result has `x' - x` as a factor
  have h_sub : (x' - x : ZMod p) ≠ 0 := by
    intro h_zero
    rw [addMixed_Z, hX, ← sub_mul, ← neg_sub, h_zero] at h_Z
    simp at h_Z
  have h_ne : x' ≠ x := sub_ne_zero.mp h_sub
  -- both coordinates are identities between quotients
  refine ⟨h_Z, _, _, _, Point.add_of_X_ne h_ne, ?_, ?_⟩
  · rw [slope_of_X_ne h_ne, addMixed_Z]
    simp only [addMixed, addX]
    push_cast [ZMod.natCast_mod, cast_subMod]
    rw [hX, hY]
    simp only [curve]
    field_simp
    ring
  · rw [slope_of_X_ne h_ne, addMixed_Z]
    simp only [addMixed, addY, negAddY, addX, negY_eq]
    push_cast [ZMod.natCast_mod, cast_subMod]
    rw [hX, hY]
    simp only [curve]
    field_simp
    ring

/-! ### Double-and-add -/

/-- `n • (x, y)` by double-and-add from the top bit, for `0 < n` of at most `fuel` bits. -/
def mulTriple (p a₂ a₄ x y : ℕ) : ℕ → ℕ → Triple
  | 0, _ => ⟨x, y, 1⟩
  | fuel + 1, n =>
    if n ≤ 1 then ⟨x, y, 1⟩
    else
      let P := double p a₂ a₄ (mulTriple p a₂ a₄ x y fuel (n / 2))
      if n % 2 = 0 then P else addMixed p a₂ x y P

/-- The affine point itself. -/
theorem represents_self {x y : ℕ} (h_G : (curve p a₂ a₄).Nonsingular x y) :
    Represents ⟨x, y, 1⟩ (Point.some _ _ h_G) :=
  ⟨by simp, _, _, h_G, rfl, by simp, by simp⟩

/-- A zero denominator stays zero, so a run without one at its end met none before. -/
theorem mulTriple_Z_ne_zero {x y fuel n : ℕ} (h_one : ¬n ≤ 1)
    (h_Z : ((mulTriple p a₂ a₄ x y (fuel + 1) n).Z : ZMod p) ≠ 0) :
    ((double p a₂ a₄ (mulTriple p a₂ a₄ x y fuel (n / 2))).Z : ZMod p) ≠ 0 ∧
    ((mulTriple p a₂ a₄ x y fuel (n / 2)).Z : ZMod p) ≠ 0 := by
  rw [mulTriple, if_neg h_one] at h_Z
  have h_double : ((double p a₂ a₄ (mulTriple p a₂ a₄ x y fuel (n / 2))).Z : ZMod p) ≠ 0 := by
    intro h_zero
    split at h_Z
    · exact h_Z h_zero
    · rw [addMixed_Z, h_zero, mul_zero] at h_Z
      exact h_Z rfl
  refine ⟨h_double, ?_⟩
  intro h_zero
  rw [double_Z, h_zero, mul_zero] at h_double
  exact h_double rfl

/-- **A run of double-and-add**: a run that ends with an invertible denominator never met a zero
one, so it computed the multiple. -/
theorem mulTriple_represents {x y : ℕ} (h_G : (curve p a₂ a₄).Nonsingular x y) {fuel n : ℕ}
    (h_pos : 0 < n) (h_fuel : n < 2 ^ fuel)
    (h_Z : ((mulTriple p a₂ a₄ x y fuel n).Z : ZMod p) ≠ 0) :
    Represents (mulTriple p a₂ a₄ x y fuel n) (n • Point.some _ _ h_G) := by
  induction fuel generalizing n with
  | zero =>
    rw [pow_zero] at h_fuel
    omega
  | succ fuel ih =>
    by_cases h_one : n ≤ 1
    · obtain rfl : n = 1 := by omega
      rw [mulTriple, if_pos le_rfl, one_nsmul]
      exact represents_self h_G
    -- the run for `n` doubles the result of the run for `n / 2`, and adds the point if `n` is odd
    have h_half : n / 2 < 2 ^ fuel := by
      rw [pow_succ] at h_fuel
      omega
    obtain ⟨h_double, h_inner⟩ := mulTriple_Z_ne_zero h_one h_Z
    have h_rep := double_represents (ih (by omega) h_half h_inner) h_double
    rw [← two_nsmul, ← mul_nsmul'] at h_rep
    rw [mulTriple, if_neg h_one] at h_Z ⊢
    split at h_Z
    · rename_i h_even
      rw [if_pos h_even]
      rwa [show 2 * (n / 2) = n by omega] at h_rep
    · rename_i h_odd
      rw [if_neg h_odd]
      have h_add := addMixed_represents h_rep h_G h_Z
      rwa [← succ_nsmul, show 2 * (n / 2) + 1 = n by omega] at h_add

/-- The run for `n` ends in the affine point `(x', y')`. -/
def mulCheck (p a₂ a₄ x y fuel n x' y' : ℕ) : Bool :=
  let P := mulTriple p a₂ a₄ x y fuel n
  decide (0 < n) && decide (n < 2 ^ fuel) && decide (P.Z % p ≠ 0) &&
    decide (P.X % p = x' * P.Z % p) && decide (P.Y % p = y' * P.Z % p)

/-- **Multiples by evaluation.** -/
theorem nsmul_eq_of_mulCheck {x y fuel n x' y' : ℕ} (h_G : (curve p a₂ a₄).Nonsingular x y)
    (h : mulCheck p a₂ a₄ x y fuel n x' y' = true) :
    ∃ h' : (curve p a₂ a₄).Nonsingular x' y', n • Point.some _ _ h_G = Point.some _ _ h' := by
  simp only [mulCheck, Bool.and_eq_true, decide_eq_true_eq] at h
  obtain ⟨⟨⟨⟨h_pos, h_fuel⟩, h_Z⟩, h_X⟩, h_Y⟩ := h
  have h_Z' : ((mulTriple p a₂ a₄ x y fuel n).Z : ZMod p) ≠ 0 := by
    rwa [Ne, ZMod.natCast_eq_zero_iff, Nat.dvd_iff_mod_eq_zero]
  obtain ⟨-, x₁, y₁, h₁, h_eq, h_X₁, h_Y₁⟩ := mulTriple_represents h_G h_pos h_fuel h_Z'
  -- the checked products and an invertible denominator determine both coordinates
  obtain rfl : x₁ = x' := by
    rw [(ZMod.natCast_eq_natCast_iff' _ _ _).mpr h_X, Nat.cast_mul] at h_X₁
    exact (mul_right_cancel₀ h_Z' h_X₁).symm
  obtain rfl : y₁ = y' := by
    rw [(ZMod.natCast_eq_natCast_iff' _ _ _).mpr h_Y, Nat.cast_mul] at h_Y₁
    exact (mul_right_cancel₀ h_Z' h_Y₁).symm
  exact ⟨h₁, h_eq⟩

/-! ### Counting points -/

/-- A point as its `x`-coordinate and the parity of its `y`-coordinate. -/
def code : (curve p a₂ a₄).Point → Option (ZMod p × Bool)
  | .zero => none
  | .some x y _ => some (x, decide (y.val % 2 = 0))

/-- Opposite residues modulo an odd number have opposite parities. -/
theorem val_neg_mod_two (h_odd : p % 2 = 1) {y : ZMod p} (h_ne : y ≠ 0) :
    (-y).val % 2 = 1 - y.val % 2 := by
  have h_neg := ZMod.neg_val y
  have h_lt := ZMod.val_lt y
  rw [if_neg h_ne] at h_neg
  omega

theorem code_injective (h_odd : p % 2 = 1) :
    Function.Injective (code : (curve p a₂ a₄).Point → _) := by
  rintro (_ | ⟨x, y, h⟩) (_ | ⟨x', y', h'⟩) h_code
  · rfl
  · simp [code] at h_code
  · simp [code] at h_code
  · simp only [code, Option.some.injEq, Prod.mk.injEq, decide_eq_decide] at h_code
    obtain ⟨rfl, h_parity⟩ := h_code
    -- two points above one `x` are equal or opposite
    rcases Y_eq_of_X_eq h.1 h'.1 rfl with rfl | h_neg
    · rfl
    · rw [negY_eq] at h_neg
      subst h_neg
      by_cases h_zero : y' = 0
      · simp [h_zero]
      -- opposite points differ in the parity of `y`
      · have h_val := val_neg_mod_two h_odd h_zero
        omega

/-- **At most `2p + 1` points.** -/
theorem card_point_le (h_odd : p % 2 = 1) :
    Finite (curve p a₂ a₄).Point ∧ Nat.card (curve p a₂ a₄).Point ≤ 2 * p + 1 := by
  have h_inj : Function.Injective (code : (curve p a₂ a₄).Point → _) := code_injective h_odd
  refine ⟨Finite.of_injective _ h_inj, ?_⟩
  have h_le := Nat.card_le_card_of_injective _ h_inj
  rw [Finite.card_option, Nat.card_prod, Nat.card_zmod,
    show Nat.card Bool = 2 from Nat.card_eq_fintype_card] at h_le
  omega

end MontgomeryCurve
