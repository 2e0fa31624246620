import SignalisCore.Library.MontgomeryCurve
import Mathlib.NumberTheory.LegendreSymbol.QuadraticChar.Basic

/-!
# The quadratic twist of `y² = x³ + a₂x² + a₄x`

For a nonsquare `d` the twist is `y² = x³ + d·a₂x² + d²·a₄x`, whose points lie above the `d·u` for
which the cubic of the curve is no square at `u`. So every `u` has two roots on one of the two
curves, or a root of the cubic on both.

* `card_point_eq`: a point count as a sum of quadratic characters.
* `card_point_add_card_twist`: the two curves have `2p + 2` points together.
* `exists_sq_or_exists_sq_twist`: every `u` lies on the curve or, as `d·u`, on the twist.
-/

namespace MontgomeryCurve

open WeierstrassCurve.Affine

variable {p : ℕ} [Fact p.Prime]

/-- The right side of the curve equation. -/
def cubic (p a₂ a₄ : ℕ) (x : ZMod p) : ZMod p := x ^ 3 + a₂ * x ^ 2 + a₄ * x

/-- Scaling `x` by `d` scales the cubic by `d ^ 3`. -/
theorem cubic_twist (a₂ a₄ d : ℕ) (x : ZMod p) :
    cubic p (d * a₂) (d ^ 2 * a₄) (d * x) = d ^ 3 * cubic p a₂ a₄ x := by
  unfold cubic
  push_cast
  ring

/-- A product of two nonsquares is a square. -/
theorem isSquare_mul_of_not_isSquare {a b : ZMod p} (h_a : ¬ IsSquare a) (h_b : ¬ IsSquare b) :
    IsSquare (a * b) := by
  have h_a_ne : a ≠ 0 := fun h => h_a (h ▸ IsSquare.zero)
  have h_b_ne : b ≠ 0 := fun h => h_b (h ▸ IsSquare.zero)
  rw [← quadraticChar_one_iff_isSquare (mul_ne_zero h_a_ne h_b_ne), map_mul,
    quadraticChar_neg_one_iff_not_isSquare.mpr h_a, quadraticChar_neg_one_iff_not_isSquare.mpr h_b]
  norm_num

/-- **Every `u`** lies on the curve or on the twist. -/
theorem exists_sq_or_exists_sq_twist {d : ℕ} (h_d : ¬ IsSquare (d : ZMod p)) (a₂ a₄ : ℕ)
    (u : ZMod p) :
    (∃ v, v ^ 2 = cubic p a₂ a₄ u) ∨ ∃ w, w ^ 2 = cubic p (d * a₂) (d ^ 2 * a₄) (d * u) := by
  by_cases h : IsSquare (cubic p a₂ a₄ u)
  · obtain ⟨v, h_v⟩ := h
    exact .inl ⟨v, by rw [h_v, sq]⟩
  · -- both `d` and the cubic are nonsquares
    obtain ⟨w, h_w⟩ := isSquare_mul_of_not_isSquare h_d h
    refine .inr ⟨d * w, ?_⟩
    rw [cubic_twist]
    linear_combination (-(d : ZMod p) ^ 2) * h_w

/-- Only a root of the cubic lies on both. -/
theorem cubic_eq_zero_of_sq_of_sq_twist {d : ℕ} (h_d : ¬ IsSquare (d : ZMod p)) {a₂ a₄ : ℕ}
    {u v w : ZMod p} (h_v : v ^ 2 = cubic p a₂ a₄ u)
    (h_w : w ^ 2 = cubic p (d * a₂) (d ^ 2 * a₄) (d * u)) : cubic p a₂ a₄ u = 0 := by
  have h_d_ne : (d : ZMod p) ≠ 0 := fun h => h_d (h ▸ IsSquare.zero)
  rw [cubic_twist] at h_w
  by_contra h_ne
  -- otherwise `d = (w / (d * v)) ^ 2`
  have h_v_ne : v ≠ 0 := by
    rintro rfl
    exact h_ne (by rw [← h_v]; ring)
  apply h_d
  refine ⟨w / (d * v), ?_⟩
  field_simp
  rw [h_w, ← h_v]

/-! ### Counting -/

/-- The square roots of a field element, counted. -/
theorem card_sqrts (h_p : p ≠ 2) (a : ZMod p) :
    (Nat.card {y : ZMod p // y ^ 2 = a} : ℤ) = quadraticChar (ZMod p) a + 1 := by
  have h_char : ringChar (ZMod p) ≠ 2 := by rwa [ZMod.ringChar_zmod_n]
  have h_set : Nat.card {y : ZMod p // y ^ 2 = a} =
      ({y : ZMod p | y ^ 2 = a} : Set (ZMod p)).toFinset.card := by
    rw [Set.toFinset_card, Nat.card_eq_fintype_card]
    rfl
  rw [h_set]
  exact quadraticChar_card_sqrts h_char a

/-- **The number of points**, one at infinity and the square roots above each `x`. -/
theorem card_point_eq (h_p : p ≠ 2) {a₂ a₄ : ℕ}
    (h_disc : (16 * a₄ ^ 2 * (a₂ ^ 2 - 4 * a₄) : ZMod p) ≠ 0) :
    (Nat.card (curve p a₂ a₄).Point : ℤ) =
      1 + ∑ x, (quadraticChar (ZMod p) (cubic p a₂ a₄ x) + 1) := by
  -- the affine points are the pairs that satisfy the equation
  have h_iff : ∀ xy : ZMod p × ZMod p, (curve p a₂ a₄).Nonsingular xy.1 xy.2 ↔
      xy.2 ^ 2 = cubic p a₂ a₄ xy.1 := fun xy =>
    ⟨fun h => (MontgomeryCurve.equation_iff _ _).mp h.1, nonsingular_of_equation h_disc⟩
  have h_affine : Nat.card {xy : ZMod p × ZMod p // (curve p a₂ a₄).Nonsingular xy.1 xy.2} =
      ∑ x, Nat.card {y : ZMod p // y ^ 2 = cubic p a₂ a₄ x} := by
    rw [Nat.card_congr (Equiv.subtypeEquivRight h_iff),
      Nat.card_congr (Equiv.subtypeProdEquivSigmaSubtype fun x y => y ^ 2 = cubic p a₂ a₄ x),
      Nat.card_sigma]
  have h_option : Nat.card (curve p a₂ a₄).Point =
      Nat.card {xy : ZMod p × ZMod p // (curve p a₂ a₄).Nonsingular xy.1 xy.2} + 1 := by
    rw [Nat.card_congr (nonsingularPointEquiv (curve p a₂ a₄))]
    exact Finite.card_option
  rw [h_option, h_affine]
  push_cast
  simp only [card_sqrts h_p]
  ring

/-- The twist of a curve without singular points has none either. -/
theorem disc_twist_ne_zero {a₂ a₄ d : ℕ} (h_d : (d : ZMod p) ≠ 0)
    (h_disc : (16 * a₄ ^ 2 * (a₂ ^ 2 - 4 * a₄) : ZMod p) ≠ 0) :
    (16 * (d ^ 2 * a₄ : ℕ) ^ 2 * ((d * a₂ : ℕ) ^ 2 - 4 * (d ^ 2 * a₄ : ℕ)) : ZMod p) ≠ 0 := by
  have h_eq : (16 * (d ^ 2 * a₄ : ℕ) ^ 2 * ((d * a₂ : ℕ) ^ 2 - 4 * (d ^ 2 * a₄ : ℕ)) : ZMod p) =
      d ^ 6 * (16 * a₄ ^ 2 * (a₂ ^ 2 - 4 * a₄)) := by
    push_cast
    ring
  rw [h_eq]
  exact mul_ne_zero (pow_ne_zero _ h_d) h_disc

/-- The characters above the twist are the opposites of those above the curve. -/
theorem sum_quadraticChar_twist {a₂ a₄ d : ℕ} (h_d : ¬ IsSquare (d : ZMod p))
    (h_d_ne : (d : ZMod p) ≠ 0) :
    ∑ x, quadraticChar (ZMod p) (cubic p (d * a₂) (d ^ 2 * a₄) x) =
      -∑ x, quadraticChar (ZMod p) (cubic p a₂ a₄ x) := by
  -- above `d * x` the twist has the character that the curve has not above `x`
  have h_char : ∀ x : ZMod p, quadraticChar (ZMod p) (cubic p (d * a₂) (d ^ 2 * a₄) (d * x)) =
      -quadraticChar (ZMod p) (cubic p a₂ a₄ x) := by
    intro x
    rw [cubic_twist, map_mul, map_pow, quadraticChar_neg_one_iff_not_isSquare.mpr h_d]
    ring
  rw [← Equiv.sum_comp (Equiv.mulLeft₀ (d : ZMod p) h_d_ne), ← Finset.sum_neg_distrib]
  exact Finset.sum_congr rfl fun x _ => h_char x

/-- **The curve and its twist** have `2p + 2` points together. -/
theorem card_point_add_card_twist (h_p : p ≠ 2) {a₂ a₄ d : ℕ}
    (h_disc : (16 * a₄ ^ 2 * (a₂ ^ 2 - 4 * a₄) : ZMod p) ≠ 0)
    (h_d : ¬ IsSquare (d : ZMod p)) :
    Nat.card (curve p a₂ a₄).Point + Nat.card (curve p (d * a₂) (d ^ 2 * a₄)).Point =
      2 * p + 2 := by
  have h_d_ne : (d : ZMod p) ≠ 0 := fun h => h_d (h ▸ IsSquare.zero)
  have h_curve := card_point_eq h_p h_disc
  have h_twist := card_point_eq h_p (disc_twist_ne_zero h_d_ne h_disc)
  rw [Finset.sum_add_distrib, sum_quadraticChar_twist h_d h_d_ne] at h_twist
  rw [Finset.sum_add_distrib] at h_curve
  -- the characters cancel, and `1` is summed up over the field twice
  have h_card : ∑ _x : ZMod p, (1 : ℤ) = p := by
    rw [Finset.sum_const, Finset.card_univ, ZMod.card, nsmul_eq_mul, mul_one]
  rw [h_card] at h_curve h_twist
  omega

end MontgomeryCurve
