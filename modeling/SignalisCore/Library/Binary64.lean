import Mathlib

/-!
# Natural numbers in binary64

Lean's `Float` has a logical model; `view` reads a float as the number it denotes. Addition is
looked at only where both operands are natural numbers: below `2 ^ 53` it is exact, and a sum that
has reached `2 ^ 53` stays there, whatever is rounded.

* `view_round`: what rounding does to a mantissa with enough bits.
* `view_add`: the sum of two natural numbers.
* `view_foldl_add`: the sum of a list of natural numbers.
* `view_ofNat`: a natural number as a float.
-/

namespace Binary64

open Float.Model Float.Model.UnpackedFloat

/-- The number that a float denotes. -/
inductive View
  /-- Not a number. -/
  | nan
  /-- An infinity. -/
  | inf (negative : Bool)
  /-- A finite number; the two zeros are one. -/
  | fin (q : ℚ)
  deriving DecidableEq

/-- The number that an unpacked float denotes. -/
def viewUnpacked : UnpackedFloat → View
  | .notANumber => .nan
  | .infinity .positive => .inf false
  | .infinity .negative => .inf true
  | .zero _ => .fin 0
  | .finite .positive m e _ => .fin (m * 2 ^ e)
  | .finite .negative m e _ => .fin (-(m * 2 ^ e))

/-- **The number that a float denotes.** -/
def view (x : Float) : View := viewUnpacked x.toModel.unpack

/-! ### Packing -/

theorem toNat_implicit_append (y : BitVec 52) : (1#1 ++ y).toNat = 2 ^ 52 + y.toNat := by
  rw [BitVec.toNat_append, ← Nat.shiftLeft_add_eq_or_of_lt y.isLt, Nat.shiftLeft_eq]
  rfl

/-- An exponent field that is not reserved is read with the implicit bit in front. -/
theorem unpack_packComponents (s : Sign) (x : BitVec 11) (y : BitVec 52) (h_max : x ≠ -1#11)
    (h_min : x ≠ 0#11) :
    UnpackedFloat.unpack Format.binary64 (packComponents Format.binary64 s x y) =
      .finite s (2 ^ 52 + y.toNat) (x.toNat - 1075) (by positivity) := by
  simp only [UnpackedFloat.unpack, unpackMantissa_packComponents, unpackExponent_packComponents,
    unpackSign_packComponents, Sign.ofBitVec_toBitVec]
  rw [if_neg h_max, if_neg h_min]
  congr 1
  exact toNat_implicit_append y

/-- A normal positive float survives packing, or overflows. -/
theorem view_pack {m : ℕ} {e : ℤ} (h_pos : 0 < m) (h_lo : 2 ^ 52 ≤ m) (h_hi : m < 2 ^ 53)
    (h_e : -1074 ≤ e) :
    viewUnpacked (Float.Model.pack (.finite .positive m e h_pos)).unpack =
      if e ≤ 971 then .fin (m * 2 ^ e) else .inf false := by
  have h_log : m.log2 = 52 := (Nat.log2_eq_iff (by omega)).2 ⟨h_lo, h_hi⟩
  rw [Float.Model.unpack, Float.Model.pack]
  simp only [UnpackedFloat.pack, h_log, Format.exponentBias, Format.mantissaBits]
  split_ifs with h_over h_fin h_fin
  · omega
  · rfl
  · -- a normal float: neither exponent field is reserved, and the implicit bit comes back
    have h_biased : (e + 1075).toNat < 2 ^ 11 - 1 := by omega
    have h_toNat : (BitVec.ofNat 11 (e + 1075).toNat).toNat = (e + 1075).toNat := by
      rw [BitVec.toNat_ofNat, Nat.mod_eq_of_lt (by omega)]
    have h_max : BitVec.ofNat 11 (e + 1075).toNat ≠ -1#11 := fun h =>
      absurd (congrArg BitVec.toNat h) (by rw [h_toNat]; exact h_biased.ne)
    have h_min : BitVec.ofNat 11 (e + 1075).toNat ≠ 0#11 := fun h =>
      absurd (congrArg BitVec.toNat h) (by rw [h_toNat, BitVec.toNat_zero]; omega)
    have h_frac : 2 ^ 52 + (BitVec.ofNat 52 m).toNat = m := by
      rw [BitVec.toNat_ofNat]; omega
    have h_unpack := unpack_packComponents .positive _ (BitVec.ofNat 52 m) h_max h_min
    simp only [h_frac, h_toNat, Int.toNat_of_nonneg (show 0 ≤ e + 1075 by omega),
      add_sub_cancel_right] at h_unpack
    have h_eq : e + (2 ^ (11 - 1) - 1 : ℕ) + (52 : ℕ) = e + 1075 := by norm_num; ring
    rw [← h_eq] at h_unpack
    exact congrArg viewUnpacked h_unpack
  · omega

/-- What an unpacked finite float looks like. -/
theorem unpack_finite {b : BitVec 64} {s : Sign} {m : ℕ} {e : ℤ} {h_pos : 0 < m}
    (h : UnpackedFloat.unpack Format.binary64 b = .finite s m e h_pos) :
    m < 2 ^ 53 ∧ e ≤ 971 ∧ (2 ^ 52 ≤ m ∧ -1074 ≤ e ∨ m < 2 ^ 52 ∧ e = -1074) := by
  simp only [UnpackedFloat.unpack] at h
  have h_frac : (@unpackMantissa Format.binary64 b).toNat < 2 ^ 52 := BitVec.isLt _
  have h_field : (@unpackExponent Format.binary64 b).toNat < 2 ^ 11 := BitVec.isLt _
  split_ifs at h with h_max h_inf h_min h_zero
  · -- a subnormal float
    obtain ⟨-, rfl, rfl⟩ := UnpackedFloat.finite.inj h
    rw [h_min]
    exact ⟨by omega, by decide, .inr ⟨h_frac, by decide⟩⟩
  · -- a normal float
    obtain ⟨-, rfl, rfl⟩ := UnpackedFloat.finite.inj h
    have h_app := toNat_implicit_append (@unpackMantissa Format.binary64 b)
    have h_top : (@unpackExponent Format.binary64 b).toNat ≠ 2 ^ 11 - 1 := fun h_eq =>
      h_max (BitVec.eq_of_toNat_eq h_eq)
    have h_bottom : (@unpackExponent Format.binary64 b).toNat ≠ 0 := fun h_eq =>
      h_min (BitVec.eq_of_toNat_eq h_eq)
    have h_bias : (Format.binary64.exponentBias : ℤ) = 1023 := rfl
    rw [h_bias]
    refine ⟨?_, ?_, .inl ⟨?_, ?_⟩⟩
    · exact h_app.trans_lt (by omega)
    · push_cast; omega
    · exact (Nat.le_add_right _ _).trans_eq h_app.symm
    · push_cast; omega

/-! ### Rounding -/

@[simp]
theorem mantissa_shiftRight (em : ExtendedMantissa) (k : ℕ) :
    (em >>> k).mantissa = em.mantissa / 2 ^ k := by
  induction k with
  | zero => exact (Nat.div_one _).symm
  | succ k ih =>
    have h_step : (em >>> (k + 1)).mantissa = (em >>> k).mantissa / 2 := rfl
    rw [h_step, ih, Nat.div_div_eq_div_mul, pow_succ]

/-- Shifting out zeros leaves nothing to round. -/
theorem shiftRight_mul_two_pow (f k : ℕ) :
    (⟨f * 2 ^ k, false, false⟩ : ExtendedMantissa) >>> k = ⟨f, false, false⟩ := by
  induction k generalizing f with
  | zero => simp only [pow_zero, mul_one]; rfl
  | succ k ih =>
    have h_step : (⟨f * 2 ^ (k + 1), false, false⟩ : ExtendedMantissa) >>> (k + 1) =
        ((⟨f * 2 * 2 ^ k, false, false⟩ : ExtendedMantissa) >>> k).shiftRightOne := by
      rw [mul_assoc, ← pow_succ']; rfl
    rw [h_step, ih, ExtendedMantissa.shiftRightOne]
    simp

theorem roundedMantissa_bounds (em : ExtendedMantissa) :
    em.mantissa ≤ em.roundedMantissa ∧ em.roundedMantissa ≤ em.mantissa + 1 := by
  obtain ⟨m, _ | _, _ | _⟩ := em <;>
    simp only [ExtendedMantissa.roundedMantissa, ExtendedMantissa.accuracy,
      Accuracy.roundToNearestEven] <;> omega

theorem targetExponent_eq {m : ℕ} {e : ℤ} (h : -1022 ≤ m.log2 + e) :
    Format.binary64.targetExponent (totalExponent m e) = m.log2 + e - 52 := by
  simp only [Format.targetExponent, totalExponent, Format.mantissaBits, Format.minExponent]
  norm_num
  omega

theorem shiftToTargetExponent_exact {m : ℕ} {e : ℤ} (h : -1022 ≤ m.log2 + e) :
    shiftToTargetExponent Format.binary64 m e .exact =
      ((⟨m, false, false⟩ : ExtendedMantissa) >>> (m.log2 - 52), e + (m.log2 - 52 : ℕ)) := by
  have h_shift : ((m.log2 : ℤ) + e - 52 - e).toNat = m.log2 - 52 := by omega
  simp only [shiftToTargetExponent, shiftToExponent, targetExponent_eq h, h_shift]
  rfl

/-- Rounding a mantissa that needs no further shift. -/
theorem roundWithAccuracy_eq {M r : ℕ} {e : ℤ} (h_e : -1074 ≤ e) (h_bits : 52 ≤ M.log2)
    (h_r : ((⟨M, false, false⟩ : ExtendedMantissa) >>> (M.log2 - 52)).roundedMantissa = r)
    (h_lo : 2 ^ 52 ≤ r) (h_hi : r ≤ 2 ^ 53) :
    ∃ (m : ℕ) (e' : ℤ) (h_pos : 0 < m),
      roundWithAccuracy Format.binary64 .positive M e .exact = .finite .positive m e' h_pos ∧
      2 ^ 52 ≤ m ∧ m < 2 ^ 53 ∧ e' ≤ e + (M.log2 - 52 : ℕ) + 1 ∧ e + (M.log2 - 52 : ℕ) ≤ e' ∧
      (m * 2 ^ e' : ℚ) = r * 2 ^ (e + (M.log2 - 52 : ℕ)) := by
  have h_log : 52 ≤ r.log2 := (Nat.le_log2 (by omega)).2 h_lo
  have h_first := shiftToTargetExponent_exact (show -1022 ≤ (M.log2 : ℤ) + e by omega)
  have h_second := shiftToTargetExponent_exact
    (show -1022 ≤ (r.log2 : ℤ) + (e + (M.log2 - 52 : ℕ)) by omega)
  simp only [roundWithAccuracy, h_first, h_r, h_second, mantissa_shiftRight]
  obtain h_eq | h_lt := h_hi.eq_or_lt
  · -- the mantissa overflows to `2 ^ 53`
    subst h_eq
    refine ⟨2 ^ 52, e + (M.log2 - 52 : ℕ) + 1, by norm_num, ?_, le_rfl, by norm_num, le_rfl,
      by omega, ?_⟩
    · simp only [Nat.log2_two_pow]; rfl
    · rw [zpow_add_one₀ two_ne_zero]; push_cast; ring
  · have h_log' : r.log2 = 52 := (Nat.log2_eq_iff (by omega)).2 ⟨h_lo, h_lt⟩
    refine ⟨r, e + (M.log2 - 52 : ℕ), by omega, ?_, h_lo, h_lt, by omega, le_rfl, rfl⟩
    simp [h_log', show r ≠ 0 by omega]

/-- A mantissa of at least 53 bits is rounded without a shift to the left. -/
theorem round_eq_roundWithAccuracy {M : ℕ} {e : ℤ} (h_e : -1074 ≤ e) (h_bits : 52 ≤ M.log2) :
    UnpackedFloat.round Format.binary64 .positive M e =
      roundWithAccuracy Format.binary64 .positive M e .exact := by
  have h_none : (e - ((M.log2 : ℤ) + e - 52)).toNat = 0 := by omega
  simp only [UnpackedFloat.round, targetExponent_eq (show -1022 ≤ (M.log2 : ℤ) + e by omega),
    decreaseExponent, h_none]
  simp

/-- What is left of a number after its bits from the 54th on are dropped has 53 bits. -/
theorem div_two_pow_bounds {M k : ℕ} (h_log : M.log2 = 52 + k) :
    2 ^ 52 ≤ M / 2 ^ k ∧ M / 2 ^ k < 2 ^ 53 := by
  have h_pos : M ≠ 0 := by
    rintro rfl
    rw [Nat.log2_zero] at h_log
    omega
  refine ⟨?_, ?_⟩
  · rw [Nat.le_div_iff_mul_le (by positivity), ← pow_add, ← h_log]
    exact Nat.log2_self_le h_pos
  · rw [Nat.div_lt_iff_lt_mul (by positivity), ← pow_add, ← Nat.log2_lt h_pos]
    omega

/-- **Rounding to 53 bits**: `k` bits are dropped, and nothing is lost if they are zeros. -/
theorem view_round {M k : ℕ} {e : ℤ} (h_e : -1074 ≤ e) (h_log : M.log2 = 52 + k) :
    ∃ r : ℕ, 2 ^ 52 ≤ r ∧ (2 ^ k ∣ M → r * 2 ^ k = M) ∧
      (viewUnpacked
          (Float.Model.pack (UnpackedFloat.round Format.binary64 .positive M e)).unpack =
            .fin (r * 2 ^ (e + k)) ∨
        971 ≤ e + k ∧ viewUnpacked
          (Float.Model.pack (UnpackedFloat.round Format.binary64 .positive M e)).unpack =
            .inf false) := by
  have h_k : M.log2 - 52 = k := by omega
  -- the bits that are kept form a number of 53 bits
  obtain ⟨h_floor_lo, h_floor_hi⟩ := div_two_pow_bounds h_log
  set em : ExtendedMantissa := (⟨M, false, false⟩ : ExtendedMantissa) >>> k with h_em
  have h_mantissa : em.mantissa = M / 2 ^ k := mantissa_shiftRight _ k
  have h_bounds := roundedMantissa_bounds em
  rw [h_mantissa] at h_bounds
  -- rounding adds at most one to it
  obtain ⟨m, e', h_m, h_round, h_lo, h_hi, h_e'_hi, h_e'_lo, h_val⟩ :=
    roundWithAccuracy_eq (M := M) h_e (by omega) (by rw [h_k]) (h_floor_lo.trans h_bounds.1)
      (by omega)
  rw [h_k] at h_e'_hi h_e'_lo h_val
  refine ⟨em.roundedMantissa, h_floor_lo.trans h_bounds.1, fun h_dvd => ?_, ?_⟩
  · obtain ⟨f, rfl⟩ := h_dvd
    have h_exact : em = ⟨f, false, false⟩ := by
      rw [h_em, mul_comm]; exact shiftRight_mul_two_pow f k
    rw [h_exact, mul_comm]
    rfl
  · rw [round_eq_roundWithAccuracy h_e (by omega), h_round,
      view_pack h_m h_lo h_hi (by omega), h_val]
    split_ifs with h_fin
    · exact .inl rfl
    · exact .inr ⟨by omega, rfl⟩

/-! ### Sums of natural numbers -/

/-- A number from `2 ^ 53` on: not every natural number there is representable. -/
def View.Large (v : View) : Prop := v = .inf false ∨ ∃ n : ℕ, 2 ^ 53 ≤ n ∧ v = .fin n

/-- A view that is a natural number is exact, and large from `2 ^ 53` on. -/
theorem View.exact_or_large {v : View} {n : ℕ} (h : v = .fin n) :
    (n < 2 ^ 53 → v = .fin n) ∧ (2 ^ 53 ≤ n → v.Large) :=
  ⟨fun _ => h, fun h_large => .inr ⟨n, h_large, h⟩⟩

/-- The leading bit of `M * 2 ^ e`. -/
theorem mul_two_zpow_bounds {M k : ℕ} (e : ℤ) (h_log : M.log2 = 52 + k) :
    (2 : ℚ) ^ (52 + k + e) ≤ M * 2 ^ e ∧ (M * 2 ^ e : ℚ) < 2 ^ (53 + k + e) := by
  obtain ⟨h_lo, h_hi⟩ := div_two_pow_bounds h_log
  rw [Nat.le_div_iff_mul_le (by positivity), ← pow_add] at h_lo
  rw [Nat.div_lt_iff_lt_mul (by positivity), ← pow_add] at h_hi
  refine ⟨?_, ?_⟩
  · rw [zpow_add₀ two_ne_zero]
    gcongr
    exact_mod_cast h_lo
  · rw [zpow_add₀ two_ne_zero]
    gcongr
    exact_mod_cast h_hi

/-- The mantissa of a natural number ends in zeros below the point. -/
theorem two_pow_dvd_of_mul_two_zpow {M N k : ℕ} {e : ℤ} (h_val : (M * 2 ^ e : ℚ) = N)
    (h_e : e + k ≤ 0) : 2 ^ k ∣ M := by
  obtain ⟨j, h_j⟩ := Int.eq_ofNat_of_zero_le (show 0 ≤ -e by omega)
  have h_cast : (M : ℚ) = N * 2 ^ j := by
    rw [← h_val, mul_assoc, ← zpow_natCast, ← zpow_add₀ two_ne_zero,
      show e + (j : ℤ) = 0 by omega, zpow_zero, mul_one]
  have h_M : M = N * 2 ^ j := by exact_mod_cast h_cast
  rw [h_M]
  exact (pow_dvd_pow 2 (by omega)).mul_left N

/-- Rounding a natural number. -/
theorem view_round_natCast {M N : ℕ} {e : ℤ} (h_bits : 2 ^ 52 ≤ M) (h_e : -1074 ≤ e)
    (h_val : (M * 2 ^ e : ℚ) = N) :
    (N < 2 ^ 53 →
      viewUnpacked (Float.Model.pack (UnpackedFloat.round Format.binary64 .positive M e)).unpack =
        .fin N) ∧
    (2 ^ 53 ≤ N →
      (viewUnpacked
        (Float.Model.pack (UnpackedFloat.round Format.binary64 .positive M e)).unpack).Large) := by
  have h_pos : M ≠ 0 := by omega
  obtain ⟨k, h_k⟩ := Nat.exists_eq_add_of_le ((Nat.le_log2 h_pos).2 h_bits)
  obtain ⟨r, h_r, h_exact, h_view⟩ := view_round h_e h_k
  -- the leading bit of `N` is at `52 + k + e`
  obtain ⟨h_lo, h_hi⟩ := mul_two_zpow_bounds e h_k
  rw [h_val] at h_lo h_hi
  refine ⟨fun h_small => ?_, fun h_large => ?_⟩
  · -- the exponent stays non-positive, so the dropped bits are zeros
    have h_exp : e + k ≤ 0 := by
      by_contra h_gt
      have h_le : (2 : ℚ) ^ (53 : ℤ) ≤ 2 ^ (52 + k + e) :=
        zpow_le_zpow_right₀ one_le_two (by omega)
      have h_N : (N : ℚ) < 2 ^ (53 : ℤ) := by exact_mod_cast h_small
      linarith
    have h_dvd := two_pow_dvd_of_mul_two_zpow h_val h_exp
    have h_eq : (r * 2 ^ (e + k) : ℚ) = N := by
      rw [← h_val, ← h_exact h_dvd, zpow_add₀ two_ne_zero, zpow_natCast]
      push_cast
      ring
    rw [h_eq] at h_view
    exact h_view.resolve_right fun h => by omega
  · -- the exponent is positive, so the rounded number is still large
    have h_exp : 1 ≤ e + k := by
      by_contra h_gt
      have h_le : (2 : ℚ) ^ (53 + k + e) ≤ 2 ^ (53 : ℤ) :=
        zpow_le_zpow_right₀ one_le_two (by omega)
      have h_N : (2 : ℚ) ^ (53 : ℤ) ≤ N := by exact_mod_cast h_large
      linarith
    obtain ⟨t, h_t⟩ := Int.eq_ofNat_of_zero_le (show 0 ≤ e + k - 1 by omega)
    obtain h_fin | ⟨-, h_inf⟩ := h_view
    · refine .inr ⟨r * 2 ^ (t + 1), ?_, ?_⟩
      · calc 2 ^ 53 = 2 ^ 52 * 2 ^ 1 := rfl
          _ ≤ r * 2 ^ (t + 1) := Nat.mul_le_mul h_r (Nat.pow_le_pow_right two_pos (by omega))
      · rw [h_fin, show e + k = ((t + 1 : ℕ) : ℤ) by push_cast; omega, zpow_natCast]
        push_cast
        rfl
    · exact .inl h_inf

/-- A mantissa of at most 53 bits with a small exponent is a number below one. -/
theorem mul_two_zpow_lt_one {m : ℕ} {e : ℤ} (h_m : m < 2 ^ 53) (h_e : e ≤ -53) :
    (m * 2 ^ e : ℚ) < 1 :=
  calc (m * 2 ^ e : ℚ) < 2 ^ (53 : ℤ) * 2 ^ e := by
        gcongr
        exact_mod_cast h_m
    _ = 2 ^ (53 + e) := (zpow_add₀ two_ne_zero 53 e).symm
    _ ≤ 1 := zpow_le_one_of_nonpos₀ one_le_two (by omega)

/-- A float that denotes a natural number is a zero, or positive and normal. -/
theorem unpack_of_view {x : Float} {n : ℕ} (h : view x = .fin n) :
    (n = 0 ∧ ∃ s, x.toModel.unpack = .zero s) ∨
    ∃ (m : ℕ) (e : ℤ) (h_pos : 0 < m), x.toModel.unpack = .finite .positive m e h_pos ∧
      2 ^ 52 ≤ m ∧ m < 2 ^ 53 ∧ -1074 ≤ e ∧ e ≤ 971 ∧ (m * 2 ^ e : ℚ) = n := by
  unfold view at h
  generalize h_u : x.toModel.unpack = u at h
  cases u with
  | infinity s => cases s <;> simp [viewUnpacked] at h
  | notANumber => simp [viewUnpacked] at h
  | zero s =>
    have h_zero : (0 : ℚ) = n := View.fin.inj h
    exact .inl ⟨by exact_mod_cast h_zero.symm, s, rfl⟩
  | finite s m e h_pos =>
    have h_value : (0 : ℚ) < m * 2 ^ e := by positivity
    cases s with
    | negative =>
      have h_neg : (-(m * 2 ^ e) : ℚ) = n := View.fin.inj h
      linarith [(n.cast_nonneg : (0 : ℚ) ≤ n)]
    | positive =>
      have h_nat : (m * 2 ^ e : ℚ) = n := View.fin.inj h
      obtain ⟨h_hi, h_max, ⟨h_lo, h_min⟩ | ⟨h_sub, rfl⟩⟩ := unpack_finite h_u
      · exact .inr ⟨m, e, h_pos, rfl, h_lo, h_hi, h_min, h_max, h_nat⟩
      · -- a subnormal float lies strictly between 0 and 1
        exfalso
        have h_lt : (m * 2 ^ (-1074 : ℤ) : ℚ) < 1 := mul_two_zpow_lt_one (by omega) (by norm_num)
        rw [h_nat] at h_value h_lt
        have h_one : 0 < n := by exact_mod_cast h_value
        have h_zero : n < 1 := by exact_mod_cast h_lt
        omega

theorem view_pack_zero (s : Sign) : viewUnpacked (Float.Model.pack (.zero s)).unpack = .fin 0 := by
  cases s <;> decide +kernel

theorem unpack_add (x y : Float) :
    view (x + y) = viewUnpacked (Float.Model.pack
      (UnpackedFloat.add Format.binary64 x.toModel.unpack y.toModel.unpack)).unpack := rfl

/-- A mantissa aligned to a smaller exponent. -/
theorem decreaseExponent_val {m : ℕ} {e e₀ : ℤ} (h : e₀ ≤ e) :
    (((decreaseExponent m e e₀).1 : ℚ) * 2 ^ e₀) = m * 2 ^ e ∧ m ≤ (decreaseExponent m e e₀).1 := by
  obtain ⟨j, h_j⟩ := Int.eq_ofNat_of_zero_le (show 0 ≤ e - e₀ by omega)
  obtain rfl : e = e₀ + j := by omega
  simp only [decreaseExponent, add_sub_cancel_left, Int.toNat_natCast, Nat.shiftLeft_eq]
  refine ⟨?_, Nat.le_mul_of_pos_right m (by positivity)⟩
  rw [zpow_add₀ two_ne_zero, zpow_natCast]
  push_cast
  ring

/-- Positive mantissas are added at the smaller exponent. -/
theorem add_positive {m₁ m₂ : ℕ} {e₁ e₂ : ℤ} (h_pos₁ : 0 < m₁) (h_pos₂ : 0 < m₂)
    (h_le : m₁ ≤ (decreaseExponent m₁ e₁ (min e₁ e₂)).1) :
    UnpackedFloat.add Format.binary64 (.finite .positive m₁ e₁ h_pos₁)
        (.finite .positive m₂ e₂ h_pos₂) =
      UnpackedFloat.round Format.binary64 .positive
        ((decreaseExponent m₁ e₁ (min e₁ e₂)).1 + (decreaseExponent m₂ e₂ (min e₁ e₂)).1)
        (min e₁ e₂) := by
  simp only [UnpackedFloat.add, UnpackedFloat.normalize, Sign.apply]
  -- the sum of the aligned mantissas is positive
  have h_gt : compare (((decreaseExponent m₁ e₁ (min e₁ e₂)).1 : ℤ) +
      (decreaseExponent m₂ e₂ (min e₁ e₂)).1) 0 = .gt := by
    rw [Int.compare_eq_gt]
    omega
  rw [h_gt]
  rfl

/-- **The sum of two natural numbers.** -/
theorem view_add {x y : Float} {n m : ℕ} (h_x : view x = .fin n) (h_y : view y = .fin m) :
    (n + m < 2 ^ 53 → view (x + y) = .fin (n + m : ℕ)) ∧
    (2 ^ 53 ≤ n + m → (view (x + y)).Large) := by
  rw [unpack_add]
  obtain ⟨rfl, s₁, h_u₁⟩ | ⟨m₁, e₁, h_pos₁, h_u₁, h_lo₁, h_hi₁, h_min₁, h_max₁, h_val₁⟩ :=
      unpack_of_view h_x <;>
    obtain ⟨rfl, s₂, h_u₂⟩ | ⟨m₂, e₂, h_pos₂, h_u₂, h_lo₂, h_hi₂, h_min₂, h_max₂, h_val₂⟩ :=
      unpack_of_view h_y <;>
    rw [h_u₁, h_u₂]
  -- both are zero
  · have h_add : ∃ s, UnpackedFloat.add Format.binary64 (.zero s₁) (.zero s₂) = .zero s := by
      simp only [UnpackedFloat.add]
      split_ifs
      exacts [⟨_, rfl⟩, ⟨_, rfl⟩]
    obtain ⟨s, h_s⟩ := h_add
    rw [h_s]
    refine View.exact_or_large ?_
    rw [view_pack_zero]
    norm_num
  -- only the second is positive, and the sum is that number
  · have h_view := view_pack h_pos₂ h_lo₂ h_hi₂ h_min₂
    rw [if_pos h_max₂, h_val₂] at h_view
    rw [zero_add]
    exact View.exact_or_large h_view
  -- only the first is positive
  · have h_view := view_pack h_pos₁ h_lo₁ h_hi₁ h_min₁
    rw [if_pos h_max₁, h_val₁] at h_view
    rw [add_zero]
    exact View.exact_or_large h_view
  -- both are positive: align them to the smaller exponent, add, round
  · obtain ⟨h_align₁, h_le₁⟩ := decreaseExponent_val (m := m₁) (min_le_left e₁ e₂)
    obtain ⟨h_align₂, h_le₂⟩ := decreaseExponent_val (m := m₂) (min_le_right e₁ e₂)
    have h_val : (((decreaseExponent m₁ e₁ (min e₁ e₂)).1 +
        (decreaseExponent m₂ e₂ (min e₁ e₂)).1 : ℕ) * 2 ^ min e₁ e₂ : ℚ) = (n + m : ℕ) := by
      push_cast
      rw [add_mul, h_align₁, h_align₂, h_val₁, h_val₂]
    rw [add_positive h_pos₁ h_pos₂ h_le₁]
    exact view_round_natCast (by omega) (by omega) h_val

theorem view_pack_infinity :
    viewUnpacked (Float.Model.pack (.infinity .positive)).unpack = .inf false := by
  decide +kernel

theorem unpack_of_view_inf {x : Float} (h : view x = .inf false) :
    x.toModel.unpack = .infinity .positive := by
  unfold view at h
  generalize x.toModel.unpack = u at h
  cases u with
  | infinity s =>
    cases s with
    | negative => simp [viewUnpacked] at h
    | positive => rfl
  | notANumber => simp [viewUnpacked] at h
  | zero s => simp [viewUnpacked] at h
  | finite s m e h_pos => cases s <;> simp [viewUnpacked] at h

/-- A sum that has left the exact range does not come back. -/
theorem View.Large.add {x y : Float} {m : ℕ} (h_x : (view x).Large) (h_y : view y = .fin m) :
    (view (x + y)).Large := by
  obtain h_inf | ⟨n, h_n, h_fin⟩ := h_x
  · left
    rw [unpack_add, unpack_of_view_inf h_inf]
    obtain ⟨-, s, h_u⟩ | ⟨_, _, _, h_u, -⟩ := unpack_of_view h_y <;> rw [h_u]
    exacts [view_pack_infinity, view_pack_infinity]
  · exact (view_add h_fin h_y).2 (by omega)

/-- Adding natural numbers to a large one. -/
theorem view_foldl_add_of_large {xs : List Float} {ns : List ℕ} {acc : Float}
    (h : List.Forall₂ (fun x n => view x = .fin (n : ℕ)) xs ns) (h_acc : (view acc).Large) :
    (view (xs.foldl (· + ·) acc)).Large := by
  induction h generalizing acc with
  | nil => exact h_acc
  | cons h_x h_xs ih => exact ih (h_acc.add h_x)

/-- **A sum of natural numbers** is exact below `2 ^ 53`, and stays large otherwise. -/
theorem view_foldl_add {xs : List Float} {ns : List ℕ} {acc : Float} {a : ℕ}
    (h : List.Forall₂ (fun x n => view x = .fin (n : ℕ)) xs ns) (h_acc : view acc = .fin a) :
    (a + ns.sum < 2 ^ 53 → view (xs.foldl (· + ·) acc) = .fin (a + ns.sum : ℕ)) ∧
    (2 ^ 53 ≤ a + ns.sum → (view (xs.foldl (· + ·) acc)).Large) := by
  induction h generalizing acc a with
  | nil => exact View.exact_or_large h_acc
  | @cons x n xs ns h_x h_xs ih =>
    rw [List.sum_cons, ← add_assoc, List.foldl_cons]
    have h_add := view_add h_acc h_x
    by_cases h_small : a + n < 2 ^ 53
    · exact ih (h_add.1 h_small)
    · -- this partial sum already leaves the exact range
      exact ⟨fun h_lt => absurd h_lt (by omega),
        fun _ => view_foldl_add_of_large h_xs (h_add.2 (by omega))⟩

/-! ### Conversion of natural numbers -/

/-- A mantissa with too few bits is widened before it is rounded. -/
theorem round_widen {n j : ℕ} (h_pos : n ≠ 0) (h : n.log2 + j = 52) :
    2 ^ 52 ≤ n * 2 ^ j ∧ UnpackedFloat.round Format.binary64 .positive n 0 =
      UnpackedFloat.round Format.binary64 .positive (n * 2 ^ j) (-j) := by
  have h_lo : 2 ^ 52 ≤ n * 2 ^ j := by
    rw [← h, pow_add]
    exact Nat.mul_le_mul_right _ (Nat.log2_self_le h_pos)
  have h_hi : n * 2 ^ j < 2 ^ 53 := by
    have h_n : n < 2 ^ (n.log2 + 1) := (Nat.log2_lt h_pos).1 (Nat.lt_succ_self _)
    calc n * 2 ^ j < 2 ^ (n.log2 + 1) * 2 ^ j := Nat.mul_lt_mul_of_pos_right h_n (by positivity)
      _ = 2 ^ 53 := by rw [← pow_add, show n.log2 + 1 + j = 53 by omega]
  have h_log : (n * 2 ^ j).log2 = 52 := (Nat.log2_eq_iff (by omega)).2 ⟨h_lo, h_hi⟩
  refine ⟨h_lo, ?_⟩
  -- both have the same target exponent, which the wider one has reached
  have h_narrow : ((0 : ℤ) - (n.log2 + 0 - 52)).toNat = j := by omega
  have h_wide : (-(j : ℤ) - ((n * 2 ^ j).log2 + -j - 52)).toNat = 0 := by omega
  simp only [UnpackedFloat.round, decreaseExponent,
    targetExponent_eq (show -1022 ≤ (n.log2 : ℤ) + 0 by omega),
    targetExponent_eq (show -1022 ≤ ((n * 2 ^ j).log2 : ℤ) + -j by omega)]
  rw [h_narrow, h_wide, Nat.shiftLeft_eq, Nat.shiftLeft_zero]
  simp

/-- The conversion of a natural number that needs no rounding. -/
theorem view_ofModel_ofNat {n : ℕ} (h : n < 2 ^ 53) :
    view (Float.ofModel (Float.Model.ofNat n)) = .fin n := by
  obtain rfl | h_pos := Nat.eq_zero_or_pos n
  · exact view_pack_zero .positive
  · have h_log : n.log2 < 53 := (Nat.log2_lt h_pos.ne').2 h
    obtain ⟨j, h_j⟩ := Nat.exists_eq_add_of_le (Nat.lt_succ_iff.1 h_log)
    obtain ⟨h_bits, h_round⟩ := round_widen h_pos.ne' h_j.symm
    have h_gt : compare (n : ℤ) 0 = .gt := by
      rw [Int.compare_eq_gt]
      omega
    have h_view : view (Float.ofModel (Float.Model.ofNat n)) = viewUnpacked
        (Float.Model.pack (UnpackedFloat.round Format.binary64 .positive n 0)).unpack := by
      have h_normalize : UnpackedFloat.ofNat Format.binary64 n =
          UnpackedFloat.round Format.binary64 .positive n 0 := by
        rw [UnpackedFloat.ofNat, UnpackedFloat.ofInt, UnpackedFloat.normalize, h_gt]
        rfl
      rw [← h_normalize]
      rfl
    rw [h_view, h_round]
    refine (view_round_natCast h_bits (by omega) ?_).1 h
    push_cast
    rw [mul_assoc, ← zpow_natCast, ← zpow_add₀ two_ne_zero, add_neg_cancel, zpow_zero, mul_one]

/-- The product with the mantissa of one is rounded to the float itself. -/
theorem view_roundWithAccuracy_mul_one {m : ℕ} {e : ℤ} (h_lo : 2 ^ 52 ≤ m) (h_hi : m < 2 ^ 53)
    (h_min : -53 < e) (h_max : e ≤ 971) :
    viewUnpacked (Float.Model.pack (roundWithAccuracy Format.binary64 .positive (m * 2 ^ 52)
      (e + -52) .exact)).unpack = .fin (m * 2 ^ e) := by
  have h_log : (m * 2 ^ 52).log2 = 104 := by
    refine (Nat.log2_eq_iff (by omega)).2 ⟨?_, ?_⟩ <;> omega
  -- the bits that are shifted out are zeros
  have h_r : ((⟨m * 2 ^ 52, false, false⟩ : ExtendedMantissa) >>>
      ((m * 2 ^ 52).log2 - 52)).roundedMantissa = m := by
    rw [h_log, show 104 - 52 = 52 from rfl, shiftRight_mul_two_pow]
    rfl
  obtain ⟨m', e', h_pos', h_round, h_lo', h_hi', h_e_hi, h_e_lo, h_val⟩ :=
    roundWithAccuracy_eq (e := e + -52) (by omega) (by omega) h_r h_lo h_hi.le
  have h_shift : e + -52 + ((m * 2 ^ 52).log2 - 52 : ℕ) = e := by omega
  rw [h_shift] at h_e_hi h_e_lo h_val
  -- the mantissa has not overflowed
  have h_e' : e' ≠ e + 1 := by
    rintro rfl
    rw [zpow_add_one₀ two_ne_zero] at h_val
    have h_m : (m' * 2 : ℚ) = m := by
      refine mul_right_cancel₀ (zpow_ne_zero e two_ne_zero) ?_
      rw [← h_val]
      ring
    have h_nat : m' * 2 = m := by exact_mod_cast h_m
    omega
  rw [h_round, view_pack h_pos' h_lo' h_hi' (by omega), if_pos (by omega), h_val]

/-- Multiplication by one. -/
theorem view_mul_one {x : Float} {n : ℕ} (h : view x = .fin n) :
    view (x * Float.ofBits 0x3FF0000000000000) = .fin n := by
  have h_one : (Float.ofBits 0x3FF0000000000000).toModel.unpack =
      .finite .positive (2 ^ 52) (-52) (by positivity) := by rfl
  have h_mul : view (x * Float.ofBits 0x3FF0000000000000) = viewUnpacked (Float.Model.pack
      (UnpackedFloat.mul Format.binary64 x.toModel.unpack
        (Float.ofBits 0x3FF0000000000000).toModel.unpack)).unpack := rfl
  rw [h_mul, h_one]
  obtain ⟨rfl, s, h_u⟩ | ⟨m, e, h_pos, h_u, h_lo, h_hi, h_min, h_max, h_val⟩ := unpack_of_view h
  · rw [h_u]
    exact view_pack_zero _
  · -- the exponent of a positive natural number is not small
    have h_e : -53 < e := by
      by_contra h_le
      have h_lt := mul_two_zpow_lt_one h_hi (not_lt.1 h_le)
      have h_value : (0 : ℚ) < m * 2 ^ e := by positivity
      rw [h_val] at h_lt h_value
      have h_zero : n < 1 := by exact_mod_cast h_lt
      have h_n : 0 < n := by exact_mod_cast h_value
      omega
    rw [h_u, ← h_val]
    exact view_roundWithAccuracy_mul_one h_lo h_hi h_e h_max

/-- **A natural number below `2 ^ 53`** is converted exactly. -/
theorem view_ofNat {n : ℕ} (h : n < 2 ^ 53) : view (Float.ofNat n) = .fin n := by
  have h_conv : Float.ofNat n = n.toUInt64.toFloat * Float.ofBits 0x3FF0000000000000 := by
    change Float.ofScientific n false 0 = _
    rw [Float.ofScientific, dif_pos ⟨h, by omega⟩]
    rfl
  rw [h_conv]
  apply view_mul_one
  have h_toNat : n.toUInt64.toNat = n := by
    rw [Nat.toUInt64, UInt64.toNat_ofNat', Nat.mod_eq_of_lt (by omega)]
  change view (Float.ofModel (Float.Model.ofNat n.toUInt64.toNat)) = _
  rw [h_toNat]
  exact view_ofModel_ofNat h

end Binary64
