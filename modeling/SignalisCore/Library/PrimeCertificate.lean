import Mathlib.NumberTheory.LucasPrimality
import Mathlib.NumberTheory.LegendreSymbol.Basic

/-!
# Modular powers and primality by Lucas's test

`powMod` is square-and-multiply on natural numbers, cheap for the kernel to evaluate. Two kinds
of facts about primes of cryptographic size are reduced to its values:

* `prime_of_lucasTest`: a number with a Lucas witness and a factorisation of its predecessor into
  primes is prime, and `prime_of_checkChain` goes down a chain of such numbers;
* `not_isSquare_of_powMod`: a residue is no square, by Euler's criterion.
-/

namespace PrimeCertificate

/-- `a ^ n % m`, with `fuel` bounding the number of bits of `n` that are read. -/
def powMod (m : ℕ) : ℕ → ℕ → ℕ → ℕ
  | 0, _, _ => 1 % m
  | fuel + 1, a, n =>
    let half := powMod m fuel (a * a % m) (n / 2)
    if n % 2 = 0 then half else a * half % m

/-- With fuel for every bit of the exponent, `powMod` is the power in `ZMod m`. -/
theorem cast_powMod (m : ℕ) {fuel a n : ℕ} (h : n < 2 ^ fuel) :
    (powMod m fuel a n : ZMod m) = (a : ZMod m) ^ n := by
  induction fuel generalizing a n with
  | zero =>
    obtain rfl : n = 0 := by simpa using h
    simp [powMod]
  | succ fuel ih =>
    -- the recursive call has the square of `a`, and half of `n`, which needs one bit less
    have h_half : n / 2 < 2 ^ fuel := by
      rw [pow_succ] at h
      omega
    have h_sq : (powMod m fuel (a * a % m) (n / 2) : ZMod m)
        = (a : ZMod m) ^ (2 * (n / 2)) := by
      rw [ih h_half, ZMod.natCast_mod, Nat.cast_mul, ← pow_two, ← pow_mul]
    unfold powMod
    -- the lowest bit of `n` decides about one more factor
    rcases Nat.mod_two_eq_zero_or_one n with h_even | h_odd
    · rw [if_pos h_even, h_sq, show 2 * (n / 2) = n by omega]
    · rw [if_neg (by omega), ZMod.natCast_mod, Nat.cast_mul, h_sq, ← pow_succ',
        show 2 * (n / 2) + 1 = n by omega]

theorem powMod_lt {m : ℕ} (hm : 0 < m) (fuel a n : ℕ) : powMod m fuel a n < m := by
  induction fuel generalizing a n with
  | zero => exact Nat.mod_lt _ hm
  | succ fuel ih =>
    unfold powMod
    split
    · exact ih _ _
    · exact Nat.mod_lt _ hm

/-- A power is one in `ZMod m` exactly when `powMod` computes one. -/
theorem pow_eq_one_iff {m fuel a n : ℕ} (hm : 1 < m) (h : n < 2 ^ fuel) :
    (a : ZMod m) ^ n = 1 ↔ powMod m fuel a n = 1 := by
  have h_lt := powMod_lt (by omega : 0 < m) fuel a n
  rw [← cast_powMod m h, ← Nat.cast_one, ZMod.natCast_eq_natCast_iff', Nat.mod_eq_of_lt h_lt,
    Nat.mod_eq_of_lt hm]

/-- **Lucas's test** at the witness `a`, for the factorisation `qs` of `p - 1`. -/
def lucasTest (fuel p a : ℕ) (qs : List ℕ) : Bool :=
  decide (1 < p) && decide (p < 2 ^ fuel) && decide (qs.prod = p - 1) &&
    decide (powMod p fuel a (p - 1) = 1) &&
    qs.all fun q => decide (powMod p fuel a ((p - 1) / q) ≠ 1)

/-- A number that passes Lucas's test is prime, provided the listed factors are. -/
theorem prime_of_lucasTest {fuel p a : ℕ} {qs : List ℕ} (h_qs : ∀ q ∈ qs, q.Prime)
    (h : lucasTest fuel p a qs = true) : p.Prime := by
  simp only [lucasTest, Bool.and_eq_true, decide_eq_true_eq, List.all_eq_true] at h
  obtain ⟨⟨⟨⟨h_one, h_fuel⟩, h_prod⟩, h_full⟩, h_part⟩ := h
  -- every exponent of the test fits into the fuel
  have h_le : ∀ n ≤ p - 1, n < 2 ^ fuel := fun n hn => by omega
  refine lucas_primality p (a : ZMod p) ?_ fun q hq h_dvd => ?_
  · exact (pow_eq_one_iff h_one (h_le _ le_rfl)).mpr h_full
  · -- a prime divisor of the product is one of the listed factors
    rw [← h_prod] at h_dvd
    obtain ⟨q', hq', h_dvd'⟩ := (Prime.dvd_prod_iff hq.prime).mp h_dvd
    obtain rfl : q = q' := (Nat.prime_dvd_prime_iff_eq hq (h_qs q' hq')).mp h_dvd'
    rw [Ne, pow_eq_one_iff h_one (h_le _ (Nat.div_le_self _ _))]
    exact h_part q hq'

/-! ### Chains of certificates -/

/-- One link of a chain: the number, its Lucas witness and the factors of its predecessor. -/
structure Link where
  /-- The number certified. -/
  p : ℕ
  /-- The Lucas witness. -/
  witness : ℕ
  /-- The factors of `p - 1`, with multiplicity. -/
  factors : List ℕ

/-- A chain is good over the primes `known` when each link passes Lucas's test with factors taken
from `known` and the links before it. -/
def checkChain (fuel : ℕ) : List ℕ → List Link → Bool
  | _, [] => true
  | known, c :: cs =>
    c.factors.all (fun q => known.contains q) && lucasTest fuel c.p c.witness c.factors &&
      checkChain fuel (c.p :: known) cs

/-- Every number of a good chain is prime. -/
theorem prime_of_checkChain {fuel : ℕ} {known : List ℕ} {cs : List Link}
    (h_known : ∀ q ∈ known, q.Prime) (h : checkChain fuel known cs = true) :
    ∀ c ∈ cs, c.p.Prime := by
  induction cs generalizing known with
  | nil => simp
  | cons c cs ih =>
    simp only [checkChain, Bool.and_eq_true, List.all_eq_true, List.contains_iff_mem] at h
    obtain ⟨⟨h_factors, h_test⟩, h_rest⟩ := h
    -- the head passes its own test; from then on it counts as known
    have h_head : c.p.Prime := prime_of_lucasTest (fun q hq => h_known q (h_factors q hq)) h_test
    have h_tail := ih (List.forall_mem_cons.mpr ⟨h_head, h_known⟩) h_rest
    exact List.forall_mem_cons.mpr ⟨h_head, h_tail⟩

/-- **Euler's criterion, negatively**: a power `a ^ (p / 2)` other than one rules out a root. -/
theorem not_isSquare_of_powMod {p fuel a : ℕ} [Fact p.Prime] (h_fuel : p < 2 ^ fuel)
    (h_dvd : ¬ p ∣ a) (h : powMod p fuel a (p / 2) ≠ 1) : ¬ IsSquare (a : ZMod p) := by
  have h_one : 1 < p := (Fact.out : p.Prime).one_lt
  have h_half : p / 2 < 2 ^ fuel := by omega
  have h_zero : (a : ZMod p) ≠ 0 := by rwa [Ne, ZMod.natCast_eq_zero_iff]
  rw [ZMod.euler_criterion p h_zero, pow_eq_one_iff h_one h_half]
  exact h

end PrimeCertificate
