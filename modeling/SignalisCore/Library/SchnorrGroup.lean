import Mathlib.Data.ZMod.QuotientGroup
import Mathlib.GroupTheory.OrderOfElement
import Mathlib.Tactic.Abel

/-!
# The Schnorr equation in a group with a cofactor

`Accepts B R A S h` is the unmultiplied verification equation `S • B = R + h • A` in an additive
commutative group, with natural number scalars. The group need not have prime order: only the
generator `B` is assumed to, so `R` and `A` may carry torsion.

* `accepts_of_honest`: the signer's response is accepted, also after reduction of all scalars.
* `accepts_iff_eq_sub`: the equation pins down the commitment.
* `accepts_iff_mod_of_torsion`: under a torsion key only a residue of the challenge matters.
* `response_unique`, `challenge_unique`: the response is determined modulo the order of the
  generator, and the challenge modulo the order of the key.
* `exists_response`: without torsion there is a response to every challenge.
-/

namespace SchnorrGroup

variable {G : Type*} [AddCommGroup G] {q : ℕ} {B : G}

/-- **The verification equation** for commitment `R`, key `A`, response `S` and challenge `h`. -/
def Accepts (B R A : G) (S h : ℕ) : Prop := S • B = R + h • A

/-- **Completeness**: with `R = r • B` and `A = s • B`, the response `r + h * s` is accepted. -/
theorem accepts_of_honest (h_kill : q • B = 0) (r s h : ℕ) :
    Accepts B (r • B) (s • B) ((r + h * s) % q) h := by
  rw [Accepts, ← nsmul_eq_mod_nsmul _ h_kill, add_nsmul, mul_nsmul' B h s]

/-- The equation determines the commitment. -/
theorem accepts_iff_eq_sub {R A : G} {S h : ℕ} : Accepts B R A S h ↔ R = S • B - h • A := by
  rw [Accepts, eq_sub_iff_add_eq, eq_comm]

/-- Under a key killed by `m`, the challenge counts only modulo `m`. -/
theorem accepts_iff_mod_of_torsion {R A : G} {S h m : ℕ} (h_kill : m • A = 0) :
    Accepts B R A S h ↔ R = S • B - (h % m) • A := by
  rw [accepts_iff_eq_sub, ← nsmul_eq_mod_nsmul _ h_kill]

/-- **Unique responses**: two responses to one challenge differ by a multiple of the order of the
generator. -/
theorem response_unique {R A : G} {S S' h : ℕ} (h_S : Accepts B R A S h)
    (h_S' : Accepts B R A S' h) : S ≡ S' [MOD addOrderOf B] := by
  rw [← nsmul_eq_nsmul_iff_modEq]
  exact h_S.trans h_S'.symm

/-- **Unique challenges**: two challenges with one response differ by a multiple of the order of the
key, whatever the nonce point is. -/
theorem challenge_unique {R A : G} {S h h' : ℕ} (h_h : Accepts B R A S h)
    (h_h' : Accepts B R A S h') : h ≡ h' [MOD addOrderOf A] := by
  rw [← nsmul_eq_nsmul_iff_modEq]
  -- both multiples of the key are `S • B - R`
  exact add_left_cancel (h_h.symm.trans h_h')

/-! ### The multiples of the generator -/

/-- In a group of `c * q` elements with coprime factors, an element of order `q` has all that `q`
kills as multiples. -/
theorem exists_nsmul_of_card {c : ℕ} {P : G} (h_card : Nat.card G = c * q)
    (h_order : addOrderOf B = q) (h_cop : Nat.Coprime c q) (h_pos : 0 < q) (h_kill : q • P = 0) :
    ∃ n < q, n • B = P := by
  -- the multiples of `B` have index `c`, so they contain `c • P`
  have h_index : (AddSubgroup.zmultiples B).index = c := by
    have h_mul := (AddSubgroup.zmultiples B).index_mul_card
    rw [Nat.card_zmultiples, h_order, h_card] at h_mul
    exact Nat.eq_of_mul_eq_mul_right h_pos h_mul
  have h_mem : c • P ∈ AddSubgroup.zmultiples B := by
    rw [← h_index]
    exact (AddSubgroup.zmultiples B).nsmul_index_mem P
  -- and `P` is a multiple of `c • P`, since `c` is prime to its order
  obtain ⟨m, h_m⟩ := exists_nsmul_eq_self_of_coprime
    (h_cop.coprime_dvd_right (addOrderOf_dvd_iff_nsmul_eq_zero.mpr h_kill))
  have h_P := (AddSubgroup.zmultiples B).nsmul_mem h_mem m
  rw [h_m] at h_P
  have h_finite : IsOfFinAddOrder B := addOrderOf_pos_iff.mp (h_order ▸ h_pos)
  obtain ⟨n, rfl⟩ := h_finite.mem_multiples_iff_mem_zmultiples.mpr h_P
  refine ⟨n % q, Nat.mod_lt n h_pos, ?_⟩
  rw [← h_order]
  exact mod_addOrderOf_nsmul B n

/-- **Responses without torsion**: where `q` kills commitment and key, every challenge has a
response. -/
theorem exists_response {c : ℕ} {R A : G} (h_card : Nat.card G = c * q)
    (h_order : addOrderOf B = q) (h_cop : Nat.Coprime c q) (h_pos : 0 < q) (h_R : q • R = 0)
    (h_A : q • A = 0) (h : ℕ) : ∃ S < q, Accepts B R A S h := by
  obtain ⟨r, -, rfl⟩ := exists_nsmul_of_card h_card h_order h_cop h_pos h_R
  obtain ⟨a, -, rfl⟩ := exists_nsmul_of_card h_card h_order h_cop h_pos h_A
  have h_kill : q • B = 0 := h_order ▸ addOrderOf_nsmul_eq_zero B
  exact ⟨(r + h * a) % q, Nat.mod_lt _ h_pos, accepts_of_honest h_kill r a h⟩

end SchnorrGroup
