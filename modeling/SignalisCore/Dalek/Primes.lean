import SignalisCore.Library.PrimeCertificate
import Mathlib.Tactic.NormNum.Prime

/-!
# The two primes of Curve25519

The base field has `2 ^ 255 - 19` elements and the prime-order subgroup has
`2 ^ 252 + 27742317777372353535851937790883648493` elements. Both are certified by a chain of
Lucas tests over the primes of `smallPrimes`, which `norm_num` knows.
-/

namespace SignalisCore

open PrimeCertificate

/-- The order `p` of the base field. -/
abbrev p25519 : ℕ :=
  57896044618658097711785492504343953926634992332820282019728792003956564819949

/-- The order `L` of the basepoint. -/
abbrev ell : ℕ :=
  7237005577332262213973186563042994240857116359379907606001950938285454250989

theorem p25519_eq : p25519 = 2 ^ 255 - 19 := by norm_num

theorem ell_eq : ell = 2 ^ 252 + 27742317777372353535851937790883648493 := by norm_num

/-- The primes below a million that the chains start from. -/
def smallPrimes : List ℕ :=
  [2, 3, 5, 7, 11, 13, 19, 23, 31, 41, 43, 47, 73, 103, 107, 127, 223, 269, 307, 353, 991,
   1361, 2437, 2551, 2851, 3727, 4153, 5879, 30703, 57467, 65147, 75707, 82163, 132049, 132667,
   137849, 409477, 430751, 531581, 569003]

theorem prime_of_mem_smallPrimes : ∀ q ∈ smallPrimes, q.Prime := by
  simp only [smallPrimes, List.forall_mem_cons]
  norm_num

/-- The chain down from `p`. -/
def chainP : List Link := [
  ⟨2773320623, 5, [2, 2437, 569003]⟩,
  ⟨72106336199, 7, [2, 13, 2773320623]⟩,
  ⟨8574133, 2, [2, 2, 3, 7, 103, 991]⟩,
  ⟨1919519569386763, 2, [2, 3, 7, 19, 47, 47, 127, 8574133]⟩,
  ⟨75445702479781427272750846543864801, 7,
    [2, 2, 2, 2, 2, 3, 3, 5, 5, 75707, 72106336199, 1919519569386763]⟩,
  ⟨31757755568855353, 10, [2, 2, 2, 3, 31, 107, 223, 4153, 430751]⟩,
  ⟨1923133, 2, [2, 2, 3, 43, 3727]⟩,
  ⟨74058212732561358302231226437062788676166966415465897661863160754340907, 2,
    [2, 3, 353, 57467, 132049, 1923133, 31757755568855353, 75445702479781427272750846543864801]⟩,
  ⟨57896044618658097711785492504343953926634992332820282019728792003956564819949, 2,
    [2, 2, 3, 65147, 74058212732561358302231226437062788676166966415465897661863160754340907]⟩]

/-- The chain down from `ℓ`. -/
def chainEll : List Link := [
  ⟨1224481, 13, [2, 2, 2, 2, 2, 3, 5, 2551]⟩,
  ⟨1257559732178653, 2, [2, 2, 3, 7, 23, 531581, 1224481]⟩,
  ⟨4434155615661930479, 17, [2, 41, 43, 1257559732178653]⟩,
  ⟨172054593956031949258510691, 2, [2, 5, 1361, 2851, 4434155615661930479]⟩,
  ⟨292386187, 2, [2, 3, 3, 3, 3, 307, 5879]⟩,
  ⟨213441916511, 13, [2, 5, 73, 292386187]⟩,
  ⟨19757330305831588566944191468367130476339, 2,
    [2, 269, 213441916511, 172054593956031949258510691]⟩,
  ⟨276602624281642239937218680557139826668747, 2,
    [2, 7, 19757330305831588566944191468367130476339]⟩,
  ⟨14741173, 2, [2, 2, 3, 3, 409477]⟩,
  ⟨58964693, 2, [2, 2, 14741173]⟩,
  ⟨3044861653679985063343, 5, [2, 3, 11, 30703, 82163, 132667, 137849]⟩,
  ⟨198211423230930754013084525763697, 5, [2, 2, 2, 2, 3, 23, 58964693, 3044861653679985063343]⟩,
  ⟨7237005577332262213973186563042994240857116359379907606001950938285454250989, 2,
    [2, 2, 3, 11, 198211423230930754013084525763697, 276602624281642239937218680557139826668747]⟩]

theorem prime_p25519 : p25519.Prime :=
  prime_of_checkChain prime_of_mem_smallPrimes
    (show checkChain 256 smallPrimes chainP = true by decide +kernel) _
    (List.mem_of_getLast? (show chainP.getLast? = some _ from rfl))

theorem prime_ell : ell.Prime :=
  prime_of_checkChain prime_of_mem_smallPrimes
    (show checkChain 256 smallPrimes chainEll = true by decide +kernel) _
    (List.mem_of_getLast? (show chainEll.getLast? = some _ from rfl))

instance : Fact p25519.Prime := ⟨prime_p25519⟩

instance : Fact ell.Prime := ⟨prime_ell⟩

end SignalisCore
