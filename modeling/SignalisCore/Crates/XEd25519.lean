import SignalisCore.Crates.Curve25519
import SignalisCore.Dalek.Edwards25519
import SignalisCore.Library.SchnorrGroup
import SignalisCore.Library.Sha2

/-!
# `sc-xed25519`: signatures under Curve25519 keys

`signWithRandom` and `verify` as the crate computes them, over `curve25519-dalek` as the parameter
`D` and SHA-512 as the parameter `sha512`.

The signer holds a scalar and makes the sign of its Edwards key positive; the verifier rebuilds the
key from the Montgomery `u`-coordinate with sign `0`.

* `exists_signingPoint`: the one Edwards point both of them arrive at.
* `verifyArrays_iff`: what the verifier accepts, as the Schnorr equation between natural multiples.
-/

namespace SignalisCore

open LittleEndian SchnorrGroup

namespace XEd25519

inductive Error
  | invalidLength (expected actual : ℕ)
  | invalidPublicKey
  | verificationFailed
  deriving DecidableEq, Repr

def Error.toString : Error → String
  | .invalidLength expected actual =>
    "invalid byte length: expected " ++ expected.repr ++ ", got " ++ actual.repr
  | .invalidPublicKey => "invalid public key (invalid curve point)"
  | .verificationFailed => "signature verification failed"

def clamp (key : ByteArr 32) : ByteArr 32 := maskEnds 248 127 64 key

variable (D : Dalek) (sha512 : Bytes → ByteArr 64)

def privateToScalar (privateKey : ByteArr 32) : D.Scalar := D.fromBytesModOrder (clamp privateKey)

def montgomeryToEdwards (publicKey : ByteArr 32) : Except Error CompressedEdwardsY :=
  match D.toEdwards publicKey 0 with
  | some edwards => .ok (D.compress edwards)
  | none => .error .invalidPublicKey

/-! ### Signing -/

/-- The pair of the signing scalar `s` and the positive key bytes: the sign of `A = a * B` is
cleared from the bytes and moved into the scalar. -/
def signingKey (privateKey : ByteArr 32) : D.Scalar × CompressedEdwardsY :=
  let a := privateToScalar D privateKey
  let bigA := D.ed25519BasepointPoint * a
  let aBytes := D.compress bigA
  -- `sign_bit = a_bytes[31] >> 7`, and the positive form of the key
  let signBit := aBytes.get 31 (by norm_num) >>> 7
  let aPositiveBytes := aBytes.modify 31 (· &&& 0x7F)
  (if signBit = 0 then a else -a, aPositiveBytes)

/-- The byte string hashed for the nonce `r`. -/
def noncePreimage (s : D.Scalar) (message random : Bytes) : Bytes :=
  ((ByteArr.replicate 32 0xFF).modify 0 fun _ => 0xFE).1 ++ (D.toBytes s).1 ++ message ++ random

/-- The byte string hashed for the challenge `h`. -/
def challengePreimage (rBytes aBytes : CompressedEdwardsY) (message : Bytes) : Bytes :=
  rBytes.1 ++ aBytes.1 ++ message

/-- The challenge `h`, reduced mod `ℓ`. -/
def challenge (rBytes aBytes : CompressedEdwardsY) (message : Bytes) : D.Scalar :=
  D.fromBytesModOrderWide (sha512 (challengePreimage rBytes aBytes message))

/-- The part of `sign_with_random` after the length checks. -/
def signArrays (privateKey : ByteArr 32) (message random : Bytes) : ByteArr 64 :=
  let (s, aPositiveBytes) := signingKey D privateKey
  -- `R = r * B` for the hashed nonce
  let r := D.fromBytesModOrderWide (sha512 (noncePreimage D s message random))
  let rBytes := D.compress (D.ed25519BasepointPoint * r)
  let h := challenge D sha512 rBytes aPositiveBytes message
  -- `S = r + h * s`
  let bigS := r + h * s
  rBytes.append (D.toBytes bigS)

def signWithRandom (privateKey message random : Bytes) : Except Error (ByteArr 64) :=
  if hKey : privateKey.length = 32 then
    if random.length = 64 then .ok (signArrays D sha512 ⟨privateKey, hKey⟩ message random)
    else .error (.invalidLength 64 random.length)
  else .error (.invalidLength 32 privateKey.length)

/-- `sign`, with the bytes that the operating system provides. -/
def sign (random : ByteArr 64) (privateKey message : Bytes) : Except Error (ByteArr 64) :=
  signWithRandom D sha512 privateKey message random.1

/-! ### Verification -/

/-- The part of `verify` after the length checks, with the signature split into `R || S`. -/
def verifyArrays (publicKey : ByteArr 32) (message : Bytes) (rBytes sBytes : ByteArr 32) :
    Except Error Unit := do
  -- the key in Edwards form, decompressed again
  let bigACompressed ← montgomeryToEdwards D publicKey
  match D.decompress bigACompressed with
  | none => .error .invalidPublicKey
  | some bigA =>
    -- `R`, from the first half of the signature
    match D.decompress rBytes with
    | none => .error .verificationFailed
    | some bigR =>
      -- `S`, which has to be reduced
      match D.fromCanonicalBytes sBytes with
      | none => .error .verificationFailed
      | some s =>
        -- `S * B = R + h * A`
        let h := challenge D sha512 rBytes bigACompressed message
        let lhs := D.ed25519BasepointPoint * s
        let rhs := bigR + bigA * h
        if lhs = rhs then .ok () else .error .verificationFailed

def verify (publicKey message signature : Bytes) : Except Error Unit :=
  if hKey : publicKey.length = 32 then
    if hSig : signature.length = 64 then
      let sigArr : ByteArr (32 + 32) := ⟨signature, hSig⟩
      verifyArrays D sha512 ⟨publicKey, hKey⟩ message (sigArr.take 32) (sigArr.drop 32)
    else .error (.invalidLength 64 signature.length)
  else .error (.invalidLength 32 publicKey.length)

def verifyBool (publicKey message signature : Bytes) : Bool :=
  (verify D sha512 publicKey message signature).isOk

/-! ### What the verifier accepts -/

variable {D} {sha512}

/-- Inputs of the right lengths go past the length checks. -/
theorem verify_append (publicKey : ByteArr 32) (message : Bytes) (rBytes sBytes : ByteArr 32) :
    verify D sha512 publicKey.1 message (rBytes.append sBytes).1 =
      verifyArrays D sha512 publicKey message rBytes sBytes := by
  rw [verify, dif_pos publicKey.2, dif_pos (rBytes.append sBytes).2]
  simp only [Subtype.coe_eta, ByteArr.take_append, ByteArr.drop_append]

theorem montgomeryToEdwards_eq_ok {publicKey : ByteArr 32} {aBytes : CompressedEdwardsY} :
    montgomeryToEdwards D publicKey = .ok aBytes ↔
      ∃ bigA, D.toEdwards publicKey 0 = some bigA ∧ D.compress bigA = aBytes := by
  unfold montgomeryToEdwards
  cases D.toEdwards publicKey 0 <;> simp

/-- **The accepted set**: the key converts, the nonce decodes, `S` is reduced, and the Schnorr
equation holds between natural multiples. -/
theorem verifyArrays_iff (L : D.Lawful) (publicKey : ByteArr 32) (message : Bytes)
    (rBytes sBytes : ByteArr 32) :
    verifyArrays D sha512 publicKey message rBytes sBytes = .ok () ↔
      leValue sBytes.1 < ell ∧ ∃ bigA bigR, D.toEdwards publicKey 0 = some bigA ∧
        D.decompress rBytes = some bigR ∧
        Accepts D.ed25519BasepointPoint bigR bigA (leValue sBytes.1)
          (D.intOf (challenge D sha512 rBytes (D.compress bigA) message)) := by
  simp only [verifyArrays, montgomeryToEdwards]
  -- the branches in which the source returns early, each of which refutes the right side
  rcases h_A : D.toEdwards publicKey 0 with _ | bigA
  · simp [bind, Except.bind]
  simp only [bind, Except.bind, L.decompress_compress]
  rcases h_R : D.decompress rBytes with _ | bigR
  · simp
  rcases h_S : D.fromCanonicalBytes sBytes with _ | s
  · have h_not := mt (fun h_lt => (L.fromCanonicalBytes_iff sBytes _).mpr ⟨h_lt, rfl⟩)
      (by simp [h_S])
    simp [h_not]
  · have h_int := (L.fromCanonicalBytes_iff sBytes (D.intOf s)).mp ⟨s, h_S, rfl⟩
    have h_lt := L.intOf_lt s
    simp [h_lt, Accepts, L.mulScalar_eq, h_int.2]

/-! ### The signer's key -/

/-- Clearing bit 255 leaves the field bits. -/
theorem leValue_clear_top (b : ByteArr 32) :
    leValue (b.modify 31 (· &&& 0x7F)).1 = leValue b.1 % 2 ^ 255 := by
  have h_top := leValue_div_last b.2
  have h_byte : (b.1[31] &&& 0x7F).toNat = b.1[31].toNat % 128 := by
    rw [UInt8.toNat_and]
    exact Nat.and_two_pow_sub_one_eq_mod _ 7
  rw [ByteArr.modify, leValue_modify_last b.2, h_byte, ← h_top,
    show 2 ^ 255 = 256 ^ 31 * 128 by norm_num, Nat.mod_mul]

/-- The bit that the signer tests is bit 255. -/
theorem shift_top_eq_zero (b : ByteArr 32) :
    b.get 31 (by decide) >>> 7 = 0 ↔ signBit b = 0 := by
  have h_top : leValue b.1 / 256 ^ 31 = (b.get 31 (by decide)).toNat := leValue_div_last b.2
  have h_div : signBit b = leValue b.1 / 256 ^ 31 / 128 := by
    rw [signBit, Nat.div_div_eq_div_mul]
    norm_num
  rw [h_div, h_top, ← UInt8.toNat_inj, UInt8.toNat_shiftRight]
  exact iff_of_eq (congrArg (· = 0) (Nat.shiftRight_eq_div_pow _ 7))

/-- Scalars act on the basepoint through their residues. -/
theorem basepoint_mul_neg (L : D.Lawful) (a : D.Scalar) :
    D.ed25519BasepointPoint * -a = -(D.ed25519BasepointPoint * a) := by
  rw [L.mulScalar_eq, L.mulScalar_eq, L.neg_value,
    ← nsmul_eq_mod_nsmul _ L.ell_nsmul_basepoint, sub_nsmul _ (L.intOf_lt a).le,
    L.ell_nsmul_basepoint, zero_add]

theorem basepoint_mul_privateToScalar (L : D.Lawful) (k : ByteArr 32) :
    D.ed25519BasepointPoint * privateToScalar D k = clampInteger k • D.ed25519BasepointPoint := by
  rw [L.mulScalar_eq, privateToScalar, L.fromBytesModOrder_value, clamp, leValue_maskEnds,
    ← nsmul_eq_mod_nsmul _ L.ell_nsmul_basepoint]

/-- The key point is not the identity, its order being `ℓ`. -/
theorem clampInteger_nsmul_ne_zero (L : D.Lawful) (k : ByteArr 32) :
    clampInteger k • D.ed25519BasepointPoint ≠ 0 := by
  intro h_zero
  have h_order := L.addOrderOf_clampInteger_nsmul k
  rw [h_zero, addOrderOf_zero] at h_order
  exact prime_ell.ne_one h_order.symm

/-- Where the signer and the verifier meet: the point of the signing scalar has sign `0`, the
positive key bytes encode it, and it lies above the Curve25519 public key. -/
structure SigningPoint (k : ByteArr 32) (P : D.EdwardsPoint) : Prop where
  /-- Multiplying the basepoint by the signing scalar gives the point. -/
  scalar : D.ed25519BasepointPoint * (signingKey D k).1 = P
  /-- The bytes the signer hashes encode the point. -/
  bytes : D.compress P = (signingKey D k).2
  /-- The point is not the identity. -/
  ne_zero : P ≠ 0
  /-- Its sign is `0`. -/
  sign : parity (D.x P) = 0
  /-- Its `u`-coordinate is the public key. -/
  montgomery : D.toMontgomery P = D.mulBaseClamped k

/-- A point of sign `0` encodes as the cleared bytes of either of its signs. -/
theorem compress_eq_clear (L : D.Lawful) {P A : D.EdwardsPoint} (h_y : D.y P = D.y A)
    (h_sign : parity (D.x P) = 0) :
    D.compress P = (D.compress A).modify 31 (· &&& 0x7F) := by
  -- the cleared bytes have the value of `y` alone
  have h_lt : (D.y A).val < 2 ^ 255 := (ZMod.val_lt _).trans (by norm_num)
  apply ByteArr.ext_leValue
  rw [leValue_clear_top, L.compress_value, L.compress_value, h_sign, h_y, Nat.mul_zero, add_zero,
    Nat.add_mul_mod_self_left, Nat.mod_eq_of_lt h_lt]

/-- **The signing point**, in both sign cases. -/
theorem exists_signingPoint (L : D.Lawful) (k : ByteArr 32) :
    ∃ P : D.EdwardsPoint, SigningPoint k P := by
  have h_ne := clampInteger_nsmul_ne_zero L k
  have h_mont := L.mulBaseClamped_eq k
  have h_a := basepoint_mul_privateToScalar L k
  rw [← h_a] at h_ne h_mont
  have h_bit := shift_top_eq_zero (D.compress (D.ed25519BasepointPoint * privateToScalar D k))
  rw [L.signBit_compress] at h_bit
  -- the bit that the signer tests is the sign of `A`
  by_cases h_sign : parity (D.x (D.ed25519BasepointPoint * privateToScalar D k)) = 0
  · refine ⟨D.ed25519BasepointPoint * privateToScalar D k, ?_, ?_, h_ne, h_sign, h_mont.symm⟩
    · simp only [signingKey, if_pos (h_bit.mpr h_sign)]
    · exact compress_eq_clear L rfl h_sign
  · -- the sign is set, so `x` is not zero and negation clears it
    have h_x : D.x (D.ed25519BasepointPoint * privateToScalar D k) ≠ 0 := by
      intro h_zero
      exact h_sign (by rw [h_zero, parity_zero])
    have h_neg : parity (D.x (-(D.ed25519BasepointPoint * privateToScalar D k))) = 0 := by
      have h_le := parity_le_one (D.x (D.ed25519BasepointPoint * privateToScalar D k))
      rw [L.x_neg, parity_neg h_x]
      omega
    refine ⟨-(D.ed25519BasepointPoint * privateToScalar D k), ?_, ?_, neg_ne_zero.mpr h_ne, h_neg,
      ?_⟩
    · simp only [signingKey, if_neg (mt h_bit.mp h_sign)]
      exact basepoint_mul_neg L _
    · exact compress_eq_clear L (L.y_neg _) h_neg
    · rw [L.toMontgomery_neg, h_mont]

/-- The response `S = r + h * s` satisfies the equation for `R = r * B` and `A = s * B`. -/
theorem accepts_response (L : D.Lawful) (r h s : D.Scalar) :
    Accepts D.ed25519BasepointPoint (D.ed25519BasepointPoint * r) (D.ed25519BasepointPoint * s)
      (D.intOf (r + h * s)) (D.intOf h) := by
  rw [L.mulScalar_eq, L.mulScalar_eq, L.add_value, L.mul_value, Nat.add_mod_mod]
  exact accepts_of_honest L.ell_nsmul_basepoint _ _ _

/-- A signature verifies under the `u`-coordinate of its signing point. -/
theorem verify_signArrays (L : D.Lawful) (k : ByteArr 32) (message random : Bytes) :
    verify D sha512 (D.mulBaseClamped k).1 message (signArrays D sha512 k message random).1 =
      .ok () := by
  -- the verifier converts the public key to the signing point
  obtain ⟨P, h_P⟩ := exists_signingPoint L k
  simp only [signArrays]
  rw [verify_append, verifyArrays_iff L]
  refine ⟨L.intOf_lt _, P, _, ?_, L.decompress_compress _, ?_⟩
  · rw [← h_P.montgomery]
    exact L.toEdwards_toMontgomery h_P.ne_zero h_P.sign
  · -- both sides hash the same key bytes
    rw [h_P.bytes, ← h_P.scalar]
    exact accepts_response L _ _ _

/-- Deriving the public key from the stored, already clamped bytes clamps them once more. -/
theorem toBytes_publicKey (L : D.Lawful) (k : ByteArr 32) :
    ((Curve25519.PrivateKey.fromBytesClamped k).publicKey D).toBytes = D.mulBaseClamped k := by
  simp only [Curve25519.PublicKey.toBytes, Curve25519.PrivateKey.publicKey,
    Curve25519.PrivateKey.fromBytesClamped]
  rw [L.mulBaseClamped_eq, L.mulBaseClamped_eq, clampInteger_maskEnds]

/-- **Completeness.** For every private key, message and nonce, signing succeeds, and the signature
verifies under the Curve25519 public key that `sc-curve25519` derives from the private key. -/
theorem signWithRandom_verify (L : D.Lawful) (k : ByteArr 32) (message : Bytes)
    (random : ByteArr 64) :
    ∃ key sig, Curve25519.PrivateKey.tryFromBytes k.1 = .ok key ∧
      signWithRandom D sha512 k.1 message random.1 = .ok sig ∧
      verify D sha512 (key.publicKey D).toBytes.1 message sig.1 = .ok () := by
  refine ⟨_, signArrays D sha512 k message random.1, Curve25519.PrivateKey.tryFromBytes_eq k,
    ?_, ?_⟩
  · rw [signWithRandom, dif_pos k.2, if_pos random.2]
  · rw [toBytes_publicKey L]
    exact verify_signArrays L k message random.1

/-- The theorem at Curve25519, SHA-512 and the zero key. -/
theorem signWithRandom_verify_zero :
    ∃ key sig, Curve25519.PrivateKey.tryFromBytes (ByteArr.replicate 32 0).1 = .ok key ∧
      signWithRandom edwards25519 Sha2.sha512 (ByteArr.replicate 32 0).1 []
        (ByteArr.replicate 64 0).1 = .ok sig ∧
      verify edwards25519 Sha2.sha512 (key.publicKey edwards25519).toBytes.1 [] sig.1 = .ok () :=
  signWithRandom_verify edwards25519_lawful (ByteArr.replicate 32 0) [] (ByteArr.replicate 64 0)

end XEd25519

end SignalisCore
