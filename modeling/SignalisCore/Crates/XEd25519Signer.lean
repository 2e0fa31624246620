import SignalisCore.Crates.XEd25519Spec

/-!
# What an XEd25519 signer hashes, and what it depends on

A run of `sign_with_random` hashes two strings, one for the nonce and one for the challenge
(`signWithRandom_eq`). The first starts with a prefix that no point encodes to, and has its message
between fields of fixed lengths.

* `nonceInput_separated`: nonce inputs determine the scalar, the message and the randomness, and are
  never challenge inputs.
* `signingKey_eq_of_mulBaseClamped_eq`: the normalised key pair is a function of the public key.
* `signIdentically_of_publicKey_eq`: so the signature depends on the private key only through it.
-/

namespace SignalisCore

open LittleEndian SchnorrGroup

namespace XEd25519

variable (D : Dalek) (sha512 : Bytes → ByteArr 64)

/-! ### The two hashes of a run -/

/-- What a call of `sign_with_random` hashes for its nonce. -/
def nonceInput (privateKey : ByteArr 32) (message random : Bytes) : Bytes :=
  noncePreimage D (signingKey D privateKey).1 message random

/-- What a call of `sign_with_random` hashes for its challenge, after the nonce. -/
def challengeInput (privateKey : ByteArr 32) (message random : Bytes) : Bytes :=
  challengePreimage
    (D.compress (D.ed25519BasepointPoint *
      D.fromBytesModOrderWide (sha512 (nonceInput D privateKey message random))))
    (signingKey D privateKey).2 message

/-- The signature that a private key makes of its two hashes. -/
def signatureOf (privateKey : ByteArr 32) (nonceHash challengeHash : ByteArr 64) : ByteArr 64 :=
  let r := D.fromBytesModOrderWide nonceHash
  let h := D.fromBytesModOrderWide challengeHash
  (D.compress (D.ed25519BasepointPoint * r)).append
    (D.toBytes (r + h * (signingKey D privateKey).1))

/-- **A run** hashes these two strings and no other. -/
theorem signWithRandom_eq (privateKey : ByteArr 32) (message : Bytes) (random : ByteArr 64) :
    signWithRandom D sha512 privateKey.1 message random.1 =
      .ok (signatureOf D privateKey (sha512 (nonceInput D privateKey message random.1))
        (sha512 (challengeInput D sha512 privateKey message random.1))) := by
  rw [signWithRandom, dif_pos privateKey.2, if_pos random.2]
  rfl

variable {D} {sha512}

/-! ### Separation -/

/-- The prefix of a nonce input, `FE FF .. FF`. -/
def hashPrefix : ByteArr 32 := (ByteArr.replicate 32 0xFF).modify 0 fun _ => 0xFE

theorem leValue_hashPrefix : leValue hashPrefix.1 = 2 ^ 256 - 2 := by
  decide +kernel

/-- A point never encodes to the prefix, whose `y` would be `2 ^ 255 - 2`. -/
theorem compress_ne_hashPrefix (L : D.Lawful) (P : D.EdwardsPoint) :
    D.compress P ≠ hashPrefix := by
  intro h
  have h_canon := (L.canonicalPoint_compress P).1
  rw [h, leValue_hashPrefix] at h_canon
  exact absurd h_canon (by norm_num)

/-- Scalars with the same bytes are the same. -/
theorem toBytes_injective (L : D.Lawful) : Function.Injective D.toBytes := by
  intro s t h
  have h_s := (L.fromCanonicalBytes_eq_some (D.toBytes s) s).mpr rfl
  have h_t := (L.fromCanonicalBytes_eq_some (D.toBytes s) t).mpr h.symm
  exact Option.some.inj (h_s.symm.trans h_t)

/-- The fields of a nonce input can be read off it: the first two have fixed lengths, and so has the
last one. -/
theorem noncePreimage_inj (L : D.Lawful) {s t : D.Scalar} {m n : Bytes} {y z : ByteArr 64}
    (h : noncePreimage D s m y.1 = noncePreimage D t n z.1) : s = t ∧ m = n ∧ y = z := by
  simp only [noncePreimage, List.append_assoc] at h
  have h_rest := List.append_cancel_left h
  have h_parts := List.append_inj h_rest ((D.toBytes s).2.trans (D.toBytes t).2.symm)
  -- the message is what stands before the last 64 bytes
  have h_tail := List.append_inj' h_parts.2 (y.2.trans z.2.symm)
  exact ⟨toBytes_injective L (Subtype.ext h_parts.1), h_tail.1, Subtype.ext h_tail.2⟩

/-- No nonce input starts as a challenge input does, with the encoding of a point. -/
theorem noncePreimage_ne_challengePreimage (L : D.Lawful) (s : D.Scalar) (m random n : Bytes)
    (R : D.EdwardsPoint) (aBytes : CompressedEdwardsY) :
    noncePreimage D s m random ≠ challengePreimage (D.compress R) aBytes n := by
  intro h
  simp only [noncePreimage, challengePreimage, List.append_assoc] at h
  have h_prefix := List.append_inj h (hashPrefix.2.trans (D.compress R).2.symm)
  exact compress_ne_hashPrefix L R (Subtype.ext h_prefix.1.symm)

variable (sha512) in
/-- **Domain separation**: every run hashes its nonce input and its challenge input; two runs with
one nonce input have the same scalar, message and randomness, and no run has the nonce input of a
run as its challenge input. -/
theorem nonceInput_separated (L : D.Lawful) (k₁ k₂ : ByteArr 32) (m₁ m₂ : Bytes)
    (z₁ z₂ : ByteArr 64) :
    (∀ (k : ByteArr 32) (m : Bytes) (z : ByteArr 64), signWithRandom D sha512 k.1 m z.1 =
      .ok (signatureOf D k (sha512 (nonceInput D k m z.1))
        (sha512 (challengeInput D sha512 k m z.1)))) ∧
    (nonceInput D k₁ m₁ z₁.1 = nonceInput D k₂ m₂ z₂.1 →
      (signingKey D k₁).1 = (signingKey D k₂).1 ∧ m₁ = m₂ ∧ z₁ = z₂) ∧
    nonceInput D k₁ m₁ z₁.1 ≠ challengeInput D sha512 k₂ m₂ z₂.1 :=
  ⟨signWithRandom_eq D sha512, noncePreimage_inj L,
    noncePreimage_ne_challengePreimage L _ _ _ _ _ _⟩

/-- Two messages under the zero key have different nonce inputs, and neither is a challenge
input. -/
theorem nonceInput_separated_zero :
    nonceInput edwards25519 (ByteArr.replicate 32 0) [] (ByteArr.replicate 64 0).1 ≠
      nonceInput edwards25519 (ByteArr.replicate 32 0) [1] (ByteArr.replicate 64 0).1 ∧
    nonceInput edwards25519 (ByteArr.replicate 32 0) [] (ByteArr.replicate 64 0).1 ≠
      challengeInput edwards25519 Sha2.sha512 (ByteArr.replicate 32 0) [1]
        (ByteArr.replicate 64 0).1 := by
  obtain ⟨-, h_inj, h_ne⟩ := nonceInput_separated Sha2.sha512 edwards25519_lawful
    (ByteArr.replicate 32 0) (ByteArr.replicate 32 0) [] [1] (ByteArr.replicate 64 0)
    (ByteArr.replicate 64 0)
  exact ⟨fun h => List.cons_ne_nil _ _ (h_inj h).2.1.symm, h_ne⟩

/-! ### Dependence on the private key -/

/-- Multiples of the basepoint determine the scalar. -/
theorem scalar_eq_of_basepoint_mul_eq (L : D.Lawful) {s t : D.Scalar}
    (h : D.ed25519BasepointPoint * s = D.ed25519BasepointPoint * t) : s = t := by
  rw [L.mulScalar_eq, L.mulScalar_eq, nsmul_eq_nsmul_iff_modEq, L.order_basepoint] at h
  -- canonical integers are below `ℓ`
  have h_int := h.eq_of_lt_of_lt (L.intOf_lt s) (L.intOf_lt t)
  exact toBytes_injective L (ByteArr.ext_leValue h_int)

/-- Keys with one public key have one signing point. -/
theorem SigningPoint.eq_of_mulBaseClamped_eq (L : D.Lawful) {k₁ k₂ : ByteArr 32}
    {P₁ P₂ : D.EdwardsPoint} (h₁ : SigningPoint k₁ P₁) (h₂ : SigningPoint k₂ P₂)
    (h : D.mulBaseClamped k₁ = D.mulBaseClamped k₂) : P₁ = P₂ := by
  -- the sign is `0` on both sides, so the `u`-coordinate leaves no choice
  have h_to₁ := L.toEdwards_toMontgomery h₁.ne_zero h₁.sign
  have h_to₂ := L.toEdwards_toMontgomery h₂.ne_zero h₂.sign
  rw [h₁.montgomery, h, ← h₂.montgomery, h_to₂] at h_to₁
  exact Option.some.inj h_to₁.symm

/-- **The normalised key pair** is a function of the public key. -/
theorem signingKey_eq_of_mulBaseClamped_eq (L : D.Lawful) {k₁ k₂ : ByteArr 32}
    (h : D.mulBaseClamped k₁ = D.mulBaseClamped k₂) : signingKey D k₁ = signingKey D k₂ := by
  obtain ⟨P₁, h₁⟩ := exists_signingPoint L k₁
  obtain ⟨P₂, h₂⟩ := exists_signingPoint L k₂
  obtain rfl := h₁.eq_of_mulBaseClamped_eq L h₂ h
  refine Prod.ext ?_ ?_
  · exact scalar_eq_of_basepoint_mul_eq L (h₁.scalar.trans h₂.scalar.symm)
  · rw [← h₁.bytes, h₂.bytes]

variable (D) (sha512)

/-- Two private keys sign every message alike, with whatever randomness. -/
def SignIdentically (k₁ k₂ : ByteArr 32) : Prop :=
  ∀ (message : Bytes) (random : ByteArr 64),
    signWithRandom D sha512 k₁.1 message random.1 = signWithRandom D sha512 k₂.1 message random.1

variable {D} {sha512}

theorem signIdentically_of_mulBaseClamped_eq (L : D.Lawful) {k₁ k₂ : ByteArr 32}
    (h : D.mulBaseClamped k₁ = D.mulBaseClamped k₂) : SignIdentically D sha512 k₁ k₂ := by
  intro message random
  simp only [signWithRandom_eq, signatureOf, nonceInput, challengeInput,
    signingKey_eq_of_mulBaseClamped_eq L h]

/-- Clamped scalars that are opposite modulo `ℓ` have one public key. -/
theorem mulBaseClamped_eq_of_dvd_add (L : D.Lawful) {k₁ k₂ : ByteArr 32}
    (h : ell ∣ clampInteger k₁ + clampInteger k₂) :
    D.mulBaseClamped k₁ = D.mulBaseClamped k₂ := by
  have h_zero : (clampInteger k₁ + clampInteger k₂) • D.ed25519BasepointPoint = 0 := by
    rwa [← addOrderOf_dvd_iff_nsmul_eq_zero, L.order_basepoint]
  rw [add_nsmul] at h_zero
  rw [L.mulBaseClamped_eq, L.mulBaseClamped_eq, eq_neg_of_add_eq_zero_left h_zero,
    L.toMontgomery_neg]

/-- **A signature depends on the private key only through the public key.** In particular clamping a
key does not change what it signs, and neither does replacing its clamped scalar by the opposite
one. -/
theorem signIdentically_of_publicKey_eq (L : D.Lawful) :
    (∀ (k₁ k₂ : ByteArr 32) (key₁ key₂ : Curve25519.PrivateKey),
      Curve25519.PrivateKey.tryFromBytes k₁.1 = .ok key₁ →
      Curve25519.PrivateKey.tryFromBytes k₂.1 = .ok key₂ →
      (key₁.publicKey D).toBytes = (key₂.publicKey D).toBytes → SignIdentically D sha512 k₁ k₂) ∧
    (∀ k : ByteArr 32, SignIdentically D sha512 k (clamp k)) ∧
    ∀ k₁ k₂ : ByteArr 32, ell ∣ leValue (clamp k₁).1 + leValue (clamp k₂).1 →
      SignIdentically D sha512 k₁ k₂ := by
  refine ⟨fun k₁ k₂ key₁ key₂ h₁ h₂ h => ?_, fun k => ?_, fun k₁ k₂ h => ?_⟩
  -- the public key that the crate derives is that of the raw bytes
  · rw [Curve25519.PrivateKey.tryFromBytes_eq, Except.ok.injEq] at h₁ h₂
    subst h₁ h₂
    rw [toBytes_publicKey L, toBytes_publicKey L] at h
    exact signIdentically_of_mulBaseClamped_eq L h
  · refine signIdentically_of_mulBaseClamped_eq L ?_
    rw [L.mulBaseClamped_eq, L.mulBaseClamped_eq, clamp, clampInteger_maskEnds]
  · rw [clamp, clamp, leValue_maskEnds, leValue_maskEnds] at h
    exact signIdentically_of_mulBaseClamped_eq L (mulBaseClamped_eq_of_dvd_add L h)

/-- The zero key and its clamped form, which differ, sign identically. -/
theorem signIdentically_of_publicKey_eq_zero :
    ByteArr.replicate 32 0 ≠ clamp (ByteArr.replicate 32 0) ∧
    SignIdentically edwards25519 Sha2.sha512 (ByteArr.replicate 32 0)
      (clamp (ByteArr.replicate 32 0)) :=
  ⟨by decide, (signIdentically_of_publicKey_eq edwards25519_lawful).2.1 _⟩

end XEd25519

end SignalisCore
