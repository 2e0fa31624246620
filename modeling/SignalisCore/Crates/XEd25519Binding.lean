import SignalisCore.Crates.XEd25519Spec

/-!
# What an XEd25519 signature binds

Two accepted signatures that share most of their parts share the rest. Both results read the Schnorr
equation twice in the full group of order `8ℓ`, with a nonce point, and for the first one also a
key, that may carry torsion:

* `verify_response_unique`: `S` is determined by the key, the message and `R`, since the basepoint
  has order `ℓ` and `S` is reduced.
* `verify_challenge_modEq`: the challenge is determined modulo `ℓ` by `R || S`, since a key derived
  from a private key has order `ℓ`.
-/

namespace SignalisCore

open LittleEndian SchnorrGroup

namespace XEd25519

variable {D : Dalek} {sha512 : Bytes → ByteArr 64}

/-! ### Malleability -/

/-- **No malleability in `S`.** Under any public key, message and `R`, at most one `S` is
accepted. -/
theorem verify_response_unique (L : D.Lawful) (publicKey : ByteArr 32) (message : Bytes)
    (rBytes : ByteArr 32) {s₁ s₂ : ByteArr 32}
    (h₁ : verify D sha512 publicKey.1 message (rBytes.append s₁).1 = .ok ())
    (h₂ : verify D sha512 publicKey.1 message (rBytes.append s₂).1 = .ok ()) : s₁ = s₂ := by
  rw [verify_iff_groupEquation L] at h₁ h₂
  obtain ⟨h_lt₁, A, R, h_A, h_R, h_eq₁⟩ := h₁
  obtain ⟨h_lt₂, A', R', h_A', h_R', h_eq₂⟩ := h₂
  -- both equations are about the same key and the same nonce point
  obtain rfl : A = A' := Option.some.inj (h_A.symm.trans h_A')
  obtain rfl : R = R' := Option.some.inj (h_R.symm.trans h_R')
  have h_mod := response_unique h_eq₁ h_eq₂
  rw [L.order_basepoint] at h_mod
  -- both responses are below `ℓ`, so the congruence is an equation
  exact ByteArr.ext_leValue (h_mod.eq_of_lt_of_lt h_lt₁ h_lt₂)

/-- At the all-zero key, the response zero is the only one to its challenge. -/
theorem verify_response_unique_zero :
    ∃ s, verify edwards25519 Sha2.sha512 (ByteArr.ofLe 32 0).1 [1]
        ((ByteArr.ofLe 32 1).append s).1 = .ok () ∧ s = ByteArr.ofLe 32 0 := by
  have h := (verify_iff_groupEquation edwards25519_lawful (ByteArr.ofLe 32 0) [1]
    (ByteArr.ofLe 32 1) (ByteArr.ofLe 32 0)).mpr (groupEquation_orderTwo fieldOfBytes_zero)
  exact ⟨_, h, verify_response_unique edwards25519_lawful _ _ _ h h⟩

/-! ### Messages -/

/-- The key that the verifier rebuilds from a derived public key has order `ℓ`. -/
theorem SigningPoint.addOrderOf_eq (L : D.Lawful) {privateKey : ByteArr 32} {P : D.EdwardsPoint}
    (h : SigningPoint privateKey P) : addOrderOf P = ell := by
  -- `P` is a multiple of the basepoint and not the identity
  refine addOrderOf_eq_prime ?_ h.ne_zero
  rw [← h.scalar, L.mulScalar_eq, nsmul_left_comm, L.ell_nsmul_basepoint, nsmul_zero]

/-- The verifier finds the signing point. -/
theorem SigningPoint.toEdwards_publicKey (L : D.Lawful) {privateKey : ByteArr 32}
    {P : D.EdwardsPoint} (h : SigningPoint privateKey P) :
    D.toEdwards ((Curve25519.PrivateKey.fromBytesClamped privateKey).publicKey D).toBytes 0 =
      some P := by
  rw [toBytes_publicKey L, ← h.montgomery]
  exact L.toEdwards_toMontgomery h.ne_zero h.sign

/-- **Messages are bound** up to a collision of challenges: a signature that is accepted for two
messages under a public key derived from a private key has challenge hashes congruent modulo `ℓ`. -/
theorem verify_challenge_modEq (L : D.Lawful) {privateKey : ByteArr 32}
    {key : Curve25519.PrivateKey}
    (h_key : Curve25519.PrivateKey.tryFromBytes privateKey.1 = .ok key)
    {message message' : Bytes} {rBytes sBytes : ByteArr 32}
    (h : verify D sha512 (key.publicKey D).toBytes.1 message (rBytes.append sBytes).1 = .ok ())
    (h' : verify D sha512 (key.publicKey D).toBytes.1 message' (rBytes.append sBytes).1 =
      .ok ()) :
    ∃ aBytes, montgomeryToEdwards D (key.publicKey D).toBytes = .ok aBytes ∧
      leValue (sha512 (rBytes.1 ++ aBytes.1 ++ message)).1 ≡
        leValue (sha512 (rBytes.1 ++ aBytes.1 ++ message')).1 [MOD ell] := by
  obtain rfl : Curve25519.PrivateKey.fromBytesClamped privateKey = key := by
    rw [Curve25519.PrivateKey.tryFromBytes_eq] at h_key
    exact Except.ok.inj h_key
  obtain ⟨P, h_P⟩ := exists_signingPoint L privateKey
  have h_to := h_P.toEdwards_publicKey L
  refine ⟨_, montgomeryToEdwards_eq_ok.mpr ⟨P, h_to, rfl⟩, ?_⟩
  rw [verify_iff_groupEquation L] at h h'
  obtain ⟨-, A, R, h_A, h_R, h_eq⟩ := h
  obtain ⟨-, A', R', h_A', h_R', h_eq'⟩ := h'
  -- both equations are about the signing point and the same nonce point
  obtain rfl : P = A := Option.some.inj (h_to.symm.trans h_A)
  obtain rfl : P = A' := Option.some.inj (h_to.symm.trans h_A')
  obtain rfl : R = R' := Option.some.inj (h_R.symm.trans h_R')
  have h_mod := challenge_unique h_eq h_eq'
  rw [h_P.addOrderOf_eq L] at h_mod
  exact (Nat.mod_modEq _ _).symm.trans (h_mod.trans (Nat.mod_modEq _ _))

/-- A hash function with two values that are congruent modulo `ℓ`. -/
def congruentHash (input : Bytes) : ByteArr 64 :=
  .ofLe 64 (if input.getLast? = some 1 then ell + 1 else 1)

theorem leValue_congruentHash (input : Bytes) :
    leValue (congruentHash input).1 = if input.getLast? = some 1 then ell + 1 else 1 := by
  refine ByteArr.leValue_ofLe ?_
  split_ifs <;> norm_num

/-- As scalars its values are one. -/
theorem fromBytesModOrderWide_congruentHash (input : Bytes) :
    edwards25519.fromBytesModOrderWide (congruentHash input) = Fin.ofNat ell 1 := by
  apply Fin.ext
  change leValue (congruentHash input).1 % ell = 1 % ell
  rw [leValue_congruentHash]
  split_ifs
  · rw [Nat.add_mod_left]
  · rfl

/-- Under that hash function, the zero key's own signature of the message `00` is accepted for the
message `01` too, whose challenge is another hash with the same residue. -/
theorem verify_challenge_modEq_congruent :
    ∃ key rBytes sBytes aBytes,
      Curve25519.PrivateKey.tryFromBytes (ByteArr.replicate 32 0).1 = .ok key ∧
      verify edwards25519 congruentHash (key.publicKey edwards25519).toBytes.1 [0]
        (ByteArr.append (m := 32) (n := 32) rBytes sBytes).1 = .ok () ∧
      verify edwards25519 congruentHash (key.publicKey edwards25519).toBytes.1 [1]
        (ByteArr.append (m := 32) (n := 32) rBytes sBytes).1 = .ok () ∧
      montgomeryToEdwards edwards25519 (key.publicKey edwards25519).toBytes = .ok aBytes ∧
      congruentHash (rBytes.1 ++ aBytes.1 ++ [0]) ≠ congruentHash (rBytes.1 ++ aBytes.1 ++ [1]) ∧
      leValue (congruentHash (rBytes.1 ++ aBytes.1 ++ [0])).1 ≡
        leValue (congruentHash (rBytes.1 ++ aBytes.1 ++ [1])).1 [MOD ell] := by
  have h_key := Curve25519.PrivateKey.tryFromBytes_eq (ByteArr.replicate 32 0)
  -- the signer's own signature, which does not depend on the message
  have h_sig (message : Bytes) : verify edwards25519 congruentHash
      (edwards25519.mulBaseClamped (ByteArr.replicate 32 0)).1 message
      (signArrays edwards25519 congruentHash (ByteArr.replicate 32 0) message
        (ByteArr.replicate 64 0).1).1 = .ok () :=
    verify_signArrays edwards25519_lawful _ _ _
  simp only [signArrays, challenge, fromBytesModOrderWide_congruentHash] at h_sig
  rw [← toBytes_publicKey edwards25519_lawful] at h_sig
  obtain ⟨aBytes, h_bytes, h_mod⟩ :=
    verify_challenge_modEq edwards25519_lawful h_key (h_sig [0]) (h_sig [1])
  refine ⟨_, _, _, aBytes, h_key, h_sig [0], h_sig [1], h_bytes, fun h_eq => ?_, h_mod⟩
  have h_value := congrArg (fun hash : ByteArr 64 => leValue hash.1) h_eq
  simp only [leValue_congruentHash, List.getLast?_concat] at h_value
  exact absurd h_value (by decide)

end XEd25519

end SignalisCore
