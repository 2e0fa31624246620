import SignalisCore.Crates.Ed25519

/-!
# `sc-ed25519`: keys and signatures

The signing half of the crate over `ed25519-dalek`, which hashes the seed into a scalar and a prefix
for the nonces, and what its strict verifier accepts of it.

* `verify_sign_iff`: a signature verifies unless the hash of its nonce is divisible by `ℓ`.
* `verify_binds`: an accepted signature determines `S`, and the message up to a collision of
  challenges, whatever the public key.
-/

namespace SignalisCore

open LittleEndian SchnorrGroup

/-! ### The interface of ed25519-dalek -/

/-- The functions of `ed25519-dalek` that signing uses. -/
structure Ed25519Signing where
  /-- `SigningKey`. -/
  SigningKey : Type
  /-- `SigningKey::from_bytes`. -/
  fromBytes : ByteArr 32 → SigningKey
  /-- `verifying_key().to_bytes()`. -/
  verifyingKey : SigningKey → ByteArr 32
  /-- `sign(message).to_bytes()`. -/
  sign : SigningKey → Bytes → ByteArr (32 + 32)

section Expanded

variable (D : Dalek) (sha512 : Bytes → ByteArr 64) (seed : ByteArr 32)

/-- The secret scalar of a seed: the first half of its hash, clamped. -/
def secretScalar : ℕ := clampInteger (ByteArr.take (n := 32) 32 (sha512 seed.1))

/-- The hash of a nonce, which starts with the second half of the hash of the seed. -/
def nonceHash (message : Bytes) : ℕ :=
  leValue (sha512 ((ByteArr.drop (n := 32) 32 (sha512 seed.1)).1 ++ message)).1

/-- The public key of a seed. -/
def verifyingBytes : ByteArr 32 := D.compress (secretScalar sha512 seed • D.ed25519BasepointPoint)

/-- The nonce point of a signature. -/
def noncePoint (message : Bytes) : D.EdwardsPoint :=
  (nonceHash sha512 seed message % ell) • D.ed25519BasepointPoint

/-- The response of a signature. -/
def response (message : Bytes) : ℕ :=
  let rBytes := D.compress (noncePoint D sha512 seed message)
  let h := leValue (sha512 (rBytes.1 ++ (verifyingBytes D sha512 seed).1 ++ message)).1 % ell
  (nonceHash sha512 seed message % ell + h * secretScalar sha512 seed) % ell

end Expanded

/-- **The behaviour assumed of signing**: RFC 8032. -/
structure Ed25519Signing.Lawful (G : Ed25519Signing) (D : Dalek) (sha512 : Bytes → ByteArr 64) :
    Prop where
  verifyingKey_eq : ∀ seed, G.verifyingKey (G.fromBytes seed) = verifyingBytes D sha512 seed
  sign_eq : ∀ seed message, G.sign (G.fromBytes seed) message =
    (D.compress (noncePoint D sha512 seed message)).append
      (ByteArr.ofLe 32 (response D sha512 seed message))

/-- Signing as the standard defines it: a key is its seed. -/
def ed25519Signing (D : Dalek) (sha512 : Bytes → ByteArr 64) : Ed25519Signing where
  SigningKey := ByteArr 32
  fromBytes seed := seed
  verifyingKey := verifyingBytes D sha512
  sign seed message := (D.compress (noncePoint D sha512 seed message)).append
    (ByteArr.ofLe 32 (response D sha512 seed message))

theorem ed25519Signing_lawful (D : Dalek) (sha512 : Bytes → ByteArr 64) :
    (ed25519Signing D sha512).Lawful D sha512 where
  verifyingKey_eq _ := rfl
  sign_eq _ _ := rfl

namespace Ed25519

/-! ### The crate -/

/-- `PrivateKey`: the seed. -/
structure PrivateKey where
  /-- The stored bytes. -/
  bytes : ByteArr 32

structure KeyPair where
  priv : PrivateKey
  pub : PublicKey

def PrivateKey.tryFromBytes (bytes : Bytes) : Except Error PrivateKey :=
  if h : bytes.length = 32 then .ok ⟨⟨bytes, h⟩⟩ else .error (.invalidLength 32 bytes.length)

section Signing

variable (G : Ed25519Signing)

def PrivateKey.publicKey (key : PrivateKey) : PublicKey :=
  ⟨G.verifyingKey (G.fromBytes key.bytes)⟩

def PrivateKey.sign (key : PrivateKey) (message : Bytes) : ByteArr 64 :=
  G.sign (G.fromBytes key.bytes) message

/-- `PrivateKey::generate`, with the bytes that the operating system provides. -/
def PrivateKey.generate (random : ByteArr 32) : PrivateKey := ⟨random⟩

def KeyPair.fromPrivate (priv : PrivateKey) : KeyPair := ⟨priv, priv.publicKey G⟩

def KeyPair.generate (random : ByteArr 32) : KeyPair :=
  KeyPair.fromPrivate G (PrivateKey.generate random)

def KeyPair.fromSeed (seed : Bytes) : Except Error KeyPair := do
  let priv ← PrivateKey.tryFromBytes seed
  return ⟨priv, priv.publicKey G⟩

def sign (privateKey message : Bytes) : Except Error (ByteArr 64) := do
  let privKey ← PrivateKey.tryFromBytes privateKey
  return privKey.sign G message

def publicFromPrivate (privateKey : Bytes) : Except Error (ByteArr 32) := do
  let privKey ← PrivateKey.tryFromBytes privateKey
  return (privKey.publicKey G).bytes

end Signing

theorem PrivateKey.tryFromBytes_eq (seed : ByteArr 32) : tryFromBytes seed.1 = .ok ⟨seed⟩ :=
  dif_pos seed.2

/-! ### Completeness -/

variable {D : Dalek} {E : Ed25519Dalek} {G : Ed25519Signing} {sha512 : Bytes → ByteArr 64}

/-- A multiple of a point of order `ℓ` has small order only if it is the identity. -/
theorem eight_nsmul_ne_zero_iff {A : D.EdwardsPoint} (h : addOrderOf A = ell) (n : ℕ) :
    8 • n • A ≠ 0 ↔ ¬ell ∣ n := by
  have h_cop : Nat.Coprime ell 8 := by
    rw [prime_ell.coprime_iff_not_dvd]
    exact Nat.not_dvd_of_pos_of_lt (by norm_num) (by norm_num)
  rw [← mul_nsmul', Ne, ← addOrderOf_dvd_iff_nsmul_eq_zero, h, h_cop.dvd_mul_left]

/-- **Completeness, exactly**: the signature of a message verifies under the public key of its seed
unless the hash of the nonce is divisible by `ℓ`, which would make the nonce point the identity. -/
theorem verify_sign_iff (L : D.Lawful) (LE : E.Lawful D sha512) (LG : G.Lawful D sha512)
    (seed : ByteArr 32) (message : Bytes) :
    ∃ pair sig, KeyPair.fromSeed G seed.1 = .ok pair ∧ sign G seed.1 message = .ok sig ∧
      publicFromPrivate G seed.1 = .ok pair.pub.bytes ∧
      (verify E pair.pub.bytes.1 message sig.1 = .ok () ↔
        ¬ell ∣ nonceHash sha512 seed message) := by
  have h_parse := PrivateKey.tryFromBytes_eq seed
  refine ⟨⟨⟨seed⟩, (⟨seed⟩ : PrivateKey).publicKey G⟩, (⟨seed⟩ : PrivateKey).sign G message,
    by rw [KeyPair.fromSeed, h_parse]; rfl, by rw [sign, h_parse]; rfl,
    by rw [publicFromPrivate, h_parse]; rfl, ?_⟩
  simp only [PrivateKey.publicKey, PrivateKey.sign, LG.verifyingKey_eq, LG.sign_eq]
  rw [verify_iff_strictlyAccepts LE, StrictlyAccepts]
  have h_ell : 0 < ell := prime_ell.pos
  have h_response : response D sha512 seed message < ell := Nat.mod_lt _ h_ell
  have h_key := L.addOrderOf_clampInteger_nsmul (ByteArr.take (n := 32) 32 (sha512 seed.1))
  -- the response satisfies the equation whatever the nonce is
  have h_eq := accepts_iff_eq_sub.mp (accepts_of_honest L.ell_nsmul_basepoint
    (nonceHash sha512 seed message % ell) (secretScalar sha512 seed)
    (leValue (sha512 ((D.compress (noncePoint D sha512 seed message)).1 ++
      (verifyingBytes D sha512 seed).1 ++ message)).1 % ell))
  rw [ByteArr.leValue_ofLe (h_response.trans (by norm_num))]
  have h_small : 8 • noncePoint D sha512 seed message ≠ 0 ↔
      ¬ell ∣ nonceHash sha512 seed message := by
    rw [noncePoint, eight_nsmul_ne_zero_iff L.order_basepoint, Nat.dvd_mod_iff dvd_rfl]
  refine ⟨?_, ?_⟩
  · rintro ⟨-, R, A, h_R, -, h_order, -, -⟩
    rw [L.decompress_compress, Option.some.injEq] at h_R
    rw [← h_R] at h_order
    exact h_small.mp h_order
  · intro h
    refine ⟨h_response, _, _, L.decompress_compress _, L.decompress_compress _, h_small.mpr h,
      ?_, ?_⟩
    · have h_one := (eight_nsmul_ne_zero_iff h_key 1).mpr prime_ell.not_dvd_one
      rwa [one_nsmul] at h_one
    · exact congrArg D.compress h_eq

/-! ### Binding -/

/-- A point that eight does not kill has an order divisible by `ℓ`. -/
theorem ell_dvd_addOrderOf (L : D.Lawful) {A : D.EdwardsPoint} (h : 8 • A ≠ 0) :
    ell ∣ addOrderOf A := by
  by_contra h_not
  have h_card : addOrderOf A ∣ 8 * ell := by
    rw [← L.card_points]
    exact addOrderOf_dvd_natCard A
  have h_cop : Nat.Coprime (addOrderOf A) ell :=
    ((prime_ell.coprime_iff_not_dvd).mpr h_not).symm
  exact h (addOrderOf_dvd_iff_nsmul_eq_zero.mp (h_cop.dvd_of_dvd_mul_right h_card))

theorem compress_injective (L : D.Lawful) : Function.Injective D.compress := by
  intro P Q h
  have h_P := L.decompress_compress P
  rw [h, L.decompress_compress] at h_P
  exact (Option.some.inj h_P).symm

/-- An accepted signature satisfies the Schnorr equation, under a key of order divisible by `ℓ`. -/
theorem exists_accepts (L : D.Lawful) (LE : E.Lawful D sha512) {publicKey : ByteArr 32}
    {message : Bytes} {rBytes sBytes : ByteArr 32}
    (h : verify E publicKey.1 message (rBytes.append sBytes).1 = .ok ()) :
    leValue sBytes.1 < ell ∧ ∃ A R, D.decompress publicKey = some A ∧ rBytes = D.compress R ∧
      ell ∣ addOrderOf A ∧ Accepts D.ed25519BasepointPoint R A (leValue sBytes.1)
        (leValue (sha512 (rBytes.1 ++ publicKey.1 ++ message)).1 % ell) := by
  rw [verify_iff_strictlyAccepts LE] at h
  obtain ⟨h_lt, -, A, -, h_A, -, h_order, h_bytes⟩ := h
  exact ⟨h_lt, A, _, h_A, h_bytes, ell_dvd_addOrderOf L h_order, accepts_iff_eq_sub.mpr rfl⟩

/-- **What a signature binds**, under every public key: at most one `S` is accepted with a nonce
point, and two messages that share a signature have challenges congruent modulo `ℓ`. -/
theorem verify_binds (L : D.Lawful) (LE : E.Lawful D sha512) {publicKey : ByteArr 32}
    {message : Bytes} {rBytes sBytes : ByteArr 32}
    (h : verify E publicKey.1 message (rBytes.append sBytes).1 = .ok ()) :
    (∀ s, verify E publicKey.1 message (rBytes.append s).1 = .ok () → s = sBytes) ∧
      ∀ message', verify E publicKey.1 message' (rBytes.append sBytes).1 = .ok () →
        leValue (sha512 (rBytes.1 ++ publicKey.1 ++ message')).1 ≡
          leValue (sha512 (rBytes.1 ++ publicKey.1 ++ message)).1 [MOD ell] := by
  obtain ⟨h_lt, A, R, h_A, h_R, h_dvd, h_eq⟩ := exists_accepts L LE h
  refine ⟨?_, ?_⟩
  · intro s h'
    obtain ⟨h_lt', A', R', h_A', h_R', -, h_eq'⟩ := exists_accepts L LE h'
    -- both equations are about one key and one nonce point
    obtain rfl : A = A' := Option.some.inj (h_A.symm.trans h_A')
    obtain rfl : R = R' := compress_injective L (h_R.symm.trans h_R')
    have h_mod := response_unique h_eq' h_eq
    rw [L.order_basepoint] at h_mod
    exact ByteArr.ext_leValue (h_mod.eq_of_lt_of_lt h_lt' h_lt)
  · intro message' h'
    obtain ⟨-, A', R', h_A', h_R', -, h_eq'⟩ := exists_accepts L LE h'
    obtain rfl : A = A' := Option.some.inj (h_A.symm.trans h_A')
    obtain rfl : R = R' := compress_injective L (h_R.symm.trans h_R')
    have h_mod := (challenge_unique h_eq' h_eq).of_dvd h_dvd
    exact (Nat.mod_modEq _ _).symm.trans (h_mod.trans (Nat.mod_modEq _ _))

/-- The signature of the empty message under the zero seed. -/
theorem verify_binds_zero :
    ∃ pair, KeyPair.fromSeed (ed25519Signing edwards25519 Sha2.sha512)
        (ByteArr.replicate 32 0).1 = .ok pair ∧
      ∃ rBytes sBytes : ByteArr 32, ∀ s : ByteArr 32,
        verify (ed25519Dalek Sha2.sha512) pair.pub.bytes.1 [] (rBytes.append s).1 = .ok () →
          s = sBytes := by
  obtain ⟨pair, sig, h_pair, h_sig, -, h_iff⟩ := verify_sign_iff edwards25519_lawful
    (ed25519Dalek_lawful Sha2.sha512) (ed25519Signing_lawful edwards25519 Sha2.sha512)
    (ByteArr.replicate 32 0) []
  have h_ok := h_iff.mpr (by decide +kernel)
  have h_split : sig = (ByteArr.take (n := 32) 32 sig).append (ByteArr.drop (n := 32) 32 sig) :=
    Subtype.ext (List.take_append_drop 32 sig.1).symm
  rw [h_split] at h_ok
  exact ⟨pair, h_pair, _, _,
    (verify_binds edwards25519_lawful (ed25519Dalek_lawful Sha2.sha512) h_ok).1⟩

end Ed25519

end SignalisCore
