import SignalisCore.Crates.XEd25519Spec

/-!
# `sc-ed25519`: strict verification

The verifier of the crate over `ed25519-dalek`, whose `verify_strict` recomputes the nonce point and
compares bytes, and its comparison with the verifier of `sc-xed25519`, which decodes the nonce point
and compares points.

* `verify_iff_strictlyAccepts`: what the crate accepts.
* `verify_iff_xed25519_verify`: under a converted key the two verifiers differ by canonicity and
  small order alone.
-/

namespace SignalisCore

open LittleEndian SchnorrGroup

/-! ### The interface of ed25519-dalek -/

/-- The functions of `ed25519-dalek` that verification uses. -/
structure Ed25519Dalek where
  /-- `VerifyingKey`. -/
  VerifyingKey : Type
  /-- `VerifyingKey::from_bytes`, `none` for its error. -/
  fromBytes : ByteArr 32 → Option VerifyingKey
  /-- `VerifyingKey::verify_strict` on `Signature::from_bytes`, `true` for `Ok`. -/
  verifyStrict : VerifyingKey → Bytes → ByteArr (32 + 32) → Bool

/-- What `verify_strict` accepts under the key bytes `aBytes`: `S` is reduced, the nonce point and
the key decode and neither has small order, and the bytes `R` are those of `S * B - h * A`. -/
def StrictlyAccepts (D : Dalek) (sha512 : Bytes → ByteArr 64) (aBytes : ByteArr 32)
    (message : Bytes) (rBytes sBytes : ByteArr 32) : Prop :=
  leValue sBytes.1 < ell ∧ ∃ bigR bigA, D.decompress rBytes = some bigR ∧
    D.decompress aBytes = some bigA ∧ 8 • bigR ≠ 0 ∧ 8 • bigA ≠ 0 ∧
    rBytes = D.compress (leValue sBytes.1 • D.ed25519BasepointPoint -
      (leValue (sha512 (rBytes.1 ++ aBytes.1 ++ message)).1 % ell) • bigA)

/-- **The behaviour assumed of `ed25519-dalek`.** -/
structure Ed25519Dalek.Lawful (E : Ed25519Dalek) (D : Dalek) (sha512 : Bytes → ByteArr 64) :
    Prop where
  /-- Key parsing is Edwards decompression. -/
  fromBytes_isSome : ∀ b, (E.fromBytes b).isSome ↔ (D.decompress b).isSome
  /-- Strict verification. -/
  verifyStrict_iff : ∀ {b key}, E.fromBytes b = some key → ∀ message rBytes sBytes,
    E.verifyStrict key message (rBytes.append sBytes) = true ↔
      StrictlyAccepts D sha512 b message rBytes sBytes

open Classical in
/-- `ed25519-dalek` over Curve25519: a key is its bytes. -/
noncomputable def ed25519Dalek (sha512 : Bytes → ByteArr 64) : Ed25519Dalek where
  VerifyingKey := ByteArr 32
  fromBytes b := if (edwards25519.decompress b).isSome then some b else none
  verifyStrict key message signature :=
    decide (StrictlyAccepts edwards25519 sha512 key message (signature.take 32) (signature.drop 32))

theorem ed25519Dalek_lawful (sha512 : Bytes → ByteArr 64) :
    (ed25519Dalek sha512).Lawful edwards25519 sha512 where
  fromBytes_isSome b := by
    simp only [ed25519Dalek]
    split <;> simp_all
  verifyStrict_iff {b key} h_key message rBytes sBytes := by
    obtain rfl : b = key := by
      simp only [ed25519Dalek] at h_key
      split at h_key
      · exact Option.some.inj h_key
      · exact nomatch h_key
    simp only [ed25519Dalek, decide_eq_true_eq, ByteArr.take_append, ByteArr.drop_append]

namespace Ed25519

/-! ### The crate -/

inductive Error
  | invalidLength (expected actual : ℕ)
  | invalidPublicKey
  | verificationFailed
  deriving DecidableEq, Repr

def Error.toString : Error → String
  | .invalidLength expected actual =>
    "invalid byte length: expected " ++ expected.repr ++ ", got " ++ actual.repr
  | .invalidPublicKey => "invalid public key encoding"
  | .verificationFailed => "signature verification failed"

/-- `PublicKey`: unvalidated bytes. -/
structure PublicKey where
  /-- The stored bytes. -/
  bytes : ByteArr 32

def PublicKey.tryFromBytes (bytes : Bytes) : Except Error PublicKey :=
  if h : bytes.length = 32 then .ok ⟨⟨bytes, h⟩⟩ else .error (.invalidLength 32 bytes.length)

variable (E : Ed25519Dalek)

def PublicKey.verify (key : PublicKey) (message signature : Bytes) : Except Error Unit :=
  if hSig : signature.length = 64 then
    -- `VerifyingKey::from_bytes` and `verify_strict`
    match E.fromBytes key.bytes with
    | none => .error .invalidPublicKey
    | some verifyingKey =>
      if E.verifyStrict verifyingKey message ⟨signature, hSig⟩ then .ok ()
      else .error .verificationFailed
  else .error (.invalidLength 64 signature.length)

def verify (publicKey message signature : Bytes) : Except Error Unit := do
  let pubKey ← PublicKey.tryFromBytes publicKey
  pubKey.verify E message signature

def verifyBool (publicKey message signature : Bytes) : Bool :=
  (verify E publicKey message signature).isOk

/-! ### What the verifier accepts -/

variable {E} {D : Dalek} {sha512 : Bytes → ByteArr 64}

theorem verify_append (publicKey : ByteArr 32) (message : Bytes) (rBytes sBytes : ByteArr 32) :
    verify E publicKey.1 message (rBytes.append sBytes).1 = .ok () ↔
      ∃ key, E.fromBytes publicKey = some key ∧
        E.verifyStrict key message (rBytes.append sBytes) = true := by
  have h_parse : PublicKey.tryFromBytes publicKey.1 = .ok ⟨publicKey⟩ := dif_pos publicKey.2
  simp only [verify, h_parse, bind, Except.bind, PublicKey.verify]
  rw [dif_pos (rBytes.append sBytes).2]
  rcases E.fromBytes publicKey with _ | key <;> simp

/-- **The accepted set.** -/
theorem verify_iff_strictlyAccepts (LE : E.Lawful D sha512) (publicKey : ByteArr 32)
    (message : Bytes) (rBytes sBytes : ByteArr 32) :
    verify E publicKey.1 message (rBytes.append sBytes).1 = .ok () ↔
      StrictlyAccepts D sha512 publicKey message rBytes sBytes := by
  rw [verify_append]
  refine ⟨?_, ?_⟩
  · rintro ⟨key, h_key, h_strict⟩
    exact (LE.verifyStrict_iff h_key message rBytes sBytes).mp h_strict
  · intro h
    -- an accepted signature has a key that decodes, hence one that parses
    have h_parts := h
    obtain ⟨-, -, bigA, -, h_A, -⟩ := h_parts
    obtain ⟨key, h_key⟩ := Option.isSome_iff_exists.mp
      ((LE.fromBytes_isSome publicKey).mpr (by rw [h_A]; rfl))
    exact ⟨key, h_key, (LE.verifyStrict_iff h_key message rBytes sBytes).mpr h⟩

/-- **Agreement under key conversion.** A signature passes strict Ed25519 verification under the
converted key exactly when it passes XEd25519 verification, its nonce bytes are the canonical
encoding of their point, and neither nonce point nor key has order dividing eight. -/
theorem verify_iff_xed25519_verify (L : D.Lawful) (LE : E.Lawful D sha512)
    {publicKey aBytes : ByteArr 32} (h_key : XEd25519.montgomeryToEdwards D publicKey = .ok aBytes)
    (message : Bytes) (rBytes sBytes : ByteArr 32) :
    verify E aBytes.1 message (rBytes.append sBytes).1 = .ok () ↔
      XEd25519.verify D sha512 publicKey.1 message (rBytes.append sBytes).1 = .ok () ∧
      (∃ bigR, D.decompress rBytes = some bigR ∧ D.compress bigR = rBytes) ∧
      (∀ bigR, D.decompress rBytes = some bigR → 8 • bigR ≠ 0) ∧
      (∀ bigA, D.decompress aBytes = some bigA → 8 • bigA ≠ 0) := by
  obtain ⟨A, h_A, rfl⟩ := XEd25519.montgomeryToEdwards_eq_ok.mp h_key
  have h_dec := L.decompress_compress A
  rw [verify_iff_strictlyAccepts LE, XEd25519.verify_iff_groupEquation L, StrictlyAccepts,
    XEd25519.GroupEquation]
  refine ⟨?_, ?_⟩
  · rintro ⟨h_S, R, A', h_R, h_A', h_R_order, h_A_order, h_bytes⟩
    obtain rfl : A = A' := Option.some.inj (h_dec.symm.trans h_A')
    -- the recomputed nonce point is the one that the bytes decode to
    have h_R' := L.decompress_compress (leValue sBytes.1 • D.ed25519BasepointPoint -
      (leValue (sha512 (rBytes.1 ++ (D.compress A).1 ++ message)).1 % ell) • A)
    rw [← h_bytes, h_R, Option.some.injEq] at h_R'
    refine ⟨⟨h_S, A, R, h_A, h_R, accepts_iff_eq_sub.mpr h_R'⟩, ⟨R, h_R, ?_⟩, ?_, ?_⟩
    · rw [h_R', ← h_bytes]
    · intro P h_P
      rwa [← Option.some.inj (h_R.symm.trans h_P)]
    · intro P h_P
      rwa [← Option.some.inj (h_dec.symm.trans h_P)]
  · rintro ⟨⟨h_S, A', R, h_A', h_R, h_eq⟩, ⟨P, h_P, h_bytes⟩, h_R_order, h_A_order⟩
    obtain rfl : A = A' := Option.some.inj (h_A.symm.trans h_A')
    obtain rfl : R = P := Option.some.inj (h_R.symm.trans h_P)
    -- canonical bytes of the nonce point are those that are recomputed
    refine ⟨h_S, R, A, h_R, h_dec, h_R_order R h_R, h_A_order A h_dec, ?_⟩
    rw [← accepts_iff_eq_sub.mp h_eq, h_bytes]

/-- The theorem at Curve25519 and SHA-512, on the key `u = 0` and the signature that the point of
order two lets anyone write. -/
theorem verify_iff_xed25519_verify_zero :
    verify (ed25519Dalek Sha2.sha512) (edwards25519.compress XEd25519.orderTwo).1 [1]
        ((ByteArr.ofLe 32 1).append (ByteArr.ofLe 32 0)).1 = .ok () ↔
      XEd25519.verify edwards25519 Sha2.sha512 (ByteArr.ofLe 32 0).1 [1]
        ((ByteArr.ofLe 32 1).append (ByteArr.ofLe 32 0)).1 = .ok () ∧
      (∃ bigR, edwards25519.decompress (ByteArr.ofLe 32 1) = some bigR ∧
        edwards25519.compress bigR = ByteArr.ofLe 32 1) ∧
      (∀ bigR, edwards25519.decompress (ByteArr.ofLe 32 1) = some bigR → 8 • bigR ≠ 0) ∧
      (∀ bigA, edwards25519.decompress (edwards25519.compress XEd25519.orderTwo) = some bigA →
        8 • bigA ≠ 0) :=
  verify_iff_xed25519_verify edwards25519_lawful (ed25519Dalek_lawful Sha2.sha512)
    (XEd25519.montgomeryToEdwards_eq_ok.mpr
      ⟨_, XEd25519.toEdwards_orderTwo XEd25519.fieldOfBytes_zero, rfl⟩) _ _ _

end Ed25519

end SignalisCore
