import SignalisCore.Crates.XEd25519

/-!
# XEd25519 verification against the XEdDSA specification

`SpecAccepts` is the specification's verifier: it compares integers and bytes where the crate relies
on the decoders of `curve25519-dalek`, which reduce what they are given. The two accepted sets are
related through `GroupEquation`, the equation between the points that key and nonce decode to:

* `verify_iff_groupEquation`: the crate accepts exactly when the equation holds.
* `specAccepts_iff`: the specification accepts exactly when it holds of canonical encodings.
* `verify_conforms`: so the crate departs from the specification on malformed encodings only, and
  on those of points of order `ℓ` it always does for some `S`.
-/

namespace SignalisCore

open LittleEndian SchnorrGroup

/-! ### Canonical encodings -/

/-- The public key, read as a 256-bit integer, is below `p`. -/
def CanonicalKey (publicKey : ByteArr 32) : Prop := leValue publicKey.1 < p25519

/-- The encoding has `y < p`, and no sign bit on a point with `x = 0`. -/
def CanonicalPoint (b : CompressedEdwardsY) : Prop :=
  leValue b.1 % 2 ^ 255 < p25519 ∧ (signBit b = 1 → fieldOfBytes b ^ 2 ≠ 1)

namespace Dalek.Lawful

variable {D : Dalek}

/-- Compression writes canonical encodings. -/
theorem canonicalPoint_compress (L : D.Lawful) (P : D.EdwardsPoint) :
    CanonicalPoint (D.compress P) := by
  -- the canonical value of `y` is below `p`, and at `x = 0` the sign bit is not set
  have h_lt : (D.y P).val < 2 ^ 255 := (ZMod.val_lt _).trans (by norm_num)
  refine ⟨?_, fun h_sign h_sq => ?_⟩
  · rw [L.compress_value, Nat.add_mul_mod_self_left, Nat.mod_eq_of_lt h_lt]
    exact ZMod.val_lt _
  · rw [L.fieldOfBytes_compress] at h_sq
    rw [L.signBit_compress, (L.onCurve P).x_eq_zero_iff.mpr h_sq, parity_zero] at h_sign
    exact zero_ne_one h_sign

/-- The encoding of a point with a known `y` and sign `0`. -/
theorem compress_eq_ofLe (L : D.Lawful) {P : D.EdwardsPoint} {n : ℕ} (h_lt : n < p25519)
    (h_y : D.y P = n) (h_sign : parity (D.x P) = 0) : D.compress P = ByteArr.ofLe 32 n := by
  apply ByteArr.ext_leValue
  rw [L.compress_value, h_y, h_sign, ZMod.val_natCast, Nat.mod_eq_of_lt h_lt,
    ByteArr.leValue_ofLe (h_lt.trans (by norm_num)), mul_zero, add_zero]

/-- A canonical encoding is the compression of the point it decodes to. -/
theorem compress_of_canonicalPoint (L : D.Lawful) {b : CompressedEdwardsY} {P : D.EdwardsPoint}
    (h_dec : D.decompress b = some P) (h_canon : CanonicalPoint b) : D.compress P = b := by
  obtain ⟨h_y, h_sign⟩ := (L.decompress_eq_some b P).mp h_dec
  obtain ⟨h_lt, h_zero⟩ := h_canon
  -- a canonical `y` was not reduced
  have h_val : (D.y P).val = leValue b.1 % 2 ^ 255 := by
    rw [h_y, fieldOfBytes, ZMod.val_natCast, Nat.mod_eq_of_lt h_lt]
  have h_parity : parity (D.x P) = signBit b := by
    rcases h_sign with h_eq | h_x
    · exact h_eq
    · -- at `x = 0` a canonical encoding has no sign bit
      have h_sq := (L.onCurve P).x_eq_zero_iff.mp h_x
      have h_ne : signBit b ≠ 1 := fun h_one => h_zero h_one (by rw [← h_y, h_sq])
      have h_le := signBit_le_one b
      rw [h_x, parity_zero]
      omega
  apply ByteArr.ext_leValue
  rw [L.compress_value, h_val, h_parity, ← leValue_eq_add_signBit]

/-- The canonical encodings of a point are its compression. -/
theorem compress_eq_iff (L : D.Lawful) {b : CompressedEdwardsY} {P : D.EdwardsPoint} :
    D.compress P = b ↔ D.decompress b = some P ∧ CanonicalPoint b := by
  refine ⟨?_, ?_⟩
  · rintro rfl
    exact ⟨L.decompress_compress P, L.canonicalPoint_compress P⟩
  · rintro ⟨h_dec, h_canon⟩
    exact L.compress_of_canonicalPoint h_dec h_canon

/-- The conversion with sign `0`, without the exception at `x = 0`. -/
theorem toEdwards_zero_eq_some (L : D.Lawful) {u : ByteArr 32} {P : D.EdwardsPoint} :
    D.toEdwards u 0 = some P ↔ fieldOfBytes u ≠ -1 ∧
      D.y P = (fieldOfBytes u - 1) / (fieldOfBytes u + 1) ∧ parity (D.x P) = 0 := by
  have h_or : parity (D.x P) = (0 : UInt8).toNat % 2 ∨ D.x P = 0 ↔ parity (D.x P) = 0 :=
    ⟨fun h => h.elim id fun h_x => by rw [h_x, parity_zero], Or.inl⟩
  rw [L.toEdwards_eq_some, h_or]

end Dalek.Lawful

namespace XEd25519

variable (D : Dalek) (sha512 : Bytes → ByteArr 64)

/-! ### The specification -/

/-- **`xeddsa_verify`**, as the specification has it. The key is an integer below `p`; it converts
to the point `A` with sign `0` above its `u`-coordinate (the coordinate `u = -1` has no such point);
and the bytes `R` are those of `S * B - h * A`. -/
def SpecAccepts (publicKey : ByteArr 32) (message : Bytes) (rBytes sBytes : ByteArr 32) : Prop :=
  leValue publicKey.1 < p25519 ∧ ∃ A : D.EdwardsPoint,
    fieldOfBytes publicKey ≠ -1 ∧
    D.y A = (fieldOfBytes publicKey - 1) / (fieldOfBytes publicKey + 1) ∧ parity (D.x A) = 0 ∧
    rBytes = D.compress (leValue sBytes.1 • D.ed25519BasepointPoint -
      (leValue (sha512 (rBytes.1 ++ (D.compress A).1 ++ message)).1 % ell) • A)

/-- The equation between the points that key and nonce decode to, with a reduced `S`. -/
def GroupEquation (publicKey : ByteArr 32) (message : Bytes) (rBytes sBytes : ByteArr 32) : Prop :=
  leValue sBytes.1 < ell ∧ ∃ bigA bigR, D.toEdwards publicKey 0 = some bigA ∧
    D.decompress rBytes = some bigR ∧
    Accepts D.ed25519BasepointPoint bigR bigA (leValue sBytes.1)
      (leValue (sha512 (rBytes.1 ++ (D.compress bigA).1 ++ message)).1 % ell)

variable {D} {sha512}

theorem verify_iff_groupEquation (L : D.Lawful) (publicKey : ByteArr 32) (message : Bytes)
    (rBytes sBytes : ByteArr 32) :
    verify D sha512 publicKey.1 message (rBytes.append sBytes).1 = .ok () ↔
      GroupEquation D sha512 publicKey message rBytes sBytes := by
  rw [verify_append, verifyArrays_iff L]
  simp only [GroupEquation, challenge, challengePreimage, L.fromBytesModOrderWide_value]

/-- **The specification** accepts where the equation holds of canonical encodings. -/
theorem specAccepts_iff (L : D.Lawful) (publicKey : ByteArr 32) (message : Bytes)
    (rBytes sBytes : ByteArr 32) :
    leValue sBytes.1 < ell ∧ SpecAccepts D sha512 publicKey message rBytes sBytes ↔
      CanonicalKey publicKey ∧ CanonicalPoint rBytes ∧
        GroupEquation D sha512 publicKey message rBytes sBytes := by
  refine ⟨?_, ?_⟩
  · rintro ⟨h_S, h_u, A, h_ne, h_y, h_sign, h_R⟩
    -- the bytes `R` are a compression, so they decode to the point they compress
    obtain ⟨h_dec, h_canon⟩ := L.compress_eq_iff.mp h_R.symm
    exact ⟨h_u, h_canon, h_S, A, _, L.toEdwards_zero_eq_some.mpr ⟨h_ne, h_y, h_sign⟩, h_dec,
      accepts_iff_eq_sub.mpr rfl⟩
  · rintro ⟨h_u, h_canon, h_S, A, R, h_A, h_dec, h_eq⟩
    -- the equation determines the nonce point, and canonical bytes determine `R`
    obtain ⟨h_ne, h_y, h_sign⟩ := L.toEdwards_zero_eq_some.mp h_A
    refine ⟨h_S, h_u, A, h_ne, h_y, h_sign, ?_⟩
    rw [← accepts_iff_eq_sub.mp h_eq]
    exact (L.compress_of_canonicalPoint h_dec h_canon).symm

/-- A verdict that is not acceptance is an error. -/
theorem exists_error_iff {r : Except Error Unit} : (∃ e, r = .error e) ↔ r ≠ .ok () := by
  rcases r with e | ⟨⟩ <;> simp

/-! ### Signatures that nobody made -/

open Edwards25519 in
/-- The point `(0, -1)` of order two, to which the key `u = 0` converts. -/
def orderTwo : edwards25519.EdwardsPoint := .some 0 0 (mk_nonsingular (by ring))

theorem x_orderTwo : edwards25519.x orderTwo = 0 := by
  simp [edwards25519, orderTwo, Edwards25519.x]

theorem y_orderTwo : edwards25519.y orderTwo = -1 := by
  simp [edwards25519, orderTwo, Edwards25519.y]

theorem eight_nsmul_orderTwo : 8 • orderTwo = 0 := by
  rw [show 8 = 2 * 4 from rfl, mul_nsmul, edwards25519_lawful.two_nsmul_eq_zero x_orderTwo,
    nsmul_zero]

theorem toEdwards_orderTwo {u : ByteArr 32} (h : fieldOfBytes u = 0) :
    edwards25519.toEdwards u 0 = some orderTwo := by
  rw [edwards25519_lawful.toEdwards_zero_eq_some, h, x_orderTwo, y_orderTwo]
  refine ⟨?_, ?_, parity_zero⟩
  · exact (neg_ne_zero.mpr one_ne_zero).symm
  · rw [zero_sub, zero_add, div_one]

/-- The all-zero key. -/
theorem fieldOfBytes_zero : fieldOfBytes (ByteArr.ofLe 32 0) = 0 := by
  rw [fieldOfBytes, ByteArr.leValue_ofLe (by norm_num), Nat.zero_mod, Nat.cast_zero]

theorem compress_orderTwo : edwards25519.compress orderTwo = ByteArr.ofLe 32 (p25519 - 1) := by
  refine edwards25519_lawful.compress_eq_ofLe (by norm_num) ?_ ?_
  · rw [y_orderTwo]
    decide +kernel
  · rw [x_orderTwo, parity_zero]

theorem compress_identity : edwards25519.compress 0 = ByteArr.ofLe 32 1 := by
  refine edwards25519_lawful.compress_eq_ofLe (by norm_num) ?_ ?_
  · rw [edwards25519_lawful.y_zero, Nat.cast_one]
  · rw [edwards25519_lawful.x_zero, parity_zero]

/-- The challenge of the one-byte message `01`, under the identity as nonce point and `orderTwo` as
key, is a multiple of eight. -/
theorem challenge_mod_eight :
    leValue (Sha2.sha512 ((ByteArr.ofLe 32 1).1 ++ (ByteArr.ofLe 32 (p25519 - 1)).1 ++ [1])).1
      % ell % 8 = 0 := by
  decide +kernel

/-- **A signature without a key**: under a key that eight kills, the identity as nonce and the
response zero satisfy the equation for every message whose challenge is a multiple of eight. -/
theorem groupEquation_of_torsion (L : D.Lawful) {publicKey : ByteArr 32} {bigA : D.EdwardsPoint}
    (h_A : D.toEdwards publicKey 0 = some bigA) (h_kill : 8 • bigA = 0) {message : Bytes}
    (h_challenge : leValue (sha512 ((D.compress 0).1 ++ (D.compress bigA).1 ++ message)).1
      % ell % 8 = 0) :
    GroupEquation D sha512 publicKey message (D.compress 0) (ByteArr.ofLe 32 0) := by
  -- the equation reads `0 = 0 + 0`
  have h_S : leValue (ByteArr.ofLe 32 0).1 = 0 := ByteArr.leValue_ofLe (by norm_num)
  refine ⟨by rw [h_S]; norm_num, bigA, 0, h_A, L.decompress_compress 0, ?_⟩
  rw [accepts_iff_mod_of_torsion h_kill, h_challenge, h_S, zero_nsmul, zero_nsmul, sub_zero]

/-- Such a signature of the message `01`, under every encoding of the `u`-coordinate zero. -/
theorem groupEquation_orderTwo {u : ByteArr 32} (h : fieldOfBytes u = 0) :
    GroupEquation edwards25519 Sha2.sha512 u [1] (ByteArr.ofLe 32 1) (ByteArr.ofLe 32 0) := by
  rw [← compress_identity]
  refine groupEquation_of_torsion edwards25519_lawful (toEdwards_orderTwo h) eight_nsmul_orderTwo ?_
  rw [compress_identity, compress_orderTwo, challenge_mod_eight]

/-! ### Conformance -/

variable (D) (sha512)

/-- The crate and the specification give one verdict. -/
def Conforms (publicKey : ByteArr 32) (message : Bytes) (rBytes sBytes : ByteArr 32) : Prop :=
  verify D sha512 publicKey.1 message (rBytes.append sBytes).1 = .ok () ↔
    leValue sBytes.1 < ell ∧ SpecAccepts D sha512 publicKey message rBytes sBytes

/-- When they do, said of key and signature alone: both encodings are canonical, or `S` is not
reduced, or the key or the nonce does not decode, or the nonce is `S * B - j * A` for no number `j`
that could be a challenge. -/
def ConformsWhen (publicKey rBytes sBytes : ByteArr 32) : Prop :=
  CanonicalKey publicKey ∧ CanonicalPoint rBytes ∨ ell ≤ leValue sBytes.1 ∨
    D.toEdwards publicKey 0 = none ∨ D.decompress rBytes = none ∨
    ∀ bigA bigR, D.toEdwards publicKey 0 = some bigA → D.decompress rBytes = some bigR →
      ∀ j < ell, bigR ≠ leValue sBytes.1 • D.ed25519BasepointPoint - j • bigA

variable {D} {sha512}

/-- The verdicts differ where the equation holds of a malformed encoding. -/
theorem conforms_iff (L : D.Lawful) {publicKey : ByteArr 32} {message : Bytes}
    {rBytes sBytes : ByteArr 32} :
    Conforms D sha512 publicKey message rBytes sBytes ↔
      CanonicalKey publicKey ∧ CanonicalPoint rBytes ∨
        ¬ GroupEquation D sha512 publicKey message rBytes sBytes := by
  rw [Conforms, verify_iff_groupEquation L, specAccepts_iff L]
  tauto

/-- The equation needs a reduced `S`, points, and a challenge. -/
theorem conforms_of_conformsWhen (L : D.Lawful) {publicKey rBytes sBytes : ByteArr 32}
    (h : ConformsWhen D publicKey rBytes sBytes) (message : Bytes) :
    Conforms D sha512 publicKey message rBytes sBytes := by
  rw [conforms_iff L]
  refine h.imp_right fun h_cases => ?_
  rintro ⟨h_S, A, R, h_A, h_R, h_eq⟩
  obtain h_large | h_none | h_none | h_challenge := h_cases
  · exact absurd h_S (not_lt.mpr h_large)
  · exact Option.some_ne_none A (h_A.symm.trans h_none)
  · exact Option.some_ne_none R (h_R.symm.trans h_none)
  · exact h_challenge A R h_A h_R _ (Nat.mod_lt _ prime_ell.pos) (accepts_iff_eq_sub.mp h_eq)

/-- Where a number below `ℓ` solves the equation, a hash function can return it. -/
theorem groupEquation_of_challenge {publicKey rBytes sBytes : ByteArr 32}
    {bigA bigR : D.EdwardsPoint} (h_S : leValue sBytes.1 < ell)
    (h_A : D.toEdwards publicKey 0 = some bigA) (h_R : D.decompress rBytes = some bigR) {j : ℕ}
    (h_j : j < ell) (h_eq : bigR = leValue sBytes.1 • D.ed25519BasepointPoint - j • bigA)
    (message : Bytes) :
    GroupEquation D (fun _ => .ofLe 64 j) publicKey message rBytes sBytes := by
  have h_value : leValue (ByteArr.ofLe 64 j).1 = j :=
    ByteArr.leValue_ofLe (h_j.trans (by norm_num))
  refine ⟨h_S, bigA, bigR, h_A, h_R, accepts_iff_eq_sub.mpr ?_⟩
  rw [h_value, Nat.mod_eq_of_lt h_j, h_eq]

/-- So the condition is the weakest one that does not speak of the hash. -/
theorem exists_hash_not_conforms (L : D.Lawful) {publicKey rBytes sBytes : ByteArr 32}
    (h : ¬ConformsWhen D publicKey rBytes sBytes) (message : Bytes) :
    ∃ sha512, ¬Conforms D sha512 publicKey message rBytes sBytes := by
  simp only [ConformsWhen, not_or, not_forall, not_not, not_le] at h
  obtain ⟨h_malformed, h_S, -, -, A, R, h_A, h_R, j, h_j, h_eq⟩ := h
  refine ⟨fun _ => .ofLe 64 j, fun h_conforms => ?_⟩
  exact ((conforms_iff L).mp h_conforms).elim h_malformed fun h_none =>
    h_none (groupEquation_of_challenge h_S h_A h_R h_j h_eq message)

/-- Malformed encodings of points that `ℓ` kills: there is a response to the challenge, whatever it
is. -/
theorem exists_response_not_conforms (L : D.Lawful) {publicKey rBytes : ByteArr 32}
    {bigA bigR : D.EdwardsPoint} (h_A : D.toEdwards publicKey 0 = some bigA)
    (h_R : D.decompress rBytes = some bigR) (h_kill_A : ell • bigA = 0) (h_kill_R : ell • bigR = 0)
    (h_malformed : ¬(CanonicalKey publicKey ∧ CanonicalPoint rBytes)) (message : Bytes) :
    ∃ sBytes, ¬Conforms D sha512 publicKey message rBytes sBytes := by
  obtain ⟨S, h_lt, h_eq⟩ := exists_response L.card_points L.order_basepoint (by norm_num)
    prime_ell.pos h_kill_R h_kill_A
    (leValue (sha512 (rBytes.1 ++ (D.compress bigA).1 ++ message)).1 % ell)
  have h_value : leValue (ByteArr.ofLe 32 S).1 = S :=
    ByteArr.leValue_ofLe (h_lt.trans (by norm_num))
  refine ⟨.ofLe 32 S, fun h_conforms => ?_⟩
  refine ((conforms_iff L).mp h_conforms).elim h_malformed fun h_none => h_none ?_
  refine ⟨h_value.trans_lt h_lt, bigA, bigR, h_A, h_R, ?_⟩
  rw [h_value]
  exact h_eq

/-- **Conformance.** On an input that meets the condition the verdicts agree, whatever the hash
function is, and on any other input they differ for some hash function. With the hash function
given, and key and nonce killed by `ℓ`, they agree for all `S` exactly if both encodings are
canonical. -/
theorem verify_conforms (L : D.Lawful) :
    (∀ (publicKey : ByteArr 32) (message : Bytes) (rBytes sBytes : ByteArr 32),
      ConformsWhen D publicKey rBytes sBytes ↔
        ∀ sha512, Conforms D sha512 publicKey message rBytes sBytes) ∧
    ∀ (sha512 : Bytes → ByteArr 64) (publicKey : ByteArr 32) (message : Bytes)
      (rBytes : ByteArr 32) (bigA bigR : D.EdwardsPoint),
      D.toEdwards publicKey 0 = some bigA → D.decompress rBytes = some bigR →
      ell • bigA = 0 → ell • bigR = 0 →
        ((∀ sBytes, Conforms D sha512 publicKey message rBytes sBytes) ↔
          CanonicalKey publicKey ∧ CanonicalPoint rBytes) := by
  refine ⟨fun publicKey message rBytes sBytes => ⟨?_, ?_⟩, ?_⟩
  · intro h sha512
    exact conforms_of_conformsWhen L h message
  · intro h
    by_contra h_not
    obtain ⟨sha512, h_differs⟩ := exists_hash_not_conforms L h_not message
    exact h_differs (h sha512)
  · intro sha512 publicKey message rBytes A R h_A h_R h_kill_A h_kill_R
    refine ⟨fun h => ?_, fun h sBytes => (conforms_iff L).mpr (.inl h)⟩
    by_contra h_malformed
    obtain ⟨sBytes, h_differs⟩ :=
      exists_response_not_conforms L h_A h_R h_kill_A h_kill_R h_malformed message
    exact h_differs (h sBytes)

/-- A generated key with bit 255 set converts to a point that `ℓ` kills. -/
theorem exists_malformed_key (L : D.Lawful) (k : ByteArr 32) :
    ∃ publicKey bigA, ¬CanonicalKey publicKey ∧ D.toEdwards publicKey 0 = some bigA ∧
      ell • bigA = 0 := by
  obtain ⟨P, h_P⟩ := exists_signingPoint L k
  have h_key : D.toEdwards (D.mulBaseClamped k) 0 = some P := by
    rw [← h_P.montgomery]
    exact L.toEdwards_toMontgomery h_P.ne_zero h_P.sign
  have h_lt : leValue (D.mulBaseClamped k).1 < 2 ^ 255 := by
    rw [← h_P.montgomery, L.toMontgomery_value]
    exact (ZMod.val_lt _).trans (by norm_num)
  let u : ByteArr 32 := .ofLe 32 (leValue (D.mulBaseClamped k).1 + 2 ^ 255)
  have h_value : leValue u.1 = leValue (D.mulBaseClamped k).1 + 2 ^ 255 :=
    ByteArr.leValue_ofLe (by omega)
  -- the conversion does not see the bit
  have h_field : fieldOfBytes u = fieldOfBytes (D.mulBaseClamped k) := by
    rw [fieldOfBytes, h_value, Nat.add_mod_right, fieldOfBytes]
  refine ⟨u, P, ?_, ?_, ?_⟩
  · rw [CanonicalKey, h_value, not_lt]
    exact le_add_left (by norm_num)
  · rw [L.toEdwards_zero_eq_some, h_field]
    exact L.toEdwards_zero_eq_some.mp h_key
  · rw [← h_P.scalar, L.mulScalar_eq, nsmul_left_comm, L.ell_nsmul_basepoint, nsmul_zero]

/-- The zero key and the identity as nonce are encoded canonically; and a generated key with bit 255
set departs from the specification with some `S`. -/
theorem verify_conforms_zero :
    Conforms edwards25519 Sha2.sha512 (ByteArr.ofLe 32 0) [1] (ByteArr.ofLe 32 1)
      (ByteArr.ofLe 32 0) ∧
    ∃ publicKey sBytes, ¬Conforms edwards25519 Sha2.sha512 publicKey [1] (ByteArr.ofLe 32 1)
      sBytes := by
  rw [← compress_identity]
  refine ⟨((verify_conforms edwards25519_lawful).1 _ _ _ _).mp (.inl ⟨?_, ?_⟩) Sha2.sha512, ?_⟩
  · rw [CanonicalKey, ByteArr.leValue_ofLe (by norm_num)]
    norm_num
  · exact edwards25519_lawful.canonicalPoint_compress 0
  · obtain ⟨publicKey, A, h_malformed, h_A, h_kill⟩ :=
      exists_malformed_key edwards25519_lawful (ByteArr.replicate 32 0)
    have h_iff := (verify_conforms edwards25519_lawful).2 Sha2.sha512 publicKey [1] _ A 0 h_A
      (edwards25519_lawful.decompress_compress 0) h_kill (nsmul_zero ell)
    have h_not := mt h_iff.mp fun h => h_malformed h.1
    exact ⟨publicKey, not_forall.mp h_not⟩

/-- Conformance fails at the key `u = 2 ^ 255`: the crate accepts what the specification refuses for
its key alone. -/
theorem verify_not_conforming :
    ¬ Conforms edwards25519 Sha2.sha512 (ByteArr.ofLe 32 (2 ^ 255)) [1] (ByteArr.ofLe 32 1)
      (ByteArr.ofLe 32 0) := by
  have h_value : leValue (ByteArr.ofLe 32 (2 ^ 255)).1 = 2 ^ 255 :=
    ByteArr.leValue_ofLe (by norm_num)
  have h_field : fieldOfBytes (ByteArr.ofLe 32 (2 ^ 255)) = 0 := by
    rw [fieldOfBytes, h_value, Nat.mod_self, Nat.cast_zero]
  have h_large : ¬ CanonicalKey (ByteArr.ofLe 32 (2 ^ 255)) := by
    rw [CanonicalKey, h_value]
    norm_num
  -- the crate accepts, so the key would have to be small enough
  rw [conforms_iff edwards25519_lawful]
  rintro (⟨h_key, -⟩ | h_not)
  · exact h_large h_key
  · exact h_not (groupEquation_orderTwo h_field)

end XEd25519

end SignalisCore
