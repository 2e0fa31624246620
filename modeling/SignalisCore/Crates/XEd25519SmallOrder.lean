import SignalisCore.Crates.XEd25519Spec

/-!
# XEd25519 verification under keys of small order

Nothing in the verifier excludes a key whose point is killed by the cofactor. Under such a key the
challenge counts modulo eight only, so that a nonce is one of eight points which everybody can
compute, and a signature needs no private key.

* `Edwards25519.exists_forgery`: the four keys, by the coordinate `y`.
* `verify_smallOrder`: which signatures no hash function makes acceptable, and for each of the keys
  one that is accepted.
-/

namespace SignalisCore

open LittleEndian SchnorrGroup

namespace Edwards25519

/-! ### The torsion of Curve25519 -/

/-- The multiples of the point of order eight are all that eight kills. -/
theorem exists_nsmul_torsion {P : Pt} (h : 8 • P = 0) : ∃ n < 8, n • torsion = P :=
  exists_nsmul_of_card (card_point.trans (mul_comm 8 ell)) addOrderOf_torsion (by norm_num)
    (by norm_num) h

/-- The coordinate `y` of the point of order eight. -/
def torsionY : ℕ := 55188659117513257062467267217118295137698188065244968500265048394206261417927

/-- And of its third multiple. -/
def torsionY₃ : ℕ := 2707385501144840649318225287225658788936804267575313519463743609750303402022

/-- A multiple of the point of order eight, by evaluation. -/
theorem y_nsmul_torsion {n u v y' : ℕ} (fuel : ℕ)
    (h_mul : MontgomeryCurve.mulCheck p25519 486662 1 torsionU torsionV fuel n u v = true)
    (h_y : ((u : ZMod p25519) - 1) = y' * (u + 1)) : y (n • torsion) = y' := by
  obtain ⟨h, h_eq⟩ := MontgomeryCurve.nsmul_eq_of_mulCheck nonsingular_torsion h_mul
  rw [torsion, h_eq, y, h_y, mul_div_cancel_right₀ _ (u_ne_neg_one (equation h))]

theorem y_sub_nsmul_torsion {n : ℕ} (h : n ≤ 8) : y ((8 - n) • torsion) = y (n • torsion) := by
  have h_eight : 8 • torsion = 0 := by
    rw [← addOrderOf_torsion, addOrderOf_nsmul_eq_zero]
  rw [sub_nsmul torsion h, h_eight, zero_add, y_neg]

/-- The coordinates `y` of the four keys, each with a message of one byte. -/
def forgeries : List (ℕ × UInt8) := [(p25519 - 1, 1), (0, 4), (torsionY, 13), (torsionY₃, 8)]

/-- **The four keys** that eight kills, the identity apart. -/
theorem exists_forgery {P : Pt} (h : 8 • P = 0) (h_ne : P ≠ 0) :
    ∃ e ∈ forgeries, y P = (e.1 : ℕ) := by
  obtain ⟨n, h_n, rfl⟩ := exists_nsmul_torsion h
  -- the first four multiples, and with the opposite signs the last three
  have h_one : y (1 • torsion) = torsionY := by
    rw [one_nsmul, torsion, y, div_eq_iff (u_ne_neg_one (equation nonsingular_torsion))]
    decide +kernel
  have h_two : y (2 • torsion) = (0 : ℕ) :=
    y_nsmul_torsion (n := 2) (u := 1)
      (v := 48802004052532134862652268456126542835229456083994414501085850622543968879637)
      4 (by decide +kernel) (by decide +kernel)
  have h_three : y (3 • torsion) = torsionY₃ :=
    y_nsmul_torsion (n := 3)
      (u := 39382357235489614581723060781553021112529911719440698176882885853963445705823)
      (v := 10506421237558716435988711236408671798265365380393424752549290025458740468278)
      4 (by decide +kernel) (by decide +kernel)
  have h_four : y (4 • torsion) = (p25519 - 1 : ℕ) :=
    y_nsmul_torsion (n := 4) (u := 0) (v := 0) 4 (by decide +kernel) (by decide +kernel)
  interval_cases n
  · exact absurd (zero_nsmul torsion) h_ne
  · exact ⟨(torsionY, 13), by simp [forgeries], h_one⟩
  · exact ⟨(0, 4), by simp [forgeries], h_two⟩
  · exact ⟨(torsionY₃, 8), by simp [forgeries], h_three⟩
  · exact ⟨(p25519 - 1, 1), by simp [forgeries], h_four⟩
  · exact ⟨(torsionY₃, 8), by simp [forgeries], (y_sub_nsmul_torsion (by decide)).trans h_three⟩
  · exact ⟨(0, 4), by simp [forgeries], (y_sub_nsmul_torsion (by decide)).trans h_two⟩
  · exact ⟨(torsionY, 13), by simp [forgeries], (y_sub_nsmul_torsion (by decide)).trans h_one⟩

/-- Under the identity as nonce, the challenges of these messages are multiples of eight. -/
theorem challenge_of_forgery : ∀ e ∈ forgeries,
    leValue (Sha2.sha512 ((ByteArr.ofLe 32 1).1 ++ (ByteArr.ofLe 32 e.1).1 ++ [e.2])).1
      % ell % 8 = 0 := by
  decide +kernel

theorem lt_of_mem_forgeries : ∀ e ∈ forgeries, e.1 < p25519 := by
  decide +kernel

end Edwards25519

namespace XEd25519

variable {D : Dalek} {sha512 : Bytes → ByteArr 64}

/-! ### Keys of small order -/

/-- The key converts to a point whose order divides eight. -/
structure SmallOrderKey (D : Dalek) (publicKey : ByteArr 32) (bigA : D.EdwardsPoint) : Prop where
  /-- The conversion returns an encoding of the point. -/
  bytes : ∃ aBytes, montgomeryToEdwards D publicKey = .ok aBytes ∧ D.decompress aBytes = some bigA
  /-- The cofactor kills the point. -/
  kill : 8 • bigA = 0

theorem SmallOrderKey.toEdwards (L : D.Lawful) {publicKey : ByteArr 32} {bigA : D.EdwardsPoint}
    (h : SmallOrderKey D publicKey bigA) : D.toEdwards publicKey 0 = some bigA := by
  obtain ⟨aBytes, h_bytes, h_dec⟩ := h.bytes
  obtain ⟨A, h_A, rfl⟩ := montgomeryToEdwards_eq_ok.mp h_bytes
  rw [h_A, ← h_dec, L.decompress_compress]

/-- No key converts to the identity. -/
theorem ne_zero_of_toEdwards (L : D.Lawful) {publicKey : ByteArr 32} {bigA : D.EdwardsPoint}
    (h : D.toEdwards publicKey 0 = some bigA) : bigA ≠ 0 := by
  obtain ⟨h_ne, h_y, -⟩ := L.toEdwards_zero_eq_some.mp h
  rintro rfl
  -- the identity has `y = 1`, and no quotient `(u - 1) / (u + 1)` is one
  have h_den : fieldOfBytes publicKey + 1 ≠ 0 := fun h_zero =>
    h_ne (eq_neg_of_add_eq_zero_left h_zero)
  rw [L.y_zero, eq_div_iff h_den] at h_y
  exact field_two_ne_zero (by linear_combination h_y)

/-- When a signature is rejected under a key `A` that eight kills, said of the signature alone: `S`
is not reduced, or the nonce does not decode, or it is none of the points `S * B - j * A`. -/
def RejectedWhen (D : Dalek) (bigA : D.EdwardsPoint) (rBytes sBytes : ByteArr 32) : Prop :=
  ell ≤ leValue sBytes.1 ∨ D.decompress rBytes = none ∨
    ∀ bigR, D.decompress rBytes = some bigR →
      ∀ j < 8, bigR ≠ leValue sBytes.1 • D.ed25519BasepointPoint - j • bigA

/-- What is accepted has one of eight nonces. -/
theorem verify_error_of_rejectedWhen (L : D.Lawful) {publicKey : ByteArr 32}
    {bigA : D.EdwardsPoint} (h_key : SmallOrderKey D publicKey bigA) {rBytes sBytes : ByteArr 32}
    (h : RejectedWhen D bigA rBytes sBytes) (message : Bytes) :
    ∃ e, verify D sha512 publicKey.1 message (rBytes.append sBytes).1 = .error e := by
  rw [exists_error_iff, Ne, verify_iff_groupEquation L]
  rintro ⟨h_S, A, R, h_A, h_R, h_eq⟩
  obtain rfl : bigA = A := Option.some.inj ((h_key.toEdwards L).symm.trans h_A)
  -- the challenge counts modulo eight
  rw [accepts_iff_mod_of_torsion h_key.kill] at h_eq
  obtain h_large | h_none | h_nonce := h
  · exact absurd h_S (not_lt.mpr h_large)
  · exact Option.some_ne_none R (h_R.symm.trans h_none)
  · exact h_nonce R h_R _ (Nat.mod_lt _ (by norm_num)) h_eq

/-- With any of the eight nonces, some hash function makes the signature accepted. -/
theorem exists_hash_accepts (L : D.Lawful) {publicKey : ByteArr 32} {bigA : D.EdwardsPoint}
    (h_key : SmallOrderKey D publicKey bigA) {rBytes sBytes : ByteArr 32}
    (h : ¬RejectedWhen D bigA rBytes sBytes) (message : Bytes) :
    ∃ sha512, verify D sha512 publicKey.1 message (rBytes.append sBytes).1 = .ok () := by
  simp only [RejectedWhen, not_or, not_forall, not_not, not_le] at h
  obtain ⟨h_S, -, R, h_R, j, h_j, h_eq⟩ := h
  refine ⟨fun _ => .ofLe 64 j, (verify_iff_groupEquation L _ _ _ _).mpr ?_⟩
  exact groupEquation_of_challenge h_S (h_key.toEdwards L) h_R (h_j.trans (by norm_num)) h_eq
    message

/-- With SHA-512, under each of the keys a message of one byte is accepted with the identity as
nonce and the response zero. -/
theorem exists_message_accepted {publicKey : ByteArr 32} {bigA : edwards25519.EdwardsPoint}
    (h_key : SmallOrderKey edwards25519 publicKey bigA) :
    ∃ byte : UInt8, verify edwards25519 Sha2.sha512 publicKey.1 [byte]
      ((ByteArr.ofLe 32 1).append (ByteArr.ofLe 32 0)).1 = .ok () := by
  have h_A := h_key.toEdwards edwards25519_lawful
  obtain ⟨e, h_mem, h_y⟩ :=
    Edwards25519.exists_forgery h_key.kill (ne_zero_of_toEdwards edwards25519_lawful h_A)
  -- the encoding of the key is that of the coordinate, with sign `0`
  have h_compress : edwards25519.compress bigA = ByteArr.ofLe 32 e.1 :=
    edwards25519_lawful.compress_eq_ofLe (Edwards25519.lt_of_mem_forgeries e h_mem) h_y
      (edwards25519_lawful.toEdwards_zero_eq_some.mp h_A).2.2
  refine ⟨e.2, ?_⟩
  rw [verify_iff_groupEquation edwards25519_lawful, ← compress_identity]
  refine groupEquation_of_torsion edwards25519_lawful h_A h_key.kill ?_
  rw [compress_identity, h_compress]
  exact Edwards25519.challenge_of_forgery e h_mem

/-- **Keys of small order.** Under such a key a signature is rejected for every message where the
condition holds, and anywhere else some hash function makes it accepted. With SHA-512 no such key of
Curve25519 is safe: a nonce and a response that need no private key are accepted for a message of
one byte. -/
theorem verify_smallOrder (L : D.Lawful) :
    (∀ (publicKey : ByteArr 32) (bigA : D.EdwardsPoint), SmallOrderKey D publicKey bigA →
      ∀ (message : Bytes) (rBytes sBytes : ByteArr 32), RejectedWhen D bigA rBytes sBytes ↔
        ∀ sha512, ∃ e, verify D sha512 publicKey.1 message (rBytes.append sBytes).1 = .error e) ∧
    ∀ (publicKey : ByteArr 32) (bigA : edwards25519.EdwardsPoint),
      SmallOrderKey edwards25519 publicKey bigA →
        ∃ byte : UInt8, verify edwards25519 Sha2.sha512 publicKey.1 [byte]
          ((ByteArr.ofLe 32 1).append (ByteArr.ofLe 32 0)).1 = .ok () := by
  refine ⟨fun publicKey A h_key message rBytes sBytes => ⟨?_, ?_⟩, fun publicKey A h_key => ?_⟩
  · intro h sha512
    exact verify_error_of_rejectedWhen L h_key h message
  · intro h
    by_contra h_not
    obtain ⟨sha512, h_ok⟩ := exists_hash_accepts L h_key h_not message
    exact exists_error_iff.mp (h sha512) h_ok
  · exact exists_message_accepted h_key

/-- The all-zero key converts to the point of order two. -/
theorem smallOrderKey_zero : SmallOrderKey edwards25519 (ByteArr.ofLe 32 0) orderTwo where
  bytes := ⟨_, montgomeryToEdwards_eq_ok.mpr ⟨_, toEdwards_orderTwo fieldOfBytes_zero, rfl⟩,
    edwards25519_lawful.decompress_compress _⟩
  kill := eight_nsmul_orderTwo

/-- Under the all-zero key, a message of one byte is accepted, and with `S = ℓ` none is. -/
theorem verify_smallOrder_zero :
    (∃ byte : UInt8, verify edwards25519 Sha2.sha512 (ByteArr.ofLe 32 0).1 [byte]
      ((ByteArr.ofLe 32 1).append (ByteArr.ofLe 32 0)).1 = .ok ()) ∧
    ∀ message, ∃ e, verify edwards25519 Sha2.sha512 (ByteArr.ofLe 32 0).1 message
      ((ByteArr.ofLe 32 1).append (ByteArr.ofLe 32 ell)).1 = .error e := by
  obtain ⟨h_rejected, h_accepted⟩ := verify_smallOrder edwards25519_lawful
  have h_large : RejectedWhen edwards25519 orderTwo (ByteArr.ofLe 32 1) (ByteArr.ofLe 32 ell) :=
    .inl (ByteArr.leValue_ofLe (by norm_num)).ge
  exact ⟨h_accepted _ _ smallOrderKey_zero,
    fun message => (h_rejected _ _ smallOrderKey_zero message _ _).mp h_large Sha2.sha512⟩

/-- The byte is `01`. -/
theorem verify_smallOrder_accepts :
    SmallOrderKey edwards25519 (ByteArr.ofLe 32 0) orderTwo ∧
      ¬ ∃ e, verify edwards25519 Sha2.sha512 (ByteArr.ofLe 32 0).1 [1]
        ((ByteArr.ofLe 32 1).append (ByteArr.ofLe 32 0)).1 = .error e := by
  refine ⟨smallOrderKey_zero, ?_⟩
  rw [exists_error_iff, not_not, verify_iff_groupEquation edwards25519_lawful]
  exact groupEquation_orderTwo fieldOfBytes_zero

end XEd25519

end SignalisCore
