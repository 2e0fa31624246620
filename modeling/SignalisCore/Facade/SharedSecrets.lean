import SignalisCore.Crates.PeerKeys
import SignalisCore.Facade.KeyAgreement
import SignalisCore.Facade.Signing

/-!
# Which keys `Curve25519` tells apart

What the operations of `core.ts` return for two peer keys, and for two private keys.

* `diffieHellman_eq_iff`: when two peer keys give one secret.
* `publicFromPrivate_eq_iff`: when two private keys have one public key.
-/

namespace SignalisCore

open Curve25519 LittleEndian

namespace Core

variable {D : Dalek}

/-- The secret, past the guards. -/
theorem diffieHellman_arrays (k u : ByteArr 32) :
    Core.Curve25519.diffieHellman D (.buffer k.1) (.buffer u.1) =
      .ok (D.mulClamped u (maskEnds 248 127 64 k)).1 :=
  diffieHellman_buffer k.2 (PrivateKey.tryFromBytes_eq k) u

/-- The public key, past the guards. -/
theorem publicFromPrivate_arrays (k : ByteArr 32) :
    Core.Curve25519.publicFromPrivate D (.buffer k.1) =
      .ok (D.mulBaseClamped (maskEnds 248 127 64 k)).1 :=
  publicFromPrivate_buffer k.2 (PrivateKey.tryFromBytes_eq k)

theorem ok_val_inj {a b : ByteArr 32} :
    (.ok a.1 : Except JsError Bytes) = .ok b.1 ↔ a = b := by
  rw [Except.ok.injEq, Subtype.val_inj]

/-- **One secret**: two generated key pairs compute it from opposite halves. -/
theorem diffieHellman_generated (L : D.Lawful) (a b : ByteArr 32) :
    ∃ shared : ByteArr 32,
      Core.Curve25519.diffieHellman D (.buffer (Core.Curve25519.generateKeyPair D a).privateKey)
        (.buffer (Core.Curve25519.generateKeyPair D b).publicKey) = .ok shared.1 ∧
      Core.Curve25519.diffieHellman D (.buffer (Core.Curve25519.generateKeyPair D b).privateKey)
        (.buffer (Core.Curve25519.generateKeyPair D a).publicKey) = .ok shared.1 := by
  have h_comm := Curve25519.KeyPair.diffieHellman_comm L (.fromBytesClamped a) (.fromBytesClamped b)
  have h_dh (k : PrivateKey) (peer : ByteArr 32) :
      Core.Curve25519.diffieHellman D (.buffer k.toBytes.1) (.buffer peer.1) =
        .ok ((Curve25519.KeyPair.fromPrivate D k).diffieHellman D (.fromBytes peer)).toBytes.1 :=
    diffieHellman_buffer k.toBytes.2 (PrivateKey.tryFromBytes_toBytes k) peer
  exact ⟨_, h_dh (.fromBytesClamped a) _, (h_dh (.fromBytesClamped b) _).trans
    (congrArg (fun secret => (.ok (SharedSecret.toBytes secret).1 : Except JsError Bytes))
      h_comm.symm)⟩

/-- **Peer keys with one secret**: whether two peer keys give a private key one secret depends on
the peer keys alone, and not on the private key. -/
theorem diffieHellman_eq_iff (L : D.Lawful) (T : D.TwistLawful) (k u u' : ByteArr 32) :
    Core.Curve25519.diffieHellman D (.buffer k.1) (.buffer u.1) =
        Core.Curve25519.diffieHellman D (.buffer k.1) (.buffer u'.1) ↔ SamePeer D u u' := by
  rw [diffieHellman_arrays, diffieHellman_arrays, ok_val_inj]
  exact mulClamped_eq_iff L T u u' _

/-- The basepoint, with bit 255 clear and set. -/
theorem diffieHellman_eq_iff_basepoint :
    Core.Curve25519.diffieHellman edwards25519 (.buffer (List.replicate 32 0))
        (.buffer (ByteArr.ofLe 32 9).1) =
      Core.Curve25519.diffieHellman edwards25519 (.buffer (List.replicate 32 0))
        (.buffer (ByteArr.ofLe 32 (9 + 2 ^ 255)).1) :=
  (diffieHellman_eq_iff edwards25519_lawful edwards25519_twistLawful
    (ByteArr.replicate 32 0) _ _).mpr samePeer_basepoint

/-- **Private keys with one public key**: they are the same after clamping, or their clamped
integers add up to `8ℓ`; and such keys have one secret with every peer on the curve. -/
theorem publicFromPrivate_eq_iff (L : D.Lawful) (k k' : ByteArr 32) :
    ∃ key key', PrivateKey.tryFromBytes k.1 = .ok key ∧ PrivateKey.tryFromBytes k'.1 = .ok key' ∧
      (Core.Curve25519.publicFromPrivate D (.buffer k.1) =
          Core.Curve25519.publicFromPrivate D (.buffer k'.1) ↔
        key.toBytes = key'.toBytes ∨ leValue key.toBytes.1 + leValue key'.toBytes.1 = 8 * ell) ∧
      (Core.Curve25519.publicFromPrivate D (.buffer k.1) =
          Core.Curve25519.publicFromPrivate D (.buffer k'.1) →
        ∀ (u : ByteArr 32) (P : D.EdwardsPoint),
          fieldOfBytes u = fieldOfBytes (D.toMontgomery P) →
            Core.Curve25519.diffieHellman D (.buffer k.1) (.buffer u.1) =
              Core.Curve25519.diffieHellman D (.buffer k'.1) (.buffer u.1)) := by
  refine ⟨_, _, PrivateKey.tryFromBytes_eq k, PrivateKey.tryFromBytes_eq k', ?_, ?_⟩
  · rw [publicFromPrivate_arrays, publicFromPrivate_arrays, ok_val_inj, mulBaseClamped_eq_iff L,
      clampInteger_maskEnds, clampInteger_maskEnds, PrivateKey.toBytes, PrivateKey.toBytes,
      PrivateKey.fromBytesClamped, PrivateKey.fromBytesClamped, leValue_maskEnds, leValue_maskEnds]
    refine or_congr_left ?_
    -- a clamped key is its integer
    rw [← leValue_maskEnds, ← leValue_maskEnds]
    exact ⟨ByteArr.ext_leValue, congrArg fun bytes : ByteArr 32 => leValue bytes.1⟩
  · intro h u P h_u
    rw [publicFromPrivate_arrays, publicFromPrivate_arrays, ok_val_inj] at h
    rw [diffieHellman_arrays, diffieHellman_arrays, mulClamped_eq_of_mulBaseClamped_eq L h h_u]

/-- A key and the key whose clamped integer is `8ℓ` minus its own. -/
theorem publicFromPrivate_eq_iff_twins :
    let k := ByteArr.ofLe 32 (2 ^ 254 + 8)
    let k' := ByteArr.ofLe 32 (8 * ell - (2 ^ 254 + 8))
    k ≠ k' ∧ Core.Curve25519.publicFromPrivate edwards25519 (.buffer k.1) =
      Core.Curve25519.publicFromPrivate edwards25519 (.buffer k'.1) := by
  obtain ⟨key, key', h_key, h_key', h_iff, -⟩ := publicFromPrivate_eq_iff edwards25519_lawful
    (ByteArr.ofLe 32 (2 ^ 254 + 8)) (ByteArr.ofLe 32 (8 * ell - (2 ^ 254 + 8)))
  refine ⟨by decide +kernel, h_iff.mpr (.inr ?_)⟩
  rw [PrivateKey.tryFromBytes_eq, Except.ok.injEq] at h_key h_key'
  rw [← h_key, ← h_key']
  decide +kernel

end Core

end SignalisCore
