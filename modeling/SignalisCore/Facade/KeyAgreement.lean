import SignalisCore.Dalek.Edwards25519
import SignalisCore.Facade.Core

/-!
# Key agreement, from the crate to JavaScript

The two functions of `core.ts` on buffers of 32 bytes compute what the wrapper types of the crate
compute, whether the private key is raw or was exported, so the crate's laws hold for them too.

* `keyAgreement`: both sides agree, and export and re-import change nothing.
-/

namespace SignalisCore

open Curve25519 LittleEndian

namespace Core

variable {D : Dalek}

/-- `publicFromPrivate` computes the public key of the crate. -/
theorem publicFromPrivate_buffer {bytes : Bytes} (h_len : bytes.length = 32) {key : PrivateKey}
    (h : PrivateKey.tryFromBytes bytes = .ok key) :
    Core.Curve25519.publicFromPrivate D (.buffer bytes) = .ok (key.publicKey D).toBytes.1 := by
  rw [Core.Curve25519.publicFromPrivate, assertBufferOfSize_buffer h_len, ok_bind,
    Node.curve25519PublicFromPrivate, h]
  rfl

/-- `diffieHellman` computes the shared secret of the crate. -/
theorem diffieHellman_buffer {bytes : Bytes} (h_len : bytes.length = 32) {key : PrivateKey}
    (h : PrivateKey.tryFromBytes bytes = .ok key) (peer : ByteArr 32) :
    Core.Curve25519.diffieHellman D (.buffer bytes) (.buffer peer.1) =
      .ok ((KeyPair.fromPrivate D key).diffieHellman D (.fromBytes peer)).toBytes.1 := by
  have h_peer : PublicKey.tryFromBytes peer.1 = .ok (.fromBytes peer) := dif_pos peer.2
  rw [Core.Curve25519.diffieHellman, assertBufferOfSize_buffer h_len, ok_bind,
    assertBufferOfSize_buffer peer.2, ok_bind, Node.curve25519DiffieHellman, h, h_peer]
  rfl

/-- **Key agreement**: for all raw keys, both sides compute one secret, and a key that was exported
and imported again has the same public key and the same secret with every peer. -/
theorem keyAgreement (L : D.Lawful) (a b : ByteArr 32) :
    ∃ ka kb : PrivateKey,
      PrivateKey.tryFromBytes a.1 = .ok ka ∧ PrivateKey.tryFromBytes b.1 = .ok kb ∧
      (KeyPair.fromPrivate D ka).diffieHellman D (KeyPair.fromPrivate D kb).pub =
        (KeyPair.fromPrivate D kb).diffieHellman D (KeyPair.fromPrivate D ka).pub ∧
      (∃ ka', PrivateKey.tryFromBytes ka.toBytes.1 = .ok ka' ∧
        ka'.publicKey D = ka.publicKey D ∧
        ∀ u : ByteArr 32, (KeyPair.fromPrivate D ka').diffieHellman D (.fromBytes u) =
          (KeyPair.fromPrivate D ka).diffieHellman D (.fromBytes u)) ∧
      (∀ bytes ∈ [a.1, ka.toBytes.1],
        Core.Curve25519.publicFromPrivate D (.buffer bytes) = .ok (ka.publicKey D).toBytes.1 ∧
        ∀ u : ByteArr 32, Core.Curve25519.diffieHellman D (.buffer bytes) (.buffer u.1) =
          .ok ((KeyPair.fromPrivate D ka).diffieHellman D (.fromBytes u)).toBytes.1) ∧
      Core.Curve25519.diffieHellman D (.buffer a.1) (.buffer (kb.publicKey D).toBytes.1) =
        Core.Curve25519.diffieHellman D (.buffer b.1) (.buffer (ka.publicKey D).toBytes.1) := by
  have h_a := PrivateKey.tryFromBytes_eq a
  have h_b := PrivateKey.tryFromBytes_eq b
  -- the exported bytes are clamped already, so the import gives the same key
  have h_export := PrivateKey.tryFromBytes_toBytes (.fromBytesClamped a)
  have h_comm := KeyPair.diffieHellman_comm L (.fromBytesClamped a) (.fromBytesClamped b)
  refine ⟨_, _, h_a, h_b, h_comm, ⟨_, h_export, rfl, fun _ => rfl⟩, ?_, ?_⟩
  -- the raw bytes and the exported ones are parsed to the same key
  · simp only [List.mem_cons, List.not_mem_nil, or_false, forall_eq_or_imp, forall_eq]
    exact ⟨⟨publicFromPrivate_buffer a.2 h_a, diffieHellman_buffer a.2 h_a⟩,
      publicFromPrivate_buffer (PrivateKey.toBytes _).2 h_export,
      diffieHellman_buffer (PrivateKey.toBytes _).2 h_export⟩
  · rw [diffieHellman_buffer a.2 h_a, diffieHellman_buffer b.2 h_b]
    exact congrArg (fun secret => Except.ok (SharedSecret.toBytes secret).1) h_comm

theorem keyAgreement_zero_one :
    ∃ ka kb : PrivateKey,
      PrivateKey.tryFromBytes (ByteArr.replicate 32 0).1 = .ok ka ∧
      PrivateKey.tryFromBytes (ByteArr.replicate 32 1).1 = .ok kb ∧
      (KeyPair.fromPrivate edwards25519 ka).diffieHellman edwards25519
          (KeyPair.fromPrivate edwards25519 kb).pub =
        (KeyPair.fromPrivate edwards25519 kb).diffieHellman edwards25519
          (KeyPair.fromPrivate edwards25519 ka).pub := by
  obtain ⟨ka, kb, h_a, h_b, h_comm, -⟩ :=
    keyAgreement edwards25519_lawful (ByteArr.replicate 32 0) (ByteArr.replicate 32 1)
  exact ⟨ka, kb, h_a, h_b, h_comm⟩

end Core

end SignalisCore
