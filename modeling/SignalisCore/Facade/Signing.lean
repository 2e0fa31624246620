import SignalisCore.Facade.Verifiers
import SignalisCore.Node.Signing

/-!
# `core.ts`: key pairs and signatures

The operations that generate keys and sign. Randomness is an argument, as in the bindings.

* `ed25519_verify_sign_iff`: which Ed25519 signatures verify.
* `xed25519_sign_buffer`: XEd25519 signatures of a generated key.
-/

namespace SignalisCore

open LittleEndian

namespace Core

/-- `KeyPair`. -/
structure KeyPair where
  privateKey : Bytes
  publicKey : Bytes

/-- The frozen object that the generating operations return. -/
def KeyPair.ofNative (kp : Node.KeyPair) : KeyPair := ⟨kp.priv, kp.pub⟩

variable (D : Dalek) (G : Ed25519Signing) (sha512 : Bytes → ByteArr 64)

/-! ### Generating keys -/

def Curve25519.generateKeyPair (random : ByteArr 32) : KeyPair :=
  .ofNative (Node.curve25519GenerateKeypair D random)

def Ed25519.generateKeyPair (random : ByteArr 32) : KeyPair :=
  .ofNative (Node.ed25519GenerateKeypair G random)

def Ed25519.keyPairFromSeed (seed : JsValue) : Except JsError KeyPair := do
  let seed ← assertBufferOfSize seed 32 "seed"
  let kp ← callNative (Node.ed25519KeypairFromSeed G seed)
  return .ofNative kp

def Ed25519.publicFromPrivate (privateKey : JsValue) : Except JsError Bytes := do
  let privateKey ← assertBufferOfSize privateKey 32 "privateKey"
  callNative (Node.ed25519PublicFromPrivate G privateKey)

/-! ### Signing -/

def Ed25519.sign (privateKey message : JsValue) : Except JsError Bytes := do
  let privateKey ← assertBufferOfSize privateKey 32 "privateKey"
  let message ← assertBuffer message "message"
  callNative (Node.ed25519Sign G privateKey message)

def XEd25519.sign (random : ByteArr 64) (privateKey message : JsValue) : Except JsError Bytes := do
  let privateKey ← assertBufferOfSize privateKey 32 "privateKey"
  let message ← assertBuffer message "message"
  callNative (Node.xed25519Sign D sha512 random privateKey message)

def XEd25519.signWithRandom (privateKey message random : JsValue) : Except JsError Bytes := do
  let privateKey ← assertBufferOfSize privateKey 32 "privateKey"
  let message ← assertBuffer message "message"
  let random ← assertBufferOfSize random 64 "random"
  callNative (Node.xed25519SignWithRandom D sha512 privateKey message random)

/-! ### Ed25519 -/

variable {D} {G} {sha512} {E : Ed25519Dalek}

/-- What the verifier of the addon accepts is what `verify` returns for. -/
theorem verifyWith_eq_ok_iff {native : Bytes → Bytes → Bytes → Except Node.Error Unit}
    (p : ByteArr 32) (m : Bytes) (s : ByteArr 64) :
    verifyWith native (.buffer p.1) (.buffer m) (.buffer s.1) = .ok () ↔
      native p.1 m s.1 = .ok () := by
  rw [verifyWith_buffer native m p.2 s.2]
  rcases native p.1 m s.1 with e | _
  · rw [catchSignature_callNative_error]
    simp
  · exact iff_of_true rfl rfl

/-- **Ed25519 from a seed**: the three ways to the public key agree, signing succeeds, and the
signature verifies unless the hash of the nonce is divisible by `ℓ`. -/
theorem ed25519_verify_sign_iff (L : D.Lawful) (LE : E.Lawful D sha512) (LG : G.Lawful D sha512)
    (seed : ByteArr 32) (message : Bytes) :
    ∃ (publicKey : ByteArr 32) (signature : ByteArr 64),
      Ed25519.keyPairFromSeed G (.buffer seed.1) = .ok ⟨seed.1, publicKey.1⟩ ∧
      Ed25519.generateKeyPair G seed = ⟨seed.1, publicKey.1⟩ ∧
      Ed25519.publicFromPrivate G (.buffer seed.1) = .ok publicKey.1 ∧
      Ed25519.sign G (.buffer seed.1) (.buffer message) = .ok signature.1 ∧
      (Ed25519.verify E (.buffer publicKey.1) (.buffer message) (.buffer signature.1) = .ok () ↔
        ¬ell ∣ nonceHash sha512 seed message) := by
  obtain ⟨pair, sig, h_pair, h_sig, h_pub, h_iff⟩ :=
    Ed25519.verify_sign_iff L LE LG seed message
  have h_parse := Ed25519.PrivateKey.tryFromBytes_eq seed
  obtain rfl : Ed25519.KeyPair.fromPrivate G ⟨seed⟩ = pair := by
    rw [Ed25519.KeyPair.fromSeed, h_parse] at h_pair
    exact Except.ok.inj h_pair
  refine ⟨_, sig, ?_, rfl, ?_, ?_, ?_⟩
  · rw [Ed25519.keyPairFromSeed, assertBufferOfSize_buffer seed.2, ok_bind,
      Node.ed25519KeypairFromSeed, h_pair]
    rfl
  · rw [Ed25519.publicFromPrivate, assertBufferOfSize_buffer seed.2, ok_bind,
      Node.ed25519PublicFromPrivate, h_pub]
    rfl
  · rw [Ed25519.sign, assertBufferOfSize_buffer seed.2, ok_bind, assertBuffer_buffer, ok_bind,
      Node.ed25519Sign, h_sig]
    rfl
  · rw [Ed25519.verify, verifyWith_eq_ok_iff, Node.ed25519Verify, Node.mapErr_eq_ok_iff]
    exact h_iff

/-- The signature of the empty message under the zero seed verifies. -/
theorem ed25519_verify_sign_iff_zero :
    ∃ publicKey signature : Bytes,
      Ed25519.sign (ed25519Signing edwards25519 Sha2.sha512) (.buffer (List.replicate 32 0))
        (.buffer []) = .ok signature ∧
      Ed25519.verify (ed25519Dalek Sha2.sha512) (.buffer publicKey) (.buffer [])
        (.buffer signature) = .ok () := by
  obtain ⟨publicKey, signature, -, -, -, h_sign, h_iff⟩ :=
    ed25519_verify_sign_iff edwards25519_lawful (ed25519Dalek_lawful Sha2.sha512)
      (ed25519Signing_lawful edwards25519 Sha2.sha512) (ByteArr.replicate 32 0) []
  exact ⟨publicKey.1, signature.1, h_sign, h_iff.mpr (by decide +kernel)⟩

/-! ### XEd25519 -/

variable (sha512) in
/-- A generated key signs every message, and the signature verifies under its public key. -/
theorem xed25519_sign_buffer (L : D.Lawful) (key : ByteArr 32) (random : ByteArr 64)
    (message : Bytes) :
    ∃ signature : ByteArr 64,
      XEd25519.sign D sha512 random
        (.buffer (Curve25519.generateKeyPair D key).privateKey) (.buffer message) =
          .ok signature.1 ∧
      XEd25519.verify D sha512 (.buffer (Curve25519.generateKeyPair D key).publicKey)
        (.buffer message) (.buffer signature.1) = .ok () := by
  have h_len := (maskEnds 248 127 64 key).2
  refine ⟨XEd25519.signArrays D sha512 (maskEnds 248 127 64 key) message random.1, ?_, ?_⟩
  · have h_sign : SignalisCore.XEd25519.sign D sha512 random (maskEnds 248 127 64 key).1 message =
        .ok (XEd25519.signArrays D sha512 (maskEnds 248 127 64 key) message random.1) := by
      rw [SignalisCore.XEd25519.sign, SignalisCore.XEd25519.signWithRandom, dif_pos h_len,
        if_pos random.2]
    change XEd25519.sign D sha512 random (.buffer (maskEnds 248 127 64 key).1) _ = _
    rw [XEd25519.sign, assertBufferOfSize_buffer h_len, ok_bind, assertBuffer_buffer, ok_bind,
      Node.xed25519Sign, h_sign]
    rfl
  · rw [XEd25519.verify]
    refine (verifyWith_eq_ok_iff (D.mulBaseClamped (maskEnds 248 127 64 key)) _ _).mpr ?_
    rw [Node.xed25519Verify, Node.mapErr_eq_ok_iff]
    exact XEd25519.verify_signArrays L _ _ _

end Core

end SignalisCore
