import SignalisCore.Crates.Ed25519Signer
import SignalisCore.Node.Bindings

/-!
# `sc-node`: key pairs and signatures

The `#[napi]` functions that generate keys and sign. Randomness is an argument: the bytes that the
call draws from the operating system.
-/

namespace SignalisCore

open LittleEndian

namespace Node

/-- `Curve25519KeyPair` and `Ed25519KeyPair`. -/
structure KeyPair where
  priv : Bytes
  pub : Bytes

variable (D : Dalek) (G : Ed25519Signing) (sha512 : Bytes → ByteArr 64)

def curve25519GenerateKeypair (random : ByteArr 32) : KeyPair :=
  let kp := Curve25519.KeyPair.generate D random
  ⟨kp.priv.toBytes.1, kp.pub.toBytes.1⟩

def ed25519GenerateKeypair (random : ByteArr 32) : KeyPair :=
  let kp := Ed25519.KeyPair.generate G random
  ⟨kp.priv.bytes.1, kp.pub.bytes.1⟩

def ed25519KeypairFromSeed (seed : Bytes) : Except Error KeyPair := do
  let kp ← mapErr .invalidArg Ed25519.Error.toString (Ed25519.KeyPair.fromSeed G seed)
  return ⟨kp.priv.bytes.1, kp.pub.bytes.1⟩

def ed25519PublicFromPrivate (privateKey : Bytes) : Except Error Bytes := do
  let pubBytes ← mapErr .invalidArg Ed25519.Error.toString
    (Ed25519.publicFromPrivate G privateKey)
  return pubBytes.1

def ed25519Sign (privateKey message : Bytes) : Except Error Bytes := do
  let sig ← mapErr .invalidArg Ed25519.Error.toString (Ed25519.sign G privateKey message)
  return sig.1

def xed25519Sign (random : ByteArr 64) (privateKey message : Bytes) : Except Error Bytes := do
  let sig ← mapErr .invalidArg XEd25519.Error.toString
    (XEd25519.sign D sha512 random privateKey message)
  return sig.1

def xed25519SignWithRandom (privateKey message random : Bytes) : Except Error Bytes := do
  let sig ← mapErr .invalidArg XEd25519.Error.toString
    (XEd25519.signWithRandom D sha512 privateKey message random)
  return sig.1

end Node

end SignalisCore
