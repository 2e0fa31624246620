import SignalisCore.Crates.Hashes
import SignalisCore.Node.Bindings

/-!
# `sc-node`: hashes

The `#[napi]` functions over the hash functions and the MACs, and the constant-time comparison.
-/

namespace SignalisCore

open LittleEndian

namespace Node

variable (H : Hashes) (B : Blake3Impl)

def hmacSha256 (key data : Bytes) : Bytes := (ScHmac.hmacSha256 H key data).1

def hmacSha256Verify (key data expectedTag : Bytes) : Bool :=
  (ScHmac.verify H key data expectedTag).isOk

def hmacSha512 (key data : Bytes) : Bytes := (ScHmac.hmacSha512 H key data).1

def hmacSha512Verify (key data expectedTag : Bytes) : Bool :=
  (ScHmac.verifySha512 H key data expectedTag).isOk

def sha256 (data : Bytes) : Bytes := (Sha256.sha256 H data).1

def sha3256 (data : Bytes) : Bytes := (Sha3.sha3_256 H data).1

def sha3512 (data : Bytes) : Bytes := (Sha3.sha3_512 H data).1

def blake3Hash (data : Bytes) : Bytes := (Blake3.hash B data).1

/-- The length check that the keyed bindings share. -/
def blake3Keyed {α : Type} (keyed : ByteArr 32 → α) (key : Bytes) : Except Error α :=
  if h : key.length = 32 then .ok (keyed ⟨key, h⟩)
  else .error ⟨.invalidArg, "key must be 32 bytes, got " ++ key.length.repr⟩

def blake3KeyedHash (key data : Bytes) : Except Error Bytes :=
  blake3Keyed (fun k => (Blake3.keyedHash B k data).1) key

def blake3KeyedHashVerify (key data expectedTag : Bytes) : Except Error Bool :=
  blake3Keyed (fun k => Blake3.keyedHashVerify H B k data expectedTag) key

def blake3DeriveKey (context : List UInt16) (keyMaterial : Bytes) : Bytes :=
  (Blake3.deriveKey B (stringArg context) keyMaterial).1

def constantTimeEq (a b : Bytes) : Bool := Utils.constantTimeEq H a b

/-! ### Comparisons -/

variable {H}

theorem verifyTag_isOk_iff (L : H.Lawful) {computed expectedTag : Bytes} :
    (ScHmac.verifyTag H computed expectedTag).isOk = true ↔ computed = expectedTag := by
  rw [← L.ctEq, ScHmac.verifyTag]
  split_ifs with h <;> simp [h, Except.isOk, Except.toBool]

theorem hmacSha256Verify_iff (L : H.Lawful) {key data expectedTag : Bytes} :
    hmacSha256Verify H key data expectedTag = true ↔ hmacSha256 H key data = expectedTag :=
  verifyTag_isOk_iff L

end Node

end SignalisCore
