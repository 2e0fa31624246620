import SignalisCore.Dalek.Interface

/-!
# `sc-curve25519`: X25519 key agreement

The wrapper types of the crate over the functions of `curve25519-dalek`. A `PrivateKey` is clamped
when it is made and carries that as a field, so the second clamping inside `mul_clamped` and
`mul_base_clamped` finds nothing to do.

* `leValue_maskEnds`: the three mask assignments compute the clamped integer.
* `PrivateKey.tryFromBytes_toBytes`: exporting a key and importing it again gives the key.
* `KeyPair.diffieHellman_comm`: both sides of the key agreement compute one secret.
-/

namespace SignalisCore

open LittleEndian

/-! ### Clamping -/

/-- `key[0] &= low; key[31] &= top; key[31] |= bit`, the assignments that both crates write out. -/
def maskEnds (low top bit : UInt8) (key : ByteArr 32) : ByteArr 32 :=
  ((key.modify 0 (· &&& low)).modify 31 (· &&& top)).modify 31 (· ||| bit)

theorem toNat_and_248 (b : UInt8) : (b &&& 248).toNat = b.toNat / 8 * 8 := by
  have h_all : ∀ n < 256, n &&& 248 = n / 8 * 8 := by decide +kernel
  rw [UInt8.toNat_and]
  exact h_all _ b.toNat_lt

theorem toNat_and_127_or_64 (b : UInt8) : (b &&& 127 ||| 64).toNat = b.toNat % 64 + 64 := by
  have h_all : ∀ n < 256, n &&& 127 ||| 64 = n % 64 + 64 := by decide +kernel
  rw [UInt8.toNat_or, UInt8.toNat_and]
  exact h_all _ b.toNat_lt

/-- The low mask clears three bits. -/
theorem leValue_modify_low (key : ByteArr 32) :
    leValue (key.modify 0 (· &&& 248)).1 = leValue key.1 / 8 * 8 := by
  have h_pos : 0 < key.1.length := by rw [key.2]; norm_num
  have h_low := leValue_mod_256 h_pos
  rw [ByteArr.modify, leValue_modify_zero h_pos, toNat_and_248]
  omega

/-- The two top masks leave six bits of the top byte and put a `1` above them. -/
theorem leValue_modify_top (key : ByteArr 32) :
    leValue ((key.modify 31 (· &&& 127)).modify 31 (· ||| 64)).1 =
      leValue key.1 % 256 ^ 31 + 256 ^ 31 * (leValue key.1 / 256 ^ 31 % 64 + 64) := by
  have h_top := leValue_div_last key.2
  have h_len : (key.1.modify 31 (· &&& 127)).length = 32 := by rw [List.length_modify, key.2]
  have h_get : (key.1.modify 31 (· &&& 127))[31] = key.1[31] &&& 127 := by
    rw [List.getElem_modify, if_pos rfl]
  simp only [ByteArr.modify]
  rw [leValue_modify_last h_len, leValue_modify_last key.2, h_get, toNat_and_127_or_64, h_top,
    Nat.add_mul_mod_self_left, Nat.mod_mod]

/-- **The masks compute the clamped integer.** -/
theorem leValue_maskEnds (key : ByteArr 32) :
    leValue (maskEnds 248 127 64 key).1 = clampInteger key := by
  have h_mod : leValue key.1 / 8 * 8 % 256 ^ 31 = leValue key.1 / 8 % 2 ^ 245 * 8 :=
    Nat.mul_mod_mul_right 8 _ (2 ^ 245)
  have h_div : leValue key.1 / 8 * 8 / 256 ^ 31 = leValue key.1 / 8 / 2 ^ 245 :=
    Nat.mul_div_mul_right _ (2 ^ 245) (by norm_num)
  -- below bit 254, the low 31 bytes and six bits of the top one
  have h_split : leValue key.1 / 8 % 2 ^ 251 =
      leValue key.1 / 8 % 2 ^ 245 + 2 ^ 245 * (leValue key.1 / 8 / 2 ^ 245 % 64) := by
    rw [show 2 ^ 251 = 2 ^ 245 * 64 by norm_num, Nat.mod_mul]
  rw [maskEnds, leValue_modify_top, leValue_modify_low, h_mod, h_div, clampInteger, h_split]
  ring

theorem isClamped_maskEnds (key : ByteArr 32) :
    IsClamped (leValue (maskEnds 248 127 64 key).1) := by
  rw [leValue_maskEnds]
  exact isClamped_clampInteger key

/-- Clamping a clamped integer changes nothing. -/
theorem clampInteger_maskEnds (key : ByteArr 32) :
    clampInteger (maskEnds 248 127 64 key) = clampInteger key := by
  rw [(isClamped_maskEnds key).clampInteger_eq, leValue_maskEnds]

theorem maskEnds_maskEnds (key : ByteArr 32) :
    maskEnds 248 127 64 (maskEnds 248 127 64 key) = maskEnds 248 127 64 key := by
  apply ByteArr.ext_leValue
  rw [leValue_maskEnds, leValue_maskEnds, clampInteger_maskEnds]

namespace Curve25519

/-! ### Errors -/

inductive Error
  | invalidLength (expected actual : ℕ)
  | invalidPoint
  deriving DecidableEq, Repr

def Error.toString : Error → String
  | .invalidLength expected actual =>
    "invalid byte length: expected " ++ expected.repr ++ ", got " ++ actual.repr
  | .invalidPoint => "invalid point: small-order or identity"

/-! ### Private keys -/

/-- `PrivateKey`: clamped scalar bytes. -/
structure PrivateKey where
  /-- The stored bytes. -/
  bytes : ByteArr 32
  /-- They are clamped. -/
  clamped : maskEnds 248 127 64 bytes = bytes

namespace PrivateKey

def fromBytesClamped (bytes : ByteArr 32) : PrivateKey where
  bytes := maskEnds 248 127 64 bytes
  clamped := maskEnds_maskEnds bytes

def tryFromBytes (bytes : Bytes) : Except Error PrivateKey :=
  if h : bytes.length = 32 then .ok (fromBytesClamped ⟨bytes, h⟩)
  else .error (.invalidLength 32 bytes.length)

/-- `PrivateKey::generate`, with the bytes that the operating system provides. -/
def generate (random : ByteArr 32) : PrivateKey := fromBytesClamped random

def toBytes (key : PrivateKey) : ByteArr 32 := key.bytes

theorem tryFromBytes_eq (bytes : ByteArr 32) :
    tryFromBytes bytes.1 = .ok (fromBytesClamped bytes) := dif_pos bytes.2

/-- A clamped key is unchanged by the clamping on import. -/
theorem fromBytesClamped_toBytes (key : PrivateKey) : fromBytesClamped key.toBytes = key := by
  rcases key with ⟨bytes, h_clamped⟩
  simp only [fromBytesClamped, toBytes, h_clamped]

/-- **Export and re-import**: the key comes back. -/
theorem tryFromBytes_toBytes (key : PrivateKey) : tryFromBytes key.toBytes.1 = .ok key := by
  rw [tryFromBytes_eq, fromBytesClamped_toBytes]

end PrivateKey

/-! ### Public keys and key pairs -/

structure PublicKey where
  point : MontgomeryPoint

namespace PublicKey

def fromBytes (bytes : ByteArr 32) : PublicKey := ⟨bytes⟩

def tryFromBytes (bytes : Bytes) : Except Error PublicKey :=
  if h : bytes.length = 32 then .ok (fromBytes ⟨bytes, h⟩)
  else .error (.invalidLength 32 bytes.length)

def toBytes (key : PublicKey) : ByteArr 32 := key.point

end PublicKey

structure SharedSecret where
  bytes : ByteArr 32

def SharedSecret.toBytes (secret : SharedSecret) : ByteArr 32 := secret.bytes

variable (D : Dalek)

def PrivateKey.publicKey (key : PrivateKey) : PublicKey := ⟨D.mulBaseClamped key.bytes⟩

structure KeyPair where
  priv : PrivateKey
  pub : PublicKey

def KeyPair.fromPrivate (priv : PrivateKey) : KeyPair := ⟨priv, priv.publicKey D⟩

def KeyPair.generate (random : ByteArr 32) : KeyPair :=
  KeyPair.fromPrivate D (PrivateKey.generate random)

def KeyPair.diffieHellman (kp : KeyPair) (peer : PublicKey) : SharedSecret :=
  ⟨D.mulClamped peer.point kp.priv.bytes⟩

/-! ### Key agreement -/

variable {D}

/-- A secret with a public key of the crate is a multiple of the basepoint. -/
theorem diffieHellman_publicKey (L : D.Lawful) (a b : PrivateKey) :
    ((KeyPair.fromPrivate D a).diffieHellman D (KeyPair.fromPrivate D b).pub).bytes =
      D.toMontgomery (clampInteger a.bytes • clampInteger b.bytes • D.ed25519BasepointPoint) := by
  simp only [KeyPair.fromPrivate, KeyPair.diffieHellman, PrivateKey.publicKey]
  exact L.mulClamped_eq _ _ _ (by rw [L.mulBaseClamped_eq])

/-- **Key agreement commutes.** -/
theorem KeyPair.diffieHellman_comm (L : D.Lawful) (a b : PrivateKey) :
    (fromPrivate D a).diffieHellman D (fromPrivate D b).pub =
      (fromPrivate D b).diffieHellman D (fromPrivate D a).pub := by
  have h := diffieHellman_publicKey L a b
  rw [nsmul_left_comm, ← diffieHellman_publicKey L b a] at h
  exact congrArg SharedSecret.mk h

end Curve25519

end SignalisCore
