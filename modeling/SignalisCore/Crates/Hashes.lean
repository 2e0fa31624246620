import SignalisCore.Crates.Primitives
import SignalisCore.Library.Keccak

/-!
# `sc-sha256`, `sc-sha3`, `sc-hmac` and `sc-blake3`

Thin crates over the hashers of third-party ones: a message is absorbed, in one piece or in several,
and the digest is copied out. The verifying functions compare in constant time.

* `ctEq_iff`: the comparison of `subtle` is equality.
* `StreamingHasher.finalize_foldl_update`: a streaming hasher computes what the one-shot function
  does.
-/

namespace SignalisCore

open BlockHash LittleEndian

/-- What the crates call in `sha2`, `sha3`, `hmac` and `subtle`. -/
structure Hashes where
  /-- `Sha256` with `Digest`. -/
  sha256 : Hasher (ByteArr 32)
  /-- `Sha3_256` with `Digest`. -/
  sha3_256 : Hasher (ByteArr 32)
  /-- `Sha3_512` with `Digest`. -/
  sha3_512 : Hasher (ByteArr 64)
  /-- `Hmac::<Sha256>::new_from_slice(key)` with `Mac`. -/
  hmacSha256 : Bytes → Hasher (ByteArr 32)
  /-- `Hmac::<Sha512>::new_from_slice(key)` with `Mac`. -/
  hmacSha512 : Bytes → Hasher (ByteArr 64)
  /-- `ct_eq` on slices. -/
  ctEq : Bytes → Bytes → Bool

/-- What `sc-blake3` calls in `blake3`. -/
structure Blake3Impl where
  /-- `hash`. -/
  hash : Bytes → ByteArr 32
  /-- `keyed_hash`. -/
  keyedHash : ByteArr 32 → Bytes → ByteArr 32
  /-- `derive_key`. -/
  deriveKey : String → Bytes → ByteArr 32

/-- **What the workspace relies on**: the hashers compute the functions of the standards, and the
comparison is equality. -/
structure Hashes.Lawful (H : Hashes) : Prop where
  sha256 : H.sha256.Implements Sha2.sha256
  sha3_256 : H.sha3_256.Implements Keccak.sha3_256.hash
  sha3_512 : H.sha3_512.Implements Keccak.sha3_512.hash
  hmacSha256 : ∀ key, (H.hmacSha256 key).Implements (Hmac.hmac sha256Hash key)
  hmacSha512 : ∀ key, (H.hmacSha512 key).Implements (Hmac.hmac sha512Hash key)
  ctEq : ∀ a b, H.ctEq a b = true ↔ a = b

/-! ### A concrete instance -/

/-- `u8::ct_eq` of `subtle`, as the byte of a `Choice`. -/
def ctEqByte (a b : UInt8) : UInt8 :=
  let x := a ^^^ b
  ((x ||| -x) >>> 7) ^^^ 1

/-- `<[u8]>::ct_eq`: every pair of bytes is compared, whatever the ones before it were. -/
def ctEq (a b : Bytes) : Bool :=
  if a.length ≠ b.length then false
  else (a.zip b).foldl (fun x p => x &&& ctEqByte p.1 p.2) 1 == 1

theorem ctEqByte_eq (a b : UInt8) : ctEqByte a b = if a = b then 1 else 0 := by
  have h_all : ∀ n < 256, (UInt8.ofNat n ||| -UInt8.ofNat n) >>> 7 ^^^ 1 =
      if UInt8.ofNat n = 0 then (1 : UInt8) else 0 := by decide +kernel
  have h := h_all (a ^^^ b).toNat (a ^^^ b).toNat_lt
  rw [UInt8.ofNat_toNat] at h
  rw [ctEqByte, h]
  simp only [UInt8.xor_eq_zero_iff]

theorem foldl_ctEqByte {a b : Bytes} (h : a.length = b.length) :
    (a.zip b).foldl (fun x p => x &&& ctEqByte p.1 p.2) 1 = if a = b then 1 else 0 := by
  -- once a byte differs, the result stays zero
  have h_zero (l : List (UInt8 × UInt8)) :
      l.foldl (fun x p => x &&& ctEqByte p.1 p.2) 0 = 0 := by
    induction l with
    | nil => rfl
    | cons p l ih => rw [List.foldl_cons, UInt8.zero_and, ih]
  induction a generalizing b with
  | nil =>
    obtain rfl := List.length_eq_zero_iff.mp h.symm
    rfl
  | cons x a ih =>
    cases b with
    | nil => cases h
    | cons y b =>
      rw [List.zip_cons_cons, List.foldl_cons, ctEqByte_eq]
      by_cases h_xy : x = y
      · rw [if_pos h_xy, show (1 : UInt8) &&& 1 = 1 from rfl, ih (Nat.succ.inj h)]
        simp [h_xy]
      · rw [if_neg h_xy, show (1 : UInt8) &&& 0 = 0 from rfl, h_zero]
        simp [h_xy]

/-- **The comparison** is equality. -/
theorem ctEq_iff (a b : Bytes) : ctEq a b = true ↔ a = b := by
  unfold ctEq
  split_ifs with h
  · simp only [false_iff]
    rintro rfl
    exact h rfl
  · rw [foldl_ctEqByte (not_not.mp h)]
    split_ifs with h_eq <;> simp [h_eq]

def sha256Hasher : Hasher (ByteArr 32) := (Sha2.scheme Sha2.params256 (by decide)).hasher

def sha512Hasher : Hasher (ByteArr 64) := (Sha2.scheme Sha2.params512 (by decide)).hasher

/-- The functions of the standards, over buffered hashers. -/
def rustHashes : Hashes where
  sha256 := sha256Hasher
  sha3_256 := Keccak.sha3_256.hasher
  sha3_512 := Keccak.sha3_512.hasher
  hmacSha256 := Hmac.hasher sha256Hash sha256Hasher
  hmacSha512 := Hmac.hasher sha512Hash sha512Hasher
  ctEq := ctEq

theorem sha256Hasher_implements : sha256Hasher.Implements Sha2.sha256 := by
  have h_hash : (Sha2.scheme Sha2.params256 (by norm_num)).hash = Sha2.sha256 :=
    funext fun l => Subtype.ext (Sha2.scheme_hash _ _ l)
  exact h_hash ▸ ⟨_, Scheme.computes_hasher _⟩

theorem sha512Hasher_implements : sha512Hasher.Implements Sha2.sha512 := by
  have h_hash : (Sha2.scheme Sha2.params512 (by norm_num)).hash = Sha2.sha512 :=
    funext fun l => Subtype.ext (Sha2.scheme_hash _ _ l)
  exact h_hash ▸ ⟨_, Scheme.computes_hasher _⟩

theorem rustHashes_lawful : rustHashes.Lawful where
  sha256 := sha256Hasher_implements
  sha3_256 := ⟨_, Scheme.computes_hasher _⟩
  sha3_512 := ⟨_, Scheme.computes_hasher _⟩
  hmacSha256 := Hmac.hasher_implements sha256Hash sha256Hasher_implements
  hmacSha512 := Hmac.hasher_implements sha512Hash sha512Hasher_implements
  ctEq := ctEq_iff

/-! ### SHA-2 and SHA-3 -/

/-- A message in one piece. -/
def digest {Digest : Type} (hasher : Hasher Digest) (data : Bytes) : Digest :=
  hasher.finalize (hasher.update hasher.new data)

theorem digest_eq {Digest : Type} {hasher : Hasher Digest} {hash : Bytes → Digest}
    (h : hasher.Implements hash) (data : Bytes) : digest hasher data = hash data := by
  obtain ⟨_, h⟩ := h
  simpa [digest] using h.finalize_foldl [data]

variable (H : Hashes)

def Sha256.sha256 (data : Bytes) : ByteArr 32 := digest H.sha256 data

def Sha3.sha3_256 (data : Bytes) : ByteArr 32 := digest H.sha3_256 data

def Sha3.sha3_512 (data : Bytes) : ByteArr 64 := digest H.sha3_512 data

/-- The streaming hashers of both crates: `inner` is the third-party hasher. -/
structure StreamingHasher {Digest : Type} (hasher : Hasher Digest) where
  inner : hasher.State

namespace StreamingHasher

variable {Digest : Type} {hasher : Hasher Digest}

def new : StreamingHasher hasher := ⟨hasher.new⟩

def update (self : StreamingHasher hasher) (data : Bytes) : StreamingHasher hasher :=
  ⟨hasher.update self.inner data⟩

def finalize (self : StreamingHasher hasher) : Digest := hasher.finalize self.inner

theorem inner_foldl_update (self : StreamingHasher hasher) (chunks : List Bytes) :
    (chunks.foldl update self).inner = chunks.foldl hasher.update self.inner := by
  induction chunks generalizing self with
  | nil => rfl
  | cons chunk chunks ih => exact ih (self.update chunk)

/-- **Whatever the chunks**, a streaming hasher computes the digest of the message in one piece. -/
theorem finalize_foldl_update {hash : Bytes → Digest} (h : hasher.Implements hash)
    (chunks : List Bytes) :
    (chunks.foldl update (new : StreamingHasher hasher)).finalize =
      digest hasher chunks.flatten := by
  rw [digest_eq h]
  obtain ⟨_, h⟩ := h
  rw [finalize, inner_foldl_update, new, h.finalize_foldl]

end StreamingHasher

abbrev Sha256Hasher := StreamingHasher H.sha256

abbrev Sha3_256Hasher := StreamingHasher H.sha3_256

abbrev Sha3_512Hasher := StreamingHasher H.sha3_512

/-! ### HMAC -/

namespace ScHmac

inductive Error
  | verificationFailed
  deriving DecidableEq

def Error.toString : Error → String
  | .verificationFailed => "HMAC verification failed"

/-- `new_from_slice` accepts any key. -/
def hmacSha256 (key data : Bytes) : ByteArr 32 := digest (H.hmacSha256 key) data

def hmacSha512 (key data : Bytes) : ByteArr 64 := digest (H.hmacSha512 key) data

/-- The comparison of a computed tag. -/
def verifyTag (computed expectedTag : Bytes) : Except Error Unit :=
  if H.ctEq computed expectedTag then .ok () else .error .verificationFailed

def verify (key data expectedTag : Bytes) : Except Error Unit :=
  verifyTag H (hmacSha256 H key data).1 expectedTag

def verifySha512 (key data expectedTag : Bytes) : Except Error Unit :=
  verifyTag H (hmacSha512 H key data).1 expectedTag

end ScHmac

/-! ### BLAKE3 -/

namespace Blake3

variable (B : Blake3Impl)

def hash (data : Bytes) : ByteArr 32 := B.hash data

def keyedHash (key : ByteArr 32) (data : Bytes) : ByteArr 32 := B.keyedHash key data

def keyedHashVerify (key : ByteArr 32) (data expectedTag : Bytes) : Bool :=
  H.ctEq (keyedHash B key data).1 expectedTag

def deriveKey (context : String) (keyMaterial : Bytes) : ByteArr 32 :=
  B.deriveKey context keyMaterial

end Blake3

/-- `constant_time_eq` of `sc-utils`. -/
def Utils.constantTimeEq (a b : Bytes) : Bool :=
  if a.length ≠ b.length then false else H.ctEq a b

end SignalisCore
