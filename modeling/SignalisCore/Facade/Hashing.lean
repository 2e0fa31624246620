import SignalisCore.Facade.Utils
import SignalisCore.Node.Hashes

/-!
# `core.ts`: hashes and MACs

The operations over the hash functions. `hashAll` and `hash256All` check their buffers one by one,
and hash the concatenation; the streaming hashers of the crates, which are not exported, absorb the
same buffers one after the other.

* `hashAll_streams`: both ways lead to one digest, and a value that is no buffer is named.
* `BLAKE3.deriveKey_eq_ok_iff`: what keys are derived from.
-/

namespace SignalisCore

open BlockHash LittleEndian

/-- `Buffer.concat`, on bytes. -/
def concatBuffers (N : NodeBuffer) (buffers : List Bytes) : Except JsError Bytes :=
  if buffers.flatten.length < 2 ^ 53 then .ok buffers.flatten
  else .error (N.lengthError (.ofNat buffers.flatten.length))

/-- `concat` of `utils.ts` is the same function. -/
theorem map_bytes_concat (N : NodeBuffer) (buffers : List Uint8Array) :
    (Utils.concat N buffers).map (·.bytes) = concatBuffers N (buffers.map (·.bytes)) := by
  unfold Utils.concat Utils.bufferConcat concatBuffers
  split_ifs <;> rfl

theorem concatBuffers_pair_eq_ok_iff {N : NodeBuffer} {a b data : Bytes} :
    concatBuffers N [a, b] = .ok data ↔ (a ++ b).length < 2 ^ 53 ∧ data = a ++ b := by
  have h_flatten : [a, b].flatten = a ++ b := by simp
  rw [concatBuffers, h_flatten]
  split_ifs with h
  · rw [Except.ok.injEq, and_iff_right h, eq_comm]
  · simp only [h, false_and]

namespace Core

variable (H : Hashes) (B : Blake3Impl) (N : NodeBuffer)

/-! ### HMAC -/

namespace HMAC

/-- A MAC with its two arguments. -/
def macWith (native : Bytes → Bytes → Bytes) (key data : JsValue) : Except JsError Bytes := do
  let key ← assertBuffer key "key"
  let data ← assertBuffer data "data"
  return native key data

def verifyWith (native : Bytes → Bytes → Bytes → Bool) (key data expectedTag : JsValue) :
    Except JsError Bool := do
  let key ← assertBuffer key "key"
  let data ← assertBuffer data "data"
  let expectedTag ← assertBuffer expectedTag "expectedTag"
  return native key data expectedTag

def sha256 (key data : JsValue) : Except JsError Bytes := macWith (Node.hmacSha256 H) key data

def verifySha256 (key data expectedTag : JsValue) : Except JsError Bool :=
  verifyWith (Node.hmacSha256Verify H) key data expectedTag

def sha512 (key data : JsValue) : Except JsError Bytes := macWith (Node.hmacSha512 H) key data

def verifySha512 (key data expectedTag : JsValue) : Except JsError Bool :=
  verifyWith (Node.hmacSha512Verify H) key data expectedTag

end HMAC

/-! ### SHA-2 and SHA-3 -/

/-- A hash function of one buffer. -/
def hashWith (native : Bytes → Bytes) (data : JsValue) : Except JsError Bytes := do
  let data ← assertBuffer data "data"
  return native data

/-- The loop over the elements of an array, from index `i` on. -/
def assertBuffers (i : ℕ) : List JsValue → Except JsError (List Bytes)
  | [] => .ok []
  | value :: values => do
    let bytes ← assertBuffer value ("buffers[" ++ i.repr ++ "]")
    let rest ← assertBuffers (i + 1) values
    return bytes :: rest

/-- `hashAll` for a hash function. The list is `none` for a value that `Array.isArray` refuses. -/
def hashAllWith (hash : JsValue → Except JsError Bytes) (buffers : Option (List JsValue)) :
    Except JsError Bytes :=
  match buffers with
  | none => .error (.typeError (js "buffers must be an array"))
  | some values => do
    let buffers ← assertBuffers 0 values
    let data ← concatBuffers N buffers
    hash (.buffer data)

def SHA256.hash (data : JsValue) : Except JsError Bytes := hashWith (Node.sha256 H) data

def SHA256.hashAll (buffers : Option (List JsValue)) : Except JsError Bytes :=
  hashAllWith N (SHA256.hash H) buffers

def SHA3.hash256 (data : JsValue) : Except JsError Bytes := hashWith (Node.sha3256 H) data

def SHA3.hash512 (data : JsValue) : Except JsError Bytes := hashWith (Node.sha3512 H) data

def SHA3.hash256All (buffers : Option (List JsValue)) : Except JsError Bytes :=
  hashAllWith N (SHA3.hash256 H) buffers

/-! ### BLAKE3 -/

namespace BLAKE3

def hash (data : JsValue) : Except JsError Bytes := hashWith (Node.blake3Hash B) data

def keyedHash (key data : JsValue) : Except JsError Bytes := do
  let key ← assertBufferOfSize key 32 "key"
  let data ← assertBuffer data "data"
  callNative (Node.blake3KeyedHash B key data)

def keyedHashVerify (key data expectedTag : JsValue) : Except JsError Bool := do
  let key ← assertBufferOfSize key 32 "key"
  let data ← assertBuffer data "data"
  let expectedTag ← assertBuffer expectedTag "expectedTag"
  callNative (Node.blake3KeyedHashVerify H B key data expectedTag)

/-- `typeof context !== 'string' || context.length === 0`. -/
def requireContext : JsValue → Except JsError JsString
  | .string [] => .error (.typeError (js "context must be a non-empty string"))
  | .string units => .ok units
  | _ => .error (.typeError (js "context must be a non-empty string"))

def deriveKey (context keyMaterial : JsValue) : Except JsError Bytes := do
  let context ← requireContext context
  let keyMaterial ← assertBuffer keyMaterial "keyMaterial"
  return Node.blake3DeriveKey B context keyMaterial

end BLAKE3

def constantTimeEq (a b : JsValue) : Except JsError Bool :=
  match a, b with
  | .buffer a, .buffer b => .ok (Node.constantTimeEq H a b)
  | _, _ => .error (.typeError (js "constantTimeEq: both arguments must be Buffers"))

/-- The context is a string, and not an empty one. -/
theorem BLAKE3.deriveKey_eq_ok_iff {B : Blake3Impl} {context keyMaterial : JsValue} {key : Bytes} :
    BLAKE3.deriveKey B context keyMaterial = .ok key ↔
      ∃ (s : JsString) (k : Bytes), s ≠ [] ∧ context = .string s ∧ keyMaterial = .buffer k ∧
        Node.blake3DeriveKey B s k = key := by
  have h_context (s : JsString) :
      BLAKE3.requireContext context = .ok s ↔ s ≠ [] ∧ context = .string s := by
    cases context with
    | string units =>
      cases units with
      | nil => simp [BLAKE3.requireContext, eq_comm]
      | cons u units => simpa [BLAKE3.requireContext] using fun h_eq => by simp [← h_eq]
    | _ => simp [BLAKE3.requireContext]
  simp only [BLAKE3.deriveKey, bind_eq_ok_iff, h_context, assertBuffer_eq_ok_iff]
  refine ⟨?_, ?_⟩
  · rintro ⟨s, ⟨h_s, rfl⟩, k, rfl, ⟨⟩⟩
    exact ⟨s, k, h_s, rfl, rfl, rfl⟩
  · rintro ⟨s, k, h_s, rfl, rfl, rfl⟩
    exact ⟨s, ⟨h_s, rfl⟩, k, rfl, rfl⟩

/-! ### MACs -/

theorem HMAC.macWith_eq_ok_iff {native : Bytes → Bytes → Bytes} {key : JsValue}
    {data tag : Bytes} :
    HMAC.macWith native key (.buffer data) = .ok tag ↔
      ∃ k : Bytes, key = .buffer k ∧ native k data = tag := by
  simp only [HMAC.macWith, bind_eq_ok_iff, assertBuffer_eq_ok_iff]
  refine ⟨?_, ?_⟩
  · rintro ⟨k, rfl, d, ⟨⟩, ⟨⟩⟩
    exact ⟨k, rfl, rfl⟩
  · rintro ⟨k, rfl, rfl⟩
    exact ⟨k, rfl, data, rfl, rfl⟩

/-- A tag is valid exactly if it is the one that is computed. -/
theorem HMAC.verifySha256_buffer {H : Hashes} (L : H.Lawful) (k data tag : Bytes) :
    HMAC.verifySha256 H (.buffer k) (.buffer data) (.buffer tag) =
      .ok (decide (Node.hmacSha256 H k data = tag)) := by
  have h_verify : HMAC.verifySha256 H (.buffer k) (.buffer data) (.buffer tag) =
      .ok (Node.hmacSha256Verify H k data tag) := rfl
  rw [h_verify, Except.ok.injEq, Bool.eq_iff_iff, decide_eq_true_iff,
    Node.hmacSha256Verify_iff L]

/-! ### Hashing all of an array -/

theorem assertBuffers_map (i : ℕ) (chunks : List Bytes) :
    assertBuffers i (chunks.map .buffer) = .ok chunks := by
  induction chunks generalizing i with
  | nil => rfl
  | cons chunk chunks ih => rw [List.map_cons, assertBuffers, assertBuffer_buffer, ok_bind, ih]; rfl

/-- The loop stops at the first value that is no buffer. -/
theorem assertBuffers_error (i : ℕ) (chunks : List Bytes) {value : JsValue}
    (h : value.isBuffer = false) (rest : List JsValue) :
    ∃ e, assertBuffers i (chunks.map .buffer ++ value :: rest) = .error e ∧
      e.cls = .validationError ∧
      e.parameter = some ("buffers[" ++ (i + chunks.length).repr ++ "]") := by
  induction chunks generalizing i with
  | nil =>
    cases value with
    | buffer bytes => cases h
    | _ => exact ⟨_, rfl, rfl, rfl⟩
  | cons chunk chunks ih =>
    obtain ⟨e, h_e, h_cls, h_parameter⟩ := ih (i + 1)
    refine ⟨e, ?_, h_cls, ?_⟩
    · rw [List.map_cons, List.cons_append, assertBuffers, assertBuffer_buffer, ok_bind, h_e]
      rfl
    · rw [h_parameter, List.length_cons, Nat.add_right_comm, Nat.add_assoc]

variable {H} {N}

/-- Buffers that fit into one are hashed as one. -/
theorem hashAllWith_buffers (hash : JsValue → Except JsError Bytes) {chunks : List Bytes}
    (h : chunks.flatten.length < 2 ^ 53) :
    hashAllWith N hash (some (chunks.map .buffer)) = hash (.buffer chunks.flatten) := by
  rw [hashAllWith]
  simp only [assertBuffers_map, ok_bind]
  rw [concatBuffers, if_pos h, ok_bind]

theorem hashAllWith_error (hash : JsValue → Except JsError Bytes) (chunks : List Bytes)
    {value : JsValue} (h : value.isBuffer = false) (rest : List JsValue) :
    ∃ e, hashAllWith N hash (some (chunks.map .buffer ++ value :: rest)) = .error e ∧
      e.cls = .validationError ∧
      e.parameter = some ("buffers[" ++ chunks.length.repr ++ "]") := by
  obtain ⟨e, h_e, h_cls, h_parameter⟩ := assertBuffers_error 0 chunks h rest
  rw [Nat.zero_add] at h_parameter
  refine ⟨e, ?_, h_cls, h_parameter⟩
  rw [hashAllWith]
  simp only [h_e, error_bind]

/-- **Hashing an array** is hashing its concatenation, and streaming its elements, for both hash
functions; the first element that is no buffer is refused under its index. -/
theorem hashAll_streams (L : H.Lawful) :
    (∀ chunks : List Bytes, chunks.flatten.length < 2 ^ 53 →
      SHA256.hashAll H N (some (chunks.map .buffer)) = SHA256.hash H (.buffer chunks.flatten) ∧
      SHA256.hashAll H N (some (chunks.map .buffer)) =
        .ok (chunks.foldl StreamingHasher.update (.new : Sha256Hasher H)).finalize.1 ∧
      SHA3.hash256All H N (some (chunks.map .buffer)) = SHA3.hash256 H (.buffer chunks.flatten) ∧
      SHA3.hash256All H N (some (chunks.map .buffer)) =
        .ok (chunks.foldl StreamingHasher.update (.new : Sha3_256Hasher H)).finalize.1) ∧
    (∀ chunks : List Bytes, SHA3.hash512 H (.buffer chunks.flatten) =
      .ok (chunks.foldl StreamingHasher.update (.new : Sha3_512Hasher H)).finalize.1) ∧
    ∀ (chunks : List Bytes) (value : JsValue) (rest : List JsValue), value.isBuffer = false →
      (∃ e, SHA256.hashAll H N (some (chunks.map .buffer ++ value :: rest)) = .error e ∧
        e.cls = .validationError ∧
        e.parameter = some ("buffers[" ++ chunks.length.repr ++ "]")) ∧
      ∃ e, SHA3.hash256All H N (some (chunks.map .buffer ++ value :: rest)) = .error e ∧
        e.cls = .validationError ∧
        e.parameter = some ("buffers[" ++ chunks.length.repr ++ "]") := by
  refine ⟨?_, ?_, ?_⟩
  · intro chunks h
    have h_sha256 : SHA256.hash H (.buffer chunks.flatten) =
        .ok (chunks.foldl StreamingHasher.update (.new : Sha256Hasher H)).finalize.1 := by
      rw [StreamingHasher.finalize_foldl_update L.sha256]
      rfl
    have h_sha3 : SHA3.hash256 H (.buffer chunks.flatten) =
        .ok (chunks.foldl StreamingHasher.update (.new : Sha3_256Hasher H)).finalize.1 := by
      rw [StreamingHasher.finalize_foldl_update L.sha3_256]
      rfl
    rw [SHA256.hashAll, SHA3.hash256All, hashAllWith_buffers _ h, hashAllWith_buffers _ h]
    exact ⟨rfl, h_sha256, rfl, h_sha3⟩
  · intro chunks
    rw [StreamingHasher.finalize_foldl_update L.sha3_512]
    rfl
  · intro chunks value rest h
    exact ⟨hashAllWith_error _ chunks h rest, hashAllWith_error _ chunks h rest⟩

/-- The bytes of `abc`, in two chunks. -/
theorem hashAll_streams_abc :
    SHA256.hashAll rustHashes plainBuffer (some ([[0x61], [0x62, 0x63]].map .buffer)) =
      .ok ([[0x61], [0x62, 0x63]].foldl StreamingHasher.update
        (.new : Sha256Hasher rustHashes)).finalize.1 :=
  ((hashAll_streams rustHashes_lawful).1 [[0x61], [0x62, 0x63]] (by decide)).2.1

end Core

end SignalisCore
