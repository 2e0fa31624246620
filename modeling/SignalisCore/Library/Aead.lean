import SignalisCore.Library.ByteXor

/-!
# Authenticated encryption from a stream cipher and a tag

A scheme encrypts by combining the plaintext with a key stream, and authenticates the associated
data and the ciphertext by a tag that stands behind the ciphertext. The key and the nonce are of
arbitrary types.

* `decrypt_eq_some_iff`: what decrypts is exactly what was encrypted.
* `xor_body_eq`: two ciphertexts under one key and nonce give away the exclusive or of the two
  plaintexts.
* `length_encrypt`: the ciphertext is longer than the plaintext by the tag.
* `blockStream`: a key stream out of numbered blocks, as the counter modes make them.
-/

namespace Aead

open LittleEndian ByteXor

/-! ### Key streams -/

section BlockStream

variable {b : ℕ} (f : ℕ → ByteArr b)

/-- The first `count` blocks of a sequence. -/
def firstBlocks (count : ℕ) : Bytes := (List.range count).flatMap fun i => (f i).1

/-- The first `n` bytes of a sequence of blocks. -/
def blockStream (n : ℕ) : Bytes := (firstBlocks f (n / b + 1)).take n

theorem length_firstBlocks (count : ℕ) : (firstBlocks f count).length = count * b := by
  induction count with
  | zero => simp [firstBlocks]
  | succ count ih =>
    rw [firstBlocks, List.range_succ, List.flatMap_append, List.length_append, ← firstBlocks, ih,
      List.flatMap_singleton, (f count).2, Nat.succ_mul]

theorem le_length_firstBlocks (h : 0 < b) (n : ℕ) :
    n ≤ (firstBlocks f (n / b + 1)).length := by
  have h_div := Nat.div_add_mod' n b
  have h_lt := Nat.mod_lt n h
  rw [length_firstBlocks, Nat.succ_mul]
  omega

theorem length_blockStream (h : 0 < b) (n : ℕ) : (blockStream f n).length = n := by
  rw [blockStream, List.length_take, min_eq_left (le_length_firstBlocks f h n)]

/-- More blocks begin with fewer. -/
theorem firstBlocks_prefix {m n : ℕ} (h : m ≤ n) : firstBlocks f m <+: firstBlocks f n := by
  obtain ⟨k, rfl⟩ := Nat.exists_eq_add_of_le h
  rw [firstBlocks, firstBlocks, List.range_add, List.flatMap_append]
  exact List.prefix_append _ _

theorem take_blockStream (h : 0 < b) {m n : ℕ} (h_le : m ≤ n) :
    (blockStream f n).take m = blockStream f m := by
  have h_blocks : m / b + 1 ≤ n / b + 1 := Nat.succ_le_succ (Nat.div_le_div_right h_le)
  obtain ⟨rest, h_rest⟩ := firstBlocks_prefix f h_blocks
  rw [blockStream, List.take_take, min_eq_left h_le, blockStream, ← h_rest,
    List.take_append_of_le_length (le_length_firstBlocks f h m)]

end BlockStream

/-- Zeros up to whole blocks of sixteen bytes, as both standards lay out what they authenticate. -/
def padded (l : Bytes) : Bytes := l ++ List.replicate ((16 - l.length % 16) % 16) 0

/-! ### Schemes -/

/-- A stream cipher and a function that computes tags. -/
structure Scheme (Key Nonce : Type*) where
  /-- The length of a tag. -/
  tagLen : ℕ
  /-- The first bytes of the key stream. -/
  keystream : Key → Nonce → ℕ → Bytes
  /-- There are as many of them as were asked for. -/
  length_keystream : ∀ key nonce n, (keystream key nonce n).length = n
  /-- A shorter key stream is the start of a longer one. -/
  take_keystream : ∀ key nonce m n, m ≤ n → (keystream key nonce n).take m = keystream key nonce m
  /-- The tag of associated data and a ciphertext. -/
  tag : Key → Nonce → Bytes → Bytes → ByteArr tagLen

namespace Scheme

variable {Key Nonce : Type*} (S : Scheme Key Nonce)

/-- The stream cipher. -/
def stream (key : Key) (nonce : Nonce) (text : Bytes) : Bytes :=
  xor text (S.keystream key nonce text.length)

/-- Encryption: the ciphertext, and its tag behind it. -/
def encrypt (key : Key) (nonce : Nonce) (plaintext aad : Bytes) : Bytes :=
  let body := S.stream key nonce plaintext
  body ++ (S.tag key nonce aad body).1

/-- Decryption: the tag is recomputed over what stands before it. -/
def decrypt (key : Key) (nonce : Nonce) (ciphertext aad : Bytes) : Option Bytes :=
  let body := ciphertext.take (ciphertext.length - S.tagLen)
  let tag := ciphertext.drop (ciphertext.length - S.tagLen)
  if S.tagLen ≤ ciphertext.length ∧ tag = (S.tag key nonce aad body).1 then
    some (S.stream key nonce body)
  else none

variable {S}

@[simp] theorem length_stream (key : Key) (nonce : Nonce) (text : Bytes) :
    (S.stream key nonce text).length = text.length := by
  rw [stream, length_xor, S.length_keystream, min_self]

@[simp] theorem stream_stream (key : Key) (nonce : Nonce) (text : Bytes) :
    S.stream key nonce (S.stream key nonce text) = text := by
  rw [stream, length_stream, stream]
  exact xor_xor_cancel (S.length_keystream key nonce _).ge

/-- **The length of a ciphertext.** -/
theorem length_encrypt (key : Key) (nonce : Nonce) (plaintext aad : Bytes) :
    (S.encrypt key nonce plaintext aad).length = plaintext.length + S.tagLen := by
  rw [encrypt, List.length_append, length_stream, (S.tag key nonce aad _).2]

/-- An encrypted plaintext decrypts. -/
theorem decrypt_encrypt (key : Key) (nonce : Nonce) (plaintext aad : Bytes) :
    S.decrypt key nonce (S.encrypt key nonce plaintext aad) aad = some plaintext := by
  have h_len := length_encrypt (S := S) key nonce plaintext aad
  have h_body : (S.encrypt key nonce plaintext aad).length - S.tagLen =
      (S.stream key nonce plaintext).length := by
    rw [h_len, length_stream, Nat.add_sub_cancel]
  have h_le : S.tagLen ≤ (S.encrypt key nonce plaintext aad).length := by omega
  simp only [decrypt, h_body, h_le]
  simp only [encrypt, List.take_left, List.drop_left, and_self, if_true, stream_stream]

/-- **What decrypts is exactly what was encrypted.** -/
theorem decrypt_eq_some_iff {key : Key} {nonce : Nonce} {ciphertext aad plaintext : Bytes} :
    S.decrypt key nonce ciphertext aad = some plaintext ↔
      S.encrypt key nonce plaintext aad = ciphertext := by
  refine ⟨?_, ?_⟩
  · intro h
    simp only [decrypt, Option.ite_none_right_eq_some, Option.some.injEq] at h
    obtain ⟨⟨-, h_tag⟩, rfl⟩ := h
    -- the stream cipher gives the body back, and the tag behind it is the recomputed one
    rw [encrypt, stream_stream, ← h_tag, List.take_append_drop]
  · rintro rfl
    exact decrypt_encrypt key nonce plaintext aad

/-- The body of a ciphertext, in front of the tag. -/
theorem take_encrypt (key : Key) (nonce : Nonce) (plaintext aad : Bytes) :
    (S.encrypt key nonce plaintext aad).take plaintext.length = S.stream key nonce plaintext := by
  rw [encrypt, ← length_stream (S := S) key nonce plaintext, List.take_left]

/-- **Reuse of a nonce**: the bodies of two ciphertexts under one key and nonce combine to what the
two plaintexts combine to, whatever the associated data. -/
theorem xor_body_eq (key : Key) (nonce : Nonce) (p q aad aad' : Bytes) :
    xor ((S.encrypt key nonce p aad).take p.length) ((S.encrypt key nonce q aad').take q.length) =
      xor p q := by
  rw [take_encrypt, take_encrypt]
  wlog h_le : p.length ≤ q.length generalizing p q
  · rw [ByteXor.xor_comm, this q p (Nat.le_of_not_le h_le), ByteXor.xor_comm]
  -- the shorter text sees the start of the longer one's key stream
  have h_cut : S.stream key nonce p = xor p (S.keystream key nonce q.length) := by
    rw [stream, ← S.take_keystream key nonce _ _ h_le]
    nth_rewrite 1 [← List.take_length (l := p)]
    rw [← take_xor, List.take_of_length_le (by simp)]
  rw [h_cut, stream]
  exact xor_xor_xor_cancel p q _ (by rw [S.length_keystream]; exact min_le_right _ _)

end Scheme

end Aead
