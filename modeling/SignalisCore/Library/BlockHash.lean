import SignalisCore.Library.LittleEndian

/-!
# Hash functions that work block by block

A padded message is compressed one block after the other. A hasher does the same while the message
is still arriving: it keeps the state after the whole blocks, and the bytes that are not a block
yet.

* `Hasher.Computes.run`: whatever the chunks, a hasher that computes a function computes it of their
  concatenation.
* `Scheme.computes_hasher`: and the buffered hasher computes what is compressed in one go.
-/

namespace BlockHash

open LittleEndian

/-! ### Hashers -/

/-- A hasher, as the programs that use it see it. -/
structure Hasher (Digest : Type*) where
  State : Type
  new : State
  update : State → Bytes → State
  finalize : State → Digest

/-- The hasher computes the function: `Absorbed` says what a state has been given. -/
structure Hasher.Computes {Digest : Type*} (H : Hasher Digest) (hash : Bytes → Digest)
    (Absorbed : H.State → Bytes → Prop) : Prop where
  new : Absorbed H.new []
  update : ∀ {s m}, Absorbed s m → ∀ data, Absorbed (H.update s data) (m ++ data)
  finalize : ∀ {s m}, Absorbed s m → H.finalize s = hash m

namespace Hasher.Computes

variable {Digest : Type*} {H : Hasher Digest} {hash : Bytes → Digest}
  {Absorbed : H.State → Bytes → Prop}

/-- **A run** over chunks has been given their concatenation. -/
theorem run (h : H.Computes hash Absorbed) {s : H.State} {m : Bytes} (h_s : Absorbed s m)
    (chunks : List Bytes) : Absorbed (chunks.foldl H.update s) (m ++ chunks.flatten) := by
  induction chunks generalizing s m with
  | nil => simpa using h_s
  | cons chunk chunks ih =>
    rw [List.foldl_cons, List.flatten_cons, ← List.append_assoc]
    exact ih (h.update h_s chunk)

theorem finalize_foldl (h : H.Computes hash Absorbed) (chunks : List Bytes) :
    H.finalize (chunks.foldl H.update H.new) = hash chunks.flatten := by
  rw [h.finalize (h.run h.new chunks), List.nil_append]

end Hasher.Computes

/-- The hasher computes the function, whatever its states are. -/
def Hasher.Implements {Digest : Type*} (H : Hasher Digest) (hash : Bytes → Digest) : Prop :=
  ∃ Absorbed, H.Computes hash Absorbed

/-- The hasher after a prefix, with a function of its hash. -/
def Hasher.after {Digest Digest' : Type*} (H : Hasher Digest) (pre : Bytes)
    (post : Digest → Digest') : Hasher Digest' :=
  ⟨H.State, H.update H.new pre, H.update, fun s => post (H.finalize s)⟩

theorem Hasher.Implements.after {Digest Digest' : Type*} {H : Hasher Digest}
    {hash : Bytes → Digest} (h : H.Implements hash) (pre : Bytes) (post : Digest → Digest') :
    (H.after pre post).Implements fun m => post (hash (pre ++ m)) := by
  obtain ⟨Absorbed, h⟩ := h
  refine ⟨fun s m => Absorbed s (pre ++ m), ?_, ?_, ?_⟩
  · rw [List.append_nil]
    exact h.update h.new pre
  · intro s m h_s data
    rw [← List.append_assoc]
    exact h.update h_s data
  · intro s m h_s
    exact congrArg post (h.finalize h_s)

/-! ### Schemes -/

/-- A compression function with its padding. -/
structure Scheme (State Digest : Type) where
  /-- The length of a block. -/
  blockLen : ℕ
  blockLen_pos : 0 < blockLen
  /-- The state before the first block. -/
  init : State
  /-- One block. -/
  compress : State → Bytes → State
  /-- What is put behind a message of this length. -/
  padding : ℕ → Bytes
  /-- A padded message is whole blocks. -/
  dvd_padded : ∀ n, blockLen ∣ n + (padding n).length
  /-- The hash, after the last block. -/
  output : State → Digest

namespace Scheme

variable {State Digest : Type} (S : Scheme State Digest)

/-- The first `n` blocks. -/
def absorb : ℕ → Bytes → State → State
  | 0, _, s => s
  | n + 1, l, s => absorb n (l.drop S.blockLen) (S.compress s (l.take S.blockLen))

/-- All whole blocks. -/
def absorbAll (l : Bytes) (s : State) : State := S.absorb (l.length / S.blockLen) l s

/-- What is left after them. -/
def rest (l : Bytes) : Bytes := l.drop (l.length / S.blockLen * S.blockLen)

/-- **The hash of a message.** -/
def hash (m : Bytes) : Digest := S.output (S.absorbAll (m ++ S.padding m.length) S.init)

theorem length_rest (l : Bytes) : (S.rest l).length = l.length % S.blockLen := by
  have h := Nat.div_add_mod' l.length S.blockLen
  rw [rest, List.length_drop]
  omega

theorem absorb_add (i j : ℕ) (l : Bytes) (s : State) :
    S.absorb (i + j) l s = S.absorb j (l.drop (i * S.blockLen)) (S.absorb i l s) := by
  induction i generalizing l s with
  | zero => simp [absorb]
  | succ i ih =>
    rw [Nat.succ_add, absorb, ih, List.drop_drop, absorb, Nat.succ_mul, add_comm S.blockLen]

/-- Blocks that are there do not change when more follow. -/
theorem absorb_append {n : ℕ} {l : Bytes} (h : n * S.blockLen ≤ l.length) (more : Bytes)
    (s : State) : S.absorb n (l ++ more) s = S.absorb n l s := by
  induction n generalizing l s with
  | zero => rfl
  | succ n ih =>
    rw [Nat.succ_mul] at h
    have h_block : S.blockLen ≤ l.length := by omega
    rw [absorb, absorb, List.take_append_of_le_length h_block,
      List.drop_append_of_le_length h_block, ih]
    rw [List.length_drop]
    omega

/-- The number of blocks is that of the first part and that of its rest with the second. -/
theorem blockCount_append (l more : Bytes) :
    (l ++ more).length / S.blockLen =
      l.length / S.blockLen + (S.rest l ++ more).length / S.blockLen := by
  have h_split : (l ++ more).length =
      (S.rest l ++ more).length + l.length / S.blockLen * S.blockLen := by
    have h := Nat.div_add_mod' l.length S.blockLen
    rw [List.length_append, List.length_append, length_rest]
    omega
  rw [h_split, Nat.add_mul_div_right _ _ S.blockLen_pos, add_comm]

/-- **In two parts**: the whole blocks of the first, and then its rest with the second. -/
theorem absorbAll_append (l more : Bytes) (s : State) :
    S.absorbAll (l ++ more) s = S.absorbAll (S.rest l ++ more) (S.absorbAll l s) := by
  have h_le : l.length / S.blockLen * S.blockLen ≤ l.length := Nat.div_mul_le_self _ _
  rw [absorbAll, blockCount_append, absorb_add, List.drop_append_of_le_length h_le,
    S.absorb_append h_le]
  rfl

theorem rest_append (l more : Bytes) : S.rest (l ++ more) = S.rest (S.rest l ++ more) := by
  have h_le : l.length / S.blockLen * S.blockLen ≤ l.length := Nat.div_mul_le_self _ _
  rw [rest, blockCount_append, Nat.add_mul, ← List.drop_drop, List.drop_append_of_le_length h_le]
  rfl

/-! ### The buffered hasher -/

/-- The state after the whole blocks, the bytes that are not a block yet, and the length so far. -/
structure Buffered (S : Scheme State Digest) where
  state : State
  buffer : Bytes
  buffer_lt : buffer.length < S.blockLen
  length : ℕ

def Buffered.new : Buffered S := ⟨S.init, [], S.blockLen_pos, 0⟩

/-- The buffer is filled up, and what makes whole blocks is compressed at once. -/
def Buffered.update (h : Buffered S) (data : Bytes) : Buffered S where
  state := S.absorbAll (h.buffer ++ data) h.state
  buffer := S.rest (h.buffer ++ data)
  buffer_lt := by
    rw [length_rest]
    exact Nat.mod_lt _ S.blockLen_pos
  length := h.length + data.length

def Buffered.finalize (h : Buffered S) : Digest :=
  S.output (S.absorbAll (h.buffer ++ S.padding h.length) h.state)

/-- What the parts of a state are after a message. -/
structure Buffered.Absorbed (h : Buffered S) (m : Bytes) : Prop where
  state : h.state = S.absorbAll m S.init
  buffer : h.buffer = S.rest m
  length : h.length = m.length

/-- The operations of the hasher. -/
def hasher : Hasher Digest :=
  ⟨Buffered S, Buffered.new S, Buffered.update S, Buffered.finalize S⟩

/-- **The buffered hasher** computes the hash. -/
theorem computes_hasher : S.hasher.Computes S.hash (Buffered.Absorbed S) where
  new := ⟨by simp [hasher, Buffered.new, absorbAll, absorb],
    by simp [hasher, Buffered.new, rest], rfl⟩
  update {h m} h_m data := by
    refine ⟨?_, ?_, ?_⟩
    · change S.absorbAll (h.buffer ++ data) h.state = _
      rw [h_m.buffer, h_m.state, ← absorbAll_append]
    · change S.rest (h.buffer ++ data) = _
      rw [h_m.buffer, ← rest_append]
    · change h.length + data.length = _
      rw [h_m.length, List.length_append]
  finalize {h m} h_m := by
    change S.output (S.absorbAll (h.buffer ++ S.padding h.length) h.state) = _
    rw [h_m.buffer, h_m.state, h_m.length, ← absorbAll_append, hash]

end Scheme

end BlockHash
