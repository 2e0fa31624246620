import SignalisCore.Library.Aead

/-!
# ChaCha20-Poly1305

The scheme of RFC 8439 and its variant with a nonce of 24 bytes, which derives a key for the first
sixteen of them. The key stream is ChaCha20 from block one on; block zero is the key of the
Poly1305 tag.
-/

namespace ChaChaPoly

open LittleEndian

/-! ### ChaCha20 -/

/-- Left rotation of a word. -/
def rotl (x : BitVec 32) (n : ℕ) : BitVec 32 := x <<< n ||| x >>> (32 - n)

/-- Four words of the state. -/
structure Row where
  x0 : BitVec 32
  x1 : BitVec 32
  x2 : BitVec 32
  x3 : BitVec 32

/-- The state: four rows. -/
structure State where
  a : Row
  b : Row
  c : Row
  d : Row

def Row.map₂ (f : BitVec 32 → BitVec 32 → BitVec 32) (r s : Row) : Row :=
  ⟨f r.x0 s.x0, f r.x1 s.x1, f r.x2 s.x2, f r.x3 s.x3⟩

def Row.rotl (r : Row) (n : ℕ) : Row :=
  ⟨ChaChaPoly.rotl r.x0 n, ChaChaPoly.rotl r.x1 n, ChaChaPoly.rotl r.x2 n,
    ChaChaPoly.rotl r.x3 n⟩

/-- The row moved to the left by one column. -/
def Row.turn (r : Row) : Row := ⟨r.x1, r.x2, r.x3, r.x0⟩

/-- The quarter round on every column. -/
def columnRound (s : State) : State :=
  let a := s.a.map₂ (· + ·) s.b
  let d := (s.d.map₂ (· ^^^ ·) a).rotl 16
  let c := s.c.map₂ (· + ·) d
  let b := (s.b.map₂ (· ^^^ ·) c).rotl 12
  let a := a.map₂ (· + ·) b
  let d := (d.map₂ (· ^^^ ·) a).rotl 8
  let c := c.map₂ (· + ·) d
  let b := (b.map₂ (· ^^^ ·) c).rotl 7
  ⟨a, b, c, d⟩

/-- A round on the columns and one on the diagonals. -/
def doubleRound (s : State) : State :=
  let s := columnRound s
  let s := columnRound ⟨s.a, s.b.turn, s.c.turn.turn, s.d.turn.turn.turn⟩
  ⟨s.a, s.b.turn.turn.turn, s.c.turn.turn, s.d.turn⟩

def doubleRounds : ℕ → State → State
  | 0, s => s
  | n + 1, s => doubleRounds n (doubleRound s)

/-- The little-endian word at an index. -/
def word (l : Bytes) (i : ℕ) : BitVec 32 := .ofNat 32 (leValue ((l.drop i).take 4))

def row (l : Bytes) (i : ℕ) : Row :=
  ⟨word l i, word l (i + 4), word l (i + 8), word l (i + 12)⟩

/-- The state for a key, with the last row from sixteen bytes. -/
def initState (key : ByteArr 32) (last : Bytes) : State :=
  ⟨⟨0x61707865, 0x3320646e, 0x79622d32, 0x6b206574⟩, row key.1 0, row key.1 16, row last 0⟩

def Row.toBytes (r : Row) : ByteArr 16 :=
  ((ByteArr.ofLe 4 r.x0.toNat).append (ByteArr.ofLe 4 r.x1.toNat)).append
    ((ByteArr.ofLe 4 r.x2.toNat).append (ByteArr.ofLe 4 r.x3.toNat))

/-- One block of the key stream. -/
def block (key : ByteArr 32) (nonce : ByteArr 12) (counter : ℕ) : ByteArr 64 :=
  let s := initState key (leBytes 4 counter ++ nonce.1)
  let t := doubleRounds 10 s
  ((s.a.map₂ (· + ·) t.a).toBytes.append (s.b.map₂ (· + ·) t.b).toBytes).append
    ((s.c.map₂ (· + ·) t.c).toBytes.append (s.d.map₂ (· + ·) t.d).toBytes)

/-- HChaCha20: a key from sixteen bytes, out of the first and the last row. -/
def subkey (key : ByteArr 32) (start : ByteArr 16) : ByteArr 32 :=
  let t := doubleRounds 10 (initState key start.1)
  t.a.toBytes.append t.d.toBytes

/-! ### Poly1305 -/

/-- The evaluation of a text in blocks of sixteen bytes, each with a one behind it. -/
def evaluate (r : ℕ) : ℕ → Bytes → ℕ → ℕ
  | 0, _, acc => acc
  | count + 1, l, acc =>
    evaluate r count (l.drop 16) ((acc + leValue (l.take 16 ++ [1])) * r % (2 ^ 130 - 5))

/-- Poly1305 on a text, with the two halves of the one-time key. -/
def poly1305 (key : ByteArr 32) (text : Bytes) : ByteArr 16 :=
  let r := leValue (key.1.take 16) &&& 0x0ffffffc0ffffffc0ffffffc0fffffff
  .ofLe 16 (evaluate r ((text.length + 15) / 16) text 0 + leValue (key.1.drop 16))

/-- The tag of associated data and a ciphertext. -/
def tag (key : ByteArr 32) (nonce : ByteArr 12) (aad ciphertext : Bytes) : ByteArr 16 :=
  poly1305 (ByteArr.take (n := 32) 32 (block key nonce 0))
    (Aead.padded aad ++ Aead.padded ciphertext ++ leBytes 8 aad.length ++
      leBytes 8 ciphertext.length)

/-! ### The schemes -/

/-- **The scheme of RFC 8439.** -/
def chaCha20Poly1305 : Aead.Scheme (ByteArr 32) (ByteArr 12) where
  tagLen := 16
  keystream key nonce := Aead.blockStream fun i => block key nonce (i + 1)
  length_keystream _ _ := Aead.length_blockStream _ (by norm_num)
  take_keystream _ _ _ _ := Aead.take_blockStream _ (by norm_num)
  tag := tag

/-- The derived key and the nonce that stand for a long nonce. -/
def shorten (key : ByteArr 32) (nonce : ByteArr 24) : ByteArr 32 × ByteArr 12 :=
  (subkey key (ByteArr.take (n := 8) 16 nonce),
    (ByteArr.replicate 4 0).append (ByteArr.drop (n := 8) 16 nonce))

/-- The scheme with a nonce of 24 bytes. -/
def xChaCha20Poly1305 : Aead.Scheme (ByteArr 32) (ByteArr 24) where
  tagLen := 16
  keystream key nonce :=
    chaCha20Poly1305.keystream (shorten key nonce).1 (shorten key nonce).2
  length_keystream _ _ := chaCha20Poly1305.length_keystream _ _
  take_keystream _ _ := chaCha20Poly1305.take_keystream _ _
  tag key nonce := tag (shorten key nonce).1 (shorten key nonce).2

/-- The known answer for the text `Signalis XChaCha KAT`. -/
example : xChaCha20Poly1305.encrypt ⟨(List.range 32).map fun i => .ofNat (37 * i), rfl⟩
    ⟨(List.range 24).map fun i => .ofNat (0x40 + i), rfl⟩
    [83, 105, 103, 110, 97, 108, 105, 115, 32, 88, 67, 104, 97, 67, 104, 97, 32, 75, 65, 84] [] =
    [0x20, 0xdf, 0x03, 0xf8, 0x7c, 0x3b, 0x34, 0xd0, 0x2b, 0x52, 0xcf, 0x60, 0x8b, 0xe5, 0xca,
      0xbd, 0x67, 0x0f, 0xaa, 0x5a, 0x19, 0xde, 0xfa, 0x41, 0x29, 0x8e, 0xce, 0xea, 0xa9, 0x39,
      0x87, 0x89, 0xd9, 0x88, 0x8d, 0x17] := by
  decide +kernel

end ChaChaPoly
