import SignalisCore.Library.LittleEndian

/-!
# Exclusive or of byte strings

`xor` combines two byte strings byte by byte, up to the end of the shorter one. A string that is
combined twice with one that is long enough comes back (`xor_xor_cancel`), which is all that a
stream cipher, a chained block cipher and a masked buffer need of it.
-/

namespace ByteXor

open LittleEndian

/-- Byte by byte, up to the end of the shorter string. -/
def xor (a b : Bytes) : Bytes := a.zipWith (· ^^^ ·) b

@[simp] theorem xor_nil_left (b : Bytes) : xor [] b = [] := rfl

@[simp] theorem xor_nil_right (a : Bytes) : xor a [] = [] := by
  cases a <;> rfl

@[simp] theorem xor_cons (x y : UInt8) (a b : Bytes) :
    xor (x :: a) (y :: b) = (x ^^^ y) :: xor a b := rfl

@[simp] theorem length_xor (a b : Bytes) : (xor a b).length = min a.length b.length := by
  rw [xor, List.length_zipWith]

theorem xor_comm (a b : Bytes) : xor a b = xor b a :=
  List.zipWith_comm_of_comm UInt8.xor_comm

/-- **Involution**: a mask that is long enough is undone by itself. -/
theorem xor_xor_cancel {a b : Bytes} (h : a.length ≤ b.length) : xor (xor a b) b = a := by
  induction a generalizing b with
  | nil => simp
  | cons x a ih =>
    cases b with
    | nil => simp at h
    | cons y b =>
      have h_tail : a.length ≤ b.length := by simpa using h
      rw [xor_cons, xor_cons, ih h_tail, UInt8.xor_assoc, UInt8.xor_self, UInt8.xor_zero]

/-- Two strings under one mask: the mask drops out. -/
theorem xor_xor_xor_cancel (a b c : Bytes) (h : min a.length b.length ≤ c.length) :
    xor (xor a c) (xor b c) = xor a b := by
  induction a generalizing b c with
  | nil => simp
  | cons x a ih =>
    rcases b with _ | ⟨y, b⟩
    · simp
    rcases c with _ | ⟨z, c⟩
    · simp at h
    have h_tail : min a.length b.length ≤ c.length := by
      simp only [List.length_cons] at h
      omega
    have h_byte : x ^^^ z ^^^ (y ^^^ z) = x ^^^ y := by
      rw [UInt8.xor_comm y z, UInt8.xor_assoc, ← UInt8.xor_assoc z z y, UInt8.xor_self,
        UInt8.zero_xor]
    rw [xor_cons, xor_cons, xor_cons, xor_cons, ih b c h_tail, h_byte]

theorem take_xor (n : ℕ) (a b : Bytes) : (xor a b).take n = xor (a.take n) (b.take n) :=
  List.take_zipWith

end ByteXor

namespace LittleEndian.ByteArr

open ByteXor

variable {n : ℕ}

/-- Exclusive or of arrays of one length. -/
def xor (a b : ByteArr n) : ByteArr n :=
  ⟨ByteXor.xor a.1 b.1, by rw [length_xor, a.2, b.2, min_self]⟩

@[simp] theorem xor_xor_cancel (a b : ByteArr n) : (a.xor b).xor b = a :=
  Subtype.ext (ByteXor.xor_xor_cancel (by rw [a.2, b.2]))

end LittleEndian.ByteArr
