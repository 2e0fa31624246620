import SignalisCore.Library.Binary64
import SignalisCore.Library.Segment

/-!
# ECMAScript operations on numbers

The operations of ECMAScript that read a number through the mathematical value it denotes: the
comparisons, `Number.isInteger`, the conversion to an unsigned 32-bit integer and the indices of
`subarray`. A number is a `Float`; the value is `Binary64.view`.

* `isNonnegInteger_iff`: what the test for a non-negative integer accepts.
* `toNat_toUint32`: narrowing is reduction modulo `2 ^ 32`.
* `subarray_of_view`: a slice between natural numbers in range.
* `lessThan_foldl_add`: a sum of natural numbers compared with a length.
-/

namespace Ecma

open Binary64 Slicing

/-- `x < y`. -/
def lessThan (x y : Float) : Bool :=
  match view x, view y with
  | .nan, _ | _, .nan => false
  | _, .inf true | .inf false, _ => false
  | .inf true, _ | _, .inf false => true
  | .fin a, .fin b => a < b

/-- `x === y` for numbers. -/
def strictEquals (x y : Float) : Bool :=
  match view x, view y with
  | .nan, _ => false
  | v, w => v = w

/-- `Number.isInteger(x)`. -/
def isInteger (x : Float) : Bool :=
  match view x with
  | .fin q => q.den = 1
  | _ => false

/-- Rounding toward zero. -/
def truncate (q : ℚ) : ℤ := q.num.tdiv q.den

/-- **ToUint32**: the integer part modulo `2 ^ 32`; zero for what is not finite. -/
def toUint32 (x : Float) : UInt32 :=
  match view x with
  | .fin q => .ofNat (truncate q % 2 ^ 32).toNat
  | _ => 0

/-- An index argument of `subarray` on an array of `len` elements: truncated, counted from the end
when negative, clamped. -/
def relativeIndex (len : ℕ) (x : Float) : ℕ :=
  match view x with
  | .nan | .inf true => 0
  | .inf false => len
  | .fin q =>
    if truncate q < 0 then (len + truncate q).toNat else min (truncate q).toNat len

/-- `array.subarray(begin, end)`. -/
def subarray {α : Type*} (array : List α) (begin finish : Float) : Segment α where
  start := relativeIndex array.length begin
  elems := (array.drop (relativeIndex array.length begin)).take
    (relativeIndex array.length finish - relativeIndex array.length begin)

/-- `array.subarray(begin)`. -/
def subarrayFrom {α : Type*} (array : List α) (begin : Float) : Segment α where
  start := relativeIndex array.length begin
  elems := array.drop (relativeIndex array.length begin)

/-- **ToIndex**: the integer part, unless it is negative or not below `2 ^ 53`; zero for NaN. -/
def toIndex? (x : Float) : Option {n : ℕ // n < 2 ^ 53} :=
  match view x with
  | .nan => some ⟨0, by norm_num⟩
  | .inf _ => none
  | .fin q =>
    if h : 0 ≤ truncate q ∧ truncate q < 2 ^ 53 then some ⟨(truncate q).toNat, by omega⟩
    else none

/-! ### Natural numbers -/

/-- A non-negative integer. -/
def Natural (x : Float) : Prop := ∃ n : ℕ, view x = .fin n

/-- A number denotes at most one natural number. -/
theorem natCast_unique {x : Float} {m n : ℕ} (h_m : view x = .fin m) (h_n : view x = .fin n) :
    m = n := by
  rw [h_m] at h_n
  exact_mod_cast View.fin.inj h_n

/-- A statement about the natural number that is denoted. -/
theorem exists_view_iff {x : Float} {n : ℕ} (h : view x = .fin n) {p : ℕ → Prop} :
    (∃ m : ℕ, view x = .fin m ∧ p m) ↔ p n := by
  refine ⟨?_, ?_⟩
  · rintro ⟨m, h_m, h_p⟩
    rwa [natCast_unique h_m h] at h_p
  · intro h_p
    exact ⟨n, h, h_p⟩

/-- Natural numbers can be read off a list of them. -/
theorem exists_forall₂_view_iff {xs : List Float} :
    (∃ ns, List.Forall₂ (fun x n => view x = .fin (n : ℕ)) xs ns) ↔ ∀ x ∈ xs, Natural x := by
  induction xs with
  | nil => simp
  | cons x xs ih =>
    rw [List.forall_mem_cons, ← ih]
    refine ⟨?_, ?_⟩
    · rintro ⟨_, h⟩
      cases h with
      | cons h_x h_xs => exact ⟨⟨_, h_x⟩, _, h_xs⟩
    · rintro ⟨⟨n, h_x⟩, ns, h_xs⟩
      exact ⟨n :: ns, .cons h_x h_xs⟩

@[simp]
theorem truncate_natCast (n : ℕ) : truncate n = n := by
  simp [truncate]

theorem view_zero : view 0 = .fin 0 := by decide +kernel

theorem view_zero_natCast : view 0 = .fin (0 : ℕ) := by rw [view_zero, Nat.cast_zero]

theorem view_thirtyTwo : view 32 = .fin (32 : ℕ) := view_ofNat (by norm_num)

/-- The number `2 ^ 32 + 1`, which is narrowed to one. -/
theorem view_aboveUint32 : view 4294967297 = .fin (4294967297 : ℕ) := view_ofNat (by norm_num)

theorem isInteger_iff {x : Float} : isInteger x ↔ ∃ z : ℤ, view x = .fin z := by
  unfold isInteger
  generalize view x = v
  cases v with
  | nan => simp
  | inf negative => simp
  | fin q =>
    simp only [decide_eq_true_eq, View.fin.injEq]
    refine ⟨fun h => ⟨q.num, (Rat.den_eq_one_iff q).1 h |>.symm⟩, ?_⟩
    rintro ⟨z, rfl⟩
    exact Rat.den_intCast z

theorem lessThan_of_view {x y : Float} {a b : ℚ} (h_x : view x = .fin a) (h_y : view y = .fin b) :
    lessThan x y = decide (a < b) := by
  rw [lessThan, h_x, h_y]

theorem strictEquals_of_view {x y : Float} {a b : ℚ} (h_x : view x = .fin a)
    (h_y : view y = .fin b) : strictEquals x y = decide (a = b) := by
  rw [strictEquals, h_x, h_y]
  simp

/-- A natural number that is not positive is zero. -/
theorem strictEquals_zero_of_not_pos {x : Float} {n : ℕ} (h_n : view x = .fin n)
    (h : ¬∃ k : ℕ, view x = .fin k ∧ 1 ≤ k) : strictEquals x 0 = true := by
  have h_zero : n = 0 := by
    by_contra h_ne
    exact h ⟨n, h_n, Nat.one_le_iff_ne_zero.2 h_ne⟩
  rw [strictEquals_of_view h_n view_zero, h_zero]
  rfl

/-- The test `Number.isInteger(x) && !(x < 0)` accepts the natural numbers. -/
theorem isNonnegInteger_iff {x : Float} :
    (isInteger x && !lessThan x 0) = true ↔ ∃ n : ℕ, view x = .fin n := by
  rw [Bool.and_eq_true, isInteger_iff]
  refine ⟨?_, ?_⟩
  · rintro ⟨⟨z, h_z⟩, h_nonneg⟩
    rw [lessThan_of_view h_z view_zero] at h_nonneg
    -- an integer that is not below zero is a natural number
    have h_le : 0 ≤ z := by simpa using h_nonneg
    lift z to ℕ using h_le
    exact ⟨z, h_z⟩
  · rintro ⟨n, h_n⟩
    refine ⟨⟨n, h_n⟩, ?_⟩
    rw [lessThan_of_view h_n view_zero]
    simp

/-- **Narrowing** keeps a natural number modulo `2 ^ 32`. -/
theorem toNat_toUint32 {x : Float} {n : ℕ} (h : view x = .fin n) :
    (toUint32 x).toNat = n % 2 ^ 32 := by
  rw [toUint32, h]
  simp only [truncate_natCast]
  rw [show (n : ℤ) % 2 ^ 32 = ((n % 2 ^ 32 : ℕ) : ℤ) by push_cast; rfl, Int.toNat_natCast,
    UInt32.toNat_ofNat', Nat.mod_mod]

theorem relativeIndex_of_view {len n : ℕ} {x : Float} (h : view x = .fin n) :
    relativeIndex len x = min n len := by
  rw [relativeIndex, h]
  simp

/-- **A slice between natural numbers in range.** -/
theorem subarray_of_view {α : Type*} {array : List α} {x y : Float} {i n : ℕ}
    (h_x : view x = .fin i) (h_y : view y = .fin (i + n : ℕ)) (h : i + n ≤ array.length) :
    subarray array x y = ⟨i, (array.drop i).take n⟩ := by
  rw [subarray, relativeIndex_of_view h_x, relativeIndex_of_view h_y, min_eq_left h,
    min_eq_left (by omega), Nat.add_sub_cancel_left]

theorem elems_subarrayFrom_of_view {α : Type*} {array : List α} {x : Float} {i : ℕ}
    (h : view x = .fin i) : (subarrayFrom array x).elems = array.drop i := by
  rw [subarrayFrom, relativeIndex_of_view h]
  obtain h_le | h_lt := le_or_gt i array.length
  · rw [min_eq_left h_le]
  · rw [min_eq_right h_lt.le, List.drop_length, List.drop_of_length_le h_lt.le]

theorem toIndex?_of_view {x : Float} {n : ℕ} (h_x : view x = .fin n) (h : n < 2 ^ 53) :
    toIndex? x = some ⟨n, h⟩ := by
  rw [toIndex?, h_x]
  simp only [truncate_natCast, Int.toNat_natCast]
  exact dif_pos ⟨by omega, by exact_mod_cast h⟩

/-- A large number is no index. -/
theorem toIndex?_of_large {x : Float} (h : (view x).Large) : toIndex? x = none := by
  obtain h_inf | ⟨n, h_n, h_fin⟩ := h
  · rw [toIndex?, h_inf]
  · rw [toIndex?, h_fin]
    simp only [truncate_natCast]
    exact dif_neg fun h_index => absurd h_index.2 (not_lt.2 (by exact_mod_cast h_n))

/-- **A sum of non-negative integers** compared with a length: rounding does not matter. -/
theorem lessThan_foldl_add {len : ℕ} (h_len : len < 2 ^ 53) {xs : List Float} {ns : List ℕ}
    (h : List.Forall₂ (fun x n => view x = .fin (n : ℕ)) xs ns) :
    lessThan (.ofNat len) (xs.foldl (· + ·) 0) = decide (len < ns.sum) := by
  have h_sum := view_foldl_add h (a := 0) view_zero
  rw [zero_add] at h_sum
  by_cases h_small : ns.sum < 2 ^ 53
  · rw [lessThan_of_view (view_ofNat h_len) (h_sum.1 h_small)]
    exact decide_eq_decide.2 Nat.cast_lt
  -- a sum that has left the exact range exceeds every length
  · rw [decide_eq_true (by omega : len < ns.sum), lessThan, view_ofNat h_len]
    obtain h_inf | ⟨n, h_n, h_fin⟩ := h_sum.2 (by omega)
    · rw [h_inf]
    · rw [h_fin]
      simpa using h_len.trans_le h_n

end Ecma
