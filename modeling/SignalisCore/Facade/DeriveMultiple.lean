import SignalisCore.Facade.Core

/-!
# `HKDF.deriveMultiple`

The lengths are added up, the sum is checked and derived, and a loop slices the result with a
running offset. Only the sum is checked, so that the slices are what was asked for if every length
is itself a non-negative integer.

* `foldl_sliceStep`: the loop cuts the key material up.
* `deriveMultiple_of_total`: the calls that return.
* `deriveMultiple_disjoint_iff`: when the keys are disjoint and of the requested sizes.
-/

namespace SignalisCore

open Binary64 Ecma LittleEndian Slicing

namespace Core

namespace HKDF

variable (E : Engine) (P : Primitives)

/-- The call throws, or shares the key material for the sum of the lengths out among keys of exactly
the requested sizes. -/
def HandsOutDisjointKeys (salt ikm info : Bytes) (lengths : List Float) : Prop :=
  (∃ e, deriveMultiple E P (.buffer salt) (.buffer ikm) (.buffer info) (some lengths) = .error e) ∨
  ∃ segments okm sizes,
    deriveMultiple E P (.buffer salt) (.buffer ikm) (.buffer info) (some lengths) = .ok segments ∧
    derive E P (.buffer salt) (.buffer ikm) (.buffer info) (.number (totalLength lengths)) =
      .ok okm ∧
    List.Forall₂ (fun len size => view len = .fin (size : ℕ)) lengths sizes ∧
    IsPartition okm sizes segments

/-- Some length is no non-negative integer, and yet the sum is an accepted one. -/
def OnlySumAccepted (lengths : List Float) : Prop :=
  (∃ len ∈ lengths, ¬Natural len) ∧
    ∃ n : ℕ, view (lengths.foldl (· + ·) 0) = .fin n ∧ 1 ≤ n ∧ n ≤ 8160

/-! ### The loop -/

/-- One turn cuts off the next segment, and the offset stays exact. -/
theorem sliceStep_of_view {okm : Bytes} (results : List (Segment UInt8)) {offset len : Float}
    {pos size : ℕ} (h_offset : view offset = .fin pos) (h_len : view len = .fin size)
    (h : pos + size ≤ okm.length) (h_exact : okm.length < 2 ^ 53) :
    sliceStep okm (results, offset) len =
      (results ++ [⟨pos, (okm.drop pos).take size⟩], offset + len) ∧
    view (offset + len) = .fin (pos + size : ℕ) := by
  have h_next := (view_add h_offset h_len).1 (by omega)
  refine ⟨?_, h_next⟩
  rw [sliceStep, subarray_of_view h_offset h_next h]

/-- **The loop** cuts the rest of the key material up, whatever it has pushed before. -/
theorem foldl_sliceStep {okm : Bytes} {lengths : List Float} {sizes : List ℕ}
    (h_sizes : List.Forall₂ (fun len size => view len = .fin (size : ℕ)) lengths sizes)
    {results : List (Segment UInt8)} {offset : Float} {pos : ℕ} (h_offset : view offset = .fin pos)
    (h : pos + sizes.sum ≤ okm.length) (h_exact : okm.length < 2 ^ 53) :
    (lengths.foldl (sliceStep okm) (results, offset)).1 = results ++ cut okm pos sizes := by
  induction h_sizes generalizing results offset pos with
  | nil => rw [List.foldl_nil, cut, List.append_nil]
  | @cons len size lengths sizes h_len h_sizes ih =>
    rw [List.sum_cons] at h
    obtain ⟨h_step, h_next⟩ := sliceStep_of_view results h_offset h_len (by omega) h_exact
    -- one turn, then the induction hypothesis from the next offset on
    rw [List.foldl_cons, h_step, ih h_next (by omega), cut, List.append_assoc,
      List.singleton_append]

theorem slices_eq_cut {okm : Bytes} {lengths : List Float} {sizes : List ℕ}
    (h_sizes : List.Forall₂ (fun len size => view len = .fin (size : ℕ)) lengths sizes)
    (h : sizes.sum = okm.length) (h_exact : okm.length < 2 ^ 53) :
    slices okm lengths = cut okm 0 sizes := by
  rw [slices, foldl_sliceStep h_sizes view_zero_natCast (by omega) h_exact, List.nil_append]

/-! ### The sum -/

/-- A small sum of non-negative integers is their sum. -/
theorem sum_eq_of_view_totalLength {lengths : List Float} {sizes : List ℕ} {n : ℕ}
    (h_sizes : List.Forall₂ (fun len size => view len = .fin (size : ℕ)) lengths sizes)
    (h_total : view (totalLength lengths) = .fin n) (h_exact : n < 2 ^ 53) : sizes.sum = n := by
  have h_sum := view_foldl_add h_sizes (a := 0) view_zero
  rw [zero_add, ← totalLength] at h_sum
  by_cases h_small : sizes.sum < 2 ^ 53
  · exact natCast_unique (h_sum.1 h_small) h_total
  · -- a sum that has left the exact range would be seen
    obtain h_inf | ⟨m, h_large, h_m⟩ := h_sum.2 (by omega)
    · rw [h_total] at h_inf
      cases h_inf
    · have h_eq : n = m := natCast_unique h_total h_m
      omega

/-! ### The call -/

/-- A sum out of range is refused. -/
theorem deriveMultiple_of_not_total (salt ikm info : Bytes) {lengths : List Float}
    (h : ¬∃ n : ℕ, view (totalLength lengths) = .fin n ∧ 1 ≤ n ∧ n ≤ 8160) :
    ∃ e, deriveMultiple E P (.buffer salt) (.buffer ikm) (.buffer info) (some lengths) =
      .error e := by
  cases lengths with
  | nil => exact ⟨_, rfl⟩
  | cons len lengths =>
    rw [← not_isOk_iff]
    rintro ⟨segments, h_ok⟩
    simp only [deriveMultiple, assertBuffer_buffer, ok_bind] at h_ok
    -- a call that returns has passed the check of the sum
    obtain ⟨x, h_x, -⟩ := bind_eq_ok_iff.1 h_ok
    obtain ⟨⟨⟩, h_range⟩ := (assertHkdfLength_eq_ok_iff E).1 h_x
    exact h h_range

variable {P}

theorem derive_of_view (L : P.Lawful) (salt ikm info : Bytes) {length : Float} {n : ℕ}
    (h : view length = .fin n) (h_range : 1 ≤ n ∧ n ≤ 8160) :
    ∃ okm, derive E P (.buffer salt) (.buffer ikm) (.buffer info) (.number length) = .ok okm ∧
      okm.length = n := by
  obtain ⟨okm, h_okm⟩ := (Hkdf.expandUpTo_isOk_iff P.hkdfSha256 L.hkdfSha256 (by norm_num)
    (P.hkdfSha256.extract salt ikm) info n).2 h_range.2
  refine ⟨okm, ?_, Hkdf.length_of_expandUpTo _ h_okm⟩
  simp only [derive, assertBuffer_buffer, ok_bind, (assertHkdfLength_of_view E h).1 h_range,
    callNative_eq_ok_iff, Node.hkdfDerive, Node.mapErr_eq_ok_iff, toNat_toUint32 h,
    Nat.mod_eq_of_lt (show n < 2 ^ 32 by omega)]
  exact h_okm

/-- **A sum in range** is derived and sliced. -/
theorem deriveMultiple_of_total (L : P.Lawful) (salt ikm info : Bytes) {lengths : List Float}
    {n : ℕ} (h : view (totalLength lengths) = .fin n) (h_range : 1 ≤ n ∧ n ≤ 8160) :
    ∃ okm, okm.length = n ∧
      derive E P (.buffer salt) (.buffer ikm) (.buffer info) (.number (totalLength lengths)) =
        .ok okm ∧
      deriveMultiple E P (.buffer salt) (.buffer ikm) (.buffer info) (some lengths) =
        .ok (slices okm lengths) := by
  obtain ⟨okm, h_okm, h_len⟩ := derive_of_view E L salt ikm info h h_range
  refine ⟨okm, h_len, h_okm, ?_⟩
  cases lengths with
  | nil =>
    -- the sum of no lengths is zero
    rw [totalLength, List.foldl_nil] at h
    have h_zero : n = 0 := natCast_unique h view_zero
    omega
  | cons len lengths =>
    simp only [deriveMultiple, assertBuffer_buffer, ok_bind,
      (assertHkdfLength_of_view E h).1 h_range, h_okm]
    rfl

/-- If every length is a non-negative integer, the keys partition the key material. -/
theorem handsOutDisjointKeys_of_natural (L : P.Lawful) (salt ikm info : Bytes)
    {lengths : List Float} (h : ∀ len ∈ lengths, Natural len) :
    HandsOutDisjointKeys E P salt ikm info lengths := by
  by_cases h_total : ∃ n : ℕ, view (totalLength lengths) = .fin n ∧ 1 ≤ n ∧ n ≤ 8160
  · obtain ⟨n, h_n, h_range⟩ := h_total
    obtain ⟨okm, h_len, h_okm, h_ok⟩ := deriveMultiple_of_total E L salt ikm info h_n h_range
    obtain ⟨sizes, h_sizes⟩ := exists_forall₂_view_iff.2 h
    have h_sum : sizes.sum = okm.length :=
      (sum_eq_of_view_totalLength h_sizes h_n (by omega)).trans h_len.symm
    rw [slices_eq_cut h_sizes h_sum (by omega)] at h_ok
    exact .inr ⟨_, okm, sizes, h_ok, h_okm, h_sizes, isPartition_cut h_sum⟩
  · exact .inl (deriveMultiple_of_not_total E P salt ikm info h_total)

/-- A sum in range lets a length pass that is no size. -/
theorem not_handsOutDisjointKeys (L : P.Lawful) (salt ikm info : Bytes) {lengths : List Float}
    (h : OnlySumAccepted lengths) : ¬HandsOutDisjointKeys E P salt ikm info lengths := by
  obtain ⟨⟨len, h_mem, h_not⟩, n, h_n, h_range⟩ := h
  obtain ⟨okm, -, -, h_ok⟩ := deriveMultiple_of_total E L salt ikm info h_n h_range
  rintro (⟨e, h_e⟩ | ⟨_, _, sizes, -, -, h_sizes, -⟩)
  · rw [h_ok] at h_e
    cases h_e
  · exact h_not (exists_forall₂_view_iff.1 ⟨sizes, h_sizes⟩ len h_mem)

/-- **The keys are disjoint parts of the requested sizes** unless a length that is no non-negative
integer hides in an accepted sum. -/
theorem deriveMultiple_disjoint_iff (L : P.Lawful) (salt ikm info : Bytes)
    (lengths : List Float) :
    HandsOutDisjointKeys E P salt ikm info lengths ↔ ¬OnlySumAccepted lengths := by
  refine ⟨fun h h_sum => not_handsOutDisjointKeys E L salt ikm info h_sum h, fun h => ?_⟩
  -- otherwise the sum is refused, since some length is no non-negative integer
  by_cases h_natural : ∀ len ∈ lengths, Natural len
  · exact handsOutDisjointKeys_of_natural E L salt ikm info h_natural
  · push Not at h_natural
    exact .inl (deriveMultiple_of_not_total E P salt ikm info fun h_total =>
      h ⟨h_natural, h_total⟩)

theorem deriveMultiple_disjoint_iff_twoKeys :
    HandsOutDisjointKeys plainEngine rustCrypto [] [] [] [32, 32] := by
  refine (deriveMultiple_disjoint_iff plainEngine rustCrypto_lawful [] [] [] [32, 32]).2 ?_
  rintro ⟨⟨len, h_mem, h_not⟩, -⟩
  obtain rfl : len = 32 := by simpa using h_mem
  exact h_not ⟨32, view_thirtyTwo⟩

/-- The lengths `64`, `-32` and `64` add up to `96`, and the third key starts with the second half
of the first one. -/
theorem deriveMultiple_overlapping :
    ¬HandsOutDisjointKeys plainEngine rustCrypto [] [] [] [64, -32, 64] ∧
    ∃ okm : Bytes, okm.length = 96 ∧
      deriveMultiple plainEngine rustCrypto (.buffer []) (.buffer []) (.buffer [])
        (some [64, -32, 64]) =
          .ok [⟨0, okm.take 64⟩, ⟨64, []⟩, ⟨32, (okm.drop 32).take 64⟩] := by
  -- the length `-32`, and the offsets
  obtain ⟨h_negative, h_first, h_second, h_third⟩ :
      view (-32) = .fin (-32) ∧ view (0 + 64) = .fin (64 : ℕ) ∧
        view (0 + 64 + -32) = .fin (32 : ℕ) ∧ view (0 + 64 + -32 + 64) = .fin (96 : ℕ) := by
    decide +kernel
  have h_total : view (totalLength [64, -32, 64]) = .fin (96 : ℕ) := by
    simp only [totalLength, List.foldl_cons, List.foldl_nil, h_third]
  refine ⟨?_, ?_⟩
  · refine not_handsOutDisjointKeys plainEngine rustCrypto_lawful [] [] []
      ⟨⟨-32, by simp, ?_⟩, 96, h_total, by norm_num, by norm_num⟩
    rintro ⟨n, h_n⟩
    rw [h_negative] at h_n
    have h_eq : (-32 : ℚ) = n := View.fin.inj h_n
    have h_nonneg : (0 : ℚ) ≤ n := n.cast_nonneg
    linarith
  · obtain ⟨okm, h_len, -, h_ok⟩ := deriveMultiple_of_total plainEngine rustCrypto_lawful [] [] []
      h_total (by norm_num)
    refine ⟨okm, h_len, h_ok.trans (congrArg Except.ok ?_)⟩
    simp only [slices, List.foldl_cons, List.foldl_nil, sliceStep, subarray, h_len,
      relativeIndex_of_view view_zero_natCast, relativeIndex_of_view h_first,
      relativeIndex_of_view h_second, relativeIndex_of_view h_third]
    simp

end HKDF

end Core

end SignalisCore
