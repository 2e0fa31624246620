import SignalisCore.Facade.DeriveMultiple
import SignalisCore.Facade.Utils

/-!
# `split` and `concat`

Both functions that cut bytes up check the sizes in one loop and slice in another; the running
offset of the second is the sum of the first. The function that puts `Uint8Array`s together writes
them one after the other into a new array. So both pairs compute the same two functions on lists,
the pieces of the given sizes and the concatenation.

* `splitWith_eq_ok_iff`: what `split` and `splitBytes` return.
* `concatBytes_eq_ok_iff`: what `concatBytes` returns.
* `split_concat_laws`: the two pairs are mutually inverse, and agree.
-/

namespace SignalisCore

open Binary64 Ecma LittleEndian Slicing

namespace Utils

variable (E : Engine) (N : NodeBuffer)

/-- Numbers that denote these sizes. -/
abbrev Denote (sizes : List Float) (ns : List ℕ) : Prop :=
  List.Forall₂ (fun size n => view size = .fin (n : ℕ)) sizes ns

/-- Some size is no non-negative integer, or the sizes add up to more than the length. -/
def Refused (buf : Uint8Array) (sizes : List Float) : Prop :=
  (∃ size ∈ sizes, ¬Natural size) ∨ ∃ ns, Denote sizes ns ∧ buf.bytes.length < ns.sum

theorem not_refused_iff {buf : Uint8Array} {sizes : List Float} :
    ¬Refused buf sizes ↔ ∃ ns, Denote sizes ns ∧ ns.sum ≤ buf.bytes.length := by
  rw [Refused, not_or]
  refine ⟨?_, ?_⟩
  · rintro ⟨h_natural, h_sum⟩
    push Not at h_natural
    obtain ⟨ns, h_ns⟩ := exists_forall₂_view_iff.2 h_natural
    exact ⟨ns, h_ns, not_lt.1 fun h_lt => h_sum ⟨ns, h_ns, h_lt⟩⟩
  · rintro ⟨ns, h_ns, h_le⟩
    refine ⟨?_, ?_⟩
    · rintro ⟨size, h_mem, h_not⟩
      exact h_not (exists_forall₂_view_iff.1 ⟨ns, h_ns⟩ size h_mem)
    -- the sizes denote only these numbers
    · rintro ⟨ms, h_ms, h_lt⟩
      have h_unique : Relator.RightUnique fun (size : Float) (n : ℕ) => view size = .fin (n : ℕ) :=
        fun size m n h_m h_n => natCast_unique h_m h_n
      rw [List.right_unique_forall₂' h_unique h_ms h_ns] at h_lt
      exact h_lt.not_ge h_le

/-! ### The first loop -/

theorem addSize_of_view (total : Float) {size : Float} {n : ℕ} (h : view size = .fin n) :
    addSize E total size = .ok (total + size) := by
  have h_accepts := isNonnegInteger_iff.2 ⟨n, h⟩
  rw [Bool.and_eq_true, Bool.not_eq_true'] at h_accepts
  rw [addSize, h_accepts.1, h_accepts.2, Bool.not_true, Bool.or_self, if_neg Bool.false_ne_true]

theorem addSize_of_not_natural (total : Float) {size : Float} (h : ¬Natural size) :
    ∃ e, addSize E total size = .error e ∧ e.cls = .rangeError := by
  have h_refuses : (!isInteger size || lessThan size 0) = true := by
    rw [Natural, ← isNonnegInteger_iff] at h
    simpa [Bool.or_eq_true, imp_iff_not_or] using h
  rw [addSize, if_pos h_refuses]
  exact ⟨_, rfl, rfl⟩

/-- The first loop adds the sizes up. -/
theorem foldlM_addSize {sizes : List Float} {ns : List ℕ} (h : Denote sizes ns) (total : Float) :
    sizes.foldlM (addSize E) total = .ok (sizes.foldl (· + ·) total) := by
  induction h generalizing total with
  | nil => rfl
  | cons h_size h_sizes ih =>
    rw [List.foldlM_cons, addSize_of_view E total h_size, ok_bind, ih, List.foldl_cons]

/-- It stops at the first size that is no non-negative integer. -/
theorem foldlM_addSize_of_not_natural {sizes : List Float} (h : ∃ size ∈ sizes, ¬Natural size)
    (total : Float) :
    ∃ e, sizes.foldlM (addSize E) total = .error e ∧ e.cls = .rangeError := by
  induction sizes generalizing total with
  | nil =>
    obtain ⟨size, h_mem, -⟩ := h
    cases h_mem
  | cons size sizes ih =>
    rw [List.foldlM_cons]
    by_cases h_size : Natural size
    · obtain ⟨n, h_n⟩ := h_size
      rw [addSize_of_view E total h_n, ok_bind]
      refine ih ?_ _
      obtain ⟨other, h_mem, h_other⟩ := h
      obtain rfl | h_mem := List.mem_cons.1 h_mem
      · exact absurd ⟨n, h_n⟩ h_other
      · exact ⟨other, h_mem, h_other⟩
    · obtain ⟨e, h_e, h_cls⟩ := addSize_of_not_natural E total h_size
      exact ⟨e, by rw [h_e, error_bind], h_cls⟩

/-! ### The second loop -/

/-- The second loop slices as the loop of `deriveMultiple` does, and its offset is the sum. -/
theorem foldl_pushSegment_eq (buf : Uint8Array) (sizes : List Float)
    (segments : List Uint8Array) (slices : List (Segment UInt8)) (offset : Float)
    (h : segments.map (·.bytes) = slices.map (·.elems)) :
    (sizes.foldl (pushSegment buf) (segments, offset)).1.map (·.bytes) =
        (sizes.foldl (Core.HKDF.sliceStep buf.bytes) (slices, offset)).1.map (·.elems) ∧
      (sizes.foldl (pushSegment buf) (segments, offset)).2 = sizes.foldl (· + ·) offset := by
  induction sizes generalizing segments slices offset with
  | nil => exact ⟨h, rfl⟩
  | cons size sizes ih =>
    refine ih _ _ (offset + size) ?_
    rw [List.map_append, List.map_append, h]
    rfl

/-- The segments of the second loop are the pieces of the given sizes. -/
theorem foldl_pushSegment (buf : Uint8Array) {sizes : List Float} {ns : List ℕ}
    (h : Denote sizes ns) (h_le : ns.sum ≤ buf.bytes.length) :
    (sizes.foldl (pushSegment buf) ([], 0)).1.map (·.bytes) = ns.splitLengths buf.bytes ∧
      view (sizes.foldl (pushSegment buf) ([], 0)).2 = .fin (ns.sum : ℕ) := by
  have h_lt := buf.length_lt
  obtain ⟨h_segments, h_offset⟩ := foldl_pushSegment_eq buf sizes [] [] 0 rfl
  rw [h_segments, h_offset, Core.HKDF.foldl_sliceStep h view_zero_natCast (by omega) h_lt,
    List.nil_append, map_elems_cut, List.drop_zero]
  have h_sum := (view_foldl_add h view_zero_natCast).1 (by omega)
  rw [zero_add] at h_sum
  exact ⟨rfl, h_sum⟩

/-! ### Cutting up -/

variable {E}

/-- Bad sizes are refused with a `RangeError`. -/
theorem splitWith_of_refused (noun : String) {buf : Uint8Array} {sizes : List Float}
    (h : Refused buf sizes) :
    ∃ e, splitWith E noun buf sizes = .error e ∧ e.cls = .rangeError := by
  unfold splitWith
  obtain h_not | ⟨ns, h_ns, h_sum⟩ := h
  · obtain ⟨e, h_e, h_cls⟩ := foldlM_addSize_of_not_natural E h_not 0
    exact ⟨e, by rw [h_e, error_bind], h_cls⟩
  · have h_over : lessThan buf.length (sizes.foldl (· + ·) 0) = true := by
      rw [Uint8Array.length, lessThan_foldl_add buf.length_lt h_ns]
      exact decide_eq_true h_sum
    rw [foldlM_addSize E h_ns, ok_bind, h_over, if_pos rfl]
    exact ⟨_, rfl, rfl⟩

/-- **Other sizes** cut the bytes into their pieces. -/
theorem splitWith_eq (noun : String) {buf : Uint8Array} {sizes : List Float} {ns : List ℕ}
    (h : Denote sizes ns) (h_le : ns.sum ≤ buf.bytes.length) :
    ∃ segments, splitWith E noun buf sizes = .ok segments ∧
      segments.map (·.bytes) = pieces buf.bytes ns := by
  obtain ⟨h_segments, h_offset⟩ := foldl_pushSegment buf h h_le
  have h_fits : lessThan buf.length (sizes.foldl (· + ·) 0) = false := by
    rw [Uint8Array.length, lessThan_foldl_add buf.length_lt h]
    exact decide_eq_false (not_lt.2 h_le)
  have h_rest : lessThan (sizes.foldl (pushSegment buf) ([], 0)).2 buf.length =
      decide (ns.sum < buf.bytes.length) := by
    rw [Uint8Array.length, lessThan_of_view h_offset (view_ofNat buf.length_lt)]
    exact decide_eq_decide.2 Nat.cast_lt
  have h_split : splitWith E noun buf sizes =
      if ns.sum < buf.bytes.length then
        .ok ((sizes.foldl (pushSegment buf) ([], 0)).1 ++
          [buf.subarrayFrom (sizes.foldl (pushSegment buf) ([], 0)).2])
      else .ok (sizes.foldl (pushSegment buf) ([], 0)).1 := by
    rw [splitWith, foldlM_addSize E h, ok_bind, h_fits, if_neg Bool.false_ne_true]
    simp only [h_rest, decide_eq_true_eq]
  rw [h_split, pieces]
  split_ifs with h_lt
  · refine ⟨_, rfl, ?_⟩
    have h_last : (buf.subarrayFrom (sizes.foldl (pushSegment buf) ([], 0)).2).bytes =
        buf.bytes.drop ns.sum := elems_subarrayFrom_of_view h_offset
    rw [List.map_append, h_segments, List.map_singleton, h_last]
  · exact ⟨_, rfl, by rw [h_segments, List.append_nil]⟩

theorem bytes_injective : Function.Injective Uint8Array.bytes := fun _ _ => Uint8Array.ext

/-- **What is returned**, whatever the word in the message. -/
theorem splitWith_eq_ok_iff (noun : String) {buf : Uint8Array} {sizes : List Float}
    {segments : List Uint8Array} :
    splitWith E noun buf sizes = .ok segments ↔
      ∃ ns, Denote sizes ns ∧ ns.sum ≤ buf.bytes.length ∧
        segments.map (·.bytes) = pieces buf.bytes ns := by
  refine ⟨?_, ?_⟩
  · intro h
    by_cases h_refused : Refused buf sizes
    · obtain ⟨e, h_e, -⟩ := splitWith_of_refused (E := E) noun h_refused
      rw [h] at h_e
      cases h_e
    · obtain ⟨ns, h_ns, h_le⟩ := not_refused_iff.1 h_refused
      obtain ⟨segments', h_ok, h_pieces⟩ := splitWith_eq (E := E) noun h_ns h_le
      rw [h] at h_ok
      cases h_ok
      exact ⟨ns, h_ns, h_le, h_pieces⟩
  · rintro ⟨ns, h_ns, h_le, h_pieces⟩
    obtain ⟨segments', h_ok, h_pieces'⟩ := splitWith_eq (E := E) noun h_ns h_le
    rw [h_ok, List.map_injective_iff.2 bytes_injective (h_pieces'.trans h_pieces.symm)]

/-! ### Putting together -/

/-- Writing an array behind what has been written. -/
theorem set_of_view {out arr : Uint8Array} {offset : Float} {written rest : Bytes}
    (h_offset : view offset = .fin written.length) (h_out : out.bytes = written ++ rest)
    (h_le : arr.bytes.length ≤ rest.length) :
    ∃ out', set out arr offset = .ok out' ∧
      out'.bytes = written ++ arr.bytes ++ rest.drop arr.bytes.length := by
  have h_lt := out.length_lt
  rw [h_out, List.length_append] at h_lt
  have h_fits : written.length + arr.bytes.length ≤ out.bytes.length := by
    rw [h_out, List.length_append]
    omega
  rw [set, toIndex?_of_view h_offset (by omega)]
  refine ⟨_, dif_pos h_fits, ?_⟩
  have h_take : out.bytes.take written.length = written := by rw [h_out, List.take_left]
  have h_drop : out.bytes.drop (written.length + arr.bytes.length) =
      rest.drop arr.bytes.length := by
    rw [h_out, ← List.drop_drop, List.drop_left]
  simp only [h_take, h_drop]

/-- **The loop** writes the arrays one after the other. -/
theorem foldlM_setNext {arrays : List Uint8Array} {out : Uint8Array} {offset : Float}
    {written rest : Bytes} (h_offset : view offset = .fin written.length)
    (h_out : out.bytes = written ++ rest)
    (h_len : (arrays.map (·.bytes)).flatten.length = rest.length) :
    ∃ state, arrays.foldlM setNext (out, offset) = .ok state ∧
      state.1.bytes = written ++ (arrays.map (·.bytes)).flatten := by
  induction arrays generalizing out offset written rest with
  | nil =>
    refine ⟨_, rfl, ?_⟩
    obtain rfl : rest = [] := List.eq_nil_of_length_eq_zero h_len.symm
    exact h_out
  | cons arr arrays ih =>
    rw [List.map_cons, List.flatten_cons, List.length_append] at h_len
    have h_lt := out.length_lt
    rw [h_out, List.length_append] at h_lt
    have h_arr : arr.bytes.length ≤ rest.length := by omega
    obtain ⟨out', h_set, h_out'⟩ := set_of_view h_offset h_out h_arr
    have h_next : view (offset + arr.length) = .fin (written ++ arr.bytes).length := by
      rw [List.length_append]
      exact (view_add h_offset (view_ofNat arr.length_lt)).1 (by omega)
    have h_rest : (arrays.map (·.bytes)).flatten.length =
        (rest.drop arr.bytes.length).length := by
      rw [List.length_drop]
      omega
    obtain ⟨state, h_state, h_bytes⟩ := ih h_next h_out' h_rest
    refine ⟨state, ?_, ?_⟩
    · rw [List.foldlM_cons, setNext, h_set, ok_bind]
      exact h_state
    · rw [h_bytes, List.map_cons, List.flatten_cons, List.append_assoc]

theorem denote_length (arrays : List Uint8Array) :
    Denote (arrays.map (·.length)) (arrays.map (·.bytes.length)) := by
  rw [Denote, List.forall₂_map_left_iff, List.forall₂_map_right_iff]
  exact List.forall₂_same.2 fun arr _ => view_ofNat arr.length_lt

theorem length_flatten_bytes (arrays : List Uint8Array) :
    (arrays.map (·.bytes)).flatten.length = (arrays.map (·.bytes.length)).sum := by
  rw [List.length_flatten, List.map_map]
  rfl

variable {N}

theorem concat_eq_ok_iff {buffers : List Uint8Array} {whole : Uint8Array} :
    concat N buffers = .ok whole ↔ (buffers.map (·.bytes)).flatten = whole.bytes := by
  rw [concat, bufferConcat]
  split_ifs with h
  · rw [Except.ok.injEq, Uint8Array.ext_iff]
  · refine iff_of_false (by simp) fun h_whole => h ?_
    rw [h_whole]
    exact whole.length_lt

theorem alloc_of_view {length : Float} {n : ℕ} (h_length : view length = .fin n)
    (h : n < 2 ^ 53) : ∃ out, alloc N length = .ok out ∧ out.bytes = .replicate n 0 := by
  unfold alloc
  rw [toIndex?_of_view h_length h]
  exact ⟨_, rfl, rfl⟩

theorem alloc_of_large {length : Float} (h : (view length).Large) :
    alloc N length = .error (N.lengthError length) := by
  unfold alloc
  rw [toIndex?_of_large h]

/-- **`concatBytes`** concatenates. -/
theorem concatBytes_eq_ok_iff {arrays : List Uint8Array} {whole : Uint8Array} :
    concatBytes N arrays = .ok whole ↔ (arrays.map (·.bytes)).flatten = whole.bytes := by
  have h_total := view_foldl_add (denote_length arrays) (a := 0) view_zero
  rw [zero_add, ← length_flatten_bytes, List.foldl_map] at h_total
  by_cases h : (arrays.map (·.bytes)).flatten.length < 2 ^ 53
  · obtain ⟨out, h_alloc, h_out⟩ := alloc_of_view (N := N) (h_total.1 h) h
    have h_len : (arrays.map (·.bytes)).flatten.length = out.bytes.length := by
      rw [h_out, List.length_replicate]
    -- the loop starts with nothing written
    obtain ⟨state, h_state, h_bytes⟩ :=
      foldlM_setNext view_zero_natCast (List.nil_append out.bytes).symm h_len
    have h_eq : concatBytes N arrays = .ok state.1 := by
      rw [concatBytes, h_alloc, ok_bind, h_state, ok_bind]
      rfl
    rw [h_eq, Except.ok.injEq, Uint8Array.ext_iff, h_bytes, List.nil_append]
  -- a total that is no length is refused
  · rw [concatBytes, alloc_of_large (h_total.2 (not_lt.1 h)), error_bind]
    refine iff_of_false (by simp) fun h_whole => h ?_
    rw [h_whole]
    exact whole.length_lt

/-! ### The laws -/

/-- A function that cuts bytes up, and one that puts them together. -/
structure MutuallyInverse (split : Uint8Array → List Float → Except JsError (List Uint8Array))
    (concat : List Uint8Array → Except JsError Uint8Array) : Prop where
  /-- Exactly the bad sizes are refused, with a `RangeError`. -/
  refused : ∀ buf sizes,
    (∃ e, split buf sizes = .error e ∧ e.cls = .rangeError) ↔ Refused buf sizes
  /-- Other sizes give segments of exactly these sizes and the rest, which is not empty, if there
  is one; and the segments are put together to the bytes. -/
  segments : ∀ buf sizes, ¬Refused buf sizes → ∃ segments ns, split buf sizes = .ok segments ∧
    Denote sizes ns ∧
    segments.map (·.bytes.length) =
      ns ++ (if ns.sum < buf.bytes.length then [buf.bytes.length - ns.sum] else []) ∧
    concat segments = .ok buf
  /-- Everything is put together that is not too long for an array. -/
  fits : ∀ parts, (∃ whole, concat parts = .ok whole) ↔
    (parts.map (·.bytes.length)).sum < 2 ^ 53
  /-- What is put together is cut up by the lengths of the parts. -/
  parts : ∀ parts whole, concat parts = .ok whole →
    split whole (parts.map (·.length)) = .ok parts

/-- **Functions that cut into pieces and concatenate** are mutually inverse. -/
theorem mutuallyInverse_splitWith (noun : String)
    {concat : List Uint8Array → Except JsError Uint8Array}
    (h_concat : ∀ parts whole, concat parts = .ok whole ↔
      (parts.map (·.bytes)).flatten = whole.bytes) :
    MutuallyInverse (splitWith E noun) concat where
  refused buf sizes := by
    refine ⟨?_, splitWith_of_refused noun⟩
    rintro ⟨e, h_e, -⟩
    by_contra h
    obtain ⟨ns, h_ns, h_le⟩ := not_refused_iff.1 h
    obtain ⟨segments, h_ok, -⟩ := splitWith_eq (E := E) noun h_ns h_le
    rw [h_ok] at h_e
    cases h_e
  segments buf sizes h := by
    obtain ⟨ns, h_ns, h_le⟩ := not_refused_iff.1 h
    obtain ⟨segments, h_ok, h_pieces⟩ := splitWith_eq (E := E) noun h_ns h_le
    refine ⟨segments, ns, h_ok, h_ns, ?_, ?_⟩
    · rw [← map_length_pieces h_le, ← h_pieces, List.map_map]
      rfl
    · rw [h_concat, h_pieces, flatten_pieces]
  fits parts := by
    rw [← length_flatten_bytes]
    refine ⟨?_, ?_⟩
    · rintro ⟨whole, h_whole⟩
      rw [(h_concat parts whole).1 h_whole]
      exact whole.length_lt
    · intro h
      exact ⟨⟨_, h⟩, (h_concat parts _).2 rfl⟩
  parts parts whole h := by
    rw [h_concat] at h
    refine (splitWith_eq_ok_iff noun).2 ⟨_, denote_length parts, ?_, ?_⟩
    · rw [← h, length_flatten_bytes]
    · have h_lengths : parts.map (·.bytes.length) = (parts.map (·.bytes)).map List.length := by
        rw [List.map_map]
        rfl
      rw [← h, h_lengths, pieces_flatten]

/-- **Both pairs** are mutually inverse, and give the same segments and bytes. -/
theorem split_concat_laws :
    MutuallyInverse (split E) (concat N) ∧ MutuallyInverse (splitBytes E) (concatBytes N) ∧
    (∀ buf sizes segments, split E buf sizes = .ok segments ↔
      splitBytes E buf sizes = .ok segments) ∧
    ∀ parts whole, concat N parts = .ok whole ↔ concatBytes N parts = .ok whole := by
  refine ⟨mutuallyInverse_splitWith "buffer" fun _ _ => concat_eq_ok_iff,
    mutuallyInverse_splitWith "array" fun _ _ => concatBytes_eq_ok_iff,
    fun _ _ _ => ?_, fun _ _ => concat_eq_ok_iff.trans concatBytes_eq_ok_iff.symm⟩
  exact (splitWith_eq_ok_iff "buffer").trans (splitWith_eq_ok_iff "array").symm

end Utils

end SignalisCore
