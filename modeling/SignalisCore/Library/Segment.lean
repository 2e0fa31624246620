import Mathlib.Algebra.Order.Ring.Nat
import Mathlib.Data.List.Chain
import Mathlib.Data.List.SplitLengths

/-!
# Cutting a list into segments

A segment is a view into a list that remembers where it starts. `cut` walks along a list and cuts
off segments of given sizes; `IsPartition` says that segments share the whole list out, in order and
without overlap.

* `isPartition_cut`: cutting sizes that add up to the length of the list.
* `flatten_pieces`, `pieces_flatten`: cutting sizes that leave a rest, and appending the pieces.
-/

namespace Slicing

variable {α : Type*}

/-- A view into a list: where it starts, and what it contains. -/
structure Segment (α : Type*) where
  /-- The index of its first element in the list. -/
  start : ℕ
  /-- Its elements. -/
  elems : List α
  deriving DecidableEq

/-- The index after the last element. -/
def Segment.stop (s : Segment α) : ℕ := s.start + s.elems.length

/-- Segments of the given sizes, one after the other from `pos` on. -/
def cut (l : List α) (pos : ℕ) : List ℕ → List (Segment α)
  | [] => []
  | n :: ns => ⟨pos, (l.drop pos).take n⟩ :: cut l (pos + n) ns

/-- `segments` share `l` out in parts of the given sizes. -/
structure IsPartition (l : List α) (sizes : List ℕ) (segments : List (Segment α)) : Prop where
  /-- The segments have the given sizes. -/
  sizes_eq : segments.map (·.elems.length) = sizes
  /-- Every segment is a part of the list, at the place it claims. -/
  inside : ∀ s ∈ segments, s.stop ≤ l.length ∧ s.elems = (l.drop s.start).take s.elems.length
  /-- The first segment starts at the front. -/
  first : ∀ s ∈ segments.head?, s.start = 0
  /-- Every other one starts where the one before it stops. -/
  consecutive : segments.IsChain fun s t => s.stop = t.start
  /-- No two segments overlap. -/
  disjoint : segments.Pairwise fun s t => s.stop ≤ t.start
  /-- Together they are the list. -/
  flatten_eq : (segments.map (·.elems)).flatten = l

/-! ### Cutting -/

theorem map_elems_cut (l : List α) (pos : ℕ) (ns : List ℕ) :
    (cut l pos ns).map (·.elems) = ns.splitLengths (l.drop pos) := by
  induction ns generalizing pos with
  | nil => rfl
  | cons n ns ih => rw [cut, List.map_cons, ih, List.splitLengths_cons, List.drop_drop]

theorem start_head_cut (l : List α) (pos : ℕ) (ns : List ℕ) :
    ∀ s ∈ (cut l pos ns).head?, s.start = pos := by
  cases ns with
  | nil => simp [cut]
  | cons n ns => simp [cut]

theorem length_take_drop {l : List α} {pos n : ℕ} (h : pos + n ≤ l.length) :
    ((l.drop pos).take n).length = n := by
  rw [List.length_take, List.length_drop]
  omega

theorem mem_cut_inside {l : List α} {pos : ℕ} {ns : List ℕ} (h : pos + ns.sum ≤ l.length) :
    ∀ s ∈ cut l pos ns,
      s.stop ≤ l.length ∧ s.elems = (l.drop s.start).take s.elems.length := by
  induction ns generalizing pos with
  | nil => simp [cut]
  | cons n ns ih =>
    rw [List.sum_cons] at h
    have h_len : ((l.drop pos).take n).length = n := length_take_drop (by omega)
    intro s h_s
    -- the first segment, or one of those cut off after it
    obtain rfl | h_s := List.mem_cons.1 h_s
    · simp only [Segment.stop, h_len, and_true]
      omega
    · exact ih (by omega) s h_s

/-- Each segment stops where the next one starts. -/
theorem isChain_cut {l : List α} {pos : ℕ} {ns : List ℕ} (h : pos + ns.sum ≤ l.length) :
    (cut l pos ns).IsChain fun s t => s.stop = t.start := by
  induction ns generalizing pos with
  | nil => exact .nil
  | cons n ns ih =>
    rw [List.sum_cons] at h
    have h_len : ((l.drop pos).take n).length = n := length_take_drop (by omega)
    -- the next segment, if there is one, starts at `pos + n`
    refine List.isChain_cons.2 ⟨fun t h_t => ?_, ih (by omega)⟩
    rw [start_head_cut l (pos + n) ns t h_t, Segment.stop, h_len]

/-- Consecutive segments do not overlap. -/
theorem pairwise_of_isChain {segments : List (Segment α)}
    (h : segments.IsChain fun s t => s.stop = t.start) :
    segments.Pairwise fun s t => s.stop ≤ t.start := by
  -- a segment starts before it stops, so the order is transitive
  have : IsTrans (Segment α) fun s t => s.stop ≤ t.start :=
    ⟨fun s t u h_st h_tu => h_st.trans ((Nat.le_add_right _ _).trans h_tu)⟩
  exact List.isChain_iff_pairwise.1 (h.imp fun _ _ => le_of_eq)

/-- **Cutting a list up** into sizes that add up to its length is a partition. -/
theorem isPartition_cut {l : List α} {ns : List ℕ} (h : ns.sum = l.length) :
    IsPartition l ns (cut l 0 ns) where
  sizes_eq := by
    have h_map := congrArg (List.map List.length) (map_elems_cut l 0 ns)
    rw [List.map_map, List.drop_zero, List.map_splitLengths_length l ns h.le] at h_map
    exact h_map
  inside := mem_cut_inside (by omega)
  first := start_head_cut l 0 ns
  consecutive := isChain_cut (by omega)
  disjoint := pairwise_of_isChain (isChain_cut (by omega))
  flatten_eq := by rw [map_elems_cut, List.drop_zero, List.flatten_splitLengths l ns h.ge]

/-! ### Pieces -/

/-- Parts of the given sizes, and the rest if there is one. -/
def pieces (l : List α) (sizes : List ℕ) : List (List α) :=
  sizes.splitLengths l ++ if sizes.sum < l.length then [l.drop sizes.sum] else []

theorem pieces_singleton (l : List α) (n : ℕ) :
    pieces l [n] = l.take n :: if n < l.length then [l.drop n] else [] := by
  simp [pieces]

theorem flatten_splitLengths_eq_take (l : List α) (sizes : List ℕ) :
    (sizes.splitLengths l).flatten = l.take sizes.sum := by
  induction sizes generalizing l with
  | nil => simp
  | cons n ns ih =>
    rw [List.splitLengths_cons, List.flatten_cons, ih, List.sum_cons, List.take_add]

/-- Sizes that add up to `n` take nothing behind the first `n` elements. -/
theorem splitLengths_take {n : ℕ} {sizes : List ℕ} (h : sizes.sum ≤ n) (l : List α) :
    sizes.splitLengths (l.take n) = sizes.splitLengths l := by
  induction sizes generalizing n l with
  | nil => rfl
  | cons m ns ih =>
    rw [List.sum_cons] at h
    rw [List.splitLengths_cons, List.splitLengths_cons, List.take_take, min_eq_left (by omega),
      List.drop_take, ih (by omega)]

theorem map_length_pieces {l : List α} {sizes : List ℕ} (h : sizes.sum ≤ l.length) :
    (pieces l sizes).map List.length =
      sizes ++ if sizes.sum < l.length then [l.length - sizes.sum] else [] := by
  rw [pieces, List.map_append, List.map_splitLengths_length l sizes h]
  split_ifs <;> simp

/-- **No element is lost.** -/
theorem flatten_pieces (l : List α) (sizes : List ℕ) : (pieces l sizes).flatten = l := by
  rw [pieces, List.flatten_append, flatten_splitLengths_eq_take]
  split_ifs with h_rest
  · rw [List.flatten_singleton, List.take_append_drop]
  · rw [List.flatten_nil, List.append_nil, List.take_of_length_le (not_lt.1 h_rest)]

/-- **Appended parts** are cut into the parts again. -/
theorem pieces_flatten (parts : List (List α)) :
    pieces parts.flatten (parts.map List.length) = parts := by
  have h_split : (parts.map List.length).splitLengths parts.flatten = parts := by
    induction parts with
    | nil => rfl
    | cons part parts ih =>
      rw [List.map_cons, List.flatten_cons, List.splitLengths_cons, List.take_left',
        List.drop_left', ih]
      all_goals rfl
  rw [pieces, h_split, List.length_flatten, if_neg (lt_irrefl _), List.append_nil]

end Slicing
