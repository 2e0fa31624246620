import SignalisCore.Facade.Core

/-!
# Output lengths whose upper bound is left to the addon

`HKDF.deriveSha512` and `nativeSecureRandom` check in TypeScript that the length is a positive
integer and leave its upper bound to Rust. In between, the binding narrows the number to `u32`, so
Rust compares a residue with the maximum.

* `narrowedLength_deriveSha512`, `narrowedLength_nativeSecureRandom`: what a call returns for every
  number.
* `exactLength_iff`: the calls are exact unless a large number has a small residue.
-/

namespace SignalisCore

open Binary64 Ecma LittleEndian

namespace Core

/-- The documented behaviour: exactly `n` bytes for an integer `n` in `1..=max`, and an error for
every other number. -/
def ExactLength (max : ℕ) (n : Float) (result : Except JsError Bytes) : Prop :=
  (∃ k : ℕ, view n = .fin k ∧ 1 ≤ k ∧ k ≤ max ∧ ∃ out, result = .ok out ∧ out.length = k) ∨
    (¬∃ k : ℕ, view n = .fin k ∧ 1 ≤ k ∧ k ≤ max) ∧ ∃ e, result = .error e

/-- An integer of more than 32 bits with a residue that passes the check in Rust. -/
def Aliased (min max : ℕ) (n : Float) : Prop :=
  ∃ k : ℕ, view n = .fin k ∧ 2 ^ 32 ≤ k ∧ min ≤ k % 2 ^ 32 ∧ k % 2 ^ 32 ≤ max

/-- What a call returns that checks the residue of a positive integer. -/
structure NarrowedLength (min max : ℕ) (n : Float) (result : Except JsError Bytes) : Prop where
  accepted : ∀ k : ℕ, view n = .fin k → 1 ≤ k → min ≤ k % 2 ^ 32 → k % 2 ^ 32 ≤ max →
    ∃ out, result = .ok out ∧ out.length = k % 2 ^ 32
  refused : ∀ k : ℕ, view n = .fin k → 1 ≤ k → ¬(min ≤ k % 2 ^ 32 ∧ k % 2 ^ 32 ≤ max) →
    ∃ e, result = .error e
  guarded : (¬∃ k : ℕ, view n = .fin k ∧ 1 ≤ k) → ∃ e, result = .error e

/-- Such a call is exact unless the number is aliased. -/
theorem NarrowedLength.exactLength_iff {min max : ℕ} {n : Float} {result : Except JsError Bytes}
    (h : NarrowedLength min max n result) (h_min : min ≤ 1) (h_max : max < 2 ^ 32) :
    ExactLength max n result ↔ ¬Aliased min max n := by
  by_cases h_nat : ∃ k : ℕ, view n = .fin k ∧ 1 ≤ k
  · obtain ⟨k, h_k, h_pos⟩ := h_nat
    rw [ExactLength, Aliased, exists_view_iff h_k, exists_view_iff h_k, exists_view_iff h_k]
    by_cases h_range : min ≤ k % 2 ^ 32 ∧ k % 2 ^ 32 ≤ max
    · -- the call returns as many bytes as the residue says
      obtain ⟨out, h_out, h_len⟩ := h.accepted k h_k h_pos h_range.1 h_range.2
      refine ⟨?_, ?_⟩
      · rintro (⟨-, h_le, -⟩ | ⟨-, e, h_e⟩)
        · omega
        · rw [h_out] at h_e
          cases h_e
      · intro h_not
        exact .inl ⟨h_pos, by omega, out, h_out, by omega⟩
    · -- the call throws, and the number is not between `1` and the maximum
      refine iff_of_true (.inr ⟨?_, h.refused k h_k h_pos h_range⟩) ?_
      · omega
      · rintro ⟨-, h_range'⟩
        exact h_range h_range'
  · refine iff_of_true (.inr ⟨?_, h.guarded h_nat⟩) ?_
    · rintro ⟨k, h_k, h_pos, -⟩
      exact h_nat ⟨k, h_k, h_pos⟩
    · rintro ⟨k, h_k, h_large, -⟩
      exact h_nat ⟨k, h_k, by omega⟩

variable (E : Engine) {P : Primitives}

/-! ### HKDF-SHA512 -/

theorem deriveSha512_number {n : Float} {k : ℕ} (h : view n = .fin k) (h_pos : 1 ≤ k)
    (salt ikm info : Bytes) :
    HKDF.deriveSha512 E P (.buffer salt) (.buffer ikm) (.buffer info) (.number n) =
      callNative (Node.mapErr .invalidArg Hkdf.Error.toString
        (HkdfSha512.derive P salt ikm info (k % 2 ^ 32))) := by
  have h_some := nonNegativeInteger?_eq_some_iff.2 ⟨rfl, k, h⟩
  have h_zero : strictEquals n 0 = false := by
    rw [strictEquals_of_view h view_zero]
    simpa using Nat.one_le_iff_ne_zero.1 h_pos
  simp only [HKDF.deriveSha512, assertBuffer_buffer, ok_bind,
    assertPositiveInteger_of_some E h_some, h_zero, Bool.false_eq_true, ↓reduceIte,
    Node.hkdfSha512Derive, toNat_toUint32 h]

/-- A number that is no positive integer is refused by the guards. -/
theorem deriveSha512_guarded {n : Float} (h : ¬∃ k : ℕ, view n = .fin k ∧ 1 ≤ k)
    (salt ikm info : Bytes) :
    ∃ e, HKDF.deriveSha512 E P (.buffer salt) (.buffer ikm) (.buffer info) (.number n) =
      .error e := by
  simp only [HKDF.deriveSha512, assertBuffer_buffer, ok_bind]
  cases h_nat : nonNegativeInteger? (.number n) with
  | none =>
    obtain ⟨e, h_e, -⟩ := assertPositiveInteger_of_none E h_nat "length"
    exact ⟨e, by rw [h_e, error_bind]⟩
  | some x =>
    obtain ⟨⟨⟩, k, h_k⟩ := nonNegativeInteger?_eq_some_iff.1 h_nat
    -- the guard lets zero through, and the comparison with zero stops it
    have h_zero : strictEquals n 0 = true := strictEquals_zero_of_not_pos h_k h
    rw [assertPositiveInteger_of_some E h_nat, ok_bind, h_zero]
    exact ⟨_, rfl⟩

theorem narrowedLength_deriveSha512 (L : P.Lawful) (salt ikm info : Bytes) (n : Float) :
    NarrowedLength 0 16320 n
      (HKDF.deriveSha512 E P (.buffer salt) (.buffer ikm) (.buffer info) (.number n)) where
  accepted k h_k h_pos _ h_le := by
    obtain ⟨okm, h_okm⟩ := (Hkdf.expandUpTo_isOk_iff P.hkdfSha512 L.hkdfSha512 (by norm_num)
      (P.hkdfSha512.extract salt ikm) info (k % 2 ^ 32)).2 h_le
    refine ⟨okm, ?_, Hkdf.length_of_expandUpTo _ h_okm⟩
    rw [deriveSha512_number E h_k h_pos, callNative_eq_ok_iff, Node.mapErr_eq_ok_iff]
    exact h_okm
  refused k h_k h_pos h_range := by
    rw [← not_isOk_iff, deriveSha512_number E h_k h_pos]
    simp only [callNative_eq_ok_iff, Node.mapErr_eq_ok_iff]
    intro h_ok
    exact h_range ⟨Nat.zero_le _, (Hkdf.expandUpTo_isOk_iff P.hkdfSha512 L.hkdfSha512
      (by norm_num) (P.hkdfSha512.extract salt ikm) info (k % 2 ^ 32)).1 h_ok⟩
  guarded h := deriveSha512_guarded E h salt ikm info

/-! ### Random bytes -/

theorem positiveInteger?_eq_some_iff {n x : Float} :
    positiveInteger? (.number n) = some x ↔ x = n ∧ ∃ k : ℕ, view n = .fin k ∧ 1 ≤ k := by
  -- what `Number.isInteger(size) && size > 0` accepts
  have h_iff : (isInteger n && lessThan 0 n) = true ↔ ∃ k : ℕ, view n = .fin k ∧ 1 ≤ k := by
    rw [Bool.and_eq_true, isInteger_iff]
    refine ⟨?_, ?_⟩
    · rintro ⟨⟨z, h_z⟩, h_lt⟩
      rw [lessThan_of_view view_zero h_z] at h_lt
      have h_pos : 0 < z := by simpa using h_lt
      -- the integer is positive, hence a natural number
      lift z to ℕ using h_pos.le
      exact ⟨z, h_z, by omega⟩
    · rintro ⟨k, h_k, h_pos⟩
      refine ⟨⟨k, h_k⟩, ?_⟩
      rw [lessThan_of_view view_zero h_k]
      simpa using Nat.succ_le_iff.1 h_pos
  rw [positiveInteger?, ← h_iff]
  split_ifs with h <;> simp [h, eq_comm]

theorem narrowedLength_nativeSecureRandom (n : Float) :
    NarrowedLength 1 16777216 n (nativeSecureRandom E P (.number n)) where
  accepted k h_k h_pos h_min h_le := by
    have h_some := positiveInteger?_eq_some_iff.2 ⟨rfl, k, h_k, h_pos⟩
    refine ⟨(P.osRng (k % 2 ^ 32)).1, ?_, (P.osRng (k % 2 ^ 32)).2⟩
    rw [nativeSecureRandom, h_some]
    simp only [callNative_eq_ok_iff, Node.secureRandom, Node.mapErr_eq_ok_iff,
      Utils.randomBytes_eq_ok_iff, toNat_toUint32 h_k]
    exact ⟨h_min, h_le, trivial⟩
  refused k h_k h_pos h_range := by
    have h_some := positiveInteger?_eq_some_iff.2 ⟨rfl, k, h_k, h_pos⟩
    rw [← not_isOk_iff, nativeSecureRandom, h_some]
    simp only [callNative_eq_ok_iff, Node.secureRandom, Node.mapErr_eq_ok_iff,
      Utils.randomBytes_eq_ok_iff, toNat_toUint32 h_k]
    rintro ⟨out, h_min, h_le, -⟩
    exact h_range ⟨h_min, h_le⟩
  guarded h := by
    have h_none : positiveInteger? (.number n) = none := by
      rw [Option.eq_none_iff_forall_ne_some]
      intro x h_x
      exact h (positiveInteger?_eq_some_iff.1 h_x).2
    rw [nativeSecureRandom, h_none]
    exact ⟨_, rfl⟩

/-! ### Exactness -/

/-- **Lengths are exact** except for the integers of more than 32 bits whose residue modulo
`2 ^ 32` passes the check in Rust. -/
theorem outputLength_exact_iff (L : P.Lawful) (salt ikm info : Bytes) (n : Float) :
    (ExactLength 16320 n
        (HKDF.deriveSha512 E P (.buffer salt) (.buffer ikm) (.buffer info) (.number n)) ↔
      ¬Aliased 0 16320 n) ∧
    (ExactLength 16777216 n (nativeSecureRandom E P (.number n)) ↔ ¬Aliased 1 16777216 n) :=
  ⟨(narrowedLength_deriveSha512 E L salt ikm info n).exactLength_iff (by norm_num) (by norm_num),
    (narrowedLength_nativeSecureRandom E n).exactLength_iff (by norm_num) (by norm_num)⟩

theorem outputLength_exact_iff_thirtyTwo :
    ExactLength 16320 32 (HKDF.deriveSha512 plainEngine rustCrypto
      (.buffer []) (.buffer []) (.buffer []) (.number 32)) ∧
    ExactLength 16777216 32 (nativeSecureRandom plainEngine rustCrypto (.number 32)) := by
  have h_free : ∀ min max, ¬Aliased min max 32 := by
    rintro min max ⟨k, h_k, h_large, -⟩
    have h_eq : k = 32 := natCast_unique h_k view_thirtyTwo
    omega
  have h := outputLength_exact_iff plainEngine rustCrypto_lawful [] [] [] 32
  exact ⟨h.1.2 (h_free 0 16320), h.2.2 (h_free 1 16777216)⟩

/-- `2 ^ 32 + 1` bytes are asked for, and one byte is returned. -/
theorem outputLength_aliased :
    ¬ExactLength 16320 4294967297 (HKDF.deriveSha512 plainEngine rustCrypto
      (.buffer []) (.buffer []) (.buffer []) (.number 4294967297)) ∧
    ¬ExactLength 16777216 4294967297
      (nativeSecureRandom plainEngine rustCrypto (.number 4294967297)) := by
  have h_aliased : ∀ min max, min ≤ 1 → 1 ≤ max → Aliased min max 4294967297 :=
    fun min max h_min h_max => ⟨4294967297, view_aboveUint32, by norm_num, h_min, h_max⟩
  refine ⟨?_, ?_⟩
  · rw [(narrowedLength_deriveSha512 plainEngine rustCrypto_lawful [] [] [] _).exactLength_iff
      (by norm_num) (by norm_num), not_not]
    exact h_aliased 0 16320 (by norm_num) (by norm_num)
  · rw [(narrowedLength_nativeSecureRandom plainEngine _).exactLength_iff (by norm_num)
      (by norm_num), not_not]
    exact h_aliased 1 16777216 (by norm_num) (by norm_num)

end Core

end SignalisCore
