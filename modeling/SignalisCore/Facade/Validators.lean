import SignalisCore.Facade.Value

/-!
# `validators.ts`

The guards of the TypeScript layer, under their names. A guard that narrows the type of its
argument returns the narrowed value. `assertPositiveInteger` accepts zero, and shows the value it
refuses with `String(value)`, which may itself throw.

* `assertPositiveInteger_eq_ok_iff`, `assertHkdfLength_eq_ok_iff`: what the guards accept.
* `assertPositiveInteger_of_none`: when the refusal is a `ValidationError`.
-/

namespace SignalisCore

open Binary64 Ecma LittleEndian

def hkdfMaxOutputSize : ℕ := 8160

def assertBuffer (value : JsValue) (parameter : String) : Except JsError Bytes :=
  match value with
  | .buffer bytes => .ok bytes
  | _ => .error (.validationError (js (parameter ++ " must be a Buffer")) parameter "Buffer"
      (.string (js value.typeOf)))

def assertBufferLength (value : Bytes) (expectedLength : ℕ) (parameter : String) :
    Except JsError Unit :=
  if value.length ≠ expectedLength then
    .error (.validationError
      (js (parameter ++ " must be " ++ expectedLength.repr ++ " bytes, got " ++
        value.length.repr))
      parameter (expectedLength.repr ++ " bytes") (.number (.ofNat value.length)))
  else .ok ()

def assertBufferOfSize (value : JsValue) (expectedLength : ℕ) (parameter : String) :
    Except JsError Bytes := do
  let bytes ← assertBuffer value parameter
  assertBufferLength bytes expectedLength parameter
  return bytes

/-- `typeof value === 'number' && Number.isInteger(value) && !(value < 0)`, and the number. -/
def nonNegativeInteger? : JsValue → Option Float
  | .number x => if isInteger x && !lessThan x 0 then some x else none
  | _ => none

variable (E : Engine)

def assertPositiveInteger (value : JsValue) (parameter : String) : Except JsError Float :=
  match nonNegativeInteger? value with
  | some x => .ok x
  | none => do
    let actual ← E.toText value
    throw (.validationError (js (parameter ++ " must be a non-negative integer")) parameter
      "non-negative integer" (.string actual))

def assertHkdfLength (length : JsValue) : Except JsError Float := do
  let x ← assertPositiveInteger E length "length"
  -- the upper bound first, then zero, which `assertPositiveInteger` lets through
  if lessThan 8160 x then
    throw (.lengthError
      (js ("HKDF output length cannot exceed " ++ hkdfMaxOutputSize.repr ++ " bytes (255 * 32)"))
      ("<= " ++ hkdfMaxOutputSize.repr) x)
  if strictEquals x 0 then
    throw (.lengthError (js "HKDF output length must be greater than 0") "> 0" 0)
  return x

/-! ### Buffers -/

@[simp]
theorem assertBuffer_buffer (bytes : Bytes) (parameter : String) :
    assertBuffer (.buffer bytes) parameter = .ok bytes := rfl

/-- A value that is no buffer is refused with a `ValidationError`. -/
theorem assertBuffer_of_not_isBuffer {value : JsValue} (h : value.isBuffer = false)
    (parameter : String) :
    ∃ e, assertBuffer value parameter = .error e ∧ e.cls = .validationError := by
  cases value with
  | buffer bytes => cases h
  | _ => exact ⟨_, rfl, rfl⟩

theorem JsValue.eq_buffer_of_isBuffer {value : JsValue} (h : value.isBuffer = true) :
    ∃ bytes, value = .buffer bytes := by
  cases value with
  | buffer bytes => exact ⟨bytes, rfl⟩
  | _ => cases h

theorem assertBufferOfSize_buffer {bytes : Bytes} {n : ℕ} (h : bytes.length = n)
    (parameter : String) : assertBufferOfSize (.buffer bytes) n parameter = .ok bytes := by
  simp only [assertBufferOfSize, assertBufferLength, assertBuffer_buffer, ok_bind, h, ne_eq,
    not_true_eq_false, ↓reduceIte]
  rfl

theorem assertBuffer_eq_ok_iff {value : JsValue} {parameter : String} {bytes : Bytes} :
    assertBuffer value parameter = .ok bytes ↔ value = .buffer bytes := by
  cases value <;> simp [assertBuffer]

theorem assertBufferOfSize_eq_ok_iff {value : JsValue} {n : ℕ} {parameter : String}
    {bytes : Bytes} :
    assertBufferOfSize value n parameter = .ok bytes ↔
      value = .buffer bytes ∧ bytes.length = n := by
  refine ⟨?_, ?_⟩
  · intro h
    obtain ⟨b, h_b, h_rest⟩ := bind_eq_ok_iff.mp h
    obtain ⟨u, h_len, h_ret⟩ := bind_eq_ok_iff.mp h_rest
    obtain rfl := Except.ok.inj h_ret
    refine ⟨assertBuffer_eq_ok_iff.mp h_b, ?_⟩
    by_contra h_ne
    rw [assertBufferLength, if_pos h_ne] at h_len
    exact nomatch h_len
  · rintro ⟨rfl, h⟩
    exact assertBufferOfSize_buffer h parameter

/-! ### Numbers -/

theorem nonNegativeInteger?_eq_some_iff {value : JsValue} {x : Float} :
    nonNegativeInteger? value = some x ↔ value = .number x ∧ ∃ n : ℕ, view x = .fin n := by
  cases value with
  | number y =>
    rw [nonNegativeInteger?, ← isNonnegInteger_iff]
    split_ifs with h
    · simp only [Option.some.injEq, JsValue.number.injEq]
      refine ⟨?_, And.left⟩
      rintro rfl
      exact ⟨rfl, h⟩
    · simp only [JsValue.number.injEq, false_iff, not_and]
      rintro rfl
      exact h
  | _ => simp [nonNegativeInteger?]

theorem assertPositiveInteger_of_some {value : JsValue} {x : Float}
    (h : nonNegativeInteger? value = some x) (parameter : String) :
    assertPositiveInteger E value parameter = .ok x := by
  rw [assertPositiveInteger, h]

/-- The refusal is a `ValidationError`, for the values that can be reported. -/
theorem assertPositiveInteger_of_none {value : JsValue} (h : nonNegativeInteger? value = none)
    (parameter : String) :
    ∃ e, assertPositiveInteger E value parameter = .error e ∧
      (e.cls.instanceOf .validationError ↔ E.Reportable value) := by
  rw [assertPositiveInteger, h]
  cases h_text : E.toText value with
  -- what the conversion throws is all that is thrown
  | error e => exact ⟨e, rfl, (Engine.reportable_of_error h_text).symm⟩
  | ok s => exact ⟨_, rfl, iff_of_true rfl (Engine.reportable_of_ok h_text)⟩

theorem assertPositiveInteger_eq_ok_iff {value : JsValue} {parameter : String} {x : Float} :
    assertPositiveInteger E value parameter = .ok x ↔
      value = .number x ∧ ∃ n : ℕ, view x = .fin n := by
  rw [← nonNegativeInteger?_eq_some_iff]
  cases h : nonNegativeInteger? value with
  | some y =>
    rw [assertPositiveInteger_of_some E h]
    simp
  | none =>
    obtain ⟨e, h_e, -⟩ := assertPositiveInteger_of_none E h parameter
    simp [h_e]

theorem view_hkdfMaxOutputSize : view 8160 = .fin (8160 : ℕ) := view_ofNat (by norm_num)

/-- The two bounds, on a natural number. -/
theorem assertHkdfLength_of_view {x : Float} {n : ℕ} (h : view x = .fin n) :
    (1 ≤ n ∧ n ≤ 8160 → assertHkdfLength E (.number x) = .ok x) ∧
    (¬(1 ≤ n ∧ n ≤ 8160) →
      ∃ e, assertHkdfLength E (.number x) = .error e ∧ e.cls = .lengthError) := by
  -- past the first guard, the two comparisons are those of `n`
  have h_some := nonNegativeInteger?_eq_some_iff.2 ⟨rfl, n, h⟩
  have h_max : lessThan 8160 x = decide (8160 < n) := by
    rw [lessThan_of_view view_hkdfMaxOutputSize h]
    simp
  have h_zero : strictEquals x 0 = decide (n = 0) := by
    rw [strictEquals_of_view h view_zero]
    simp
  rw [assertHkdfLength, assertPositiveInteger_of_some E h_some, ok_bind, h_max, h_zero]
  refine ⟨fun h_range => ?_, fun h_range => ?_⟩
  · rw [if_neg (by simpa using h_range.2), if_neg (by simp; omega)]
    rfl
  · by_cases h_gt : 8160 < n
    · rw [if_pos (by simpa using h_gt)]
      exact ⟨_, rfl, rfl⟩
    · rw [if_neg (by simpa using h_gt), if_pos (by simp; omega)]
      exact ⟨_, rfl, rfl⟩

/-- **The lengths that HKDF accepts.** -/
theorem assertHkdfLength_eq_ok_iff {length : JsValue} {x : Float} :
    assertHkdfLength E length = .ok x ↔
      length = .number x ∧ ∃ n : ℕ, view x = .fin n ∧ 1 ≤ n ∧ n ≤ 8160 := by
  refine ⟨?_, ?_⟩
  · intro h
    obtain ⟨y, h_y, -⟩ := bind_eq_ok_iff.1 h
    obtain ⟨rfl, n, h_n⟩ := (assertPositiveInteger_eq_ok_iff E).1 h_y
    obtain ⟨h_ok, h_error⟩ := assertHkdfLength_of_view E h_n
    by_cases h_range : 1 ≤ n ∧ n ≤ 8160
    · rw [h_ok h_range] at h
      cases h
      exact ⟨rfl, n, h_n, h_range⟩
    · obtain ⟨e, h_e, -⟩ := h_error h_range
      rw [h_e] at h
      cases h
  · rintro ⟨rfl, n, h_n, h_range⟩
    exact (assertHkdfLength_of_view E h_n).1 h_range

end SignalisCore
