import SignalisCore.Facade.Core

/-!
# The guards of HKDF-SHA256

`HKDF.derive` and `HKDF.expand` check the length in TypeScript, the binding narrows it to `u32` and
checks the key, the crate checks the length again, and the `hkdf` crate under it has two errors of
its own. The first check is as strict as all later ones together, so these never fail; but it shows
the length it refuses with `String(length)`, and a value without a string makes that throw first.

* `assertHkdfLength_of_not`: the refusals of the first check.
* `unfailing_iff`: a function of the crate behind that check.
* `hkdfSha256_unfailing_iff`: the three operations.
-/

namespace SignalisCore

open Binary64 Ecma LittleEndian

namespace Core

/-- The value is an integer that HKDF accepts as a length. -/
def IsHkdfLength (value : JsValue) : Prop :=
  ∃ x, value = .number x ∧ ∃ k : ℕ, view x = .fin k ∧ 1 ≤ k ∧ k ≤ 8160

/-- A call on a length, with the function of the addon and that of the crate that it comes to. -/
structure Unfailing (E : Engine) (length : JsValue) (native : Float → Except Node.Error Bytes)
    (crate : ℕ → Except Hkdf.Error Bytes) (result : Except JsError Bytes) : Prop where
  /-- The check comes before the only call of the addon. -/
  guarded : result = assertHkdfLength E length >>= fun x => callNative (native x)
  /-- An accepted length reaches the crate as it is, and no layer fails. -/
  computed : ∀ (x : Float) (k : ℕ), length = .number x → view x = .fin k → 1 ≤ k → k ≤ 8160 →
    assertHkdfLength E length = .ok x ∧ (toUint32 x).toNat = k ∧
      ∃ okm, okm.length = k ∧ crate k = .ok okm ∧ native x = .ok okm ∧ result = .ok okm
  /-- Every other value is refused by the check, with a `ValidationError` or a subclass of it. -/
  refused : ¬IsHkdfLength length → Throws (assertHkdfLength E length) .validationError

variable (E : Engine)

/-- What the check does not accept, it refuses with a `ValidationError` exactly if it can be
reported. -/
theorem assertHkdfLength_of_not {length : JsValue} (h : ¬IsHkdfLength length) :
    Throws (assertHkdfLength E length) .validationError ↔ E.Reportable length := by
  cases h_nat : nonNegativeInteger? length with
  | none =>
    obtain ⟨e, h_e, h_cls⟩ := assertPositiveInteger_of_none E h_nat "length"
    rw [assertHkdfLength, h_e, error_bind, throws_error_iff, h_cls]
  | some x =>
    -- a natural number outside the range
    obtain ⟨rfl, k, h_k⟩ := nonNegativeInteger?_eq_some_iff.1 h_nat
    have h_range : ¬(1 ≤ k ∧ k ≤ 8160) := fun h_range => h ⟨x, rfl, k, h_k, h_range⟩
    obtain ⟨e, h_e, h_cls⟩ := (assertHkdfLength_of_view E h_k).2 h_range
    rw [h_e, throws_error_iff, h_cls]
    exact iff_of_true rfl (Engine.reportable_number x)

/-- **Behind the check**, a function of the addon that computes what the crate computes from the
narrowed length, which succeeds for lengths up to the maximum, is unfailing exactly on the values
that can be reported. -/
theorem unfailing_iff {length : JsValue} {native : Float → Except Node.Error Bytes}
    {crate : ℕ → Except Hkdf.Error Bytes} {result : Except JsError Bytes}
    (h_guarded : result = assertHkdfLength E length >>= fun x => callNative (native x))
    (h_native : ∀ x, native x = Node.mapErr .invalidArg Hkdf.Error.toString
      (crate (toUint32 x).toNat))
    (h_crate : ∀ k ≤ 8160, ∃ okm, okm.length = k ∧ crate k = .ok okm) :
    Unfailing E length native crate result ↔ E.Reportable length := by
  refine ⟨?_, ?_⟩
  · intro h
    by_cases h_length : IsHkdfLength length
    · -- numbers have a string
      obtain ⟨x, rfl, -⟩ := h_length
      exact Engine.reportable_number x
    · exact (assertHkdfLength_of_not E h_length).1 (h.refused h_length)
  · intro h_report
    refine ⟨h_guarded, ?_, fun h => (assertHkdfLength_of_not E h).2 h_report⟩
    rintro x k rfl h_x h_pos h_le
    have h_ok := (assertHkdfLength_of_view E h_x).1 ⟨h_pos, h_le⟩
    -- a length up to the maximum fits in 32 bits
    have h_narrow : (toUint32 x).toNat = k := by
      rw [toNat_toUint32 h_x, Nat.mod_eq_of_lt (by omega)]
    obtain ⟨okm, h_len, h_okm⟩ := h_crate k h_le
    have h_addon : native x = .ok okm := by
      rw [h_native, Node.mapErr_eq_ok_iff, h_narrow, h_okm]
    refine ⟨h_ok, h_narrow, okm, h_len, h_okm, h_addon, ?_⟩
    rw [h_guarded, h_ok, ok_bind, h_addon, callNative_ok]

variable {P : Primitives}

/-- The crate expands every key of 32 bytes up to the maximum. -/
theorem exists_expand (L : P.Lawful) (prk : ByteArr 32) (info : Bytes) {k : ℕ} (h : k ≤ 8160) :
    ∃ okm, okm.length = k ∧ Hkdf.expand P prk info k = .ok okm := by
  obtain ⟨okm, h_okm⟩ :=
    (Hkdf.expandUpTo_isOk_iff P.hkdfSha256 L.hkdfSha256 (by norm_num) prk info k).2 h
  exact ⟨okm, Hkdf.length_of_expandUpTo _ h_okm, h_okm⟩

theorem hkdfExpand_eq (prk : ByteArr 32) (info : Bytes) (x : Float) :
    Node.hkdfExpand P prk.1 info x = Node.mapErr .invalidArg Hkdf.Error.toString
      (Hkdf.expand P prk info (toUint32 x).toNat) := dif_pos prk.2

/-- **The guards make every native failure unreachable**, on every value that can be reported: for
`derive`, `deriveFromParams` and `expand`, the last one with any key of 32 bytes, as `extract`
returns them. -/
theorem hkdfSha256_unfailing_iff (L : P.Lawful) (salt ikm info : Bytes) (length : JsValue) :
    (Unfailing E length (Node.hkdfDerive P salt ikm info) (Hkdf.derive P salt ikm info)
      (HKDF.derive E P (.buffer salt) (.buffer ikm) (.buffer info) length) ↔ E.Reportable length) ∧
    (Unfailing E length (Node.hkdfDerive P salt ikm info) (Hkdf.derive P salt ikm info)
      (HKDF.deriveFromParams E P ⟨.buffer salt, .buffer ikm, .buffer info, length⟩) ↔
        E.Reportable length) ∧
    (∀ prk : ByteArr 32,
      Unfailing E length (Node.hkdfExpand P prk.1 info) (Hkdf.expand P prk info)
        (HKDF.expand E P (.buffer prk.1) (.buffer info) length) ↔ E.Reportable length) ∧
    ∃ prk : ByteArr 32, HKDF.extract P (.buffer salt) (.buffer ikm) = .ok prk.1 := by
  have h_derive : HKDF.derive E P (.buffer salt) (.buffer ikm) (.buffer info) length =
      assertHkdfLength E length >>= fun x => callNative (Node.hkdfDerive P salt ikm info x) := by
    rw [HKDF.derive, assertBuffer_buffer, ok_bind, assertBuffer_buffer, ok_bind,
      assertBuffer_buffer, ok_bind]
  refine ⟨?_, ?_, fun prk => ?_, ⟨Hkdf.extract P salt ikm, rfl⟩⟩
  · exact unfailing_iff E h_derive (fun _ => rfl) fun k => exists_expand L _ info
  · exact unfailing_iff E h_derive (fun _ => rfl) fun k => exists_expand L _ info
  · refine unfailing_iff E ?_ (hkdfExpand_eq prk info) fun k => exists_expand L prk info
    rw [HKDF.expand, assertBufferOfSize_buffer prk.2, ok_bind, assertBuffer_buffer, ok_bind]

theorem hkdfSha256_unfailing_iff_thirtyTwo :
    Unfailing plainEngine (.number 32) (Node.hkdfDerive rustCrypto [] [] [])
      (Hkdf.derive rustCrypto [] [] [])
      (HKDF.derive plainEngine rustCrypto (.buffer []) (.buffer []) (.buffer []) (.number 32)) :=
  (hkdfSha256_unfailing_iff plainEngine rustCrypto_lawful [] [] [] (.number 32)).1.2
    (Engine.reportable_number 32)

/-- An object without a string is refused with a `TypeError`, and a buffer that is too long for a
string is not refused with a `ValidationError` either. -/
theorem hkdfSha256_failing :
    (∃ e, HKDF.derive plainEngine rustCrypto (.buffer []) (.buffer []) (.buffer []) .nullObject =
        .error e ∧ e.cls = .typeError) ∧
    ¬Unfailing plainEngine .nullObject (Node.hkdfDerive rustCrypto [] [] [])
      (Hkdf.derive rustCrypto [] [] [])
      (HKDF.derive plainEngine rustCrypto (.buffer []) (.buffer []) (.buffer []) .nullObject) ∧
    ¬Unfailing plainEngine (.buffer (List.replicate (2 ^ 29) 0))
      (Node.hkdfDerive rustCrypto [] [] []) (Hkdf.derive rustCrypto [] [] [])
      (HKDF.derive plainEngine rustCrypto (.buffer []) (.buffer []) (.buffer [])
        (.buffer (List.replicate (2 ^ 29) 0))) := by
  refine ⟨⟨_, rfl, rfl⟩, fun h => ?_, fun h => ?_⟩
  · have h_not : ¬IsHkdfLength .nullObject := by
      rintro ⟨x, ⟨⟩, -⟩
    exact Engine.not_reportable_nullObject
      ((assertHkdfLength_of_not plainEngine h_not).1 (h.refused h_not))
  · have h_not : ¬IsHkdfLength (.buffer (List.replicate (2 ^ 29) 0)) := by
      rintro ⟨x, ⟨⟩, -⟩
    have h_long : maxStringLength < (List.replicate (2 ^ 29) (0 : UInt8)).length := by
      rw [List.length_replicate]
      norm_num [maxStringLength]
    exact not_reportable_buffer h_long
      ((assertHkdfLength_of_not plainEngine h_not).1 (h.refused h_not))

end Core

end SignalisCore
