import SignalisCore.Facade.Core

/-!
# The throwing and the boolean verifiers

`verify` and `verifyBool` have guards of their own and call different functions of the addon. They
agree on every triple of JavaScript values, whatever the addon's verifier accepts, provided that its
two exports agree with each other.

* `verifyWith_of_not_wellFormed`, `verifyBoolWith_of_not_wellFormed`: the two sets of guards.
* `verifiersAgree_verifyWith`: agreement for one verifier of the addon.
* `verifiers_agree`: agreement for Ed25519 and for XEd25519.
-/

namespace SignalisCore

open LittleEndian

namespace Core

/-- The arguments that pass the guards: three buffers, two of them of a fixed size. -/
def WellFormed (publicKey message signature : JsValue) : Prop :=
  ∃ p m s : Bytes, publicKey = .buffer p ∧ message = .buffer m ∧ signature = .buffer s ∧
    p.length = 32 ∧ s.length = 64

/-- `verifyBool` never throws and is `true` where `verify` returns; and `verify` throws a
`ValidationError` on malformed arguments and a `SignatureError` on all others that fail. -/
structure VerifiersAgree (verify : JsValue → JsValue → JsValue → Except JsError Unit)
    (verifyBool : JsValue → JsValue → JsValue → Except JsError Bool) : Prop where
  total : ∀ publicKey message signature, ∃ b, verifyBool publicKey message signature = .ok b ∧
    (b = true ↔ verify publicKey message signature = .ok ())
  validation : ∀ publicKey message signature,
    (∃ e, verify publicKey message signature = .error e ∧ e.cls = .validationError) ↔
      ¬WellFormed publicKey message signature
  signature : ∀ publicKey message signature e, verify publicKey message signature = .error e →
    e.cls ≠ .validationError → e.cls = .signatureError

/-! ### The guards -/

/-- What `assertBufferOfSize` does not accept, it refuses with a `ValidationError`. -/
theorem assertBufferOfSize_of_not {value : JsValue} {n : ℕ}
    (h : ¬∃ bytes, value = .buffer bytes ∧ bytes.length = n) (parameter : String) :
    ∃ e, assertBufferOfSize value n parameter = .error e ∧ e.cls = .validationError := by
  cases h_buffer : value.isBuffer with
  | true =>
    obtain ⟨bytes, rfl⟩ := JsValue.eq_buffer_of_isBuffer h_buffer
    have h_len : bytes.length ≠ n := fun h_len => h ⟨bytes, rfl, h_len⟩
    simp only [assertBufferOfSize, assertBuffer_buffer, ok_bind, assertBufferLength, if_pos h_len]
    exact ⟨_, rfl, rfl⟩
  | false =>
    obtain ⟨e, h_e, h_cls⟩ := assertBuffer_of_not_isBuffer h_buffer parameter
    exact ⟨e, by rw [assertBufferOfSize, h_e, error_bind], h_cls⟩

theorem verifyWith_buffer (native : Bytes → Bytes → Bytes → Except Node.Error Unit)
    {p s : Bytes} (m : Bytes) (h_p : p.length = 32) (h_s : s.length = 64) :
    verifyWith native (.buffer p) (.buffer m) (.buffer s) =
      catchSignature (callNative (native p m s)) := by
  rw [verifyWith, assertBufferOfSize_buffer h_p, ok_bind, assertBuffer_buffer, ok_bind,
    assertBufferOfSize_buffer h_s, ok_bind]

theorem verifyBoolWith_buffer (native : Bytes → Bytes → Bytes → Bool) {p s : Bytes} (m : Bytes)
    (h_p : p.length = 32) (h_s : s.length = 64) :
    verifyBoolWith native (.buffer p) (.buffer m) (.buffer s) = .ok (native p m s) := by
  simp only [verifyBoolWith, h_p, h_s, ne_eq, not_true_eq_false, ↓reduceIte]
  rfl

variable {publicKey message signature : JsValue}

/-- Malformed arguments are refused by the guards of `verify`, one after the other. -/
theorem verifyWith_of_not_wellFormed
    (native : Bytes → Bytes → Bytes → Except Node.Error Unit)
    (h : ¬WellFormed publicKey message signature) :
    ∃ e, verifyWith native publicKey message signature = .error e ∧ e.cls = .validationError := by
  unfold verifyWith
  by_cases h_key : ∃ bytes, publicKey = .buffer bytes ∧ bytes.length = 32
  · obtain ⟨p, rfl, h_p⟩ := h_key
    rw [assertBufferOfSize_buffer h_p, ok_bind]
    cases h_message : message.isBuffer with
    | true =>
      obtain ⟨m, rfl⟩ := JsValue.eq_buffer_of_isBuffer h_message
      rw [assertBuffer_buffer, ok_bind]
      -- key and message pass, so the signature is malformed
      have h_sig : ¬∃ bytes, signature = .buffer bytes ∧ bytes.length = 64 := by
        rintro ⟨s, rfl, h_s⟩
        exact h ⟨p, m, s, rfl, rfl, rfl, h_p, h_s⟩
      obtain ⟨e, h_e, h_cls⟩ := assertBufferOfSize_of_not h_sig "signature"
      exact ⟨e, by rw [h_e, error_bind], h_cls⟩
    | false =>
      obtain ⟨e, h_e, h_cls⟩ := assertBuffer_of_not_isBuffer h_message "message"
      exact ⟨e, by rw [h_e, error_bind], h_cls⟩
  · obtain ⟨e, h_e, h_cls⟩ := assertBufferOfSize_of_not h_key "publicKey"
    exact ⟨e, by rw [h_e, error_bind], h_cls⟩

/-- Malformed arguments are `false` to `verifyBool`. -/
theorem verifyBoolWith_of_not_wellFormed (native : Bytes → Bytes → Bytes → Bool)
    (h : ¬WellFormed publicKey message signature) :
    verifyBoolWith native publicKey message signature = .ok false := by
  unfold verifyBoolWith
  -- every branch but the last one returns `false`
  split
  · next p =>
    split_ifs with h_p
    · rfl
    · split
      · next m =>
        split
        · next s =>
          have h_s : s.length ≠ 64 := fun h_s =>
            h ⟨p, m, s, rfl, rfl, rfl, not_not.mp h_p, h_s⟩
          rw [if_pos h_s]
          rfl
        · rfl
      · rfl
  · rfl

/-! ### Agreement -/

/-- What the addon's verifier rejects becomes a `SignatureError`. -/
theorem catchSignature_callNative_error (e : Node.Error) :
    catchSignature (callNative (.error e)) = .error (.signatureError (surface e).message) := rfl

/-- Past the guards every error is a `SignatureError`. -/
theorem cls_of_verifyWith_eq_error {native : Bytes → Bytes → Bytes → Except Node.Error Unit}
    {e : JsError} (h : WellFormed publicKey message signature)
    (h_e : verifyWith native publicKey message signature = .error e) : e.cls = .signatureError := by
  obtain ⟨p, m, s, rfl, rfl, rfl, h_p, h_s⟩ := h
  rw [verifyWith_buffer native m h_p h_s] at h_e
  cases h_native : native p m s with
  | ok _ =>
    rw [h_native] at h_e
    cases h_e
  | error e' =>
    rw [h_native, catchSignature_callNative_error] at h_e
    cases h_e
    rfl

/-- **Agreement** for one verifier of the addon with two exports that agree. -/
theorem verifiersAgree_verifyWith {native : Bytes → Bytes → Bytes → Except Node.Error Unit}
    {nativeBool : Bytes → Bytes → Bytes → Bool}
    (h : ∀ p m s, nativeBool p m s = true ↔ native p m s = .ok ()) :
    VerifiersAgree (verifyWith native) (verifyBoolWith nativeBool) where
  total publicKey message signature := by
    by_cases h_wf : WellFormed publicKey message signature
    · obtain ⟨p, m, s, rfl, rfl, rfl, h_p, h_s⟩ := h_wf
      refine ⟨_, verifyBoolWith_buffer nativeBool m h_p h_s, ?_⟩
      rw [verifyWith_buffer native m h_p h_s, h]
      cases native p m s with
      | ok _ => exact iff_of_true rfl rfl
      | error e =>
        rw [catchSignature_callNative_error]
        simp
    · obtain ⟨e, h_e, -⟩ := verifyWith_of_not_wellFormed native h_wf
      refine ⟨_, verifyBoolWith_of_not_wellFormed nativeBool h_wf, ?_⟩
      simp [h_e]
  validation publicKey message signature := by
    refine ⟨?_, verifyWith_of_not_wellFormed native⟩
    intro h_validation h_wf
    obtain ⟨e, h_e, h_cls⟩ := h_validation
    rw [cls_of_verifyWith_eq_error h_wf h_e] at h_cls
    cases h_cls
  signature publicKey message signature e h_e h_cls := by
    by_cases h_wf : WellFormed publicKey message signature
    · exact cls_of_verifyWith_eq_error h_wf h_e
    · obtain ⟨e', h_e', h_cls'⟩ := verifyWith_of_not_wellFormed native h_wf
      rw [h_e] at h_e'
      cases h_e'
      exact absurd h_cls' h_cls

theorem isOk_eq_true_iff {ε : Type} {result : Except ε Unit} :
    result.isOk = true ↔ result = .ok () := by
  cases result <;> simp [Except.isOk, Except.toBool]

/-- **The verifiers agree**, on every triple of JavaScript values. -/
theorem verifiers_agree (E : Ed25519Dalek) (D : Dalek) (sha512 : Bytes → ByteArr 64) :
    VerifiersAgree (Ed25519.verify E) (Ed25519.verifyBool E) ∧
    VerifiersAgree (XEd25519.verify D sha512) (XEd25519.verifyBool D sha512) := by
  refine ⟨?_, ?_⟩
  · refine verifiersAgree_verifyWith fun p m s => ?_
    rw [Node.ed25519Verify, Node.mapErr_eq_ok_iff]
    exact isOk_eq_true_iff
  · refine verifiersAgree_verifyWith fun p m s => ?_
    rw [Node.xed25519Verify, Node.mapErr_eq_ok_iff]
    exact isOk_eq_true_iff

end Core

end SignalisCore
