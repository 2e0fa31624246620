import SignalisCore.Facade.Core

/-!
# The work factors of the password-based functions

`PBKDF2.derive` and `Argon2id.derive` accept every non-negative integer as a work factor or a
length. The binding narrows each of them to `u32`, and Rust checks and uses the residue.

* `pbkdf2_eq_ok_iff`, `argon2id_eq_ok_iff`: with which parameters a call computes.
* `workFactors_exact_iff`: the calls that return compute what was asked for exactly when every
  number fits in 32 bits.
-/

namespace SignalisCore

open Binary64 Ecma LittleEndian

namespace Core

/-- An integer that `u32` holds. -/
def Fits (x : Float) : Prop := ∃ n : ℕ, view x = .fin n ∧ n < 2 ^ 32

theorem fits_iff_exists_uint32 {x : Float} :
    Fits x ↔ ∃ c : UInt32, view x = .fin (c.toNat : ℕ) := by
  refine ⟨?_, ?_⟩
  · rintro ⟨n, h_n, h_lt⟩
    refine ⟨.ofNat n, ?_⟩
    rw [UInt32.toNat_ofNat', Nat.mod_eq_of_lt h_lt, h_n]
  · rintro ⟨c, h_c⟩
    exact ⟨c.toNat, h_c, c.toNat_lt⟩

/-- A number that fits is narrowed to itself. -/
theorem toUint32_eq_of_view {x : Float} {c : UInt32} (h : view x = .fin (c.toNat : ℕ)) :
    toUint32 x = c := by
  rw [← UInt32.toNat_inj, toNat_toUint32 h, Nat.mod_eq_of_lt c.toNat_lt]

/-- The narrowed number is the number exactly when it fits. -/
theorem view_eq_toUint32_iff {x : Float} : view x = .fin ((toUint32 x).toNat : ℕ) ↔ Fits x := by
  rw [fits_iff_exists_uint32]
  refine ⟨fun h => ⟨_, h⟩, ?_⟩
  rintro ⟨c, h_c⟩
  rwa [toUint32_eq_of_view h_c]

variable (E : Engine) (P : Primitives)

theorem assertPositiveInteger_number {x y : Float} {parameter : String} :
    assertPositiveInteger E (.number x) parameter = .ok y ↔ y = x ∧ Natural x := by
  rw [assertPositiveInteger_eq_ok_iff, JsValue.number.injEq]
  refine ⟨?_, ?_⟩
  · rintro ⟨rfl, h⟩
    exact ⟨rfl, h⟩
  · rintro ⟨rfl, h⟩
    exact ⟨rfl, h⟩

/-- A call that returns where it is accepted, and only there, throws or returns what is wanted
exactly if what it returns is wanted. -/
theorem throws_or_returns_iff {result : Except JsError Bytes} {accepted : Prop}
    {returned wanted : Bytes → Prop}
    (h_ok : ∀ {out}, result = .ok out ↔ accepted ∧ returned out)
    (h_accepted : accepted → ∃ out, returned out) :
    ((∃ e, result = .error e) ∨ ∃ out, result = .ok out ∧ wanted out) ↔
      (accepted → ∃ out, returned out ∧ wanted out) := by
  refine ⟨?_, ?_⟩
  · intro h h_acc
    obtain ⟨out, h_out⟩ := h_accepted h_acc
    -- the call does not throw
    rw [h_ok.2 ⟨h_acc, h_out⟩] at h
    obtain ⟨e, ⟨⟩⟩ | ⟨_, ⟨⟩, h_wanted⟩ := h
    exact ⟨out, h_out, h_wanted⟩
  · intro h
    by_cases h_acc : accepted
    · obtain ⟨out, h_out, h_wanted⟩ := h h_acc
      exact .inr ⟨out, h_ok.2 ⟨h_acc, h_out⟩, h_wanted⟩
    · refine .inl (not_isOk_iff.1 ?_)
      rintro ⟨out, h_out⟩
      exact h_acc (h_ok.1 h_out).1

/-! ### PBKDF2 -/

/-- The call throws, or returns exactly `length` bytes computed with exactly `iterations` rounds. -/
def Pbkdf2Exact (password salt : Bytes) (iterations length : Float)
    (result : Except JsError Bytes) : Prop :=
  (∃ e, result = .error e) ∨
    ∃ out, result = .ok out ∧ view length = .fin (out.length : ℕ) ∧
      ∃ c : UInt32, view iterations = .fin (c.toNat : ℕ) ∧
        out = (P.pbkdf2Hmac password salt c out.length).1

/-- Every guard on the way passes, on the numbers and on what they are narrowed to. -/
def Pbkdf2Accepted (salt : Bytes) (iterations length : Float) : Prop :=
  Natural iterations ∧ Natural length ∧ toUint32 iterations ≠ 0 ∧ toUint32 length ≠ 0 ∧ salt ≠ []

/-- **With which parameters PBKDF2 computes.** -/
theorem pbkdf2_eq_ok_iff (password : Bytes) {salt out : Bytes} {iterations length : Float} :
    PBKDF2.derive E P (.buffer password) (.buffer salt) (.number iterations) (.number length) =
        .ok out ↔
      Pbkdf2Accepted salt iterations length ∧
      out = (P.pbkdf2Hmac password salt (toUint32 iterations) (toUint32 length).toNat).1 := by
  simp only [PBKDF2.derive, assertBuffer_buffer, ok_bind, bind_eq_ok_iff,
    assertPositiveInteger_number, callNative_eq_ok_iff, Node.pbkdf2Derive, Node.mapErr_eq_ok_iff,
    Pbkdf2.derive_eq_ok_iff, Pbkdf2Accepted]
  refine ⟨?_, ?_⟩
  · rintro ⟨_, ⟨rfl, h_iter⟩, _, ⟨rfl, h_len⟩, h_ne, h_len_ne, h_salt, h_out⟩
    exact ⟨⟨h_iter, h_len, h_ne, fun h => h_len_ne (by rw [h]; rfl), h_salt⟩, h_out⟩
  · rintro ⟨⟨h_iter, h_len, h_ne, h_len_ne, h_salt⟩, h_out⟩
    exact ⟨_, ⟨rfl, h_iter⟩, _, ⟨rfl, h_len⟩, h_ne, fun h => h_len_ne (UInt32.toNat_inj.1 h),
      h_salt, h_out⟩

/-- PBKDF2 is exact unless a number that does not fit passes every guard. -/
theorem pbkdf2Exact_iff (password salt : Bytes) (iterations length : Float) :
    Pbkdf2Exact P password salt iterations length
        (PBKDF2.derive E P (.buffer password) (.buffer salt) (.number iterations)
          (.number length)) ↔
      (Pbkdf2Accepted salt iterations length → Fits iterations ∧ Fits length) := by
  rw [Pbkdf2Exact, throws_or_returns_iff (pbkdf2_eq_ok_iff E P password) fun _ => ⟨_, rfl⟩]
  refine imp_congr_right fun _ => ⟨?_, ?_⟩
  · rintro ⟨_, rfl, h_len, c, h_c, -⟩
    rw [Subtype.prop (P.pbkdf2Hmac _ _ _ _)] at h_len
    exact ⟨fits_iff_exists_uint32.2 ⟨c, h_c⟩, view_eq_toUint32_iff.1 h_len⟩
  -- numbers that fit are their own residues
  · rintro ⟨h_iter, h_len⟩
    refine ⟨_, rfl, ?_, toUint32 iterations, view_eq_toUint32_iff.2 h_iter, ?_⟩
    · rw [Subtype.prop (P.pbkdf2Hmac _ _ _ _)]
      exact view_eq_toUint32_iff.2 h_len
    · rw [Subtype.prop (P.pbkdf2Hmac _ _ _ _)]

/-! ### Argon2id -/

/-- The call throws, or returns exactly `length` bytes computed with exactly the given costs. -/
def Argon2idExact (password salt : Bytes) (mCost tCost pCost length : Float)
    (result : Except JsError Bytes) : Prop :=
  (∃ e, result = .error e) ∨
    ∃ out, result = .ok out ∧ view length = .fin (out.length : ℕ) ∧
      ∃ m t p : UInt32, view mCost = .fin (m.toNat : ℕ) ∧ view tCost = .fin (t.toNat : ℕ) ∧
        view pCost = .fin (p.toNat : ℕ) ∧
        Argon2id.Computes P password salt m t p out.length out

/-- Every guard on the way passes, the checks of the `argon2` crate included. -/
def Argon2idAccepted (password salt : Bytes) (mCost tCost pCost length : Float) : Prop :=
  (Natural mCost ∧ Natural tCost ∧ Natural pCost ∧ Natural length) ∧ salt ≠ [] ∧
    toUint32 length ≠ 0 ∧
    Argon2id.Accepts P password salt (toUint32 mCost) (toUint32 tCost) (toUint32 pCost)
      (toUint32 length).toNat

/-- **With which parameters Argon2id computes.** -/
theorem argon2id_eq_ok_iff {password salt out : Bytes} {mCost tCost pCost length : Float} :
    Core.Argon2id.derive E P (.buffer password) (.buffer salt) (.number mCost) (.number tCost)
        (.number pCost) (.number length) = .ok out ↔
      Argon2idAccepted P password salt mCost tCost pCost length ∧
      SignalisCore.Argon2id.Computes P password salt (toUint32 mCost) (toUint32 tCost)
        (toUint32 pCost) (toUint32 length).toNat out := by
  simp only [Core.Argon2id.derive, assertBuffer_buffer, ok_bind, bind_eq_ok_iff,
    assertPositiveInteger_number, callNative_eq_ok_iff, Node.argon2IdDerive,
    Node.mapErr_eq_ok_iff, SignalisCore.Argon2id.derive_eq_ok_iff, Argon2idAccepted]
  refine ⟨?_, ?_⟩
  · rintro ⟨_, ⟨rfl, h_m⟩, _, ⟨rfl, h_t⟩, _, ⟨rfl, h_p⟩, _, ⟨rfl, h_len⟩, h_salt, h_ne, h_out⟩
    exact ⟨⟨⟨h_m, h_t, h_p, h_len⟩, h_salt, fun h => h_ne (by rw [h]; rfl),
      SignalisCore.Argon2id.accepts_iff_exists_computes.2 ⟨out, h_out⟩⟩, h_out⟩
  · rintro ⟨⟨⟨h_m, h_t, h_p, h_len⟩, h_salt, h_ne, -⟩, h_out⟩
    exact ⟨_, ⟨rfl, h_m⟩, _, ⟨rfl, h_t⟩, _, ⟨rfl, h_p⟩, _, ⟨rfl, h_len⟩, h_salt,
      fun h => h_ne (UInt32.toNat_inj.1 h), h_out⟩

/-- Argon2id is exact unless a number that does not fit passes every guard. -/
theorem argon2idExact_iff (password salt : Bytes) (mCost tCost pCost length : Float) :
    Argon2idExact P password salt mCost tCost pCost length
        (Core.Argon2id.derive E P (.buffer password) (.buffer salt) (.number mCost)
          (.number tCost) (.number pCost) (.number length)) ↔
      (Argon2idAccepted P password salt mCost tCost pCost length →
        Fits mCost ∧ Fits tCost ∧ Fits pCost ∧ Fits length) := by
  have h_computes (h : Argon2idAccepted P password salt mCost tCost pCost length) :=
    SignalisCore.Argon2id.accepts_iff_exists_computes.1 h.2.2.2
  rw [Argon2idExact, throws_or_returns_iff (argon2id_eq_ok_iff E P) h_computes]
  refine imp_congr_right fun h_accepted => ⟨?_, ?_⟩
  · rintro ⟨out, h_out, h_len, m, t, p, h_m, h_t, h_p, -⟩
    rw [h_out.length_eq] at h_len
    exact ⟨fits_iff_exists_uint32.2 ⟨m, h_m⟩, fits_iff_exists_uint32.2 ⟨t, h_t⟩,
      fits_iff_exists_uint32.2 ⟨p, h_p⟩, view_eq_toUint32_iff.1 h_len⟩
  -- numbers that fit are their own residues
  · rintro ⟨h_m, h_t, h_p, h_len⟩
    obtain ⟨out, h_out⟩ := h_computes h_accepted
    refine ⟨out, h_out, ?_, _, _, _, view_eq_toUint32_iff.2 h_m, view_eq_toUint32_iff.2 h_t,
      view_eq_toUint32_iff.2 h_p, ?_⟩
    · rw [h_out.length_eq]
      exact view_eq_toUint32_iff.2 h_len
    · rw [h_out.length_eq]
      exact h_out

/-! ### Both functions -/

/-- **Work factors are not weakened** exactly where no number that exceeds 32 bits passes every
guard on the way. -/
theorem workFactors_exact_iff (password salt : Bytes)
    (iterations mCost tCost pCost length : Float) :
    (Pbkdf2Exact P password salt iterations length
        (PBKDF2.derive E P (.buffer password) (.buffer salt) (.number iterations)
          (.number length)) ↔
      (Pbkdf2Accepted salt iterations length → Fits iterations ∧ Fits length)) ∧
    (Argon2idExact P password salt mCost tCost pCost length
        (Core.Argon2id.derive E P (.buffer password) (.buffer salt) (.number mCost)
          (.number tCost) (.number pCost) (.number length)) ↔
      (Argon2idAccepted P password salt mCost tCost pCost length →
        Fits mCost ∧ Fits tCost ∧ Fits pCost ∧ Fits length)) :=
  ⟨pbkdf2Exact_iff E P password salt iterations length,
    argon2idExact_iff E P password salt mCost tCost pCost length⟩

theorem toUint32_eq_ofNat {x : Float} {n : ℕ} (h : view x = .fin (n : ℕ)) :
    toUint32 x = .ofNat n := by
  rw [← UInt32.toNat_inj, toNat_toUint32 h, UInt32.toNat_ofNat']

theorem not_fits_of_view {x : Float} {n : ℕ} (h : view x = .fin (n : ℕ)) (h_le : 2 ^ 32 ≤ n) :
    ¬Fits x := by
  rintro ⟨m, h_m, h_lt⟩
  rw [natCast_unique h_m h] at h_lt
  exact absurd h_lt (not_lt.2 h_le)

/-- `2 ^ 32 + 1` rounds are asked for, and one round is computed; and `2 ^ 32 + 8` KiB are asked
for, and eight are used, by every implementation that accepts eight. -/
theorem workFactors_weakened :
    PBKDF2.derive plainEngine rustCrypto (.buffer []) (.buffer [0]) (.number 4294967297)
        (.number 32) =
      .ok (Hmac.pbkdf2 sha256Hash [] [0] 1 32).1 ∧
    ¬Pbkdf2Exact rustCrypto [] [0] 4294967297 32
      (PBKDF2.derive plainEngine rustCrypto (.buffer []) (.buffer [0]) (.number 4294967297)
        (.number 32)) ∧
    ∀ P : Primitives, SignalisCore.Argon2id.Accepts P [] (List.replicate 8 0) 8 1 1 32 →
      ¬Argon2idExact P [] (List.replicate 8 0) 4294967304 1 1 32
        (Core.Argon2id.derive plainEngine P (.buffer []) (.buffer (List.replicate 8 0))
          (.number 4294967304) (.number 1) (.number 1) (.number 32)) := by
  have h_iter := view_aboveUint32
  have h_len := view_thirtyTwo
  have h_narrow : toUint32 4294967297 = 1 := (toUint32_eq_ofNat h_iter).trans (by decide)
  have h_len_narrow : toUint32 32 = 32 := toUint32_eq_ofNat h_len
  have h_accepted : Pbkdf2Accepted [0] 4294967297 32 :=
    ⟨⟨_, h_iter⟩, ⟨_, h_len⟩, by rw [h_narrow]; decide, by rw [h_len_narrow]; decide, by simp⟩
  refine ⟨?_, ?_, fun P h => ?_⟩
  · exact (pbkdf2_eq_ok_iff _ _ _).2 ⟨h_accepted, by rw [h_narrow, h_len_narrow]; rfl⟩
  · rw [pbkdf2Exact_iff]
    intro h_fits
    exact not_fits_of_view h_iter (by norm_num) (h_fits h_accepted).1
  -- `2 ^ 32 + 8` is narrowed to eight
  · have h_mem : view 4294967304 = .fin (4294967304 : ℕ) := view_ofNat (by norm_num)
    have h_one : view 1 = .fin (1 : ℕ) := view_ofNat (by norm_num)
    have h_accepted : Argon2idAccepted P [] (List.replicate 8 0) 4294967304 1 1 32 := by
      refine ⟨⟨⟨_, h_mem⟩, ⟨_, h_one⟩, ⟨_, h_one⟩, _, h_len⟩, by simp, ?_, ?_⟩
      · rw [h_len_narrow]
        decide
      · rw [toUint32_eq_ofNat h_mem, toUint32_eq_ofNat h_one, h_len_narrow]
        exact h
    rw [argon2idExact_iff]
    intro h_fits
    exact not_fits_of_view h_mem (by norm_num) (h_fits h_accepted).1

end Core

end SignalisCore
