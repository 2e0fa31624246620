import SignalisCore.Crates.Primitives

/-!
# `sc-hkdf`, `sc-pbkdf2`, `sc-argon2` and `sc-utils`

The crates that produce key bytes. Each checks its arguments in its own order and then fills a slice
of the requested length.

* `Hkdf.expandUpTo_isOk_iff`: HKDF succeeds exactly up to its maximum.
* `Pbkdf2.derive_eq_ok_iff`, `Argon2id.derive_eq_ok_iff`: with which parameters a derivation ran.
* `Utils.randomBytes_eq_ok_iff`: random bytes up to the maximum.
-/

namespace SignalisCore

open LittleEndian

/-! ### HKDF -/

namespace Hkdf

inductive Error
  | invalidLength (length : ℕ)
  deriving DecidableEq

def Error.toString : Error → String
  | .invalidLength length => "invalid output length: " ++ length.repr

variable {hashLen : ℕ} (H : HkdfImpl hashLen)

/-- `expand`, for a hash function and its maximal output length. -/
def expandUpTo (max : ℕ) (prk : ByteArr hashLen) (info : Bytes) (length : ℕ) :
    Except Error Bytes :=
  if length > max then .error (.invalidLength length)
  else
    -- both failures of the external crate are mapped to the same error
    match H.fromPrk prk.1 with
    | none => .error (.invalidLength length)
    | some hk =>
      match H.expand hk info length with
      | none => .error (.invalidLength length)
      | some okm => .ok okm.1

/-- `derive`, for a hash function and its maximal output length. -/
def deriveUpTo (max : ℕ) (salt ikm info : Bytes) (length : ℕ) : Except Error Bytes :=
  expandUpTo H max (H.extract salt ikm) info length

/-- The output has the requested length. -/
theorem length_of_expandUpTo {max : ℕ} {prk : ByteArr hashLen} {info okm : Bytes} {length : ℕ}
    (h : expandUpTo H max prk info length = .ok okm) : okm.length = length := by
  unfold expandUpTo at h
  split_ifs at h
  split at h
  · cases h
  · split at h
    · cases h
    · next okm' _ =>
      cases h
      exact okm'.2

/-- **HKDF succeeds exactly up to its maximum.** -/
theorem expandUpTo_isOk_iff (L : H.Lawful) {max : ℕ} (h_max : max ≤ 255 * hashLen)
    (prk : ByteArr hashLen) (info : Bytes) (length : ℕ) :
    (∃ okm, expandUpTo H max prk info length = .ok okm) ↔ length ≤ max := by
  refine ⟨?_, ?_⟩
  · rintro ⟨okm, h_okm⟩
    by_contra h_gt
    rw [expandUpTo, if_pos (by omega)] at h_okm
    cases h_okm
  · intro h_le
    -- neither step of the external crate fails within its limits
    obtain ⟨hk, h_hk⟩ := Option.isSome_iff_exists.1 (L.fromPrk_isSome prk.1 prk.2.ge)
    obtain ⟨okm, h_okm⟩ := Option.isSome_iff_exists.1 (L.expand_isSome hk info length (by omega))
    exact ⟨okm.1, by rw [expandUpTo, if_neg (by omega), h_hk]; simp only [h_okm]⟩

variable (P : Primitives)

def extract (salt ikm : Bytes) : ByteArr 32 := P.hkdfSha256.extract salt ikm

def expand (prk : ByteArr 32) (info : Bytes) (length : ℕ) : Except Error Bytes :=
  expandUpTo P.hkdfSha256 8160 prk info length

def derive (salt ikm info : Bytes) (length : ℕ) : Except Error Bytes :=
  deriveUpTo P.hkdfSha256 8160 salt ikm info length

end Hkdf

namespace HkdfSha512

variable (P : Primitives)

def extract (salt ikm : Bytes) : ByteArr 64 := P.hkdfSha512.extract salt ikm

def expand (prk : ByteArr 64) (info : Bytes) (length : ℕ) : Except Hkdf.Error Bytes :=
  Hkdf.expandUpTo P.hkdfSha512 16320 prk info length

def derive (salt ikm info : Bytes) (length : ℕ) : Except Hkdf.Error Bytes :=
  Hkdf.deriveUpTo P.hkdfSha512 16320 salt ikm info length

end HkdfSha512

/-! ### PBKDF2 -/

namespace Pbkdf2

inductive Error
  | zeroIterations
  | zeroLength
  | emptySalt
  deriving DecidableEq

def Error.toString : Error → String
  | .zeroIterations => "iterations must be >= 1"
  | .zeroLength => "output length must be >= 1"
  | .emptySalt => "salt must not be empty"

variable (P : Primitives)

def derive (password salt : Bytes) (iterations : UInt32) (length : ℕ) : Except Error Bytes :=
  if iterations = 0 then .error .zeroIterations
  else if length = 0 then .error .zeroLength
  else if salt = [] then .error .emptySalt
  else .ok (P.pbkdf2Hmac password salt iterations length).1

/-- **With which parameters PBKDF2 ran.** -/
theorem derive_eq_ok_iff {password salt out : Bytes} {iterations : UInt32} {length : ℕ} :
    derive P password salt iterations length = .ok out ↔
      iterations ≠ 0 ∧ length ≠ 0 ∧ salt ≠ [] ∧
      out = (P.pbkdf2Hmac password salt iterations length).1 := by
  unfold derive
  split_ifs <;> simp [*, eq_comm]

end Pbkdf2

/-! ### Argon2id -/

namespace Argon2id

inductive Error
  | emptySalt
  | zeroLength
  | invalidParams (text : String)
  | hashingFailed (text : String)
  deriving DecidableEq

def Error.toString : Error → String
  | .emptySalt => "salt must not be empty"
  | .zeroLength => "output length must be >= 1"
  | .invalidParams text => "invalid Argon2 parameters: " ++ text
  | .hashingFailed text => "Argon2 hashing failed: " ++ text

variable (P : Primitives)

def derive (password salt : Bytes) (mCost tCost pCost : UInt32) (length : ℕ) :
    Except Error Bytes :=
  if salt = [] then .error .emptySalt
  else if length = 0 then .error .zeroLength
  else
    -- `Params::new(...)?`, then `hash_password_into(...)?`
    match P.argon2.newParams mCost tCost pCost length with
    | .error e => .error (.invalidParams e)
    | .ok params =>
      match P.argon2.hashPasswordInto params password salt length with
      | .error e => .error (.hashingFailed e)
      | .ok out => .ok out.1

/-- The function of the `argon2` crate, for parameters that it accepts. -/
def Computes (password salt : Bytes) (mCost tCost pCost : UInt32) (length : ℕ) (out : Bytes) :
    Prop :=
  ∃ params, P.argon2.newParams mCost tCost pCost length = .ok params ∧
    ∃ arr, P.argon2.hashPasswordInto params password salt length = .ok arr ∧ out = arr.1

/-- The `argon2` crate accepts the parameters, and with them the password and the salt. -/
def Accepts (password salt : Bytes) (mCost tCost pCost : UInt32) (length : ℕ) : Prop :=
  ∃ params, P.argon2.newParams mCost tCost pCost length = .ok params ∧
    (P.argon2.hashPasswordInto params password salt length).isOk

theorem accepts_iff_exists_computes {P : Primitives} {password salt : Bytes}
    {mCost tCost pCost : UInt32} {length : ℕ} :
    Accepts P password salt mCost tCost pCost length ↔
      ∃ out, Computes P password salt mCost tCost pCost length out := by
  refine ⟨?_, ?_⟩
  · rintro ⟨params, h_params, h_ok⟩
    cases h_hash : P.argon2.hashPasswordInto params password salt length with
    | error e =>
      rw [h_hash] at h_ok
      exact nomatch h_ok
    | ok arr => exact ⟨arr.1, params, h_params, arr, h_hash, rfl⟩
  · rintro ⟨out, params, h_params, arr, h_hash, -⟩
    exact ⟨params, h_params, by rw [h_hash]; rfl⟩

theorem Computes.length_eq {P : Primitives} {password salt out : Bytes}
    {mCost tCost pCost : UInt32} {length : ℕ}
    (h : Computes P password salt mCost tCost pCost length out) : out.length = length := by
  obtain ⟨_, -, arr, -, rfl⟩ := h
  exact arr.2

/-- **With which parameters Argon2id ran.** -/
theorem derive_eq_ok_iff {password salt out : Bytes} {mCost tCost pCost : UInt32} {length : ℕ} :
    derive P password salt mCost tCost pCost length = .ok out ↔
      salt ≠ [] ∧ length ≠ 0 ∧ Computes P password salt mCost tCost pCost length out := by
  rw [derive, Computes]
  -- the checks in the order of the source
  by_cases h_salt : salt = []
  · simp [h_salt]
  by_cases h_len : length = 0
  · simp [h_salt, h_len]
  rw [if_neg h_salt, if_neg h_len]
  cases h_params : P.argon2.newParams mCost tCost pCost length with
  | error e => simp
  | ok params =>
    cases h_hash : P.argon2.hashPasswordInto params password salt length with
    | error e => simp [h_hash]
    | ok arr =>
      simp only [h_hash]
      refine ⟨?_, ?_⟩
      · rintro ⟨⟩
        exact ⟨h_salt, h_len, params, rfl, arr, h_hash, rfl⟩
      · rintro ⟨-, -, _, ⟨⟩, arr', h_arr', rfl⟩
        rw [h_hash] at h_arr'
        cases h_arr'
        rfl

end Argon2id

/-! ### Random bytes -/

namespace Utils

/-- The crate's `Error`. -/
inductive Error
  | sizeTooLarge (requested max : ℕ)
  | zeroSize
  deriving DecidableEq

def Error.toString : Error → String
  | .sizeTooLarge requested max =>
    "secure_random: requested size " ++ requested.repr ++ " exceeds max (" ++ max.repr ++ ")"
  | .zeroSize => "secure_random: requested zero bytes"

def maxRandomBytes : ℕ := 16 * 1024 * 1024

def randomBytes (P : Primitives) (size : ℕ) : Except Error Bytes :=
  if size = 0 then .error .zeroSize
  else if size > maxRandomBytes then .error (.sizeTooLarge size maxRandomBytes)
  else .ok (P.osRng size).1

/-- **Random bytes come in every size up to the maximum.** -/
theorem randomBytes_eq_ok_iff (P : Primitives) {size : ℕ} {out : Bytes} :
    randomBytes P size = .ok out ↔
      1 ≤ size ∧ size ≤ maxRandomBytes ∧ out = (P.osRng size).1 := by
  unfold randomBytes
  split_ifs with h_zero h_max
  · simp [h_zero]
  · simp [h_max]
  · simp [Nat.one_le_iff_ne_zero.2 h_zero, not_lt.1 h_max, eq_comm]

end Utils

end SignalisCore
