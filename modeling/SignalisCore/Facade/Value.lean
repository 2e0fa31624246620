import SignalisCore.Node.Bindings

/-!
# JavaScript values and errors

The values that callers pass to the TypeScript layer, and the errors it throws: the built-in classes
and the hierarchy of `errors.ts`. A function that throws returns in `Except JsError`.

* `ErrorClass.instanceOf`: the `instanceof` of the hierarchy.
* `surface`: what an error of the addon is in JavaScript.
* `Engine.Reportable`: the values that a guard can refuse with an error of its own.
-/

namespace SignalisCore

open Ecma LittleEndian

/-- A JavaScript string: its UTF-16 code units. -/
abbrev JsString := List UInt16

/-- A string constant. -/
def js (s : String) : JsString := Utf16.encode s.toList

/-! ### Errors -/

/-- The classes of what is thrown: the built-in ones, and those of `errors.ts`. -/
inductive ErrorClass
  | error
  | typeError
  | rangeError
  | signalisError
  | validationError
  | lengthError
  | cryptoError
  | authenticationError
  | keyDerivationError
  | signatureError
  /-- What code of the caller throws that is no `Error`. -/
  | foreign
  deriving DecidableEq

namespace ErrorClass

/-- A class and the classes it extends. -/
def chain : ErrorClass → List ErrorClass
  | error => [error]
  | typeError => [typeError, error]
  | rangeError => [rangeError, error]
  | signalisError => [signalisError, error]
  | validationError => [validationError, signalisError, error]
  | lengthError => [lengthError, validationError, signalisError, error]
  | cryptoError => [cryptoError, signalisError, error]
  | authenticationError => [authenticationError, cryptoError, signalisError, error]
  | keyDerivationError => [keyDerivationError, cryptoError, signalisError, error]
  | signatureError => [signatureError, cryptoError, signalisError, error]
  | foreign => [foreign]

/-- `e instanceof c` for an error `e` of this class. -/
def instanceOf (d c : ErrorClass) : Bool := c ∈ d.chain

end ErrorClass

/-- The `actual` field of a `ValidationError`. -/
inductive Actual
  | string (s : JsString)
  | number (x : Float)

/-- A thrown error: its class, and the fields that the constructors set. -/
structure JsError where
  cls : ErrorClass
  message : JsString
  code : Option String
  parameter : Option String
  expected : Option String
  actual : Option Actual
  operation : Option String

namespace JsError

/-- `new Error(message)`. -/
def error (message : JsString) : JsError :=
  ⟨.error, message, none, none, none, none, none⟩

/-- `new TypeError(message)`. -/
def typeError (message : JsString) : JsError :=
  ⟨.typeError, message, none, none, none, none, none⟩

/-- `new RangeError(message)`. -/
def rangeError (message : JsString) : JsError :=
  ⟨.rangeError, message, none, none, none, none, none⟩

/-- `new ValidationError(message, { parameter, expected, actual })`. -/
def validationError (message : JsString) (parameter expected : String) (actual : Actual) :
    JsError :=
  ⟨.validationError, message, some "VALIDATION_ERROR", some parameter, some expected,
    some actual, none⟩

/-- `new LengthError(message, { expected, actual })`. -/
def lengthError (message : JsString) (expected : String) (actual : Float) : JsError :=
  ⟨.lengthError, message, some "VALIDATION_ERROR", none, some expected,
    some (.number actual), none⟩

/-- `new CryptoError(message, operation)`. -/
def cryptoError (message : JsString) (operation : String) : JsError :=
  ⟨.cryptoError, message, some "CRYPTO_ERROR", none, none, none, some operation⟩

/-- `new AuthenticationError(message)`. -/
def authenticationError (message : JsString) : JsError :=
  ⟨.authenticationError, message, some "CRYPTO_ERROR", none, none, none, some "authenticate"⟩

/-- `new SignatureError(message)`. -/
def signatureError (message : JsString) : JsError :=
  ⟨.signatureError, message, some "CRYPTO_ERROR", none, none, none, some "verify_signature"⟩

end JsError

/-! ### Values -/

/-- A JavaScript value, as far as the library looks at it. -/
inductive JsValue
  /-- A value that `Buffer.isBuffer` accepts. -/
  | buffer (bytes : Bytes)
  /-- A number. -/
  | number (x : Float)
  /-- A string. -/
  | string (units : JsString)
  /-- A symbol, which a template literal refuses. -/
  | symbol (description : JsString)
  /-- Any other value: its `typeof`, and what its conversion to a string returns or throws. The
  conversion of an object may be code of the caller. -/
  | other (typeOf : String) (display : Except JsError JsString)

namespace JsValue

/-- `typeof value`. -/
def typeOf : JsValue → String
  | buffer _ => "object"
  | number _ => "number"
  | string _ => "string"
  | symbol _ => "symbol"
  | other typeOf _ => typeOf

/-- `Buffer.isBuffer(value)`. -/
def isBuffer : JsValue → Bool
  | buffer _ => true
  | _ => false

/-- `undefined`. -/
def undefined : JsValue := .other "undefined" (.ok (js "undefined"))

/-- `Object.create(null)`, which has no conversion to a primitive. -/
def nullObject : JsValue :=
  .other "object" (.error (.typeError (js "Cannot convert object to primitive value")))

end JsValue

/-! ### Throwing -/

@[simp]
theorem ok_bind {ε α β : Type} (a : α) (f : α → Except ε β) : (Except.ok a >>= f) = f a := rfl

@[simp]
theorem error_bind {ε α β : Type} (e : ε) (f : α → Except ε β) :
    (Except.error e >>= f) = .error e := rfl

theorem bind_eq_ok_iff {ε α β : Type} {x : Except ε α} {f : α → Except ε β} {b : β} :
    x >>= f = .ok b ↔ ∃ a, x = .ok a ∧ f a = .ok b := by
  cases x <;> simp

/-- The call throws an error of the class. -/
def Throws {α : Type} (result : Except JsError α) (c : ErrorClass) : Prop :=
  ∃ e, result = .error e ∧ e.cls.instanceOf c

theorem not_throws_ok {α : Type} (a : α) (c : ErrorClass) :
    ¬Throws (.ok a : Except JsError α) c := by
  rintro ⟨e, ⟨⟩, -⟩

theorem throws_error_iff {α : Type} {e : JsError} {c : ErrorClass} :
    Throws (.error e : Except JsError α) c ↔ e.cls.instanceOf c := by
  simp [Throws]

/-- A call that does not throw returns. -/
theorem not_isOk_iff {α : Type} {result : Except JsError α} :
    (¬∃ a, result = .ok a) ↔ ∃ e, result = .error e := by
  cases result <;> simp

/-- **What an error of the addon is in JavaScript**: a plain `Error` with the status as its code. -/
def surface (e : Node.Error) : JsError :=
  ⟨.error, js e.reason, some e.status.toString, none, none, none, none⟩

/-- A call of the addon. -/
def callNative {α : Type} (result : Except Node.Error α) : Except JsError α :=
  result.mapError surface

@[simp]
theorem callNative_ok {α : Type} (a : α) : callNative (.ok a) = .ok a := rfl

@[simp]
theorem callNative_error {α : Type} (e : Node.Error) :
    callNative (.error e : Except Node.Error α) = .error (surface e) := rfl

theorem callNative_eq_ok_iff {α : Type} {result : Except Node.Error α} {a : α} :
    callNative result = .ok a ↔ result = .ok a := by
  cases result <;> simp [callNative, Except.mapError]

/-- Whatever the addon throws is a plain `Error`, of no other class. -/
theorem not_throws_callNative {α : Type} (result : Except Node.Error α) {c : ErrorClass}
    (h : c ≠ .error) : ¬Throws (callNative result) c := by
  cases result with
  | ok a => exact not_throws_ok a c
  | error e =>
    rw [callNative_error, throws_error_iff]
    simp [surface, ErrorClass.instanceOf, ErrorClass.chain, h]

/-! ### Conversion to strings -/

/-- The conversions to a string that the language and Node.js define. Those of buffers and symbols
throw where the string would be too long, or whatever a `toString` of the buffer's own throws. -/
structure Engine where
  /-- `String(x)` for a number. -/
  numberToString : Float → JsString
  /-- `String(buffer)`. -/
  bufferToString : Bytes → Except JsError JsString
  /-- `String(symbol)` for a symbol of the description. -/
  symbolToString : JsString → Except JsError JsString

namespace Engine

variable (E : Engine)

/-- `String(value)`. -/
def toText : JsValue → Except JsError JsString
  | .buffer bytes => E.bufferToString bytes
  | .number x => .ok (E.numberToString x)
  | .string units => .ok units
  | .symbol description => E.symbolToString description
  | .other _ display => display

/-- The value of `value` in a template literal. -/
def interpolate : JsValue → Except JsError JsString
  | .symbol _ => .error (.typeError (js "Cannot convert a Symbol value to a string"))
  | value => E.toText value

/-- **The values that can be reported**: `String(value)` returns, or throws a `ValidationError`. -/
def Reportable (value : JsValue) : Prop :=
  ∀ e, E.toText value = .error e → e.cls.instanceOf .validationError

variable {E}

theorem reportable_of_ok {value : JsValue} {s : JsString} (h : E.toText value = .ok s) :
    E.Reportable value := by
  intro e h_e
  rw [h] at h_e
  exact nomatch h_e

theorem reportable_of_error {value : JsValue} {e : JsError} (h : E.toText value = .error e) :
    E.Reportable value ↔ e.cls.instanceOf .validationError := by
  simp only [Reportable, h, Except.error.injEq, forall_eq']

@[simp]
theorem reportable_number (x : Float) : E.Reportable (.number x) := reportable_of_ok rfl

@[simp]
theorem reportable_string (units : JsString) : E.Reportable (.string units) := reportable_of_ok rfl

@[simp]
theorem reportable_undefined : E.Reportable .undefined := reportable_of_ok rfl

theorem not_reportable_nullObject : ¬E.Reportable .nullObject := by
  rw [reportable_of_error rfl]
  decide

end Engine

/-- `buffer.constants.MAX_STRING_LENGTH`. -/
def maxStringLength : ℕ := 2 ^ 29 - 24

/-- The conversions, for integers and for ASCII bytes. -/
def plainEngine : Engine where
  numberToString x :=
    match Binary64.view x with
    | .nan => js "NaN"
    | .inf false => js "Infinity"
    | .inf true => js "-Infinity"
    | .fin q => js (toString (truncate q))
  bufferToString bytes :=
    if maxStringLength < bytes.length then
      .error ⟨.error, js "Cannot create a string longer than 0x1fffffe8 characters",
        some "ERR_STRING_TOO_LONG", none, none, none, none⟩
    else .ok (bytes.map UInt8.toUInt16)
  symbolToString description :=
    if maxStringLength < description.length + 8 then
      .error (.rangeError (js "Invalid string length"))
    else .ok (js "Symbol(" ++ description ++ js ")")

/-- A buffer that is too long for a string cannot be reported. -/
theorem not_reportable_buffer {bytes : Bytes} (h : maxStringLength < bytes.length) :
    ¬plainEngine.Reportable (.buffer bytes) := by
  intro h_report
  exact absurd (h_report _ (if_pos h)) (by decide)

end SignalisCore
