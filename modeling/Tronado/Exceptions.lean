import Tronado.Lib.Loads

/-!
# Exceptions

The hierarchy of the package, `TronadoError`, and beside it the built-in
exceptions that its code can raise.  A `Message` is the list of the pieces an
f-string is made of, so that two messages are the same text when the pieces are.

* `PyErr.isTronado`: whether `except TronadoError` catches it.
-/

namespace Tronado

open Py

/-- A piece of a message. -/
inductive Part
  | text (s : String)
  | chars (s : Str)
  /-- `{s!r}` -/
  | repr (s : Str)
  | int (n : ℤ)
  | float (x : Double)
  /-- `str(v)` of a decoded JSON value. -/
  | value (v : Value)
  /-- The text of the exception that `json.loads` raises on these bytes. -/
  | jsonError (body : Bytes)
  /-- The text of the exception that a `str` with lone surrogates raises. -/
  | encodeError (s : Str)
  /-- The text of the `ValidationError` of a model on this value. -/
  | validationError (model : String) (data : Value)

abbrev Message := List Part

/-- The classes under `TronadoAPIError`, itself included. -/
inductive ApiErrorClass
  | api
  | authentication
  | rateLimit
  | orderNotFound
  | validation
  | server
  deriving DecidableEq

/-- An instance of `TronadoAPIError`.  `null` stands for `None` in `code` and
`response`. -/
structure ApiError where
  cls : ApiErrorClass
  message : Message
  statusCode : Option ℕ := none
  code : Value := .null
  response : Value := .null

/-- An instance of `TronadoError`. -/
inductive TronadoError
  | config (message : Message)
  | connection (message : Message)
  | timeout (message : Message)
  | api (e : ApiError)
  | webhook (message : Message)
  | invalidSignature (message : Message)

/-- An exception. -/
inductive PyErr
  | tronado (e : TronadoError)
  | valueError (message : Message)
  | typeError
  | overflowError
  | recursionError
  | unicodeEncodeError (s : Str)
  /-- `decimal.InvalidOperation` -/
  | invalidOperation
  | validationError (model : String) (data : Value)

/-- `isinstance(e, TronadoError)`. -/
def PyErr.isTronado : PyErr → Bool
  | .tronado _ => true
  | _ => false

/-- The class of a `TronadoAPIError`. -/
def PyErr.apiClass : PyErr → Option ApiErrorClass
  | .tronado (.api e) => some e.cls
  | _ => none

theorem apiClass_eq_none {e : PyErr} (h : e.isTronado = false) : e.apiClass = none := by
  cases e <;> first | rfl | cases h

/-- `raise` a `TronadoAPIError`. -/
def ApiError.raise {α : Type} (e : ApiError) : Except PyErr α := .error (.tronado (.api e))

@[simp] theorem ok_bind {ε α β : Type} (a : α) (f : α → Except ε β) :
    (Except.ok a >>= f) = f a := rfl
@[simp] theorem error_bind {ε α β : Type} (e : ε) (f : α → Except ε β) :
    (Except.error e >>= f) = .error e := rfl

/-- A sequence returns through both of its parts. -/
theorem bind_eq_ok {ε α β : Type} {r : Except ε α} {f : α → Except ε β} {b : β}
    (h : (r >>= f) = .ok b) : ∃ a, r = .ok a ∧ f a = .ok b := by
  cases r with
  | error e => cases h
  | ok a => exact ⟨a, rfl, h⟩

/-- It raises in one of them. -/
theorem bind_eq_error {ε α β : Type} {r : Except ε α} {f : α → Except ε β} {e : ε}
    (h : (r >>= f) = .error e) : r = .error e ∨ ∃ a, r = .ok a ∧ f a = .error e := by
  cases r with
  | error e' =>
    cases h
    exact Or.inl rfl
  | ok a => exact Or.inr ⟨a, rfl, h⟩

end Tronado
