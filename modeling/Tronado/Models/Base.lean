import Tronado.Constants
import Tronado.Runtime

/-!
# Shared field types and the envelope

* `TronDecimal`: a `Decimal` field behind `toDecimal`, which turns a `float` into
  the decimal of its text.
* `FlexibleDateTime`: a `datetime` field behind `normalizeDatetime`, which cuts a
  fraction of more than six digits down to six.
* `ApiEnvelope`: the wrapper of `GetOrderToken` responses.

Every model is read by `Schema`: a field is looked up under its aliases and then
under its Python name, and keys of no field are dropped.
-/

namespace Tronado

open Py Schema

/-- A decimal digit of any script, `\d`. -/
def isDecimalDigit (c : ℕ) : Bool := (digitValue c).isSome

/-- The substitution of `^(.*\.\d{6})\d+(.*)$` on a single line.  The first group
is greedy, so the last point that fits is the one that counts. -/
def cutFraction : Str → Option Str
  | [] => none
  | c :: r =>
    match cutFraction r with
    | some t => some (c :: t)
    | none =>
      if c = 0x2E ∧ 7 ≤ (r.takeWhile isDecimalDigit).length then
        some (c :: r.take 6 ++ r.dropWhile isDecimalDigit)
      else none

/-- `$` also stands before a final newline, which the substitution then drops. -/
def chompNewline (s : Str) : Str := if s.getLast? = some 0x0A then s.dropLast else s

/-- `_normalize_datetime`. -/
def normalizeDatetime (value : Value) : Value :=
  match value with
  | .str s =>
    -- `.` does not match a newline
    if (chompNewline s).contains 0x0A then value
    else match cutFraction (chompNewline s) with
      | some t => .str t
      | none => value
  | _ => value

/-- `_to_decimal`. -/
def toDecimal (value : Value) : Value :=
  match value with
  | .float x => .decimal (.ofDouble x)
  | _ => value

variable [Runtime]

def FlexibleDateTime : Validator DateTime := fun v => Runtime.datetime (normalizeDatetime v)

def TronDecimal : Validator Dec := fun v => Runtime.decimal (toDecimal v)

/-! ## The envelope -/

structure ApiEnvelope where
  isSuccessful : Bool
  code : ℤ
  message : String
  data : Value

def ApiEnvelope.model : Model ApiEnvelope where
  name := "ApiEnvelope"
  fields o := do
    let isSuccessful ← required Runtime.bool ["IsSuccessful", "is_successful"] o
    let code ← withDefault Runtime.int 0 ["Code", "code"] o
    let message ← withDefault Runtime.str "" ["Message", "message"] o
    let data ← withDefault some .null ["Data", "data"] o
    return { isSuccessful, code, message, data }

end Tronado
