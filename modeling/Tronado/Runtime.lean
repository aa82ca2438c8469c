import Tronado.Lib.Loads
import Tronado.Lib.Schema

/-!
# The interpreter and the validation library

What the package takes from outside, as a parameter of everything that follows:
the recursion budget of `json.loads`, the lower-case tables of `str.lower`, and
pydantic's validators for scalar fields in lax mode.  Of the validators only this
is used: none of them takes `null`; a `str` field takes a text that UTF-8 can encode,
stripped; an `int` field takes an integer as it is; and a `Decimal` field takes finite
decimals and integers as they are and rejects what is not finite.

The recursion budget left at `json.loads` is taken to be the same wherever it is called,
although the stack of the caller uses some of it up.  The limit of 4300 digits that CPython
sets on the text of an integer, read or written, is left out.

`Runtime.sample` is one such runtime, for runs on fixed inputs.
-/

namespace Tronado

open Py Schema

/-- A `datetime`; `offset` is its distance from UTC in seconds, if it has one. -/
structure DateTime where
  year : ℕ
  month : ℕ
  day : ℕ
  hour : ℕ
  minute : ℕ
  second : ℕ
  microsecond : ℕ
  offset : Option ℤ
  deriving DecidableEq

/-- The decimal an integer is. -/
def decOfInt (n : ℤ) : Dec := ⟨decide (n < 0), n.natAbs, 0⟩

theorem toRat_decOfInt (n : ℤ) : (decOfInt n).toRat = n := by
  rw [Dec.toRat, decOfInt, zpow_zero, mul_one, Nat.cast_natAbs, Int.cast_abs]
  rcases lt_or_ge n 0 with h | h
  · rw [abs_of_neg (by exact_mod_cast h)]
    simp [h]
  · rw [abs_of_nonneg (by exact_mod_cast h)]
    simp [not_lt.mpr h]

/-- A character that pydantic strips: `White_Space`, which leaves out four separators that
`str.isspace` has. -/
def isWhiteSpace (c : ℕ) : Bool := isSpace c && !(0x1C ≤ c && c ≤ 0x1F)

/-- A text with `str_strip_whitespace`. -/
def trim (s : Str) : Str := (s.dropWhile isWhiteSpace).rdropWhile isWhiteSpace

class Runtime where
  /-- How many nested containers `json.loads` reads before `RecursionError`: the budget left
  to it, taken to be the same in both stacks. -/
  maxNesting : ℕ
  caseTable : CaseTable
  str : Validator String
  int : Validator ℤ
  bool : Validator Bool
  decimal : Validator Dec
  datetime : Validator DateTime
  str_null : str .null = none
  int_null : int .null = none
  bool_null : bool .null = none
  decimal_null : decimal .null = none
  datetime_null : datetime .null = none
  str_str : ∀ s, str (.str s) = toString? (trim s)
  int_int : ∀ n, int (.int n) = some n
  decimal_finite : ∀ d, decimal (.decimal (.finite d)) = some d
  decimal_infinity : ∀ neg, decimal (.decimal (.infinity neg)) = none
  decimal_nan : decimal (.decimal .nan) = none
  decimal_int : ∀ n, decimal (.int n) = some (decOfInt n)

namespace Runtime

/-- A case table that knows KELVIN SIGN only. -/
def kelvinTable : CaseTable where
  lower _ c _ := if c = 0x212A then [0x6B] else [c]
  kelvin _ _ := rfl
  nonAscii _ c _ hge hne := ⟨c, by simp [hne], hge⟩

/-- A runtime that reads JSON scalars of a field's own type. -/
@[reducible]
def sample : Runtime where
  maxNesting := 900
  caseTable := kelvinTable
  str
    | .str s => toString? (trim s)
    | _ => none
  int
    | .int n => some n
    | .bool b => some (if b then 1 else 0)
    | _ => none
  bool
    | .bool b => some b
    | _ => none
  decimal
    | .decimal (.finite d) => some d
    | .int n => some (decOfInt n)
    | _ => none
  datetime _ := none
  str_null := rfl
  int_null := rfl
  bool_null := rfl
  decimal_null := rfl
  datetime_null := rfl
  str_str _ := rfl
  int_int _ := rfl
  decimal_finite _ := rfl
  decimal_infinity _ := rfl
  decimal_nan := rfl
  decimal_int _ := rfl

end Runtime

/-- `s.lower()`. -/
def lower [Runtime] (s : Str) : Str := Py.lower Runtime.caseTable s

end Tronado
