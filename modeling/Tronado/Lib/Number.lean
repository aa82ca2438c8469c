import Mathlib.Data.Rat.Floor
import Mathlib.Algebra.Order.Field.Power
import Tronado.Lib.Text

/-!
# Python numbers

`Double` is a `float` seen as an exact rational, with the infinities and `nan`
beside it and a single zero; comparisons, `min` and `max` treat `nan` as Python
does, and products are exact.  Rounding to binary64 happens where a text or a `Decimal` is read:
`Double.ofRat` is the nearest double, ties to even.

* `Double.parse` is `float(text)`: any Unicode digits, single underscores between
  digits, `inf`, `infinity` and `nan` in any case.
* `Double.repr` is the shortest decimal that rounds back, in the two layouts of
  `float.__repr__`.
* `Dec` is a finite `decimal.Decimal`, `Decimal` adds the special values, and
  `Decimal.parse` is `Decimal(text)`.
* `pause_nonneg`: the clamp `max(0.0, x)` is never negative and never `nan`.
-/

namespace Py

/-- A Python `float`. -/
inductive Double
  | finite (q : ℚ)
  | inf
  | negInf
  | nan
  deriving DecidableEq

namespace Double

/-- `a < b`; no comparison with `nan` holds. -/
def lt : Double → Double → Bool
  | finite p, finite q => decide (p < q)
  | finite _, inf => true
  | negInf, finite _ => true
  | negInf, inf => true
  | _, _ => false

/-- `a <= b`. -/
def le : Double → Double → Bool
  | nan, _ => false
  | _, nan => false
  | a, b => !lt b a

/-- `min(a, b)`: the second argument only when it is smaller. -/
def min (a b : Double) : Double := if lt b a then b else a

/-- `max(a, b)`: the second argument only when it is larger. -/
def max (a b : Double) : Double := if lt a b then b else a

/-- `bool(x)`: only zero is false. -/
def truthy (x : Double) : Bool := x != finite 0

/-- The sign of a number that is not `nan`. -/
def sign : Double → ℤ
  | finite q => if 0 < q then 1 else if q < 0 then -1 else 0
  | inf => 1
  | negInf => -1
  | nan => 0

/-- `a * b`, exact on finite numbers. -/
def mul : Double → Double → Double
  | finite p, finite q => finite (p * q)
  | nan, _ => nan
  | _, nan => nan
  | a, b =>
    let s := sign a * sign b
    if 0 < s then inf else if s < 0 then negInf else nan

@[simp] theorem lt_finite (p q : ℚ) : lt (finite p) (finite q) = decide (p < q) := rfl

/-- **A clamp at zero is never negative and never `nan`.** -/
theorem pause_nonneg (x : Double) :
    max (finite 0) x = inf ∨ ∃ q : ℚ, 0 ≤ q ∧ max (finite 0) x = finite q := by
  cases x with
  | finite q =>
    by_cases h : (0 : ℚ) < q
    · exact Or.inr ⟨q, h.le, by simp [max, h]⟩
    · exact Or.inr ⟨0, le_rfl, by simp [max, h]⟩
  | inf => exact Or.inl rfl
  | negInf => exact Or.inr ⟨0, le_rfl, rfl⟩
  | nan => exact Or.inr ⟨0, le_rfl, rfl⟩

/-! ## Rounding to binary64 -/

/-- The nearest integer, ties to even. -/
def roundHalfEven (q : ℚ) : ℤ :=
  let f := q.floor
  let r := q - f
  if r < 1 / 2 then f else if 1 / 2 < r then f + 1 else if f % 2 = 0 then f else f + 1

/-- `⌊log₂ q⌋` of a positive rational. -/
def log2Floor (q : ℚ) : ℤ :=
  let e : ℤ := (Nat.log2 q.num.toNat : ℤ) - Nat.log2 q.den
  if (2 : ℚ) ^ e ≤ q then e else e - 1

/-- The nearest double, ties to even, overflow to infinity. -/
def ofRat (q : ℚ) : Double :=
  if q = 0 then finite 0 else
  let a := if q < 0 then -q else q
  -- 53 bits of precision; below `2 ^ (-1022)` the spacing stops shrinking
  let e := Max.max (log2Floor a) (-1022) - 52
  let r := roundHalfEven (a / 2 ^ e) * (2 : ℚ) ^ e
  if (2 : ℚ) ^ (1024 : ℤ) ≤ r then (if q < 0 then negInf else inf)
  else finite (if q < 0 then -r else r)

end Double

/-! ## Numerals -/

/-- The number a text of ASCII digits denotes. -/
def natOf (ds : Str) : ℕ := ds.foldl (fun n c => 10 * n + (c - 48)) 0

/-- A leading sign: whether it is a minus, and the rest. -/
def splitSign : Str → Bool × Str
  | 0x2D :: r => (true, r)
  | 0x2B :: r => (false, r)
  | r => (false, r)

/-- The part of a numeral after `e`. -/
def exponent? (s : Str) : Option ℤ :=
  let (neg, ds) := splitSign s
  if ds ≠ [] ∧ ds.all isDigit then some (if neg then -(natOf ds : ℤ) else natOf ds) else none

/-- An unsigned decimal numeral, as `n * 10 ^ e`. -/
def numeral? (s : Str) : Option (ℕ × ℤ) :=
  let (i, r) := s.span isDigit
  let (f, r) := match r with
    | 0x2E :: r => r.span isDigit
    | _ => ([], r)
  if i ++ f = [] then none
  else match r with
    | [] => some (natOf (i ++ f), -(f.length : ℤ))
    | c :: r =>
      if asciiLower c = 0x65 then (exponent? r).map (fun e => (natOf (i ++ f), e - f.length))
      else none

/-- The decimal digits of Unicode, written in ASCII. -/
def toAsciiDigits (s : Str) : Str := s.map (fun c => ((digitValue c).map (48 + ·)).getD c)

/-- `float` takes single underscores between digits and drops them. -/
def dropUnderscores : Bool → Str → Option Str
  | _, [] => some []
  | _, [c] => if c = 0x5F then none else some [c]
  | afterDigit, c :: d :: r =>
    if c = 0x5F then (if afterDigit && isDigit d then dropUnderscores false (d :: r) else none)
    else (dropUnderscores (isDigit c) (d :: r)).map (c :: ·)

/-- `float(text)`. -/
def Double.parse (s : Str) : Option Double := do
  let s ← dropUnderscores false (toAsciiDigits (strip s))
  let (neg, r) := splitSign s
  let word := r.map asciiLower
  if word = lit "inf" ∨ word = lit "infinity" then
    return if neg then .negInf else .inf
  if word = lit "nan" then
    return .nan
  let (n, e) ← numeral? r
  return .ofRat ((if neg then -1 else 1) * n * (10 : ℚ) ^ e)

/-! ## Decimals -/

/-- A finite `decimal.Decimal`: `± coeff * 10 ^ exp`. -/
structure Dec where
  neg : Bool
  coeff : ℕ
  exp : ℤ
  deriving DecidableEq

/-- The number a finite decimal denotes. -/
def Dec.toRat (d : Dec) : ℚ := (if d.neg then -1 else 1) * d.coeff * (10 : ℚ) ^ d.exp

/-- A `decimal.Decimal`. -/
inductive Decimal
  | finite (d : Dec)
  | infinity (neg : Bool)
  | nan
  deriving DecidableEq

def digitCount (n : ℕ) : ℕ := (Nat.toDigits 10 n).length

/-- The exponents the decimal module can hold exactly. -/
def Dec.representable (d : Dec) : Bool :=
  decide (d.exp + digitCount d.coeff - 1 ≤ 999999999999999999 ∧ -1999999999999999997 ≤ d.exp)

/-- `Decimal(text)`; `none` is `decimal.InvalidOperation`. -/
def Decimal.parse (s : Str) : Option Decimal :=
  let (neg, r) := splitSign ((toAsciiDigits (strip s)).filter (· ≠ 0x5F))
  let word := r.map asciiLower
  let isNan (w : Str) := (lit "nan").isPrefixOf w && (w.drop 3).all isDigit
  if word = lit "inf" ∨ word = lit "infinity" then some (.infinity neg)
  else if isNan word || ((lit "s").isPrefixOf word && isNan (word.drop 1)) then some .nan
  else (numeral? r).bind fun (n, e) =>
    if Dec.representable ⟨neg, n, e⟩ then some (.finite ⟨neg, n, e⟩) else none

/-- `float(d)` of a finite decimal. -/
def Dec.toDouble (d : Dec) : Double := .ofRat d.toRat

/-! ## The shortest text of a double -/

/-- `⌊log₁₀ q⌋` of a positive rational. -/
def log10Floor (q : ℚ) : ℤ :=
  let e : ℤ := (digitCount q.num.toNat : ℤ) - digitCount q.den
  if (10 : ℚ) ^ e ≤ q then e else e - 1

/-- The `n`-digit decimal nearest to `q` among those that round back to it, as
`digits * 10 ^ exponent`; of two equally near ones the even one. -/
def roundTrip? (q : ℚ) (n : ℕ) : Option (ℕ × ℤ) :=
  let s := log10Floor q - n + 1
  let x := q / (10 : ℚ) ^ s
  let lo := x.floor
  let near : List ℤ :=
    if x - lo < 1 / 2 ∨ (x - lo = 1 / 2 ∧ lo % 2 = 0) then [lo, lo + 1] else [lo + 1, lo]
  (near.find? (fun c : ℤ => decide (Double.ofRat (c * (10 : ℚ) ^ s) = .finite q))).map fun c =>
    -- rounding up to the next power of ten leaves one digit
    if c = 10 ^ n then (1, s + n) else (c.toNat, s)

/-- The shortest decimal that rounds back to a positive double. -/
def shortest (q : ℚ) : ℕ × ℤ :=
  ((List.range 17).findSome? (fun i => roundTrip? q (i + 1))).getD (q.floor.toNat, 0)

/-- The layouts of `float.__repr__`. -/
inductive Repr
  /-- `digits / 10 ^ scale`, written with a point. -/
  | fixed (neg : Bool) (digits scale : ℕ)
  /-- `digits * 10 ^ exp`, written with one digit before the point. -/
  | sci (neg : Bool) (digits : ℕ) (exp : ℤ)
  | inf
  | negInf
  | nan

/-- `repr(x)`. -/
def Double.repr : Double → Repr
  | finite q =>
    if q = 0 then .fixed false 0 1 else
    let (n, e) := shortest (if q < 0 then -q else q)
    let point := digitCount n + e
    if -4 < point ∧ point ≤ 16 then
      if 0 ≤ e then .fixed (decide (q < 0)) (n * 10 ^ (e.toNat + 1)) 1
      else .fixed (decide (q < 0)) n (-e).toNat
    else .sci (decide (q < 0)) n e
  | inf => .inf
  | negInf => .negInf
  | nan => .nan

/-- `Decimal(str(x))`. -/
def Decimal.ofDouble (x : Double) : Decimal :=
  match x.repr with
  | .fixed neg n scale => .finite ⟨neg, n, -(scale : ℤ)⟩
  | .sci neg n e => .finite ⟨neg, n, e⟩
  | .inf => .infinity false
  | .negInf => .infinity true
  | .nan => .nan

/-- A minus sign where it is wanted. -/
def signed (neg : Bool) (s : String) : String := if neg then "-" ++ s else s

/-- The text of a layout, with the words JSON uses for what is not finite. -/
def Repr.text : Repr → String
  | .fixed neg n scale =>
    let ds := (Nat.toDigits 10 n).leftpad (scale + 1) '0'
    signed neg (String.ofList (ds.take (ds.length - scale) ++ '.' :: ds.drop (ds.length - scale)))
  | .sci neg n e =>
    let ds := Nat.toDigits 10 n
    let x := e + ds.length - 1
    let frac := if ds.length = 1 then [] else '.' :: ds.drop 1
    let exp := (Nat.toDigits 10 x.natAbs).leftpad 2 '0'
    signed neg
      (String.ofList (ds.take 1 ++ frac ++ 'e' :: (if x < 0 then '-' else '+') :: exp))
  | .inf => "Infinity"
  | .negInf => "-Infinity"
  | .nan => "NaN"

end Py
