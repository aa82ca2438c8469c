import Mathlib.Data.Rat.Floor
import Tronado.Lib.Rounding

/-!
# Division of decimals

`Dec.div` is `a / b` in a decimal context, as the `decimal` module computes it: the
integer quotient to one digit more than the precision, its last digit moved off the
multiples of five when there is a remainder, and then `Dec.fix`, which rounds half to
even into the range of the context.

* `rounded`: the number of the context nearest to a positive one, as if exponents had
  no upper bound.
* `fix_rounds`: `fix` rounds, and overflows from `10 ^ (emax + 1)` on.
* `div_rounds`: so does division, on the exact quotient.
* `rounded_lt_iff`, `rounded_eq_iff`: when a quotient stays in range, and when it
  keeps all its digits.
-/

namespace Py

/-- A decimal context that rounds half to even and has no clamp. -/
structure Context where
  prec : ℕ
  emin : ℤ
  emax : ℤ
  prec_pos : 0 < prec
  emin_le : emin ≤ emax

namespace Context

/-- `Etiny()`: the least exponent. -/
def etiny (ctx : Context) : ℤ := ctx.emin - ctx.prec + 1

/-- `Etop()`: the largest exponent of a full coefficient. -/
def etop (ctx : Context) : ℤ := ctx.emax - ctx.prec + 1

theorem etiny_le_etop (ctx : Context) : ctx.etiny ≤ ctx.etop := by
  have := ctx.emin_le
  unfold etiny etop
  omega

end Context

/-- The signals that are trapped. -/
inductive Signal
  | overflow
  | divisionByZero
  | invalidOperation
  deriving DecidableEq

/-- `_round_half_even`: the integer nearest to `c / 10 ^ k`. -/
def roundDigits (c k : ℕ) : ℕ :=
  let q := c / 10 ^ k
  let r := c % 10 ^ k
  if 2 * r < 10 ^ k then q else if 10 ^ k < 2 * r then q + 1 else if q % 2 = 0 then q else q + 1

/-- `_fix(context)`. -/
def Dec.fix (ctx : Context) (d : Dec) : Except Signal Dec :=
  if d.coeff = 0 then .ok { d with exp := min (max d.exp ctx.etiny) ctx.emax }
  else
    let expMin := digitCount d.coeff + d.exp - ctx.prec
    if ctx.etop < expMin then .error .overflow
    else
      let expMin := max expMin ctx.etiny
      if d.exp < expMin then
        -- nothing is left of a number below a tenth of the unit
        let c := if digitCount d.coeff + d.exp < expMin then 0
          else roundDigits d.coeff (expMin - d.exp).toNat
        let (c, expMin) := if ctx.prec < digitCount c then (c / 10, expMin + 1) else (c, expMin)
        if ctx.etop < expMin then .error .overflow else .ok ⟨d.neg, c, expMin⟩
      else .ok d

/-- Drop trailing zeros, `n` of them at most. -/
def stripZeros : ℕ → ℕ → ℤ → ℕ × ℤ
  | 0, c, e => (c, e)
  | n + 1, c, e => if c % 10 = 0 then stripZeros n (c / 10) (e + 1) else (c, e)

/-- `a / b`. -/
def Dec.div (ctx : Context) (a b : Dec) : Except Signal Dec :=
  let neg := a.neg != b.neg
  if b.coeff = 0 then .error (if a.coeff = 0 then .invalidOperation else .divisionByZero)
  else if a.coeff = 0 then Dec.fix ctx ⟨neg, 0, a.exp - b.exp⟩
  else
    let shift : ℤ := digitCount b.coeff - digitCount a.coeff + ctx.prec + 1
    let exp := a.exp - b.exp - shift
    let n := a.coeff * 10 ^ shift.toNat
    let m := b.coeff * 10 ^ (-shift).toNat
    let c := n / m
    if n % m ≠ 0 then Dec.fix ctx ⟨neg, if c % 5 = 0 then c + 1 else c, exp⟩
    else
      -- exact: up to the exponent that the operands suggest
      let (c, exp) := stripZeros shift.toNat c exp
      Dec.fix ctx ⟨neg, c, exp⟩

/-- The number without its sign. -/
def Dec.magnitude (d : Dec) : ℚ := d.coeff * 10 ^ d.exp

theorem Dec.toRat_eq (d : Dec) : d.toRat = (if d.neg then -1 else 1) * d.magnitude := by
  rw [Dec.toRat, Dec.magnitude, mul_assoc]

theorem Dec.magnitude_pos {d : Dec} (h : d.coeff ≠ 0) : 0 < d.magnitude :=
  mul_pos (by exact_mod_cast Nat.pos_of_ne_zero h) (ten_zpow_pos _)

/-! ## Digits -/

theorem log_eq_iff {x : ℚ} (hx : 0 < x) {m : ℤ} :
    Int.log 10 x = m ↔ 10 ^ m ≤ x ∧ x < 10 ^ (m + 1) := by
  have hle := Int.zpow_le_iff_le_log (b := 10) (by norm_num) hx (x := m)
  have hlt := Int.lt_zpow_iff_log_lt (b := 10) (by norm_num) hx (x := m + 1)
  push_cast at hle hlt
  rw [hle, hlt]
  omega

/-- The digits of a coefficient place a decimal in its decade. -/
theorem log_magnitude {d : Dec} (h : d.coeff ≠ 0) :
    Int.log 10 d.magnitude = digitCount d.coeff + d.exp - 1 := by
  have hlo : (10 : ℚ) ^ Nat.log 10 d.coeff ≤ d.coeff := by
    exact_mod_cast Nat.pow_log_le_self 10 h
  have hhi : (d.coeff : ℚ) < 10 ^ (Nat.log 10 d.coeff + 1) := by
    exact_mod_cast Nat.lt_pow_succ_log_self (by norm_num) d.coeff
  have he : (digitCount d.coeff : ℤ) + d.exp - 1 = Nat.log 10 d.coeff + d.exp := by
    rw [digitCount_eq h]; push_cast; ring
  rw [log_eq_iff (Dec.magnitude_pos h), he]
  refine ⟨?_, ?_⟩
  · rw [ten_zpow_add]
    exact mul_le_mul_of_nonneg_right hlo (ten_zpow_pos _).le
  · have hexp :
        (Nat.log 10 d.coeff : ℤ) + d.exp + 1 = ((Nat.log 10 d.coeff + 1 : ℕ) : ℤ) + d.exp := by
      push_cast; ring
    rw [hexp, ten_zpow_add]
    exact mul_lt_mul_of_pos_right hhi (ten_zpow_pos _)

theorem roundDigits_eq (c k : ℕ) :
    (roundDigits c k : ℤ) = Double.roundHalfEven ((c : ℚ) / 10 ^ k) := by
  have hpowq : (0 : ℚ) < 10 ^ k := by positivity
  have hdiv : (c : ℚ) = (c / 10 ^ k : ℕ) * 10 ^ k + (c % 10 ^ k : ℕ) := by
    exact_mod_cast (Nat.div_add_mod' c (10 ^ k)).symm
  have hx : (c : ℚ) / 10 ^ k = (c / 10 ^ k : ℕ) + (c % 10 ^ k : ℕ) / 10 ^ k := by
    rw [div_eq_iff hpowq.ne', add_mul, div_mul_cancel₀ _ hpowq.ne']
    exact hdiv
  have hfloor : ((c : ℚ) / 10 ^ k).floor = ((c / 10 ^ k : ℕ) : ℤ) := by
    have h := Rat.floor_natCast_div_natCast c (10 ^ k)
    push_cast at h ⊢
    exact h
  have hhalf : (c : ℚ) / 10 ^ k - ((c / 10 ^ k : ℕ) : ℤ) = (c % 10 ^ k : ℕ) / 10 ^ k := by
    rw [hx, Int.cast_natCast]; ring
  have hless : ((c % 10 ^ k : ℕ) : ℚ) / 10 ^ k < 1 / 2 ↔ 2 * (c % 10 ^ k) < 10 ^ k := by
    rw [div_lt_div_iff₀ hpowq (by norm_num)]
    constructor <;> intro h
    · have : ((c % 10 ^ k : ℕ) : ℚ) * 2 < 10 ^ k := by linarith
      rw [mul_comm] at this
      exact_mod_cast this
    · have : (2 : ℚ) * (c % 10 ^ k : ℕ) < 10 ^ k := by exact_mod_cast h
      linarith
  have hmore : (1 : ℚ) / 2 < (c % 10 ^ k : ℕ) / 10 ^ k ↔ 10 ^ k < 2 * (c % 10 ^ k) := by
    rw [div_lt_div_iff₀ (by norm_num) hpowq]
    constructor <;> intro h
    · have : (10 : ℚ) ^ k < 2 * (c % 10 ^ k : ℕ) := by linarith
      exact_mod_cast this
    · have : (10 : ℚ) ^ k < 2 * (c % 10 ^ k : ℕ) := by exact_mod_cast h
      linarith
  have heven : ((c / 10 ^ k : ℕ) : ℤ) % 2 = 0 ↔ c / 10 ^ k % 2 = 0 := by omega
  unfold roundDigits Double.roundHalfEven
  simp only [hfloor, hhalf, hless, hmore, heven]
  split_ifs <;> push_cast <;> rfl

theorem stripZeros_spec (n c : ℕ) (e : ℤ) :
    ((stripZeros n c e).1 : ℚ) * 10 ^ (stripZeros n c e).2 = c * 10 ^ e ∧
      (c ≠ 0 → (stripZeros n c e).1 ≠ 0) := by
  induction n generalizing c e with
  | zero => exact ⟨rfl, id⟩
  | succ n ih =>
    rw [stripZeros]
    split
    · next h =>
      obtain ⟨hvalue, hne⟩ := ih (c / 10) (e + 1)
      refine ⟨?_, fun hc => hne (by omega)⟩
      have hten : (c : ℚ) = (c / 10 : ℕ) * 10 := by exact_mod_cast (by omega : c = c / 10 * 10)
      rw [hvalue, zpow_add_one₀ (by norm_num)]
      conv_rhs => rw [hten]
      ring
    · exact ⟨rfl, id⟩

/-! ## Numbers between the same multiples -/

/-- Two numbers lie strictly between the same neighbouring multiples of `u`. -/
def Together (u x y : ℚ) : Prop :=
  ∃ k : ℤ, (k * u < x ∧ x < (k + 1) * u) ∧ (k * u < y ∧ y < (k + 1) * u)

section

variable {u x y : ℚ} (hu : 0 < u)
include hu

theorem Together.le_iff (h : Together u x y) (j : ℤ) : j * u ≤ x ↔ j * u ≤ y := by
  obtain ⟨k, ⟨hx, hx'⟩, hy, hy'⟩ := h
  have below {z : ℚ} (hz : j * u ≤ z) (hz' : z < (k + 1) * u) : (j : ℚ) * u ≤ k * u := by
    have hlt : (j : ℚ) < k + 1 := lt_of_mul_lt_mul_right (hz.trans_lt hz') hu.le
    have hle : j ≤ k := by
      have : j < k + 1 := by exact_mod_cast hlt
      omega
    exact mul_le_mul_of_nonneg_right (by exact_mod_cast hle) hu.le
  exact ⟨fun hj => (below hj hx').trans hy.le, fun hj => (below hj hy').trans hx.le⟩

theorem Together.mul (h : Together u x y) {n : ℕ} (hn : 0 < n) : Together (n * u) x y := by
  obtain ⟨k, ⟨hx, hx'⟩, hy, hy'⟩ := h
  have hlo : ((k / n : ℤ) : ℚ) * (n * u) ≤ k * u := by
    rw [← mul_assoc]
    refine mul_le_mul_of_nonneg_right ?_ hu.le
    exact_mod_cast Int.ediv_mul_le k (by omega)
  have hhi : ((k : ℚ) + 1) * u ≤ ((k / n : ℤ) + 1) * (n * u) := by
    rw [← mul_assoc]
    refine mul_le_mul_of_nonneg_right ?_ hu.le
    have hlt := Int.lt_ediv_add_one_mul_self k (b := n) (by omega)
    exact_mod_cast Int.add_one_le_of_lt hlt
  exact ⟨k / n, ⟨hlo.trans_lt hx, hx'.trans_le hhi⟩, hlo.trans_lt hy, hy'.trans_le hhi⟩

theorem Together.scale (h : Together 5 x y) : Together (5 * u) (x * u) (y * u) := by
  obtain ⟨k, ⟨hx, hx'⟩, hy, hy'⟩ := h
  refine ⟨k, ⟨?_, ?_⟩, ?_, ?_⟩ <;> rw [← mul_assoc] <;>
    exact mul_lt_mul_of_pos_right ‹_› hu

end

theorem roundHalfEven_congr {p q : ℚ} (h : Together (1 / 2) p q) :
    Double.roundHalfEven p = Double.roundHalfEven q := by
  obtain ⟨k, ⟨hp, hp'⟩, hq, hq'⟩ := h
  -- both are near the even half
  have near {z : ℚ} (hz : (k : ℚ) * (1 / 2) < z) (hz' : z < (k + 1) * (1 / 2)) :
      Double.roundHalfEven z = (k + 1) / 2 := by
    apply roundHalfEven_of_near
    rw [abs_lt]
    rcases Int.emod_two_eq_zero_or_one k with hk | hk
    · have hkk : (k : ℚ) = 2 * ((k + 1) / 2 : ℤ) := by
        exact_mod_cast (by omega : k = 2 * ((k + 1) / 2))
      constructor <;> linarith
    · have hkk : (k : ℚ) + 1 = 2 * ((k + 1) / 2 : ℤ) := by
        exact_mod_cast (by omega : k + 1 = 2 * ((k + 1) / 2))
      constructor <;> linarith
  rw [near hp hp', near hq hq']

theorem roundTo_congr {s x y : ℚ} (hs : 0 < s) (h : Together (s / 2) x y) :
    roundTo s x = roundTo s y := by
  obtain ⟨k, ⟨hx, hx'⟩, hy, hy'⟩ := h
  have hhalf : Together (1 / 2) (x / s) (y / s) := by
    refine ⟨k, ⟨?_, ?_⟩, ?_, ?_⟩
    · rw [lt_div_iff₀ hs]; linarith
    · rw [div_lt_iff₀ hs]; linarith
    · rw [lt_div_iff₀ hs]; linarith
    · rw [div_lt_iff₀ hs]; linarith
  rw [roundTo, roundTo, roundHalfEven_congr hhalf]

/-! ## Rounding into a context -/

section

variable (ctx : Context)

/-- The exponent of the last digit the context has for `x`. -/
def lastExp (x : ℚ) : ℤ := max (Int.log 10 x - ctx.prec + 1) ctx.etiny

/-- The number of the context nearest to `x`, as if exponents had no upper bound. -/
def rounded (x : ℚ) : ℚ := roundTo (10 ^ lastExp ctx x) x

theorem roundTo_le {s q : ℚ} (hs : 0 < s) {n : ℤ} (h : q ≤ n * s) : roundTo s q ≤ n * s := by
  have := roundTo_mono hs h
  rwa [roundTo_mul hs] at this

theorem le_roundTo {s q : ℚ} (hs : 0 < s) {n : ℤ} (h : n * s ≤ q) : n * s ≤ roundTo s q := by
  have := roundTo_mono hs h
  rwa [roundTo_mul hs] at this

/-- A power of ten in units of a lower one. -/
theorem ten_zpow_eq_mul {m e : ℤ} (h : e ≤ m) :
    (10 : ℚ) ^ m = ((10 ^ (m - e).toNat : ℕ) : ℤ) * 10 ^ e := by
  obtain ⟨k, rfl⟩ : ∃ k : ℕ, m = k + e := ⟨(m - e).toNat, by omega⟩
  rw [ten_zpow_add, add_sub_cancel_right, Int.toNat_natCast]
  push_cast
  rfl

variable {ctx} {x : ℚ}

theorem lastExp_le_log (h : ctx.emin ≤ Int.log 10 x) : lastExp ctx x ≤ Int.log 10 x := by
  have := ctx.prec_pos
  unfold lastExp Context.etiny
  omega

variable (hx : 0 < x)
include hx

theorem le_log_iff {m : ℤ} : 10 ^ m ≤ x ↔ m ≤ Int.log 10 x := by
  have := Int.zpow_le_iff_le_log (b := 10) (by norm_num) hx (x := m)
  exact_mod_cast this

/-- No number gets more than `prec` digits. -/
theorem rounded_le_top : rounded ctx x ≤ 10 ^ (lastExp ctx x + ctx.prec) := by
  have hlt := (log_eq_iff hx).mp rfl |>.2
  have htop : x ≤ 10 ^ (lastExp ctx x + ctx.prec) :=
    hlt.le.trans (zpow_le_zpow_right₀ (by norm_num) (by unfold lastExp; omega))
  rw [ten_zpow_eq_mul (e := lastExp ctx x) (by omega)] at htop ⊢
  exact roundTo_le (ten_zpow_pos _) htop

/-- Numbers above the range stay there. -/
theorem le_rounded_of_le (h : 10 ^ (ctx.emax + 1) ≤ x) : 10 ^ (ctx.emax + 1) ≤ rounded ctx x := by
  have hlog := (le_log_iff hx).mp h
  have hle : lastExp ctx x ≤ Int.log 10 x :=
    lastExp_le_log (by have := ctx.emin_le; omega)
  have hself := (log_eq_iff hx).mp rfl |>.1
  refine (zpow_le_zpow_right₀ (by norm_num) hlog).trans ?_
  rw [ten_zpow_eq_mul hle] at hself ⊢
  exact le_roundTo (ten_zpow_pos _) hself

end

/-- What a context makes of a positive number: its rounding, or an overflow. -/
def Rounds (ctx : Context) (neg : Bool) (x : ℚ) (out : Except Signal Dec) : Prop :=
  (10 ^ (ctx.emax + 1) ≤ rounded ctx x ∧ out = .error .overflow) ∨
    (rounded ctx x < 10 ^ (ctx.emax + 1) ∧
      ∃ r, out = .ok r ∧ r.neg = neg ∧ r.magnitude = rounded ctx x)

section

variable {ctx : Context} {x : ℚ} {c : ℕ} (neg : Bool)

/-- A coefficient that fits is kept. -/
theorem rounds_kept (hin : lastExp ctx x ≤ ctx.etop)
    (hc : rounded ctx x = c * 10 ^ lastExp ctx x) (hlt : c < 10 ^ ctx.prec) :
    Rounds ctx neg x (.ok ⟨neg, c, lastExp ctx x⟩) := by
  have hq : (c : ℚ) < 10 ^ ctx.prec := by exact_mod_cast hlt
  refine Or.inr ⟨?_, _, rfl, rfl, hc.symm⟩
  calc rounded ctx x = c * 10 ^ lastExp ctx x := hc
    _ < 10 ^ ctx.prec * 10 ^ lastExp ctx x := mul_lt_mul_of_pos_right hq (ten_zpow_pos _)
    _ = 10 ^ (ctx.prec + lastExp ctx x) := (ten_zpow_add _ _).symm
    _ ≤ 10 ^ (ctx.emax + 1) :=
      zpow_le_zpow_right₀ (by norm_num) (by unfold Context.etop at hin; omega)

/-- A coefficient that was rounded up to the next power of ten loses its last zero. -/
theorem rounds_carried (hc : rounded ctx x = (10 ^ ctx.prec : ℕ) * 10 ^ lastExp ctx x) :
    Rounds ctx neg x
      (if ctx.etop < lastExp ctx x + 1 then .error .overflow
        else .ok ⟨neg, 10 ^ ctx.prec / 10, lastExp ctx x + 1⟩) := by
  have hpow : rounded ctx x = 10 ^ (ctx.prec + lastExp ctx x) := by
    rw [hc, ten_zpow_add]
    push_cast
    rfl
  split
  · next hover =>
    refine Or.inl ⟨?_, rfl⟩
    rw [hpow]
    exact zpow_le_zpow_right₀ (by norm_num) (by unfold Context.etop at hover; omega)
  · next hin =>
    refine Or.inr ⟨?_, _, rfl, rfl, ?_⟩
    · rw [hpow]
      exact zpow_lt_zpow_right₀ (by norm_num) (by unfold Context.etop at hin; omega)
    · have hten : 10 ^ ctx.prec / 10 * 10 = 10 ^ ctx.prec :=
        Nat.div_mul_cancel (dvd_pow_self 10 ctx.prec_pos.ne')
      have htenq : ((10 ^ ctx.prec / 10 : ℕ) : ℚ) * 10 = ((10 ^ ctx.prec : ℕ) : ℚ) := by
        exact_mod_cast hten
      rw [hc, Dec.magnitude, zpow_add_one₀ (by norm_num), ← htenq]
      ring

end

section

variable {ctx : Context} {d : Dec} (hd : d.coeff ≠ 0)
include hd

/-- The coefficient that is left at the exponent `e`. -/
theorem fix_coeff {e : ℤ} (he : d.exp < e) :
    ((if digitCount d.coeff + d.exp < e then 0
      else roundDigits d.coeff (e - d.exp).toNat : ℕ) : ℚ) * 10 ^ e =
        roundTo (10 ^ e) d.magnitude := by
  split
  · next hsmall =>
    have hlt := (log_eq_iff (Dec.magnitude_pos hd)).mp (log_magnitude hd) |>.2
    have htenth : (10 : ℚ) ^ (digitCount d.coeff + d.exp - 1 + 1) ≤ 10 ^ (e - 1) :=
      zpow_le_zpow_right₀ (by norm_num) (by omega)
    have hten : (10 : ℚ) ^ e = 10 * 10 ^ (e - 1) := by
      rw [← zpow_one_add₀ (by norm_num)]
      congr 1
      ring
    have hpos := Dec.magnitude_pos hd
    have hnear : |d.magnitude - ((0 : ℤ) : ℚ) * 10 ^ e| < 10 ^ e / 2 := by
      rw [Int.cast_zero, zero_mul, sub_zero, abs_of_pos hpos]
      linarith
    rw [roundTo_of_near (ten_zpow_pos e) hnear]
    simp
  · have hk : (((e - d.exp).toNat : ℕ) : ℤ) = e - d.exp := Int.toNat_of_nonneg (by omega)
    have hdiv : d.magnitude / 10 ^ e = d.coeff / 10 ^ (e - d.exp).toNat := by
      rw [← zpow_natCast, hk, zpow_sub₀ (by norm_num), Dec.magnitude]
      field_simp
    rw [roundTo, hdiv, ← roundDigits_eq, Int.cast_natCast]

omit hd in
/-- What has no digit behind the last one is not rounded. -/
theorem rounded_of_le_exp (h : lastExp ctx d.magnitude ≤ d.exp) :
    rounded ctx d.magnitude = d.magnitude := by
  have hmul : d.magnitude = ((d.coeff * 10 ^ (d.exp - lastExp ctx d.magnitude).toNat : ℕ) : ℤ) *
      10 ^ lastExp ctx d.magnitude := by
    conv_lhs => rw [Dec.magnitude, ten_zpow_eq_mul h]
    push_cast
    ring
  rw [rounded]
  conv_lhs => arg 2; rw [hmul]
  rw [roundTo_mul (ten_zpow_pos _), ← hmul]

variable (ctx) in
/-- **`fix` rounds once.** -/
theorem fix_rounds : Rounds ctx d.neg d.magnitude (d.fix ctx) := by
  have hpos := Dec.magnitude_pos hd
  have hlog := log_magnitude hd
  have hlast : max (digitCount d.coeff + d.exp - ctx.prec) ctx.etiny =
      lastExp ctx d.magnitude := by
    unfold lastExp
    rw [hlog]
    congr 1
    ring
  have hbound := ctx.etiny_le_etop
  unfold Dec.fix
  rw [if_neg hd]
  simp only [hlast]
  split
  · next hover =>
    have hle : 10 ^ (ctx.emax + 1) ≤ d.magnitude :=
      (le_log_iff hpos).mpr (by unfold Context.etop at hover; omega)
    exact Or.inl ⟨le_rounded_of_le hpos hle, rfl⟩
  · next hin =>
    have hetop : lastExp ctx d.magnitude ≤ ctx.etop := by rw [← hlast]; omega
    split
    · next hexp =>
      have hcoeff := fix_coeff hd hexp
      generalize (if digitCount d.coeff + d.exp < lastExp ctx d.magnitude then 0
        else roundDigits d.coeff (lastExp ctx d.magnitude - d.exp).toNat : ℕ) = c at hcoeff ⊢
      have hc : c ≤ 10 ^ ctx.prec := by
        have htop : rounded ctx d.magnitude ≤ 10 ^ (lastExp ctx d.magnitude + ctx.prec) :=
          rounded_le_top hpos
        rw [rounded, ← hcoeff, add_comm, ten_zpow_add] at htop
        exact_mod_cast le_of_mul_le_mul_right htop (ten_zpow_pos _)
      have hdigits : digitCount c ≤ ctx.prec ↔ c < 10 ^ ctx.prec :=
        Nat.length_toDigits_le_iff (by norm_num) ctx.prec_pos
      by_cases hfull : ctx.prec < digitCount c
      · obtain rfl : c = 10 ^ ctx.prec := le_antisymm hc (by rw [← not_lt, ← hdigits]; omega)
        simp only [if_pos hfull]
        exact rounds_carried d.neg hcoeff.symm
      · simp only [if_neg hfull, if_neg (not_lt.mpr hetop)]
        exact rounds_kept d.neg hetop hcoeff.symm (hdigits.mp (not_lt.mp hfull))
    · next hexp =>
      have hself := rounded_of_le_exp (not_lt.mp hexp)
      refine Or.inr ⟨?_, d, rfl, rfl, hself.symm⟩
      rw [hself, ← not_le, le_log_iff hpos, hlog]
      unfold Context.etop at hin
      omega

end

/-! ## The quotient -/

/-- A power of ten from its two natural halves. -/
theorem ten_zpow_toNat (m : ℤ) : (10 : ℚ) ^ m = 10 ^ m.toNat / 10 ^ (-m).toNat := by
  rcases le_total 0 m with h | h
  · rw [Int.toNat_of_nonpos (by omega : -m ≤ 0), pow_zero, div_one, ← zpow_natCast,
      Int.toNat_of_nonneg h]
  · rw [Int.toNat_of_nonpos h, pow_zero, one_div, ← zpow_natCast, Int.toNat_of_nonneg (by omega),
      zpow_neg, inv_inv]

/-- **The moved last digit stands for the remainder.** -/
theorem together_quotient {n m : ℕ} (hm : 0 < m) (hr : n % m ≠ 0) :
    Together 5 (((if n / m % 5 = 0 then n / m + 1 else n / m) : ℕ) : ℚ) ((n : ℚ) / m) := by
  have hmq : (0 : ℚ) < m := by exact_mod_cast hm
  have hdiv : (n : ℚ) = (n / m : ℕ) * m + (n % m : ℕ) := by
    exact_mod_cast (Nat.div_add_mod' n m).symm
  have hrpos : (0 : ℚ) < (n % m : ℕ) := by exact_mod_cast Nat.pos_of_ne_zero hr
  have hrlt : ((n % m : ℕ) : ℚ) < m := by exact_mod_cast Nat.mod_lt n hm
  have hlo : ((n / m : ℕ) : ℚ) < n / m := by rw [lt_div_iff₀ hmq]; linarith
  have hhi : (n : ℚ) / m < (n / m : ℕ) + 1 := by rw [div_lt_iff₀ hmq, add_mul]; linarith
  have hk : ((n / m / 5 : ℕ) : ℚ) * 5 ≤ (n / m : ℕ) := by
    exact_mod_cast Nat.div_mul_le_self (n / m) 5
  have hk' : ((n / m : ℕ) : ℚ) + 1 ≤ ((n / m / 5 : ℕ) + 1) * 5 := by
    exact_mod_cast (by omega : n / m + 1 ≤ (n / m / 5 + 1) * 5)
  refine ⟨(n / m / 5 : ℕ), ⟨?_, ?_⟩, ?_, ?_⟩
  · rw [Int.cast_natCast]
    exact_mod_cast (by split <;> omega :
      n / m / 5 * 5 < if n / m % 5 = 0 then n / m + 1 else n / m)
  · rw [Int.cast_natCast]
    exact_mod_cast (by split <;> omega :
      (if n / m % 5 = 0 then n / m + 1 else n / m) < (n / m / 5 + 1) * 5)
  · rw [Int.cast_natCast]; linarith
  · rw [Int.cast_natCast]; linarith

/-- Numbers of more than `prec` digits that lie together are rounded together. -/
theorem rounded_congr {ctx : Context} {x y : ℚ} {e : ℤ} (hx : 0 < x) (hy : 0 < y)
    (h : Together (5 * 10 ^ e) x y) (hbig : 10 ^ (ctx.prec + e) ≤ x) :
    rounded ctx x = rounded ctx y := by
  have hu : (0 : ℚ) < 5 * 10 ^ e := mul_pos (by norm_num) (ten_zpow_pos e)
  -- powers of ten above `e` are multiples of the common unit
  have hpow {m : ℤ} (hm : e + 1 ≤ m) :
      (10 : ℚ) ^ m = ((2 * 10 ^ (m - (e + 1)).toNat : ℕ) : ℤ) * (5 * 10 ^ e) := by
    rw [ten_zpow_eq_mul hm, zpow_add_one₀ (by norm_num)]
    push_cast
    ring
  have hle {m : ℤ} (hm : e + 1 ≤ m) : 10 ^ m ≤ x ↔ 10 ^ m ≤ y := by
    rw [hpow hm]
    exact h.le_iff hu _
  have hprec := ctx.prec_pos
  have hlogx : ctx.prec + e ≤ Int.log 10 x := (le_log_iff hx).mp hbig
  have hlog : Int.log 10 y = Int.log 10 x := by
    obtain ⟨hlo, hhi⟩ := (log_eq_iff hx).mp rfl
    rw [log_eq_iff hy]
    exact ⟨(hle (by omega)).mp hlo, not_le.mp fun hc => not_le.mpr hhi ((hle (by omega)).mpr hc)⟩
  have hlast : lastExp ctx y = lastExp ctx x := by rw [lastExp, lastExp, hlog]
  have he : e + 1 ≤ lastExp ctx x := by unfold lastExp; omega
  have hhalf : Together (10 ^ lastExp ctx x / 2) x y := by
    have hmul := h.mul hu (n := 10 ^ (lastExp ctx x - (e + 1)).toNat) (by positivity)
    have heq : ((10 ^ (lastExp ctx x - (e + 1)).toNat : ℕ) : ℚ) * (5 * 10 ^ e) =
        10 ^ lastExp ctx x / 2 := by
      rw [hpow he]
      push_cast
      ring
    rwa [heq] at hmul
  rw [rounded, rounded, hlast, roundTo_congr (ten_zpow_pos _) hhalf]

/-- A quotient from the integer quotient of coefficients, one of them shifted. -/
theorem magnitude_div (a : Dec) {b : Dec} (hb : b.coeff ≠ 0) (shift : ℤ) :
    a.magnitude / b.magnitude =
      ((a.coeff * 10 ^ shift.toNat : ℕ) : ℚ) / (b.coeff * 10 ^ (-shift).toNat : ℕ) *
        10 ^ (a.exp - b.exp - shift) := by
  have hnm : ((a.coeff * 10 ^ shift.toNat : ℕ) : ℚ) / (b.coeff * 10 ^ (-shift).toNat : ℕ) =
      a.coeff / b.coeff * 10 ^ shift := by
    rw [ten_zpow_toNat shift]
    push_cast
    field_simp
  rw [hnm, mul_assoc, ← zpow_add₀ (by norm_num), Dec.magnitude, Dec.magnitude,
    show shift + (a.exp - b.exp - shift) = a.exp - b.exp by ring, zpow_sub₀ (by norm_num)]
  field_simp

/-- The shift leaves more digits than `k` in the integer quotient. -/
theorem le_quotient {a b : ℕ} (ha : a ≠ 0) (hb : b ≠ 0) (k : ℕ) {shift : ℤ}
    (hs : shift = digitCount b - digitCount a + k + 1) :
    10 ^ k ≤ a * 10 ^ shift.toNat / (b * 10 ^ (-shift).toNat) := by
  rw [Nat.le_div_iff_mul_le (by positivity)]
  have hlo : 10 ^ (digitCount a - 1) ≤ a := by
    rw [digitCount_eq ha]
    exact Nat.pow_log_le_self 10 ha
  have hhi : b ≤ 10 ^ digitCount b :=
    ((Nat.length_toDigits_le_iff (by norm_num) Nat.length_toDigits_pos).mp le_rfl).le
  have hexp : k + digitCount b + (-shift).toNat = digitCount a - 1 + shift.toNat := by
    have hpos : 0 < digitCount a := Nat.length_toDigits_pos
    omega
  calc 10 ^ k * (b * 10 ^ (-shift).toNat)
      ≤ 10 ^ k * (10 ^ digitCount b * 10 ^ (-shift).toNat) := by gcongr
    _ = 10 ^ (digitCount a - 1) * 10 ^ shift.toNat := by
      rw [← mul_assoc, ← pow_add, ← pow_add, ← pow_add, hexp]
    _ ≤ a * 10 ^ shift.toNat := Nat.mul_le_mul_right _ hlo

/-- **Division rounds the exact quotient once.** -/
theorem div_rounds (ctx : Context) {a b : Dec} (ha : a.coeff ≠ 0) (hb : b.coeff ≠ 0) :
    Rounds ctx (a.neg != b.neg) (a.magnitude / b.magnitude) (Dec.div ctx a b) := by
  have hapos := Dec.magnitude_pos ha
  have hbpos := Dec.magnitude_pos hb
  unfold Dec.div
  simp only [if_neg ha, if_neg hb]
  set shift : ℤ := digitCount b.coeff - digitCount a.coeff + ctx.prec + 1
  set n := a.coeff * 10 ^ shift.toNat
  set m := b.coeff * 10 ^ (-shift).toNat
  have hm : 0 < m := by positivity
  have hmq : (0 : ℚ) < m := by exact_mod_cast hm
  have hquot : a.magnitude / b.magnitude = (n : ℚ) / m * 10 ^ (a.exp - b.exp - shift) :=
    magnitude_div a hb shift
  have hbig : 10 ^ ctx.prec ≤ n / m := le_quotient ha hb ctx.prec rfl
  have hone : 0 < 10 ^ ctx.prec := by positivity
  rw [hquot]
  split
  · next hr =>
    have htogether := (together_quotient hm hr).scale (ten_zpow_pos (a.exp - b.exp - shift))
    have hc : 10 ^ ctx.prec ≤ if n / m % 5 = 0 then n / m + 1 else n / m := by split <;> omega
    have hge : (10 : ℚ) ^ (ctx.prec + (a.exp - b.exp - shift)) ≤
        ((if n / m % 5 = 0 then n / m + 1 else n / m : ℕ) : ℚ) * 10 ^ (a.exp - b.exp - shift) := by
      rw [ten_zpow_add]
      exact mul_le_mul_of_nonneg_right (by exact_mod_cast hc) (ten_zpow_pos _).le
    have hfix := fix_rounds ctx (d := ⟨a.neg != b.neg,
      if n / m % 5 = 0 then n / m + 1 else n / m, a.exp - b.exp - shift⟩) (by dsimp only; omega)
    have hcongr := rounded_congr ((ten_zpow_pos _).trans_le hge)
      (hquot ▸ div_pos hapos hbpos) htogether hge
    unfold Rounds at hfix ⊢
    rwa [← hcongr]
  · next hr =>
    have hexact : (n : ℚ) / m = (n / m : ℕ) := by
      rw [div_eq_iff hmq.ne']
      exact_mod_cast (Nat.div_mul_cancel (Nat.dvd_of_mod_eq_zero (not_not.mp hr))).symm
    obtain ⟨hvalue, hne⟩ := stripZeros_spec shift.toNat (n / m) (a.exp - b.exp - shift)
    have hfix := fix_rounds ctx (d := ⟨a.neg != b.neg,
      (stripZeros shift.toNat (n / m) (a.exp - b.exp - shift)).1,
      (stripZeros shift.toNat (n / m) (a.exp - b.exp - shift)).2⟩) (hne (by omega))
    rw [hexact, ← hvalue]
    exact hfix

/-! ## Keeping the digits -/

/-- `x` to `n` significant digits, half to even. -/
def roundSig (n : ℕ) (x : ℚ) : ℚ := roundTo (10 ^ (Int.log 10 |x| - n + 1)) x

theorem roundSig_zero (n : ℕ) : roundSig n 0 = 0 := by
  have := roundTo_mul (ten_zpow_pos (Int.log 10 |(0 : ℚ)| - n + 1)) 0
  simpa [roundSig] using this

theorem roundSig_neg (n : ℕ) (x : ℚ) : roundSig n (-x) = -roundSig n x := by
  rw [roundSig, roundSig, abs_neg, roundTo, roundTo, neg_div, roundHalfEven_neg]
  push_cast
  ring

theorem roundSig_sign (n : ℕ) (b : Bool) (x : ℚ) :
    roundSig n ((if b then -1 else 1) * x) = (if b then -1 else 1) * roundSig n x := by
  cases b
  · simp
  · simpa using roundSig_neg n x

section

variable {ctx : Context} {x : ℚ} (hx : 0 < x)
include hx

/-- **When a number does not overflow.** -/
theorem rounded_lt_iff :
    rounded ctx x < 10 ^ (ctx.emax + 1) ↔ x < (10 ^ ctx.prec - 1 / 2) * 10 ^ ctx.etop := by
  have hprec := ctx.prec_pos
  have hemin := ctx.emin_le
  have hs := ten_zpow_pos ctx.etop
  have htop : (10 : ℚ) ^ (ctx.emax + 1) = 10 ^ ctx.prec * 10 ^ ctx.etop := by
    rw [← ten_zpow_add]
    congr 1
    unfold Context.etop
    ring
  obtain ⟨hlo, hhi⟩ := (log_eq_iff hx).mp rfl
  rcases lt_trichotomy (Int.log 10 x) ctx.emax with hlt | he | hgt
  · have hle : lastExp ctx x ≤ ctx.emax := by
      unfold lastExp Context.etiny
      omega
    have hbelow : x < 10 ^ ctx.emax := hhi.trans_le (zpow_le_zpow_right₀ (by norm_num) (by omega))
    have hmax : rounded ctx x ≤ 10 ^ ctx.emax := by
      have hbound := hbelow.le
      rw [ten_zpow_eq_mul hle] at hbound ⊢
      exact roundTo_le (ten_zpow_pos _) hbound
    refine iff_of_true (hmax.trans_lt (zpow_lt_zpow_right₀ (by norm_num) (by omega))) ?_
    have hdecade : (10 : ℚ) ^ (ctx.emax + 1) = 10 * 10 ^ ctx.emax := by
      rw [zpow_add_one₀ (by norm_num), mul_comm]
    have hten : (10 : ℚ) ≤ 10 ^ ctx.prec := by
      calc (10 : ℚ) = 10 ^ 1 := (pow_one _).symm
        _ ≤ 10 ^ ctx.prec := pow_le_pow_right₀ (by norm_num) hprec
    have hhalf : 10 * 10 ^ ctx.etop ≤ 10 ^ ctx.prec * (10 : ℚ) ^ ctx.etop :=
      mul_le_mul_of_nonneg_right hten hs.le
    rw [sub_mul]
    linarith
  · have hlast : lastExp ctx x = ctx.etop := by
      unfold lastExp Context.etop Context.etiny
      omega
    have heven : ((10 ^ ctx.prec : ℕ) : ℤ) % 2 = 0 := by
      obtain ⟨k, hk⟩ := dvd_pow_self 10 hprec.ne'
      omega
    have hround := roundHalfEven_lt_iff (q := x / 10 ^ ctx.etop) heven
    rw [htop, rounded, hlast, roundTo, mul_lt_mul_iff_of_pos_right hs, ← div_lt_iff₀ hs]
    push_cast at hround
    rw [← hround]
    norm_cast
  · have hge : 10 ^ (ctx.emax + 1) ≤ x := (le_log_iff hx).mpr (by omega)
    refine iff_of_false (not_lt.mpr (le_rounded_of_le hx hge)) (not_lt.mpr ?_)
    rw [htop] at hge
    rw [sub_mul]
    linarith

/-- **When a number keeps all its digits.** -/
theorem rounded_eq_iff :
    rounded ctx x = roundSig ctx.prec x ↔
      10 ^ ctx.emin ≤ x ∨ ∃ k : ℤ, roundSig ctx.prec x = k * 10 ^ ctx.etiny := by
  have habs : |x| = x := abs_of_pos hx
  rw [le_log_iff hx]
  rcases le_or_gt ctx.emin (Int.log 10 x) with h | h
  · have hlast : lastExp ctx x = Int.log 10 x - ctx.prec + 1 := by
      unfold lastExp Context.etiny
      omega
    exact iff_of_true (by rw [rounded, roundSig, hlast, habs]) (Or.inl h)
  · have hlast : lastExp ctx x = ctx.etiny := by
      unfold lastExp Context.etiny
      omega
    constructor
    · intro he
      rw [← he, rounded, hlast]
      exact Or.inr ⟨_, rfl⟩
    · rintro (hle | ⟨k, hk⟩)
      · omega
      · have hstep : (10 : ℚ) ^ (Int.log 10 x - ctx.prec + 1) < 10 ^ ctx.etiny :=
          zpow_lt_zpow_right₀ (by norm_num) (by unfold Context.etiny; omega)
        have hnear := abs_sub_roundTo_le (ten_zpow_pos (Int.log 10 x - ctx.prec + 1)) x
        rw [roundSig, habs] at hk
        rw [hk] at hnear
        rw [roundSig, habs, hk, rounded, hlast]
        exact roundTo_of_near (ten_zpow_pos _) (by linarith)

end

/-! ## When a quotient is right -/

theorem Dec.toRat_eq_zero_iff {d : Dec} : d.toRat = 0 ↔ d.coeff = 0 := by
  rw [Dec.toRat_eq]
  constructor
  · intro h
    by_contra hc
    have := Dec.magnitude_pos hc
    split at h <;> linarith
  · intro h
    simp [Dec.magnitude, h]

/-- A number does not overflow, and its digits end within the range. -/
def Context.Fits (ctx : Context) (x : ℚ) : Prop :=
  |x| < (10 ^ ctx.prec - 1 / 2) * 10 ^ ctx.etop ∧
    (10 ^ ctx.emin ≤ |x| ∨ ∃ k : ℤ, roundSig ctx.prec x = k * 10 ^ ctx.etiny)

section

variable {ctx : Context}

theorem Context.fits_zero : ctx.Fits 0 := by
  refine ⟨?_, Or.inr ⟨0, by rw [roundSig_zero, Int.cast_zero, zero_mul]⟩⟩
  have hten : (1 : ℚ) ≤ 10 ^ ctx.prec := one_le_pow₀ (by norm_num)
  rw [abs_zero]
  exact mul_pos (by linarith) (ten_zpow_pos _)

theorem Context.fits_neg {x : ℚ} : ctx.Fits (-x) ↔ ctx.Fits x := by
  unfold Context.Fits
  rw [abs_neg, roundSig_neg]
  refine and_congr_right fun _ => or_congr_right ?_
  constructor
  · rintro ⟨k, hk⟩
    exact ⟨-k, by rw [Int.cast_neg, neg_mul, ← hk, neg_neg]⟩
  · rintro ⟨k, hk⟩
    exact ⟨-k, by rw [Int.cast_neg, neg_mul, ← hk]⟩

theorem Context.fits_sign {b : Bool} {x : ℚ} :
    ctx.Fits ((if b then -1 else 1) * x) ↔ ctx.Fits x := by
  cases b
  · simp
  · simpa using fits_neg

/-- A positive number comes out of the context unharmed just when it fits. -/
theorem rounded_fits {x : ℚ} (hx : 0 < x) :
    (rounded ctx x < 10 ^ (ctx.emax + 1) ∧ rounded ctx x = roundSig ctx.prec x) ↔ ctx.Fits x := by
  rw [rounded_lt_iff hx, rounded_eq_iff hx, Context.Fits, abs_of_pos hx]

variable (ctx) in
/-- **When a quotient is the rounded one.** -/
theorem div_iff (a : Dec) {b : Dec} (hb : b.coeff ≠ 0) :
    (∃ r, Dec.div ctx a b = .ok r ∧ r.toRat = roundSig ctx.prec (a.toRat / b.toRat)) ↔
      ctx.Fits (a.toRat / b.toRat) := by
  by_cases ha : a.coeff = 0
  · rw [Dec.toRat_eq_zero_iff.mpr ha, zero_div]
    refine iff_of_true ?_ Context.fits_zero
    simp [Dec.div, Dec.fix, hb, ha, roundSig_zero, Dec.toRat_eq_zero_iff]
  · have hx := div_pos (Dec.magnitude_pos ha) (Dec.magnitude_pos hb)
    have hquot : a.toRat / b.toRat =
        (if a.neg != b.neg then -1 else 1) * (a.magnitude / b.magnitude) := by
      rw [Dec.toRat_eq, Dec.toRat_eq]
      cases a.neg <;> cases b.neg <;> simp [neg_div, div_neg]
    rw [hquot, roundSig_sign, Context.fits_sign, ← rounded_fits hx]
    rcases div_rounds ctx ha hb with ⟨hover, hout⟩ | ⟨hin, r, hout, hneg, hr⟩
    · refine iff_of_false ?_ fun h => not_lt.mpr hover h.1
      rw [hout]
      rintro ⟨r, hr, -⟩
      cases hr
    · have hvalue : r.toRat = (if a.neg != b.neg then -1 else 1) *
          rounded ctx (a.magnitude / b.magnitude) := by
        rw [Dec.toRat_eq, hneg, hr]
      have hne : (if a.neg != b.neg then -1 else 1 : ℚ) ≠ 0 := by split <;> norm_num
      rw [hout]
      constructor
      · rintro ⟨r', hr', he⟩
        cases hr'
        rw [hvalue] at he
        exact ⟨hin, mul_left_cancel₀ hne he⟩
      · rintro ⟨-, he⟩
        exact ⟨r, rfl, by rw [hvalue, he]⟩

end

end Py
