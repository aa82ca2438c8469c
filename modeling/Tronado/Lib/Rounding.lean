import Mathlib.Data.Int.Log
import Tronado.Lib.Number

/-!
# Rounding to binary64

What `Double.ofRat` does to a positive rational: it rounds to a multiple of
`2 ^ ulpExp q`, half to even, and overflows from `2 ^ 1024` on.

* `log2Floor_eq`, `log10Floor_eq`: the two computed logarithms are `Int.log`.
* `roundTo`: rounding to the multiples of a step.
* `ofRat_pos`, `ofRat_neg`: the nearest double in these terms.
* `roundPos_mono`, `roundPos_roundPos`: rounding keeps the order, and rounds once.
* `abs_sub_roundPos_le`, `roundPos_of_near`: how far a number is from its double, and
  how near to a double a number has to be.
-/

namespace Py

/-! ## Logarithms -/

/-- The logarithm of a fraction, from those of its parts. -/
theorem log_fraction {b : ℕ} (hb : 1 < b) {n d : ℕ} (hn : n ≠ 0) (hd : d ≠ 0) :
    (if (b : ℚ) ^ ((Nat.log b n : ℤ) - Nat.log b d) ≤ (n : ℚ) / d then
        (Nat.log b n : ℤ) - Nat.log b d
      else (Nat.log b n : ℤ) - Nat.log b d - 1) = Int.log b ((n : ℚ) / d) := by
  have hb0 : (b : ℚ) ≠ 0 := by positivity
  have hdpos : (0 : ℚ) < d := by positivity
  have hpos : (0 : ℚ) < n / d := by positivity
  have hn1 : (b : ℚ) ^ Nat.log b n ≤ n := by exact_mod_cast Nat.pow_log_le_self b hn
  have hn2 : (n : ℚ) < b ^ (Nat.log b n + 1) := by exact_mod_cast Nat.lt_pow_succ_log_self hb n
  have hd1 : (b : ℚ) ^ Nat.log b d ≤ d := by exact_mod_cast Nat.pow_log_le_self b hd
  have hd2 : (d : ℚ) < b ^ (Nat.log b d + 1) := by exact_mod_cast Nat.lt_pow_succ_log_self hb d
  set i := Nat.log b n
  set j := Nat.log b d
  have hlo : (b : ℚ) ^ ((i : ℤ) - j - 1) ≤ n / d := by
    rw [le_div_iff₀ hdpos]
    calc (b : ℚ) ^ ((i : ℤ) - j - 1) * d
        ≤ b ^ ((i : ℤ) - j - 1) * b ^ (j + 1) := by gcongr
      _ = b ^ i := by rw [← zpow_natCast, ← zpow_natCast, ← zpow_add₀ hb0]; congr 1; push_cast; ring
      _ ≤ n := hn1
  have hhi : (n : ℚ) / d < (b : ℚ) ^ ((i : ℤ) - j + 1) := by
    rw [div_lt_iff₀ hdpos]
    calc (n : ℚ) < b ^ (i + 1) := hn2
      _ = b ^ ((i : ℤ) - j + 1) * b ^ j := by
        rw [← zpow_natCast, ← zpow_natCast, ← zpow_add₀ hb0]; congr 1; push_cast; ring
      _ ≤ b ^ ((i : ℤ) - j + 1) * d := by gcongr
  have hle := (Int.zpow_le_iff_le_log hb hpos).mp hlo
  have hlt := (Int.lt_zpow_iff_log_lt hb hpos).mp hhi
  split
  · next h =>
    have := (Int.zpow_le_iff_le_log hb hpos).mp h
    omega
  · next h =>
    have := (Int.lt_zpow_iff_log_lt hb hpos).mp (not_le.mp h)
    omega

theorem digitCount_eq {n : ℕ} (hn : n ≠ 0) : digitCount n = Nat.log 10 n + 1 := by
  have hk (k : ℕ) (hpos : 0 < k) : digitCount n ≤ k ↔ n < 10 ^ k :=
    Nat.length_toDigits_le_iff (by norm_num) hpos
  have hlt : digitCount n ≤ Nat.log 10 n + 1 :=
    (hk _ (Nat.succ_pos _)).mpr (Nat.lt_pow_succ_log_self (by norm_num) n)
  have hpos : 0 < digitCount n := Nat.length_toDigits_pos
  have hge : n < 10 ^ digitCount n := (hk _ hpos).mp le_rfl
  have := Nat.log_lt_of_lt_pow hn hge
  omega

theorem ten_zpow_pos (e : ℤ) : (0 : ℚ) < 10 ^ e := by positivity

theorem ten_zpow_add (n : ℕ) (e : ℤ) : (10 : ℚ) ^ ((n : ℤ) + e) = 10 ^ n * 10 ^ e := by
  rw [zpow_add₀ (by norm_num), zpow_natCast]

section

variable {q : ℚ} (hq : 0 < q)
include hq

theorem num_toNat_ne_zero : q.num.toNat ≠ 0 := by
  have := Rat.num_pos.mpr hq
  omega

theorem eq_num_div_den : q = (q.num.toNat : ℚ) / q.den := by
  have hnum : ((q.num.toNat : ℤ) : ℚ) = q.num := by
    rw [Int.toNat_of_nonneg (Rat.num_pos.mpr hq).le]
  rw [← Int.cast_natCast, hnum, Rat.num_div_den]

/-- **`log2Floor` is the logarithm.** -/
theorem log2Floor_eq : Double.log2Floor q = Int.log 2 q := by
  have h := log_fraction (b := 2) (by norm_num) (num_toNat_ne_zero hq) q.den_ne_zero
  rw [← eq_num_div_den hq] at h
  unfold Double.log2Floor
  rw [Nat.log2_eq_log_two, Nat.log2_eq_log_two]
  exact_mod_cast h

/-- **`log10Floor` is the logarithm.** -/
theorem log10Floor_eq : log10Floor q = Int.log 10 q := by
  have h := log_fraction (b := 10) (by norm_num) (num_toNat_ne_zero hq) q.den_ne_zero
  rw [← eq_num_div_den hq] at h
  unfold log10Floor
  rw [digitCount_eq (num_toNat_ne_zero hq), digitCount_eq q.den_ne_zero]
  have he : ((Nat.log 10 q.num.toNat + 1 : ℕ) : ℤ) - ((Nat.log 10 q.den + 1 : ℕ) : ℤ) =
      (Nat.log 10 q.num.toNat : ℤ) - Nat.log 10 q.den := by
    push_cast; ring
  rw [he]
  exact_mod_cast h

end

/-! ## The multiples of a step -/

section RoundHalfEven

open Double

theorem roundHalfEven_intCast (n : ℤ) : roundHalfEven n = n := by
  simp [roundHalfEven, Rat.floor_intCast]

/-- Half to even moves by at most a half. -/
theorem abs_sub_roundHalfEven_le (q : ℚ) : |q - roundHalfEven q| ≤ 1 / 2 := by
  have hlo : (q.floor : ℚ) ≤ q := Rat.floor_le q
  have hhi : q < q.floor + 1 := by exact_mod_cast Rat.lt_floor_add_one q
  unfold roundHalfEven
  dsimp only
  split_ifs <;> push_cast <;> rw [abs_le] <;> constructor <;> linarith

theorem roundHalfEven_of_near {q : ℚ} {n : ℤ} (h : |q - n| < 1 / 2) : roundHalfEven q = n := by
  have hr := abs_sub_roundHalfEven_le q
  have hd : |((roundHalfEven q - n : ℤ) : ℚ)| < 1 := by
    push_cast
    calc |(roundHalfEven q : ℚ) - n| = |(q - n) - (q - roundHalfEven q)| := by congr 1; ring
      _ ≤ |q - n| + |q - roundHalfEven q| := abs_sub _ _
      _ < 1 := by linarith
  have hz : |roundHalfEven q - n| < 1 := by exact_mod_cast hd
  have := Int.abs_lt_one_iff.mp hz
  omega

theorem roundHalfEven_mono {p q : ℚ} (h : p ≤ q) : roundHalfEven p ≤ roundHalfEven q := by
  by_contra hlt
  have hp := abs_le.mp (abs_sub_roundHalfEven_le p)
  have hq := abs_le.mp (abs_sub_roundHalfEven_le q)
  have hz : (roundHalfEven q : ℚ) + 1 ≤ roundHalfEven p := by exact_mod_cast not_le.mp hlt
  -- both are a half away from the same point
  have he : p = q := by linarith
  rw [he] at hlt
  exact hlt le_rfl

/-- Halfway between two integers. -/
theorem roundHalfEven_half (n : ℤ) :
    roundHalfEven (n + 1 / 2) = if n % 2 = 0 then n else n + 1 := by
  have hfloor : ((n : ℚ) + 1 / 2).floor = n := by
    refine le_antisymm ?_ (Rat.le_floor_iff.mpr (by linarith))
    by_contra hgt
    have hle : ((n + 1 : ℤ) : ℚ) ≤ n + 1 / 2 := Rat.le_floor_iff.mp (by omega)
    push_cast at hle
    linarith
  unfold roundHalfEven
  simp only [hfloor]
  norm_num

/-- Half to even does not look at the sign. -/
theorem roundHalfEven_neg (q : ℚ) : roundHalfEven (-q) = -roundHalfEven q := by
  rcases (abs_sub_roundHalfEven_le q).lt_or_eq with hlt | he
  · refine roundHalfEven_of_near ?_
    rw [Int.cast_neg, ← neg_sub', abs_neg]
    exact hlt
  · obtain ⟨n, rfl⟩ : ∃ n : ℤ, q = n + 1 / 2 := by
      rcases abs_eq (by norm_num : (0 : ℚ) ≤ 1 / 2) |>.mp he with h | h
      · exact ⟨roundHalfEven q, by linarith⟩
      · exact ⟨roundHalfEven q - 1, by push_cast; linarith⟩
    have hneg : -((n : ℚ) + 1 / 2) = ((-n - 1 : ℤ) : ℚ) + 1 / 2 := by push_cast; ring
    rw [hneg, roundHalfEven_half, roundHalfEven_half]
    split_ifs <;> omega

/-- Ties below an even number go up to it. -/
theorem roundHalfEven_lt_iff {q : ℚ} {n : ℤ} (hn : n % 2 = 0) :
    roundHalfEven q < n ↔ q < n - 1 / 2 := by
  constructor
  · intro hlt
    by_contra hge
    have htie : (n : ℚ) - 1 / 2 = ((n - 1 : ℤ) : ℚ) + 1 / 2 := by push_cast; ring
    have hmono := roundHalfEven_mono (not_lt.mp hge)
    rw [htie, roundHalfEven_half] at hmono
    split at hmono <;> omega
  · intro hlt
    by_contra hge
    have hle : (n : ℚ) ≤ roundHalfEven q := by exact_mod_cast not_lt.mp hge
    have := abs_le.mp (abs_sub_roundHalfEven_le q)
    linarith

end RoundHalfEven

/-- The multiple of `s` nearest to `q`, half to even. -/
def roundTo (s q : ℚ) : ℚ := Double.roundHalfEven (q / s) * s

section

variable {s : ℚ} (hs : 0 < s)
include hs

theorem roundTo_mul (n : ℤ) : roundTo s (n * s) = n * s := by
  rw [roundTo, mul_div_cancel_right₀ _ hs.ne', roundHalfEven_intCast]

theorem roundTo_mono {p q : ℚ} (h : p ≤ q) : roundTo s p ≤ roundTo s q := by
  have hle := roundHalfEven_mono (div_le_div_of_nonneg_right h hs.le)
  exact mul_le_mul_of_nonneg_right (by exact_mod_cast hle) hs.le

theorem abs_sub_roundTo_le (q : ℚ) : |q - roundTo s q| ≤ s / 2 := by
  have h := mul_le_mul_of_nonneg_right (abs_sub_roundHalfEven_le (q / s)) hs.le
  have he : q - roundTo s q = (q / s - Double.roundHalfEven (q / s)) * s := by
    rw [sub_mul, div_mul_cancel₀ _ hs.ne']
    rfl
  rw [he, abs_mul, abs_of_pos hs]
  linarith

theorem roundTo_of_near {q : ℚ} {n : ℤ} (h : |q - n * s| < s / 2) : roundTo s q = n * s := by
  have he : q - n * s = (q / s - n) * s := by rw [sub_mul, div_mul_cancel₀ _ hs.ne']
  rw [he, abs_mul, abs_of_pos hs] at h
  have hn : |q / s - n| < 1 / 2 := by
    by_contra hge
    have := mul_le_mul_of_nonneg_right (not_lt.mp hge) hs.le
    linarith
  rw [roundTo, roundHalfEven_of_near hn]

end

/-! ## The step of binary64 -/

/-- The exponent of the last of 53 bits; below `2 ^ (-1022)` it stops falling. -/
def ulpExp (q : ℚ) : ℤ := max (Int.log 2 q) (-1022) - 52

theorem le_ulpExp (q : ℚ) : -1074 ≤ ulpExp q := by
  unfold ulpExp; omega

theorem two_zpow_pos (e : ℤ) : (0 : ℚ) < 2 ^ e := by positivity

theorem two_zpow_add (n : ℕ) (e : ℤ) : (2 : ℚ) ^ ((n : ℤ) + e) = 2 ^ n * 2 ^ e := by
  rw [zpow_add₀ (by norm_num), zpow_natCast]

section

variable {p q : ℚ} (hq : 0 < q)
include hq

theorem lt_two_pow_mul_ulp : q < 2 ^ 53 * 2 ^ ulpExp q := by
  rw [← two_zpow_add, ← Nat.cast_ofNat (R := ℚ), Int.lt_zpow_iff_log_lt (by norm_num) hq]
  unfold ulpExp
  omega

theorem two_pow_mul_ulp_le (h : -1074 < ulpExp q) : 2 ^ 52 * 2 ^ ulpExp q ≤ q := by
  rw [← two_zpow_add, ← Nat.cast_ofNat (R := ℚ), Int.zpow_le_iff_le_log (by norm_num) hq]
  unfold ulpExp at h ⊢
  omega

theorem ulpExp_le {e : ℤ} (he : -1074 ≤ e) (h : q < 2 ^ 53 * 2 ^ e) : ulpExp q ≤ e := by
  rw [← two_zpow_add, ← Nat.cast_ofNat (R := ℚ), Int.lt_zpow_iff_log_lt (by norm_num) hq] at h
  unfold ulpExp
  omega

theorem le_ulpExp_of_le {e : ℤ} (h : 2 ^ 52 * 2 ^ e ≤ q) : e ≤ ulpExp q := by
  rw [← two_zpow_add, ← Nat.cast_ofNat (R := ℚ), Int.zpow_le_iff_le_log (by norm_num) hq] at h
  unfold ulpExp
  omega

theorem ulpExp_mono (h : q ≤ p) : ulpExp q ≤ ulpExp p :=
  ulpExp_le hq (le_ulpExp p) (h.trans_lt (lt_two_pow_mul_ulp (hq.trans_le h)))

end

/-- The nearest number of 53 bits, as if exponents had no upper bound. -/
def roundPos (q : ℚ) : ℚ := roundTo (2 ^ ulpExp q) q

/-- A multiple of a larger power of two. -/
theorem roundPos_eq_self {q : ℚ} {n e : ℤ} (h : q = n * 2 ^ e) (he : ulpExp q ≤ e) :
    roundPos q = q := by
  obtain ⟨k, hk⟩ : ∃ k : ℕ, e = k + ulpExp q := ⟨(e - ulpExp q).toNat, by omega⟩
  have hmul : q = ((n * 2 ^ k : ℤ) : ℚ) * 2 ^ ulpExp q := by
    conv_lhs => rw [h, hk, two_zpow_add]
    push_cast
    ring
  unfold roundPos
  conv_lhs => arg 2; rw [hmul]
  rw [roundTo_mul (two_zpow_pos _), ← hmul]

@[simp] theorem roundPos_zero : roundPos 0 = 0 := by
  simpa [roundPos] using roundTo_mul (two_zpow_pos (ulpExp 0)) 0

theorem exists_mul_ulp (q : ℚ) : ∃ n : ℤ, roundPos q = n * 2 ^ ulpExp q := ⟨_, rfl⟩

/-- Powers of two in the range of a number are rounding bounds. -/
theorem roundPos_le_two_pow {q : ℚ} {e : ℤ} (he : ulpExp q ≤ e) {n : ℤ} (h : q ≤ n * 2 ^ e) :
    roundPos q ≤ n * 2 ^ e := by
  obtain ⟨k, hk⟩ : ∃ k : ℕ, e = k + ulpExp q := ⟨(e - ulpExp q).toNat, by omega⟩
  have hmul : (n : ℚ) * 2 ^ e = ((n * 2 ^ k : ℤ) : ℚ) * 2 ^ ulpExp q := by
    rw [hk, two_zpow_add]
    push_cast
    ring
  rw [hmul] at h ⊢
  have hmono := roundTo_mono (two_zpow_pos (ulpExp q)) h
  rwa [roundTo_mul (two_zpow_pos _)] at hmono

theorem two_pow_le_roundPos {q : ℚ} {e : ℤ} (he : ulpExp q ≤ e) {n : ℤ} (h : n * 2 ^ e ≤ q) :
    n * 2 ^ e ≤ roundPos q := by
  obtain ⟨k, hk⟩ : ∃ k : ℕ, e = k + ulpExp q := ⟨(e - ulpExp q).toNat, by omega⟩
  have hmul : (n : ℚ) * 2 ^ e = ((n * 2 ^ k : ℤ) : ℚ) * 2 ^ ulpExp q := by
    rw [hk, two_zpow_add]
    push_cast
    ring
  rw [hmul] at h ⊢
  have hmono := roundTo_mono (two_zpow_pos (ulpExp q)) h
  rwa [roundTo_mul (two_zpow_pos _)] at hmono

/-- How far a number is from its double. -/
theorem abs_sub_roundPos_le (q : ℚ) : |q - roundPos q| ≤ 2 ^ ulpExp q / 2 :=
  abs_sub_roundTo_le (two_zpow_pos _) q

section

variable {p q : ℚ} (hq : 0 < q)
include hq

/-- **Rounding keeps the order.** -/
theorem roundPos_mono (h : q ≤ p) : roundPos q ≤ roundPos p := by
  have hp := hq.trans_le h
  rcases (ulpExp_mono hq h).eq_or_lt with he | hlt
  · unfold roundPos
    rw [he]
    exact roundTo_mono (two_zpow_pos _) h
  · -- the least number of the larger step lies in between
    have hmid : ((2 ^ 52 : ℤ) : ℚ) * 2 ^ ulpExp p ≤ p := by
      push_cast
      exact two_pow_mul_ulp_le hp ((le_ulpExp q).trans_lt hlt)
    have hqmid : q ≤ ((2 ^ 52 : ℤ) : ℚ) * 2 ^ ulpExp p := by
      have hstep : (2 : ℚ) * 2 ^ ulpExp q ≤ 2 ^ ulpExp p := by
        rw [← zpow_one_add₀ (by norm_num)]
        exact zpow_le_zpow_right₀ (by norm_num) (by omega)
      have hbound := lt_two_pow_mul_ulp hq
      push_cast
      linarith
    exact (roundPos_le_two_pow hlt.le hqmid).trans (two_pow_le_roundPos le_rfl hmid)

theorem roundPos_nonneg : 0 ≤ roundPos q := by
  have h := two_pow_le_roundPos (le_refl (ulpExp q)) (n := 0) (by simpa using hq.le)
  simpa using h

/-- **Rounding twice is rounding once.** -/
theorem roundPos_roundPos : roundPos (roundPos q) = roundPos q := by
  obtain ⟨n, hn⟩ := exists_mul_ulp q
  have hle : roundPos q ≤ ((2 ^ 53 : ℤ) : ℚ) * 2 ^ ulpExp q :=
    roundPos_le_two_pow le_rfl (by push_cast; exact (lt_two_pow_mul_ulp hq).le)
  rcases (roundPos_nonneg hq).eq_or_lt with h0 | hpos
  · rw [← h0, roundPos_zero]
  rcases hle.eq_or_lt with he | hlt
  · -- rounded up to the next power of two
    have he' : roundPos q = ((2 ^ 52 : ℤ) : ℚ) * 2 ^ (ulpExp q + 1) := by
      rw [he, zpow_add_one₀ (by norm_num)]
      push_cast
      ring
    refine roundPos_eq_self he' (ulpExp_le hpos (by have := le_ulpExp q; omega) ?_)
    rw [he']
    push_cast
    have := two_zpow_pos (ulpExp q + 1)
    linarith
  · exact roundPos_eq_self hn (ulpExp_le hpos (le_ulpExp q) (by push_cast at hlt; exact hlt))

theorem two_pow_mul_ulp_le_of_normal (h : 2 ^ (-1022 : ℤ) ≤ q) : 2 ^ 52 * 2 ^ ulpExp q ≤ q := by
  rcases (le_ulpExp q).eq_or_lt with he | hlt
  · rw [← he, ← two_zpow_add]
    simpa using h
  · exact two_pow_mul_ulp_le hq hlt

theorem roundPos_pos_of_normal (h : 2 ^ (-1022 : ℤ) ≤ q) : 0 < roundPos q := by
  have hle := two_pow_le_roundPos (le_refl (ulpExp q)) (n := 2 ^ 52)
    (by push_cast; exact two_pow_mul_ulp_le_of_normal hq h)
  have := two_zpow_pos (ulpExp q)
  push_cast at hle
  linarith

omit hq in
/-- The only double whose neighbourhood reaches down to the next finer step is the least
of its step, which is a power of two. -/
theorem eq_two_pow_of_near {n : ℤ} (hn : q = n * 2 ^ ulpExp q)
    (hmid : 2 ^ 52 * 2 ^ ulpExp q ≤ q) (hbelow : p < 2 ^ 52 * 2 ^ ulpExp q)
    (hnear : |p - n * 2 ^ ulpExp q| < 2 ^ ulpExp q / 2) : n = 2 ^ 52 := by
  have hu := two_zpow_pos (ulpExp q)
  have hlt : (n : ℚ) < 2 ^ 52 + 1 := by
    by_contra hge
    have hmul := mul_le_mul_of_nonneg_right (not_lt.mp hge) hu.le
    have := abs_lt.mp hnear
    linarith
  have hge : (2 ^ 52 : ℚ) ≤ n := le_of_mul_le_mul_right (hmid.trans_eq hn) hu
  have h1 : n < 2 ^ 52 + 1 := by exact_mod_cast hlt
  have h2 : 2 ^ 52 ≤ n := by exact_mod_cast hge
  omega

/-- Below a power of two the step is half as large. -/
theorem roundPos_of_near_below {n : ℤ} (hp : 0 < p) (hlt : ulpExp p < ulpExp q)
    (hn : q = n * 2 ^ ulpExp q) (hnear : |p - n * 2 ^ ulpExp q| < 2 ^ ulpExp q / 2)
    (h : |p - q| < q / 2 ^ 54) : roundPos p = q := by
  have hmid := two_pow_mul_ulp_le hq ((le_ulpExp p).trans_lt hlt)
  have hhalf : (2 : ℚ) ^ ulpExp q = 2 * 2 ^ (ulpExp q - 1) := by
    rw [← zpow_one_add₀ (by norm_num)]
    congr 1
    ring
  have hstep : (2 : ℚ) ^ ulpExp p ≤ 2 ^ (ulpExp q - 1) :=
    zpow_le_zpow_right₀ (by norm_num) (by omega)
  have hbelow : p < 2 ^ 52 * 2 ^ ulpExp q := by
    have := lt_two_pow_mul_ulp hp
    linarith
  have hq53 : q = ((2 ^ 53 : ℤ) : ℚ) * 2 ^ (ulpExp q - 1) := by
    conv_lhs => rw [hn, eq_two_pow_of_near hn hmid hbelow hnear, hhalf]
    push_cast
    ring
  have hnear' : |p - ((2 ^ 53 : ℤ) : ℚ) * 2 ^ (ulpExp q - 1)| < 2 ^ (ulpExp q - 1) / 2 := by
    rw [← hq53]
    push_cast at hq53
    linarith
  have hexp : ulpExp p = ulpExp q - 1 := by
    have hge : ulpExp q - 1 ≤ ulpExp p := by
      refine le_ulpExp_of_le hp ?_
      have := abs_lt.mp hnear'
      push_cast at this
      linarith
    omega
  unfold roundPos
  rw [hexp, roundTo_of_near (two_zpow_pos _) hnear', ← hq53]

/-- **What is within `2 ^ (-54)` of a double rounds to it**, relatively. -/
theorem roundPos_of_near (hd : roundPos q = q) (h : |p - q| < q / 2 ^ 54) : roundPos p = q := by
  obtain ⟨n, hn⟩ := exists_mul_ulp q
  rw [hd] at hn
  have hu := two_zpow_pos (ulpExp q)
  have hbound := lt_two_pow_mul_ulp hq
  have hnear : |p - n * 2 ^ ulpExp q| < 2 ^ ulpExp q / 2 := by
    rw [← hn]
    linarith
  have hn53 : n ≤ 2 ^ 53 - 1 := by
    have hlt : (n : ℚ) < 2 ^ 53 := lt_of_mul_lt_mul_right (hn.symm.trans_lt hbound) hu.le
    have : n < 2 ^ 53 := by exact_mod_cast hlt
    omega
  have hp : 0 < p := by
    have := abs_lt.mp h
    linarith
  have hupper : p < 2 ^ 53 * 2 ^ ulpExp q := by
    have hnq : (n : ℚ) ≤ 2 ^ 53 - 1 := by exact_mod_cast hn53
    have hmul := mul_le_mul_of_nonneg_right hnq hu.le
    have := abs_lt.mp hnear
    linarith
  rcases (ulpExp_le hp (le_ulpExp q) hupper).eq_or_lt with he | hlt
  · unfold roundPos
    rw [he, roundTo_of_near hu hnear, ← hn]
  · exact roundPos_of_near_below hq hp hlt hn hnear h

end

/-! ## The nearest double -/

section

open Double

theorem ofRat_zero : ofRat 0 = finite 0 := rfl

theorem ofRat_pos {q : ℚ} (hq : 0 < q) :
    ofRat q = if 2 ^ (1024 : ℤ) ≤ roundPos q then inf else finite (roundPos q) := by
  unfold ofRat
  simp only [if_neg hq.ne', if_neg (not_lt.mpr hq.le), log2Floor_eq hq]
  rfl

theorem ofRat_neg {q : ℚ} (hq : 0 < q) :
    ofRat (-q) = if 2 ^ (1024 : ℤ) ≤ roundPos q then negInf else finite (-roundPos q) := by
  have hneg : -q < 0 := neg_lt_zero.mpr hq
  unfold ofRat
  simp only [if_neg hneg.ne, if_pos hneg, neg_neg, log2Floor_eq hq]
  rfl

theorem ofRat_eq_finite_iff {q r : ℚ} (hq : 0 < q) :
    ofRat q = finite r ↔ roundPos q = r ∧ r < 2 ^ (1024 : ℤ) := by
  rw [ofRat_pos hq]
  split
  · next h => exact iff_of_false (by simp) fun ⟨he, hlt⟩ => by rw [he] at h; exact not_lt.mpr h hlt
  · next h =>
    rw [finite.injEq]
    exact ⟨fun he => ⟨he, he ▸ not_le.mp h⟩, And.left⟩

/-- `x` is read as the double `q`. -/
def RoundsTo (x q : ℚ) : Prop := ofRat x = finite q

instance (x q : ℚ) : Decidable (RoundsTo x q) := inferInstanceAs (Decidable (ofRat x = finite q))

variable {x y z q : ℚ}

theorem RoundsTo.pos (h : RoundsTo x q) (hq : 0 < q) : 0 < x := by
  rcases lt_trichotomy x 0 with hx | rfl | hx
  · have hneg := ofRat_neg (neg_pos.mpr hx)
    rw [neg_neg, show ofRat x = finite q from h] at hneg
    split at hneg
    · cases hneg
    · have hge := roundPos_nonneg (neg_pos.mpr hx)
      have he := finite.inj hneg
      linarith
  · rw [RoundsTo, ofRat_zero, finite.injEq] at h
    exact absurd h hq.ne
  · exact hx

theorem RoundsTo.roundPos_eq (h : RoundsTo x q) (hq : 0 < q) :
    roundPos x = q ∧ q < 2 ^ (1024 : ℤ) :=
  (ofRat_eq_finite_iff (h.pos hq)).mp h

/-- **A double is read as itself.** -/
theorem RoundsTo.self (h : RoundsTo x q) (hq : 0 < q) : RoundsTo q q := by
  obtain ⟨he, hlt⟩ := h.roundPos_eq hq
  have hself := roundPos_roundPos (h.pos hq)
  rw [he] at hself
  exact (ofRat_eq_finite_iff hq).mpr ⟨hself, hlt⟩

/-- **What lies between two numbers that are read as `q` is read as `q`.** -/
theorem RoundsTo.between (hx : RoundsTo x q) (hy : RoundsTo y q) (hq : 0 < q) (hxz : x ≤ z)
    (hzy : z ≤ y) : RoundsTo z q := by
  have hxpos := hx.pos hq
  obtain ⟨hxe, hlt⟩ := hx.roundPos_eq hq
  obtain ⟨hye, -⟩ := hy.roundPos_eq hq
  have hlo := roundPos_mono hxpos hxz
  have hhi := roundPos_mono (hxpos.trans_le hxz) hzy
  refine (ofRat_eq_finite_iff (hxpos.trans_le hxz)).mpr ⟨?_, hlt⟩
  rw [hxe] at hlo
  rw [hye] at hhi
  exact le_antisymm hhi hlo

/-- **A number is within `2 ^ (-53)` of the normal double it is read as**, relatively. -/
theorem RoundsTo.abs_sub_le (h : RoundsTo x q) (hn : 2 ^ (-1022 : ℤ) ≤ q) :
    |x - q| ≤ q / 2 ^ 53 := by
  have hq : 0 < q := (two_zpow_pos _).trans_le hn
  have hx := h.pos hq
  obtain ⟨he, -⟩ := h.roundPos_eq hq
  have hexp : ulpExp x ≤ ulpExp q := by
    rcases (le_ulpExp x).eq_or_lt with hmin | hlt
    · exact hmin ▸ le_ulpExp q
    · have hle := two_pow_le_roundPos (le_refl (ulpExp x)) (n := 2 ^ 52)
        (by push_cast; exact two_pow_mul_ulp_le hx hlt)
      rw [he] at hle
      exact le_ulpExp_of_le hq (by push_cast at hle; exact hle)
  have hstep : (2 : ℚ) ^ ulpExp x ≤ 2 ^ ulpExp q := zpow_le_zpow_right₀ (by norm_num) hexp
  have hulp := two_pow_mul_ulp_le_of_normal hq hn
  have hle := abs_sub_roundPos_le x
  rw [he] at hle
  linarith

/-- A number in the normal range is read as a normal double. -/
theorem RoundsTo.normal (h : RoundsTo x q) (hx : 2 ^ (-1022 : ℤ) ≤ x) : 2 ^ (-1022 : ℤ) ≤ q := by
  obtain ⟨he, -⟩ := (ofRat_eq_finite_iff ((two_zpow_pos _).trans_le hx)).mp h
  have hlog : Int.log 2 ((2 : ℚ) ^ (-1022 : ℤ)) = -1022 := by
    exact_mod_cast Int.log_zpow (R := ℚ) (b := 2) (by norm_num) (-1022)
  have hself : roundPos (2 ^ (-1022 : ℤ)) = 2 ^ (-1022 : ℤ) :=
    roundPos_eq_self (n := 1) (by rw [Int.cast_one, one_mul]) (by rw [ulpExp, hlog]; norm_num)
  have hmono := roundPos_mono (two_zpow_pos (-1022)) hx
  rwa [hself, he] at hmono

/-- What lies below `10 ^ 308` is read as a finite double. -/
theorem exists_roundsTo (hx : 0 < x) (h : x ≤ 10 ^ 308) : ∃ q, RoundsTo x q := by
  have hten : 10 ^ 308 ≤ (2 ^ 53 - 1) * 2 ^ 971 := by decide +kernel
  have htop : (2 ^ 53 - 1) * 2 ^ 971 < 2 ^ 1024 := by decide +kernel
  have hten' : (10 : ℚ) ^ 308 ≤ ((2 ^ 53 - 1 : ℕ) : ℚ) * 2 ^ 971 := by exact_mod_cast hten
  have htop' : ((2 ^ 53 - 1 : ℕ) : ℚ) * 2 ^ 971 < 2 ^ 1024 := by exact_mod_cast htop
  have hbig : x ≤ ((2 ^ 53 - 1 : ℕ) : ℤ) * (2 : ℚ) ^ (971 : ℤ) := by
    rw [zpow_ofNat, Int.cast_natCast]
    exact h.trans hten'
  have hexp : ulpExp x ≤ 971 := by
    refine ulpExp_le hx (by norm_num) (hbig.trans_lt ?_)
    exact mul_lt_mul_of_pos_right (by norm_num) (two_zpow_pos _)
  refine ⟨roundPos x, (ofRat_eq_finite_iff hx).mpr ⟨rfl, ?_⟩⟩
  refine (roundPos_le_two_pow hexp hbig).trans_lt ?_
  rw [zpow_ofNat, zpow_ofNat, Int.cast_natCast]
  exact htop'

theorem RoundsTo.of_near (h : RoundsTo q q) (hq : 0 < q) (hn : |x - q| < q / 2 ^ 54) :
    RoundsTo x q := by
  obtain ⟨he, hlt⟩ := h.roundPos_eq hq
  have habs := abs_lt.mp hn
  exact (ofRat_eq_finite_iff (by linarith)).mpr ⟨roundPos_of_near hq he hn, hlt⟩

end

end Py
