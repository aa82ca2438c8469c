import Tronado.Lib.Number

/-!
# Doubles that are not negative

The doubles from zero to infinity are linearly ordered by `Double.le`, and
multiplying by a positive number keeps the order.

* `NonNeg`: such a double; `nonNeg_iff` reads it off a comparison with zero.
* `min_le_left`, `min_le_right`, `min_mono`: `min` on them is the minimum.
* `mul_mono`, `mul_le_self`: products with a positive factor.
-/

namespace Py.Double

/-- A double from zero to infinity. -/
inductive NonNeg : Double → Prop
  | rat {q : ℚ} (h : 0 ≤ q) : NonNeg (.finite q)
  | infinity : NonNeg .inf

@[simp] theorem le_finite (p q : ℚ) : le (finite p) (finite q) = decide (p ≤ q) := by
  rw [show le (finite p) (finite q) = !decide (q < p) from rfl, ← decide_not]
  simp only [not_lt]

@[simp] theorem le_nan (x : Double) : le x nan = false := by cases x <;> rfl

/-- **A double from zero to infinity is one that zero is at most.** -/
theorem nonNeg_iff {x : Double} : le (finite 0) x = true ↔ NonNeg x := by
  constructor
  · intro h
    cases x with
    | finite q => exact .rat (by simpa using h)
    | inf => exact .infinity
    | negInf => cases h
    | nan => cases h
  · rintro (h | _)
    · simpa using h
    · rfl

variable {x y z : Double}

theorem NonNeg.le_refl (h : NonNeg x) : le x x = true := by
  rcases h with h | _
  · simp
  · rfl

/-- What lies above a double from zero to infinity is one, too. -/
theorem NonNeg.of_le (hx : NonNeg x) (h : le x y = true) : NonNeg y := by
  cases y with
  | finite q =>
    rcases hx with hp | _
    · exact .rat (hp.trans (by simpa using h))
    · cases h
  | inf => exact .infinity
  | negInf => rcases hx with hp | _ <;> cases h
  | nan => rcases hx with hp | _ <;> cases h

theorem NonNeg.le_trans (hx : NonNeg x) (h : le x y = true) (h' : le y z = true) :
    le x z = true := by
  have hy := hx.of_le h
  have hz := hy.of_le h'
  rcases hx with hp | _ <;> rcases hy with hq | _ <;> rcases hz with hr | _
  · simp only [le_finite, decide_eq_true_eq] at h h' ⊢
    exact h.trans h'
  all_goals first | rfl | exact absurd h Bool.false_ne_true | exact absurd h' Bool.false_ne_true

/-! ## The minimum -/

theorem NonNeg.min_eq (hx : NonNeg x) (hy : NonNeg y) :
    (le x y = true ∧ Double.min x y = x) ∨ (le y x = true ∧ Double.min x y = y) := by
  rcases hx with @⟨p, hp⟩ | _ <;> rcases hy with @⟨q, hq⟩ | _
  · rcases lt_or_ge q p with h | h
    · exact Or.inr ⟨by simpa using h.le, by simp [Double.min, h]⟩
    · exact Or.inl ⟨by simpa using h, by simp [Double.min, not_lt.mpr h]⟩
  · exact Or.inl ⟨rfl, rfl⟩
  · exact Or.inr ⟨rfl, rfl⟩
  · exact Or.inl ⟨rfl, rfl⟩

theorem NonNeg.min_nonNeg (hx : NonNeg x) (hy : NonNeg y) : NonNeg (Double.min x y) := by
  rcases hx.min_eq hy with ⟨-, h⟩ | ⟨-, h⟩ <;> rw [h] <;> assumption

theorem NonNeg.min_le_left (hx : NonNeg x) (hy : NonNeg y) : le (Double.min x y) x = true := by
  rcases hx.min_eq hy with ⟨-, h⟩ | ⟨hle, h⟩ <;> rw [h]
  · exact hx.le_refl
  · exact hle

theorem NonNeg.min_le_right (hx : NonNeg x) (hy : NonNeg y) : le (Double.min x y) y = true := by
  rcases hx.min_eq hy with ⟨hle, h⟩ | ⟨-, h⟩ <;> rw [h]
  · exact hle
  · exact hy.le_refl

theorem NonNeg.le_min (hx : NonNeg x) (hy : NonNeg y) (h : le z x = true)
    (h' : le z y = true) : le z (Double.min x y) = true := by
  rcases hx.min_eq hy with ⟨-, he⟩ | ⟨-, he⟩ <;> rw [he] <;> assumption

theorem NonNeg.min_mono (hx : NonNeg x) (hy : NonNeg y) (hz : NonNeg z) (h : le x y = true) :
    le (Double.min x z) (Double.min y z) = true :=
  hy.le_min hz ((hx.min_nonNeg hz).le_trans (hx.min_le_left hz) h) (hx.min_le_right hz)

/-- A minimum that is not needed. -/
theorem NonNeg.min_eq_left (hx : NonNeg x) (h : le x y = true) : Double.min x y = x := by
  have hy := hx.of_le h
  rcases hx with @⟨p, hp⟩ | _ <;> rcases hy with @⟨q, hq⟩ | _
  · have hle : p ≤ q := by simpa using h
    simp [Double.min, not_lt.mpr hle]
  · rfl
  · cases h
  · rfl

theorem NonNeg.max_zero (hx : NonNeg x) : Double.max (finite 0) x = x := by
  rcases hx with @⟨q, hq⟩ | _
  · rcases hq.eq_or_lt with rfl | h
    · rfl
    · simp [Double.max, h]
  · rfl

/-! ## Products -/

theorem inf_mul {c : ℚ} (hc : 0 < c) : mul inf (finite c) = inf := by simp [Double.mul, sign, hc]

theorem NonNeg.mul_nonNeg {c : ℚ} (hx : NonNeg x) (hc : 0 < c) : NonNeg (x.mul (finite c)) := by
  rcases hx with h | _
  · exact .rat (mul_nonneg h hc.le)
  · rw [show mul inf (finite c) = inf by simp [Double.mul, sign, hc]]
    exact .infinity

theorem NonNeg.mul_mono {c c' : ℚ} (hx : NonNeg x) (h : le x y = true) (hc : 0 < c)
    (hcc : c ≤ c') : le (x.mul (finite c)) (y.mul (finite c')) = true := by
  have hy := hx.of_le h
  have hc' := hc.trans_le hcc
  rcases hx with @⟨p, hp⟩ | _ <;> rcases hy with @⟨q, hq⟩ | _
  · have hpq : p ≤ q := by simpa using h
    show le (finite (p * c)) (finite (q * c')) = true
    simpa using mul_le_mul hpq hcc hc.le hq
  · rw [inf_mul hc']
    rfl
  · cases h
  · rw [inf_mul hc, inf_mul hc']
    rfl

theorem NonNeg.mul_le_self {c : ℚ} (hx : NonNeg x) (hc : 0 < c) (h : c ≤ 1) :
    le (x.mul (finite c)) x = true := by
  rcases hx with @⟨p, hp⟩ | _
  · show le (finite (p * c)) (finite p) = true
    simpa using mul_le_of_le_one_right hp h
  · rw [inf_mul hc]
    rfl

end Py.Double
