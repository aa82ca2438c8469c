import Mathlib.Tactic.IntervalCases
import Tronado.Lib.Number

/-!
# Reading numerals

* `parse_digits`: `float` reads a row of ASCII digits as the nearest double of the
  number they denote.
-/

namespace Py

/-! ## ASCII digits -/

theorem isDigit_iff {c : ℕ} : isDigit c = true ↔ 48 ≤ c ∧ c ≤ 57 := by
  simp [isDigit]

theorem isSpace_of_digit {c : ℕ} (h : isDigit c = true) : isSpace c = false := by
  obtain ⟨hlo, hhi⟩ := isDigit_iff.mp h
  interval_cases c <;> rfl

theorem digitValue_of_digit {c : ℕ} (h : isDigit c = true) : digitValue c = some (c - 48) := by
  obtain ⟨hlo, hhi⟩ := isDigit_iff.mp h
  interval_cases c <;> rfl

theorem asciiLower_of_digit {c : ℕ} (h : isDigit c = true) : asciiLower c = c := by
  obtain ⟨hlo, hhi⟩ := isDigit_iff.mp h
  unfold asciiLower
  rw [if_neg (by omega)]

variable {s : Str}

theorem strip_eq_self (h : ∀ c ∈ s, isSpace c = false) : strip s = s := by
  have hleft : s.dropWhile isSpace = s := by
    cases s with
    | nil => rfl
    | cons c r => rw [List.dropWhile_cons_of_neg (by simp [h c])]
  rw [strip, hleft, List.rdropWhile]
  cases hr : s.reverse with
  | nil => rw [List.reverse_eq_nil_iff.mp hr]; rfl
  | cons c r =>
    have hc : c ∈ s := List.mem_reverse.mp (by rw [hr]; simp)
    rw [List.dropWhile_cons_of_neg (by simp [h c hc]), ← hr, List.reverse_reverse]

theorem toAsciiDigits_of_digits (h : ∀ c ∈ s, isDigit c = true) : toAsciiDigits s = s := by
  unfold toAsciiDigits
  conv_rhs => rw [← List.map_id s]
  apply List.map_congr_left
  intro c hc
  rw [digitValue_of_digit (h c hc)]
  have := isDigit_iff.mp (h c hc)
  show 48 + (c - 48) = c
  omega

theorem dropUnderscores_of_not_mem (h : 0x5F ∉ s) (b : Bool) : dropUnderscores b s = some s := by
  induction s generalizing b with
  | nil => cases b <;> rfl
  | cons c r ih =>
    rw [List.mem_cons, not_or] at h
    cases r with
    | nil =>
      rw [dropUnderscores, if_neg fun he => h.1 he.symm]
    | cons d r =>
      rw [dropUnderscores, if_neg fun he => h.1 he.symm, ih h.2]
      rfl

theorem span_append {p : ℕ → Bool} {a r : Str} (ha : ∀ c ∈ a, p c = true)
    (hr : ∀ c, r.head? = some c → p c = false) : (a ++ r).span p = (a, r) := by
  rw [List.span_eq_takeWhile_dropWhile, List.takeWhile_append_of_pos ha,
    List.dropWhile_append_of_pos ha]
  cases r with
  | nil => simp
  | cons c r =>
    rw [List.takeWhile_cons_of_neg (by simp [hr c rfl]),
      List.dropWhile_cons_of_neg (by simp [hr c rfl]), List.append_nil]

theorem numeral?_digits (hne : s ≠ []) (h : ∀ c ∈ s, isDigit c = true) :
    numeral? s = some (natOf s, 0) := by
  have hspan := span_append (r := []) h (by simp)
  rw [List.append_nil] at hspan
  unfold numeral?
  rw [hspan]
  simp [hne]

/-- **`float` of a row of digits.** -/
theorem parse_digits (hne : s ≠ []) (h : ∀ c ∈ s, isDigit c = true) :
    Double.parse s = some (.ofRat (natOf s)) := by
  have hstrip := strip_eq_self fun c hc => isSpace_of_digit (h c hc)
  have hunder : dropUnderscores false s = some s :=
    dropUnderscores_of_not_mem (fun hm => absurd (h _ hm) (by decide)) false
  have hsign : splitSign s = (false, s) := by
    unfold splitSign
    split
    · exact absurd (h 0x2D (by simp)) (by decide)
    · exact absurd (h 0x2B (by simp)) (by decide)
    · rfl
  have hword : s.map asciiLower = s := by
    conv_rhs => rw [← List.map_id s]
    exact List.map_congr_left fun c hc => asciiLower_of_digit (h c hc)
  have hlit {w : String} (hw : ∀ c ∈ (lit w).head?, isDigit c = false) : s ≠ lit w := by
    rintro rfl
    cases hl : lit w with
    | nil => exact hne hl
    | cons c r =>
      have hc := hw c (by rw [hl]; rfl)
      rw [h c (by rw [hl]; simp)] at hc
      cases hc
  have hinf := hlit (w := "inf") (by decide)
  have hinfinity := hlit (w := "infinity") (by decide)
  have hnan := hlit (w := "nan") (by decide)
  unfold Double.parse
  rw [hstrip, toAsciiDigits_of_digits h, hunder]
  simp only [Option.bind_eq_bind, Option.bind_some, hsign, hword, hinf, hinfinity, hnan,
    or_false, if_false, numeral?_digits hne h]
  simp

end Py
