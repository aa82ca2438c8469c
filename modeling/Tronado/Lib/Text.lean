import Mathlib.Data.List.DropRight

/-!
# Python strings

A Python `str` is a sequence of code points, lone surrogates included, so it is
read here as a list of numbers.  The methods a program calls on a `str` that
came off the wire are `strip`, `lower` and the tests on characters.

* `strip` removes the code points of `isSpace` from both ends.
* `lower` needs the interpreter's Unicode tables outside ASCII.  They grow with
  every Python release, so they are a parameter, `CaseTable`, with the two facts
  that no release has changed: KELVIN SIGN lowers to `k`, and every other
  character outside ASCII lowers to something outside ASCII.
* `isAscii_lower_iff` and `lower_eq_iff` are all that is used of `lower`: when
  the result is ASCII, and when it is a given ASCII text.
-/

namespace Py

/-- A Python `str`: its code points. -/
abbrev Str := List Nat

/-- A string literal of the source. -/
def lit (s : String) : Str := s.toList.map Char.toNat

theorem lit_inj {s t : String} : lit s = lit t ↔ s = t := by
  refine ⟨?_, congrArg lit⟩
  intro h
  have hinj : Function.Injective Char.toNat := fun a b hab => Char.toNat_inj.mp hab
  exact String.toList_inj.mp (List.map_injective_iff.mpr hinj h)

/-- `str.isspace` of one character, which is what `str.strip` removes. -/
def isSpace (c : Nat) : Bool :=
  (0x09 ≤ c && c ≤ 0x0D) || (0x1C ≤ c && c ≤ 0x20) || c == 0x85 || c == 0xA0 || c == 0x1680 ||
    (0x2000 ≤ c && c ≤ 0x200A) || c == 0x2028 || c == 0x2029 || c == 0x202F || c == 0x205F ||
    c == 0x3000

/-- `str.strip()`. -/
def strip (s : Str) : Str := (s.dropWhile isSpace).rdropWhile isSpace

def isAscii (s : Str) : Bool := s.all (· < 128)

/-- An ASCII digit. -/
def isDigit (c : Nat) : Bool := 48 ≤ c && c ≤ 57

/-- The zeros of the decimal digits of Unicode (category `Nd`): each starts a
block of ten. -/
def digitZeros : List Nat :=
  [0x30, 0x660, 0x6F0, 0x7C0, 0x966, 0x9E6, 0xA66, 0xAE6, 0xB66, 0xBE6, 0xC66, 0xCE6, 0xD66,
    0xDE6, 0xE50, 0xED0, 0xF20, 0x1040, 0x1090, 0x17E0, 0x1810, 0x1946, 0x19D0, 0x1A80, 0x1A90,
    0x1B50, 0x1BB0, 0x1C40, 0x1C50, 0xA620, 0xA8D0, 0xA900, 0xA9D0, 0xA9F0, 0xAA50, 0xABF0,
    0xFF10, 0x104A0, 0x10D30, 0x11066, 0x110F0, 0x11136, 0x111D0, 0x112F0, 0x11450, 0x114D0,
    0x11650, 0x116C0, 0x11730, 0x118E0, 0x11950, 0x11C50, 0x11D50, 0x11DA0, 0x16A60, 0x16AC0,
    0x16B50, 0x1D7CE, 0x1D7D8, 0x1D7E2, 0x1D7EC, 0x1D7F6, 0x1E140, 0x1E2F0, 0x1E950, 0x1FBF0]

/-- The value of a Unicode decimal digit (`\d` of `re`, `str.isdecimal`). -/
def digitValue (c : Nat) : Option Nat :=
  (digitZeros.find? (fun z => decide (z ≤ c ∧ c < z + 10))).map (c - ·)

/-! ## Lower case -/

def asciiLower (c : Nat) : Nat := if 65 ≤ c ∧ c ≤ 90 then c + 32 else c

/-- The interpreter's lower-case mapping outside ASCII.  It sees the characters
before and after, for the final form of capital sigma. -/
structure CaseTable where
  lower : Str → Nat → Str → Str
  kelvin : ∀ before after, lower before 0x212A after = [0x6B]
  nonAscii : ∀ before c after, 128 ≤ c → c ≠ 0x212A → ∃ d ∈ lower before c after, 128 ≤ d

def lowerFrom (t : CaseTable) : Str → Str → Str
  | _, [] => []
  | before, c :: after =>
    (if c < 128 then [asciiLower c] else t.lower before c after) ++
      lowerFrom t (before ++ [c]) after

/-- `str.lower()`. -/
def lower (t : CaseTable) (s : Str) : Str := lowerFrom t [] s

theorem asciiLower_lt {c : Nat} (h : c < 128) : asciiLower c < 128 := by
  unfold asciiLower; split <;> omega

theorem asciiLower_of_ge {c : Nat} (h : 128 ≤ c) : asciiLower c = c := by
  unfold asciiLower; rw [if_neg (by omega)]

theorem lowerFrom_of_ascii (t : CaseTable) :
    ∀ (s before : Str), (∀ c ∈ s, c < 128) → lowerFrom t before s = s.map asciiLower := by
  intro s
  induction s with
  | nil => intro _ _; rfl
  | cons c r ih =>
    intro before h
    rw [lowerFrom, if_pos (h c (by simp)), ih _ (fun d hd => h d (by simp [hd]))]
    rfl

theorem lowerFrom_append_of_ascii (t : CaseTable) (r : Str) :
    ∀ (s before : Str), (∀ c ∈ s, c < 128) →
      lowerFrom t before (s ++ r) = s.map asciiLower ++ lowerFrom t (before ++ s) r := by
  intro s
  induction s with
  | nil => intro before _; simp
  | cons c s ih =>
    intro before h
    rw [List.cons_append, lowerFrom, if_pos (h c (by simp)), ih _ (fun d hd => h d (by simp [hd]))]
    simp

theorem lowerFrom_ascii_iff (t : CaseTable) :
    ∀ (s before : Str), (∀ d ∈ lowerFrom t before s, d < 128) ↔ ∀ c ∈ s, c < 128 ∨ c = 0x212A := by
  intro s
  induction s with
  | nil => intro before; simp [lowerFrom]
  | cons c r ih =>
    intro before
    rw [lowerFrom, List.forall_mem_append, ih, List.forall_mem_cons]
    refine and_congr ?_ Iff.rfl
    by_cases hc : c < 128
    · simp [hc, asciiLower_lt hc]
    · rw [if_neg hc]
      by_cases hk : c = 0x212A
      · subst hk; simp [t.kelvin]
      · obtain ⟨d, hd, hge⟩ := t.nonAscii before c r (by omega) hk
        refine ⟨?_, ?_⟩
        · intro h
          exact absurd (h d hd) (by omega)
        · intro h
          rcases h with h | h
          · exact absurd h hc
          · exact absurd h hk

/-- **When a lowered text is ASCII**: its characters are, KELVIN SIGN aside. -/
theorem isAscii_lower_iff (t : CaseTable) (s : Str) :
    isAscii (lower t s) = true ↔ ∀ c ∈ s, c < 128 ∨ c = 0x212A := by
  rw [lower, ← lowerFrom_ascii_iff t s []]
  simp [isAscii]

theorem kelvin_mem_lowerFrom (t : CaseTable) :
    ∀ (s before : Str), 0x212A ∈ s → 0x6B ∈ lowerFrom t before s := by
  intro s
  induction s with
  | nil => intro _ h; simp at h
  | cons c r ih =>
    intro before h
    rw [lowerFrom, List.mem_append]
    rcases List.mem_cons.mp h with rfl | h
    · left; simp [t.kelvin]
    · exact Or.inr (ih _ h)

/-- **Lowering to an ASCII text without `k` is ASCII lowering**: no character
outside ASCII can take part in it. -/
theorem lower_eq_iff (t : CaseTable) {s u : Str} (hu : ∀ d ∈ u, d < 128) (hk : 0x6B ∉ u) :
    lower t s = u ↔ s.map asciiLower = u := by
  constructor
  · rintro rfl
    have hs : ∀ c ∈ s, c < 128 := by
      intro c hc
      rcases (lowerFrom_ascii_iff t s []).mp hu c hc with h | rfl
      · exact h
      · exact absurd (kelvin_mem_lowerFrom t s [] hc) hk
    exact (lowerFrom_of_ascii t s [] hs).symm
  · rintro rfl
    apply lowerFrom_of_ascii t s []
    intro c hc
    by_contra hge
    have := hu _ (List.mem_map_of_mem hc)
    rw [asciiLower_of_ge (by omega)] at this
    exact hge this

end Py
