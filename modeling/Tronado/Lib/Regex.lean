import Tronado.Lib.Text

/-!
# Backtracking regular expressions

A pattern is a matcher that tries the ways it can match a prefix of a text, in
order, and hands each to what follows: the characters it took and those that are
left.  The first way that what follows accepts is the match.

* `one`, `seq`, `times`, `star`, `plus`: greedy patterns over classes of characters.
* `of_star`, `of_times`, `of_plus`: what a match consists of.
* `star_first`, `plus_first`: the longest way is the match, if it is accepted.
-/

namespace Regex

open Py

variable {α : Type}

/-- A pattern, followed by the rest of a match. -/
abbrev Pattern (α : Type) := Str → (Str → Str → Option α) → Option α

/-- A character of a class. -/
def one (p : ℕ → Bool) : Pattern α
  | c :: r, k => if p c then k [c] r else none
  | [], _ => none

/-- One pattern after another. -/
def seq (m n : Pattern α) : Pattern α := fun s k => m s fun a r => n r fun b t => k (a ++ b) t

/-- `p{n}`. -/
def times : ℕ → (ℕ → Bool) → Pattern α
  | 0, _ => fun s k => k [] s
  | n + 1, p => seq (one p) (times n p)

/-- `p*`, as many as possible. -/
def star (p : ℕ → Bool) : Pattern α
  | c :: r, k =>
    if p c then (star p r fun a t => k (c :: a) t).or (k [] (c :: r)) else k [] (c :: r)
  | [], k => k [] []

/-- `p+`, as many as possible. -/
def plus (p : ℕ → Bool) : Pattern α := seq (one p) (star p)

/-- `$`, also before a final newline. -/
def atEnd (s : Str) : Bool := s == [] || s == [0x0A]

variable {p : ℕ → Bool} {k : Str → Str → Option α} {s : Str} {y : α}

/-! ## What a match consists of -/

theorem of_one (h : one p s k = some y) : ∃ c r, s = c :: r ∧ p c = true ∧ k [c] r = some y := by
  cases s with
  | nil => cases h
  | cons c r =>
    rw [one] at h
    split at h
    · next hc => exact ⟨c, r, rfl, hc, h⟩
    · cases h

theorem of_star (h : star p s k = some y) :
    ∃ a t, s = a ++ t ∧ (∀ c ∈ a, p c = true) ∧ k a t = some y := by
  induction s generalizing k with
  | nil => exact ⟨[], [], rfl, by simp, h⟩
  | cons c r ih =>
    rw [star] at h
    split at h
    · next hc =>
      rcases Option.or_eq_some_iff.mp h with h | ⟨-, h⟩
      · obtain ⟨a, t, rfl, ha, hk⟩ := ih h
        exact ⟨c :: a, t, rfl, by simpa [hc] using ha, hk⟩
      · exact ⟨[], c :: r, rfl, by simp, h⟩
    · exact ⟨[], c :: r, rfl, by simp, h⟩

theorem of_times {n : ℕ} (h : times n p s k = some y) :
    ∃ a t, s = a ++ t ∧ a.length = n ∧ (∀ c ∈ a, p c = true) ∧ k a t = some y := by
  induction n generalizing s k with
  | zero => exact ⟨[], s, rfl, rfl, by simp, h⟩
  | succ n ih =>
    obtain ⟨c, r, rfl, hc, h⟩ := of_one h
    obtain ⟨a, t, rfl, hl, ha, hk⟩ := ih h
    exact ⟨c :: a, t, rfl, by simp [hl], by simpa [hc] using ha, hk⟩

theorem of_plus (h : plus p s k = some y) :
    ∃ a t, s = a ++ t ∧ a ≠ [] ∧ (∀ c ∈ a, p c = true) ∧ k a t = some y := by
  obtain ⟨c, r, rfl, hc, h⟩ := of_one h
  obtain ⟨a, t, rfl, ha, hk⟩ := of_star h
  exact ⟨c :: a, t, rfl, by simp, by simpa [hc] using ha, hk⟩

/-! ## The longest way -/

/-- **The longest way comes first.** -/
theorem star_first (h : k (s.takeWhile p) (s.dropWhile p) = some y) : star p s k = some y := by
  induction s generalizing k with
  | nil => exact h
  | cons c r ih =>
    rw [star]
    split
    · next hc =>
      rw [List.takeWhile_cons_of_pos hc, List.dropWhile_cons_of_pos hc] at h
      rw [ih h]
      rfl
    · next hc => rwa [List.takeWhile_cons_of_neg hc, List.dropWhile_cons_of_neg hc] at h

theorem plus_first {c : ℕ} {r : Str} (hc : p c = true)
    (h : k ((c :: r).takeWhile p) ((c :: r).dropWhile p) = some y) :
    plus p (c :: r) k = some y := by
  rw [List.takeWhile_cons_of_pos hc, List.dropWhile_cons_of_pos hc] at h
  unfold plus seq
  rw [one, if_pos hc]
  exact star_first h

/-- A counted run takes the first characters. -/
theorem times_append {a : Str} (t : Str) (h : ∀ c ∈ a, p c = true) :
    times a.length p (a ++ t) k = k a t := by
  induction a generalizing k with
  | nil => rfl
  | cons c a ih =>
    rw [List.forall_mem_cons] at h
    rw [List.length_cons, times, List.cons_append]
    unfold seq
    rw [one, if_pos h.1, ih h.2]
    rfl

end Regex
