import Tronado.Lib.Regex
import Tronado.Models.Base

/-!
# Overlong fractions of a second

`overlongFraction` is the pattern the source matches a timestamp with.

* `normalizeDatetime_str`: the model of `_normalize_datetime` is the pattern's two
  groups put together.
* `normalizeDatetime_truncates`: of a timestamp with one point it keeps at most six
  digits behind the point, and everything else.
-/

namespace Tronado

open Py

/-- `.`: any character but a newline. -/
def dot (c : ℕ) : Bool := c != 0x0A

/-- What follows the point: the seventh digit and all after it, and the second group. -/
def overlongTail (g1 r : Str) : Option (Str × Str) :=
  Regex.plus isDecimalDigit r fun _ r =>
    Regex.star dot r fun g2 r => if Regex.atEnd r then some (g1, g2) else none

/-- `\.\d{6}` behind `before`, and what follows it. -/
def overlongPoint (before r : Str) : Option (Str × Str) :=
  Regex.seq (Regex.one (· == 0x2E)) (Regex.times 6 isDecimalDigit) r fun b r =>
    overlongTail (before ++ b) r

/-- `_OVERLONG_FRACTION.match(value)`, its groups: `^(.*\.\d{6})\d+(.*)$`. -/
def overlongFraction (s : Str) : Option (Str × Str) := Regex.star dot s overlongPoint

theorem isDecimalDigit_newline : isDecimalDigit 0x0A = false := by decide

theorem isDecimalDigit_point : isDecimalDigit 0x2E = false := by decide

/-- A text on one line, possibly with its final newline. -/
structure OneLine (u e : Str) : Prop where
  line : ∀ c ∈ u, dot c = true
  ending : Regex.atEnd e = true

theorem atEnd_iff {e : Str} : Regex.atEnd e = true ↔ e = [] ∨ e = [0x0A] := by
  simp [Regex.atEnd]

theorem takeWhile_append_end {p : ℕ → Bool} {e : Str} (he : Regex.atEnd e = true)
    (hp : p 0x0A = false) (u : Str) : (u ++ e).takeWhile p = u.takeWhile p := by
  rcases atEnd_iff.mp he with rfl | rfl
  · rw [List.append_nil]
  · rw [List.takeWhile_append]
    split
    · next h =>
      rw [List.takeWhile_cons_of_neg (by simp [hp]), List.append_nil]
      exact ((List.takeWhile_prefix p).eq_of_length h).symm
    · rfl

theorem dropWhile_append_end {p : ℕ → Bool} {e : Str} (he : Regex.atEnd e = true)
    (hp : p 0x0A = false) (u : Str) : (u ++ e).dropWhile p = u.dropWhile p ++ e := by
  have h := takeWhile_append_end he hp u
  have hsplit : (u ++ e).takeWhile p ++ (u ++ e).dropWhile p =
      (u ++ e).takeWhile p ++ (u.dropWhile p ++ e) := by
    rw [List.takeWhile_append_dropWhile, h, ← List.append_assoc, List.takeWhile_append_dropWhile]
  exact List.append_cancel_left hsplit

/-! ## The pattern on one line -/

theorem star_line {u e : Str} (h : OneLine u e) (g1 : Str) :
    (Regex.star dot (u ++ e) fun g2 r => if Regex.atEnd r then some (g1, g2) else none) =
      some (g1, u) := by
  refine Regex.star_first ?_
  have hu : u.takeWhile dot = u := List.takeWhile_eq_self_iff.mpr h.line
  have hd : u.dropWhile dot = [] := List.dropWhile_eq_nil_iff.mpr h.line
  rw [takeWhile_append_end h.ending rfl, dropWhile_append_end h.ending rfl, hu, hd, List.nil_append,
    if_pos h.ending]

/-- The digits that are cut, on one line. -/
theorem overlongTail_line {c : ℕ} {u e : Str} (h : OneLine (c :: u) e)
    (hc : isDecimalDigit c = true) (g1 : Str) :
    overlongTail g1 (c :: (u ++ e)) = some (g1, (c :: u).dropWhile isDecimalDigit) := by
  refine Regex.plus_first hc ?_
  rw [← List.cons_append, dropWhile_append_end h.ending isDecimalDigit_newline]
  have hline : OneLine ((c :: u).dropWhile isDecimalDigit) e :=
    ⟨fun d hd => h.line d ((List.dropWhile_sublist _).subset hd), h.ending⟩
  exact star_line hline g1

theorem overlongTail_some {g1 r : Str} {g : Str × Str} (h : overlongTail g1 r = some g) :
    ∃ a t e, r = a ++ (t ++ e) ∧ a ≠ [] ∧ (∀ c ∈ a, isDecimalDigit c = true) ∧ OneLine t e := by
  obtain ⟨a, r', rfl, hne, ha, h⟩ := Regex.of_plus h
  obtain ⟨t, e, rfl, ht, h⟩ := Regex.of_star h
  split at h
  · next he => exact ⟨a, t, e, rfl, hne, ha, ht, he⟩
  · cases h

theorem overlongPoint_some {before r : Str} {g : Str × Str} (h : overlongPoint before r = some g) :
    ∃ ds t e, r = 0x2E :: (ds ++ (t ++ e)) ∧ 7 ≤ ds.length ∧
      (∀ c ∈ ds, isDecimalDigit c = true) ∧ OneLine t e := by
  obtain ⟨c, r', rfl, hc, h⟩ := Regex.of_one h
  obtain ⟨b, r, rfl, hlen, hb, h⟩ := Regex.of_times h
  obtain ⟨a, t, e, rfl, hne, ha, hline⟩ := overlongTail_some h
  have hpos := List.length_pos_of_ne_nil hne
  refine ⟨b ++ a, t, e, ?_, ?_, ?_, hline⟩
  · rw [beq_iff_eq.mp hc, List.append_assoc]
  · rw [List.length_append]; omega
  · intro c hc
    rcases List.mem_append.mp hc with hc | hc
    · exact hb c hc
    · exact ha c hc

/-- A match is on one line. -/
theorem overlongFraction_some {s : Str} {g : Str × Str} (h : overlongFraction s = some g) :
    ∃ u e, s = u ++ e ∧ OneLine u e := by
  obtain ⟨a, r, rfl, ha, h⟩ := Regex.of_star h
  obtain ⟨ds, t, e, rfl, -, hds, hline⟩ := overlongPoint_some h
  refine ⟨a ++ 0x2E :: (ds ++ t), e, by simp, ?_, hline.ending⟩
  intro c hc
  simp only [List.mem_append, List.mem_cons] at hc
  rcases hc with hc | rfl | hc | hc
  · exact ha c hc
  · rfl
  · have hd := hds c hc
    cases hdot : dot c with
    | true => rfl
    | false =>
      rw [show c = 0x0A by simpa [dot] using hdot, isDecimalDigit_newline] at hd
      cases hd
  · exact hline.line c hc

/-- Seven digits, split behind the sixth. -/
theorem exists_seventh {u : Str} (h : 7 ≤ (u.takeWhile isDecimalDigit).length) :
    ∃ a c w, u = a ++ c :: w ∧ a.length = 6 ∧ (∀ d ∈ a, isDecimalDigit d = true) ∧
      isDecimalDigit c = true := by
  have hall : ∀ d ∈ u.takeWhile isDecimalDigit, isDecimalDigit d = true :=
    fun d hd => List.mem_takeWhile_imp hd
  have hpre : (u.takeWhile isDecimalDigit).take 7 <+: u :=
    (List.take_prefix 7 _).trans (List.takeWhile_prefix _)
  obtain ⟨w, hw⟩ := hpre
  have hlen : ((u.takeWhile isDecimalDigit).take 7).length = 7 := by
    rw [List.length_take]; omega
  obtain ⟨a, c, hac⟩ : ∃ a c, (u.takeWhile isDecimalDigit).take 7 = a ++ [c] :=
    ⟨_, _, (List.dropLast_append_getLast (List.ne_nil_of_length_pos (by omega))).symm⟩
  have hmem : ∀ d ∈ a ++ [c], isDecimalDigit d = true := fun d hd =>
    hall d (List.mem_of_mem_take (hac ▸ hd))
  refine ⟨a, c, w, ?_, ?_, fun d hd => hmem d (by simp [hd]), hmem c (by simp)⟩
  · rw [← hw, hac, List.append_assoc]; rfl
  · rw [hac, List.length_append] at hlen
    simpa using hlen

/-- A point and at least seven digits, on one line: where the pattern may match. -/
theorem overlongPoint_line {c : ℕ} {u e : Str} (h : OneLine (c :: u) e) (before : Str) :
    overlongPoint before (c :: (u ++ e)) =
      if c = 0x2E ∧ 7 ≤ (u.takeWhile isDecimalDigit).length then
        some (before ++ c :: u.take 6, u.dropWhile isDecimalDigit)
      else none := by
  split
  · next hcond =>
    obtain ⟨rfl, hlen⟩ := hcond
    obtain ⟨a, c, w, rfl, ha, had, hc⟩ := exists_seventh hlen
    have hline : OneLine (c :: w) e := ⟨fun d hd => h.line d (by simp_all), h.ending⟩
    have htail := overlongTail_line hline hc (before ++ 0x2E :: a)
    rw [List.take_append_of_le_length ha.ge, ← ha, List.take_length,
      List.dropWhile_append_of_pos had, ← htail, List.append_assoc, List.cons_append]
    unfold overlongPoint Regex.seq
    rw [Regex.one, if_pos (by decide), ← ha, Regex.times_append _ had]
    rfl
  · next hcond =>
    cases hp : overlongPoint before (c :: (u ++ e)) with
    | none => rfl
    | some g =>
      obtain ⟨ds, t, e', heq, hlen, hds, -⟩ := overlongPoint_some hp
      obtain ⟨rfl, hrest⟩ := List.cons.inj heq
      refine absurd ⟨rfl, ?_⟩ hcond
      have htw : (u ++ e).takeWhile isDecimalDigit = u.takeWhile isDecimalDigit :=
        takeWhile_append_end h.ending isDecimalDigit_newline u
      rw [← htw, hrest, List.takeWhile_append_of_pos hds, List.length_append]
      omega

/-- The match on one line, behind what the first group has taken already. -/
theorem overlongFraction_line {u e : Str} (h : OneLine u e) (before : Str) :
    (Regex.star dot (u ++ e) fun a r => overlongPoint (before ++ a) r).map
        (fun g => g.1 ++ g.2) = (cutFraction u).map (before ++ ·) := by
  induction u generalizing before with
  | nil =>
    rw [List.nil_append, cutFraction, Option.map_none]
    rcases atEnd_iff.mp h.ending with rfl | rfl <;> rfl
  | cons c u ih =>
    have hline : OneLine u e := ⟨fun d hd => h.line d (by simp [hd]), h.ending⟩
    have hrest := ih hline (before ++ [c])
    rw [List.cons_append, Regex.star, if_pos (h.line c (by simp)), cutFraction]
    simp only [List.append_assoc, List.singleton_append] at hrest
    cases hcut : cutFraction u with
    | some t =>
      rw [hcut] at hrest
      obtain ⟨g, hg, hgt⟩ := Option.map_eq_some_iff.mp hrest
      rw [hg, Option.some_or, Option.map_some, hgt, Option.map_some]
    | none =>
      rw [hcut, Option.map_none, Option.map_eq_none_iff] at hrest
      rw [hrest, Option.none_or, List.append_nil, overlongPoint_line h]
      dsimp only
      split <;> simp

/-- A text is on one line when no newline is left once the final one is dropped. -/
theorem exists_oneLine {s : Str} (h : (chompNewline s).contains 0x0A = false) :
    ∃ e, s = chompNewline s ++ e ∧ OneLine (chompNewline s) e := by
  have hline : ∀ c ∈ chompNewline s, dot c = true := by
    intro c hc
    cases hd : dot c with
    | true => rfl
    | false =>
      rw [show c = 0x0A by simpa [dot] using hd] at hc
      rw [List.contains_iff_mem.mpr hc] at h
      cases h
  unfold chompNewline at hline ⊢
  split at hline
  · next hlast =>
    rw [if_pos hlast]
    obtain ⟨t, rfl⟩ := List.getLast?_eq_some_iff.mp hlast
    exact ⟨[0x0A], by simp, hline, rfl⟩
  · next hlast =>
    rw [if_neg hlast]
    exact ⟨[], by simp, hline, rfl⟩

theorem chompNewline_of_oneLine {u e : Str} (h : OneLine u e) : chompNewline (u ++ e) = u := by
  unfold chompNewline
  rcases atEnd_iff.mp h.ending with rfl | rfl
  · rw [List.append_nil, if_neg]
    intro hlast
    have hdot := h.line _ (List.mem_of_getLast? hlast)
    cases hdot
  · simp

theorem contains_newline_of_oneLine {u e : Str} (h : OneLine u e) : u.contains 0x0A = false := by
  cases hc : u.contains 0x0A with
  | false => rfl
  | true => cases h.line _ (List.contains_iff_mem.mp hc)

/-- **`_normalize_datetime` is the two groups of the match, put together.** -/
theorem normalizeDatetime_str (s : Str) :
    normalizeDatetime (.str s) =
      match overlongFraction s with
      | some (g1, g2) => .str (g1 ++ g2)
      | none => .str s := by
  cases hs : (chompNewline s).contains 0x0A with
  | false =>
    obtain ⟨e, hse, hline⟩ := exists_oneLine hs
    have hcut := overlongFraction_line hline []
    rw [← hse] at hcut
    simp only [List.nil_append, Option.map_id'] at hcut
    rw [normalizeDatetime, if_neg (by simp only [hs, Bool.false_eq_true, not_false_eq_true]),
      ← hcut]
    show _ = match Regex.star dot s overlongPoint with
      | some (g1, g2) => Value.str (g1 ++ g2)
      | none => .str s
    cases Regex.star dot s overlongPoint <;> rfl
  | true =>
    have hnone : overlongFraction s = none := by
      cases h : overlongFraction s with
      | none => rfl
      | some g =>
        obtain ⟨u, e, rfl, hline⟩ := overlongFraction_some h
        rw [chompNewline_of_oneLine hline, contains_newline_of_oneLine hline] at hs
        cases hs
    rw [normalizeDatetime, if_pos hs, hnone]

/-! ## What is cut -/

/-- The fraction of a second that a text of digits behind the point denotes. -/
def fraction : Str → ℚ
  | [] => 0
  | c :: r => (((digitValue c).getD 0 : ℕ) + fraction r) / 10

theorem digitValue_lt {c n : ℕ} (h : digitValue c = some n) : n < 10 := by
  obtain ⟨z, hz, rfl⟩ := Option.map_eq_some_iff.mp h
  have hc := List.find?_some hz
  rw [decide_eq_true_eq] at hc
  omega

theorem digitValue_getD_le (c : ℕ) : (digitValue c).getD 0 ≤ 9 := by
  cases h : digitValue c with
  | none => simp
  | some n => exact Nat.le_of_lt_succ (digitValue_lt h)

theorem fraction_nonneg (d : Str) : 0 ≤ fraction d := by
  induction d with
  | nil => exact le_rfl
  | cons c r ih => rw [fraction]; positivity

theorem fraction_lt_one (d : Str) : fraction d < 1 := by
  induction d with
  | nil => norm_num [fraction]
  | cons c r ih =>
    have hc : ((digitValue c).getD 0 : ℚ) ≤ 9 := by exact_mod_cast digitValue_getD_le c
    rw [fraction, div_lt_one (by norm_num)]
    linarith

/-- Cutting behind the `n`-th digit moves back by less than its unit. -/
theorem fraction_take (d : Str) (n : ℕ) :
    fraction (d.take n) ≤ fraction d ∧ fraction d < fraction (d.take n) + 1 / 10 ^ n := by
  induction n generalizing d with
  | zero =>
    rw [List.take_zero]
    exact ⟨fraction_nonneg d, by simpa [fraction] using fraction_lt_one d⟩
  | succ n ih =>
    cases d with
    | nil =>
      have hpos : (0 : ℚ) < 1 / 10 ^ (n + 1) := by positivity
      exact ⟨le_rfl, by rw [List.take_nil]; linarith⟩
    | cons c r =>
      obtain ⟨hle, hlt⟩ := ih r
      rw [List.take_succ_cons, fraction, fraction, pow_succ]
      constructor
      · linarith
      · have hdiv : (1 : ℚ) / (10 ^ n * 10) = 1 / 10 ^ n / 10 := by rw [div_div]
        rw [hdiv]
        linarith

theorem cutFraction_eq_none_of_not_mem {s : Str} (h : 0x2E ∉ s) : cutFraction s = none := by
  induction s with
  | nil => rfl
  | cons c r ih =>
    rw [List.mem_cons, not_or] at h
    rw [cutFraction, ih h.2]
    exact if_neg fun hc => h.1 hc.1.symm

theorem not_mem_digits {d : Str} (hd : ∀ c ∈ d, isDecimalDigit c = true) {x : ℕ}
    (hx : isDecimalDigit x = false) : x ∉ d := by
  intro h
  rw [hd x h] at hx
  cases hx

/-- A timestamp with one point, on one line: `p` before the point, the digits `d`
behind it, and a suffix `r` for the time zone. -/
structure Timestamp (p d r : Str) : Prop where
  point_before : 0x2E ∉ p
  line_before : 0x0A ∉ p
  digits : ∀ c ∈ d, isDecimalDigit c = true
  point_after : 0x2E ∉ r
  line_after : 0x0A ∉ r
  suffix : ∀ c, r.head? = some c → isDecimalDigit c = false

variable {p d r : Str}

theorem Timestamp.take (h : Timestamp p d r) (n : ℕ) : Timestamp p (d.take n) r :=
  { h with digits := fun c hc => h.digits c (List.mem_of_mem_take hc) }

theorem Timestamp.oneLine (h : Timestamp p d r) : OneLine (p ++ 0x2E :: (d ++ r)) [] := by
  refine ⟨?_, rfl⟩
  intro c hc
  have hne : c ≠ 0x0A := by
    rintro rfl
    simp only [List.mem_append, List.mem_cons] at hc
    rcases hc with hc | hc | hc | hc
    · exact h.line_before hc
    · cases hc
    · exact not_mem_digits h.digits isDecimalDigit_newline hc
    · exact h.line_after hc
  simpa [dot] using hne

theorem Timestamp.takeWhile_suffix (h : Timestamp p d r) : r.takeWhile isDecimalDigit = [] := by
  cases r with
  | nil => rfl
  | cons c r => rw [List.takeWhile_cons_of_neg (by simp [h.suffix c rfl])]

theorem Timestamp.dropWhile_suffix (h : Timestamp p d r) : r.dropWhile isDecimalDigit = r := by
  cases r with
  | nil => rfl
  | cons c r => rw [List.dropWhile_cons_of_neg (by simp [h.suffix c rfl])]

theorem Timestamp.cutFraction_eq (h : Timestamp p d r) :
    cutFraction (p ++ 0x2E :: (d ++ r)) =
      if 7 ≤ d.length then some (p ++ 0x2E :: (d.take 6 ++ r)) else none := by
  have hpoint : 0x2E ∉ d ++ r := by
    rw [List.mem_append, not_or]
    exact ⟨not_mem_digits h.digits isDecimalDigit_point, h.point_after⟩
  have hrun : (d ++ r).takeWhile isDecimalDigit = d := by
    rw [List.takeWhile_append_of_pos h.digits, h.takeWhile_suffix, List.append_nil]
  have hrest : (d ++ r).dropWhile isDecimalDigit = r := by
    rw [List.dropWhile_append_of_pos h.digits, h.dropWhile_suffix]
  have hp := h.point_before
  clear h
  induction p with
  | nil =>
    rw [List.nil_append, cutFraction, cutFraction_eq_none_of_not_mem hpoint, hrun, hrest]
    by_cases hlen : 7 ≤ d.length
    · rw [if_pos hlen, List.take_append_of_le_length (by omega)]
      exact if_pos ⟨rfl, hlen⟩
    · rw [if_neg hlen]
      exact if_neg fun hc => hlen hc.2
  | cons c p ih =>
    rw [List.mem_cons, not_or] at hp
    rw [List.cons_append, cutFraction, ih hp.2]
    by_cases hlen : 7 ≤ d.length
    · rw [if_pos hlen, if_pos hlen]
      rfl
    · rw [if_neg hlen, if_neg hlen]
      exact if_neg fun hc => hp.1 hc.1.symm

theorem Timestamp.normalize_eq (h : Timestamp p d r) :
    normalizeDatetime (.str (p ++ 0x2E :: (d ++ r))) = .str (p ++ 0x2E :: (d.take 6 ++ r)) := by
  have hchomp := chompNewline_of_oneLine h.oneLine
  rw [List.append_nil] at hchomp
  have hline := contains_newline_of_oneLine h.oneLine
  rw [normalizeDatetime, hchomp, hline, if_neg Bool.false_ne_true, h.cutFraction_eq]
  by_cases hlen : 7 ≤ d.length
  · rw [if_pos hlen]
  · rw [if_neg hlen, List.take_of_length_le (by omega)]

theorem normalizeDatetime_of_not_mem {s : Str} (h : 0x2E ∉ s) :
    normalizeDatetime (.str s) = .str s := by
  have hchomp : 0x2E ∉ chompNewline s := by
    unfold chompNewline
    split
    · exact fun hm => h ((List.dropLast_sublist s).subset hm)
    · exact h
  rw [normalizeDatetime, cutFraction_eq_none_of_not_mem hchomp]
  split <;> rfl

/-- **What `_normalize_datetime` cuts.**  A text without a point is left alone.
Of a timestamp it keeps at most six digits of the fraction, and everything else:
the fraction moves back by less than a microsecond, one of at most six digits is
left alone, and a second pass changes nothing. -/
theorem normalizeDatetime_truncates :
    (∀ s : Str, 0x2E ∉ s → normalizeDatetime (.str s) = .str s) ∧
    ∀ p d r : Str, Timestamp p d r →
      normalizeDatetime (.str (p ++ 0x2E :: (d ++ r))) =
        .str (p ++ 0x2E :: (d.take (min 6 d.length) ++ r)) ∧
      (d.length ≤ 6 → normalizeDatetime (.str (p ++ 0x2E :: (d ++ r))) =
        .str (p ++ 0x2E :: (d ++ r))) ∧
      fraction (d.take 6) ≤ fraction d ∧ fraction d < fraction (d.take 6) + 1 / 10 ^ 6 ∧
      normalizeDatetime (normalizeDatetime (.str (p ++ 0x2E :: (d ++ r)))) =
        normalizeDatetime (.str (p ++ 0x2E :: (d ++ r))) := by
  refine ⟨fun s => normalizeDatetime_of_not_mem, ?_⟩
  intro p d r h
  obtain ⟨hle, hlt⟩ := fraction_take d 6
  refine ⟨?_, ?_, hle, hlt, ?_⟩
  · rw [h.normalize_eq, List.take_eq_take_min]
  · intro hlen
    rw [h.normalize_eq, List.take_of_length_le hlen]
  · rw [h.normalize_eq, (h.take 6).normalize_eq, List.take_take, min_self]

/-- Seven digits and a zone. -/
theorem timestamp_sample :
    Timestamp (lit "2026-06-20T15:27:00") (lit "1830009") (lit "+03:30") := by
  constructor <;> decide

theorem normalizeDatetime_truncates_sample :
    0x2E ∉ lit "Z" ∧ normalizeDatetime (.str (lit "Z")) = .str (lit "Z") ∧
    Timestamp (lit "2026-06-20T15:27:00") (lit "1830009") (lit "+03:30") ∧
    normalizeDatetime (.str (lit "2026-06-20T15:27:00.1830009+03:30")) =
      .str (lit "2026-06-20T15:27:00.183000+03:30") :=
  ⟨by decide, normalizeDatetime_truncates.1 _ (by decide), timestamp_sample,
    (normalizeDatetime_truncates.2 _ _ _ timestamp_sample).1⟩

end Tronado
