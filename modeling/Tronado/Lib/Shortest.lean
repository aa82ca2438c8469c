import Tronado.Lib.Rounding

/-!
# The shortest decimal of a double

`Shortest q x n` says that `x` is the shortest decimal that is read as the double
`q`: it has `n` digits, no decimal with fewer is read as `q`, and of those with `n`
it is the nearest, or the even one of the two nearest.

* `shortest_spec`: `shortest` computes it.
* `Shortest.unique`: there is only one.
* `shortest_of_digits`: a decimal of at most fifteen digits in the normal range is
  the shortest one of its double.
* `toRat_ofDouble`: `Decimal(str(x))` in these terms.
-/

namespace Py

/-- A decimal of at most `n` digits. -/
def Digits (n : ℕ) (x : ℚ) : Prop := ∃ (c : ℕ) (s : ℤ), c < 10 ^ n ∧ x = c * 10 ^ s

/-- The unit of the `n`-th digit of `q`. -/
def unit (q : ℚ) (n : ℕ) : ℚ := 10 ^ (Int.log 10 q - n + 1)

/-- The shortest decimal that is read as `q`. -/
structure Shortest (q x : ℚ) (n : ℕ) : Prop where
  reads : RoundsTo x q
  digits : Digits n x
  least : ∀ m < n, ∀ y, Digits m y → ¬ RoundsTo y q
  nearest : ∀ y, Digits n y → RoundsTo y q →
    y = x ∨ |x - q| < |y - q| ∨ (|x - q| = |y - q| ∧ ∃ k : ℤ, x = 2 * k * unit q n)

theorem unit_pos (q : ℚ) (n : ℕ) : 0 < unit q n := ten_zpow_pos _

theorem Digits.mono {m n : ℕ} {x : ℚ} (h : Digits m x) (hmn : m ≤ n) : Digits n x := by
  obtain ⟨c, s, hc, hx⟩ := h
  exact ⟨c, s, hc.trans_le (Nat.pow_le_pow_right (by norm_num) hmn), hx⟩

/-! ## Decimals near a number -/

theorem decade_le {q : ℚ} (hq : 0 < q) : 10 ^ Int.log 10 q ≤ q := by
  exact_mod_cast Int.zpow_log_le_self (b := 10) (by norm_num) hq

theorem lt_next_decade (q : ℚ) : q < 10 ^ (Int.log 10 q + 1) := by
  exact_mod_cast Int.lt_zpow_succ_log_self (b := 10) (by norm_num) q

/-- The power of ten below `q`, in units of the `n`-th digit. -/
theorem decade_eq (q : ℚ) {n : ℕ} (hn : 0 < n) :
    (10 : ℚ) ^ Int.log 10 q = ((10 ^ (n - 1) : ℤ) : ℚ) * unit q n := by
  unfold unit
  push_cast
  rw [← ten_zpow_add]
  congr 1
  omega

theorem next_decade_eq (q : ℚ) (n : ℕ) :
    (10 : ℚ) ^ (Int.log 10 q + 1) = ((10 ^ n : ℤ) : ℚ) * unit q n := by
  unfold unit
  push_cast
  rw [← ten_zpow_add]
  congr 1
  omega

/-- A multiple of its own unit is a decimal of `n` digits. -/
theorem Digits.of_unit {q : ℚ} (hq : 0 < q) {n : ℕ} {m : ℤ} (h : q = m * unit q n) :
    Digits n q := by
  have ht := unit_pos q n
  have hpos : 0 < m := by
    rw [h] at hq
    exact_mod_cast pos_of_mul_pos_left hq ht.le
  have hlt : (m : ℚ) * unit q n < ((10 ^ n : ℤ) : ℚ) * unit q n := by
    rw [← h, ← next_decade_eq]
    exact lt_next_decade q
  have hm : m < 10 ^ n := by exact_mod_cast lt_of_mul_lt_mul_right hlt ht.le
  refine ⟨m.toNat, Int.log 10 q - n + 1, ?_, ?_⟩
  · zify
    rwa [Int.toNat_of_nonneg hpos.le]
  · rw [← Int.cast_natCast, Int.toNat_of_nonneg hpos.le]
    exact h

/-- A decimal of `n` digits is a multiple of the unit, or lies below the decade. -/
theorem Digits.multiple_or_lt {n : ℕ} {y : ℚ} (h : Digits n y) (q : ℚ) :
    (∃ j : ℤ, y = j * unit q n) ∨ y < 10 ^ Int.log 10 q := by
  obtain ⟨c, s, hc, rfl⟩ := h
  rcases le_or_gt (Int.log 10 q - n + 1) s with hs | hs
  · obtain ⟨k, hk⟩ : ∃ k : ℕ, s = k + (Int.log 10 q - n + 1) :=
      ⟨(s - (Int.log 10 q - n + 1)).toNat, by omega⟩
    refine Or.inl ⟨c * 10 ^ k, ?_⟩
    rw [hk, ten_zpow_add]
    unfold unit
    push_cast
    ring
  · right
    have hcn : (c : ℚ) < 10 ^ n := by exact_mod_cast hc
    calc (c : ℚ) * 10 ^ s < 10 ^ n * 10 ^ s := mul_lt_mul_of_pos_right hcn (ten_zpow_pos s)
      _ = 10 ^ ((n : ℤ) + s) := (ten_zpow_add n s).symm
      _ ≤ 10 ^ Int.log 10 q := zpow_le_zpow_right₀ (by norm_num) (by omega)

/-- The multiple of `t` at or below `q`, as a number of units. -/
def below (q t : ℚ) : ℤ := (q / t).floor

section

variable {q t : ℚ} (ht : 0 < t)
include ht

theorem below_le : below q t * t ≤ q := (le_div_iff₀ ht).mp (Rat.floor_le _)

theorem lt_below_succ : q < (below q t + 1 : ℤ) * t :=
  (div_lt_iff₀ ht).mp (Rat.lt_floor_add_one _)

theorem le_below {j : ℤ} (h : j * t ≤ q) : j ≤ below q t :=
  Rat.le_floor_iff.mpr ((le_div_iff₀ ht).mpr h)

end

/-- **One of the two neighbours is as good as any decimal of `n` digits.** -/
theorem neighbour_of_digits {q y : ℚ} {n : ℕ} (hq : 0 < q) (hn : 0 < n) (hd : Digits n y)
    (hr : RoundsTo y q) :
    ∃ c : ℤ, (c = below q (unit q n) ∨ c = below q (unit q n) + 1) ∧
      RoundsTo (c * unit q n) q ∧ (y = c * unit q n ∨ |c * unit q n - q| < |y - q|) := by
  have ht := unit_pos q n
  have hself := hr.self hq
  have hlo := below_le (q := q) ht
  have hhi := lt_below_succ (q := q) ht
  have lower (hy : y ≤ below q (unit q n) * unit q n) :
      RoundsTo (below q (unit q n) * unit q n) q ∧
        (y = below q (unit q n) * unit q n ∨ |below q (unit q n) * unit q n - q| < |y - q|) := by
    refine ⟨hr.between hself hq hy hlo, ?_⟩
    rcases hy.eq_or_lt with he | hlt
    · exact Or.inl he
    · right
      rw [abs_of_nonpos (by linarith), abs_of_nonpos (by linarith)]
      linarith
  rcases hd.multiple_or_lt q with ⟨j, rfl⟩ | hlt
  · rcases le_or_gt j (below q (unit q n)) with hj | hj
    · have hle : (j : ℚ) * unit q n ≤ below q (unit q n) * unit q n :=
        mul_le_mul_of_nonneg_right (by exact_mod_cast hj) ht.le
      exact ⟨_, Or.inl rfl, lower hle⟩
    · have hle : ((below q (unit q n) + 1 : ℤ) : ℚ) * unit q n ≤ j * unit q n :=
        mul_le_mul_of_nonneg_right (by exact_mod_cast hj) ht.le
      refine ⟨_, Or.inr rfl, hself.between hr hq hhi.le hle, ?_⟩
      rcases hle.eq_or_lt with he | hlt
      · exact Or.inl he.symm
      · right
        rw [abs_of_nonneg (by linarith), abs_of_nonneg (by linarith)]
        linarith
  · have hdec : (10 : ℚ) ^ Int.log 10 q ≤ below q (unit q n) * unit q n := by
      have hle := decade_le hq
      rw [decade_eq q hn] at hle ⊢
      exact mul_le_mul_of_nonneg_right (by exact_mod_cast le_below ht hle) ht.le
    exact ⟨_, Or.inl rfl, lower (hlt.le.trans hdec)⟩

/-! ## The search -/

/-- The neighbours of `q` among the multiples of `t`, the preferred one first. -/
def neighbours (q t : ℚ) : List ℤ :=
  let f := q / t - below q t
  if f < 1 / 2 ∨ (f = 1 / 2 ∧ below q t % 2 = 0) then [below q t, below q t + 1]
  else [below q t + 1, below q t]

theorem roundTrip?_eq {q : ℚ} (hq : 0 < q) (n : ℕ) :
    roundTrip? q n =
      ((neighbours q (unit q n)).find?
        (fun c : ℤ => decide (RoundsTo (c * unit q n) q))).map fun c =>
          if c = 10 ^ n then (1, Int.log 10 q - n + 1 + n)
          else (c.toNat, Int.log 10 q - n + 1) := by
  unfold roundTrip? neighbours below unit
  simp only [log10Floor_eq hq]
  rfl

theorem mem_neighbours {q t : ℚ} {c : ℤ} :
    c ∈ neighbours q t ↔ c = below q t ∨ c = below q t + 1 := by
  unfold neighbours
  dsimp only
  split
  · simp
  · simp [or_comm]

/-- A search through two numbers, the better one first. -/
theorem find?_pair {p : ℤ → Bool} {q t : ℚ} {a b c c' : ℤ} (h : [a, b].find? p = some c)
    (hc' : c' = a ∨ c' = b) (hp : p c' = true)
    (hbetter : |a * t - q| < |b * t - q| ∨ (|a * t - q| = |b * t - q| ∧ a % 2 = 0)) :
    c' = c ∨ |c * t - q| < |c' * t - q| ∨ (|c * t - q| = |c' * t - q| ∧ c % 2 = 0) := by
  rw [List.find?_cons] at h
  split at h
  · cases h
    rcases hc' with rfl | rfl
    · exact Or.inl rfl
    · exact Or.inr hbetter
  · next hnot =>
    have hce := List.mem_of_find?_eq_some h
    rw [List.mem_singleton] at hce
    rcases hc' with rfl | rfl
    · rw [hp] at hnot
      cases hnot
    · exact Or.inl hce.symm

/-- **The first neighbour that passes a test is the nearest one**, or the even one
of two. -/
theorem find_neighbours {q t : ℚ} (ht : 0 < t) {p : ℤ → Bool} {c : ℤ}
    (h : (neighbours q t).find? p = some c) {c' : ℤ} (hc' : c' ∈ neighbours q t)
    (hp : p c' = true) :
    c' = c ∨ |c * t - q| < |c' * t - q| ∨ (|c * t - q| = |c' * t - q| ∧ c % 2 = 0) := by
  have hlo : |(below q t : ℚ) * t - q| = (q / t - below q t) * t := by
    rw [abs_of_nonpos (by linarith [below_le (q := q) ht]), sub_mul, div_mul_cancel₀ _ ht.ne']
    ring
  have hhi : |((below q t + 1 : ℤ) : ℚ) * t - q| = (1 - (q / t - below q t)) * t := by
    rw [abs_of_nonneg (by linarith [lt_below_succ (q := q) ht]), sub_mul, sub_mul,
      div_mul_cancel₀ _ ht.ne']
    push_cast
    ring
  rw [mem_neighbours] at hc'
  unfold neighbours at h
  dsimp only at h
  split at h
  · next hnear =>
    apply find?_pair h hc' hp
    rw [hlo, hhi]
    rcases hnear with hlt | ⟨he, heven⟩
    · exact Or.inl (mul_lt_mul_of_pos_right (by linarith) ht)
    · exact Or.inr ⟨by rw [he]; ring, heven⟩
  · next hfar =>
    rw [not_or, not_and, not_lt] at hfar
    apply find?_pair h hc'.symm hp
    rw [hlo, hhi]
    rcases hfar.1.eq_or_lt with he | hlt
    · exact Or.inr ⟨by rw [← he]; ring, by have := hfar.2 he.symm; omega⟩
    · exact Or.inl (mul_lt_mul_of_pos_right (by linarith) ht)

section

variable {q : ℚ} {n : ℕ} (hq : 0 < q)
include hq

theorem below_nonneg (hn : 0 < n) : 0 ≤ below q (unit q n) := by
  have hle := decade_le hq
  rw [decade_eq q hn] at hle
  have := le_below (unit_pos q n) hle
  have hpow : (0 : ℤ) < 10 ^ (n - 1) := by positivity
  omega

omit hq in
theorem below_lt : below q (unit q n) < 10 ^ n := by
  have hlt := lt_next_decade q
  rw [next_decade_eq q n] at hlt
  have hle := (below_le (q := q) (unit_pos q n)).trans_lt hlt
  exact_mod_cast lt_of_mul_lt_mul_right hle (unit_pos q n).le

/-- A neighbour, written with `n` digits. -/
theorem neighbour_digits (hn : 0 < n) {c : ℤ} {m : ℕ} {e : ℤ}
    (hc : c ∈ neighbours q (unit q n))
    (h : (if c = 10 ^ n then (1, Int.log 10 q - n + 1 + n)
      else (c.toNat, Int.log 10 q - n + 1)) = (m, e)) :
    (m : ℚ) * 10 ^ e = c * unit q n ∧ m < 10 ^ n := by
  have hrange := mem_neighbours.mp hc
  have hnonneg := below_nonneg hq hn
  have hlt := below_lt (q := q) (n := n)
  split at h
  · next hce =>
    cases h
    rw [hce, add_comm, ten_zpow_add]
    exact ⟨by unfold unit; push_cast; ring, Nat.one_lt_pow hn.ne' (by norm_num)⟩
  · next hce =>
    cases h
    have hcast : ((c.toNat : ℕ) : ℤ) = c := Int.toNat_of_nonneg (by omega)
    refine ⟨?_, ?_⟩
    · rw [← Int.cast_natCast, hcast]
      rfl
    · have hcn : ((c.toNat : ℕ) : ℤ) < ((10 ^ n : ℕ) : ℤ) := by
        rw [hcast]
        push_cast
        omega
      exact_mod_cast hcn

/-- What the search at `n` digits finds. -/
theorem of_roundTrip? (hn : 0 < n) {m : ℕ} {e : ℤ} (h : roundTrip? q n = some (m, e)) :
    RoundsTo (m * 10 ^ e) q ∧ Digits n (m * 10 ^ e) ∧
      ∀ y, Digits n y → RoundsTo y q → y = m * 10 ^ e ∨ |m * 10 ^ e - q| < |y - q| ∨
        (|m * 10 ^ e - q| = |y - q| ∧ ∃ k : ℤ, (m : ℚ) * 10 ^ e = 2 * k * unit q n) := by
  rw [roundTrip?_eq hq] at h
  obtain ⟨c, hfind, hc⟩ := Option.map_eq_some_iff.mp h
  have hreads : RoundsTo (c * unit q n) q := by
    simpa only [decide_eq_true_eq] using List.find?_some hfind
  obtain ⟨hvalue, hm⟩ := neighbour_digits hq hn (List.mem_of_find?_eq_some hfind) hc
  rw [hvalue]
  refine ⟨hreads, ⟨m, e, hm, hvalue.symm⟩, ?_⟩
  intro y hy hr
  obtain ⟨c', hc', hreads', hbest⟩ := neighbour_of_digits hq hn hy hr
  have hpick := find_neighbours (unit_pos q n) hfind (mem_neighbours.mpr hc')
    (decide_eq_true hreads')
  have heven (h2 : c % 2 = 0) : ∃ k : ℤ, (c : ℚ) * unit q n = 2 * k * unit q n :=
    ⟨c / 2, by
      have : c = 2 * (c / 2) := by omega
      conv_lhs => rw [this]
      push_cast
      ring⟩
  rcases hbest with rfl | hbest
  · rcases hpick with rfl | hlt | ⟨he, h2⟩
    · exact Or.inl rfl
    · exact Or.inr (Or.inl hlt)
    · exact Or.inr (Or.inr ⟨he, heven h2⟩)
  · right; left
    rcases hpick with rfl | hlt | ⟨he, -⟩
    · exact hbest
    · exact hlt.trans hbest
    · exact he ▸ hbest

/-- The search succeeds where a decimal of `n` digits is read as `q`. -/
theorem roundTrip?_isSome (hn : 0 < n) {y : ℚ} (hd : Digits n y) (hr : RoundsTo y q) :
    (roundTrip? q n).isSome = true := by
  obtain ⟨c, hc, hreads, -⟩ := neighbour_of_digits hq hn hd hr
  rw [roundTrip?_eq hq, Option.isSome_map, List.find?_isSome]
  exact ⟨c, mem_neighbours.mpr hc, decide_eq_true hreads⟩

/-- **Seventeen digits always suffice.** -/
theorem roundTrip?_seventeen (hself : RoundsTo q q) : (roundTrip? q 17).isSome = true := by
  have ht := unit_pos q 17
  have hunit : unit q 17 * 10 ^ 16 ≤ q := by
    have hle := decade_le hq
    rw [decade_eq q (by norm_num : 0 < 17)] at hle
    push_cast at hle
    linarith
  have hlo := below_le (q := q) ht
  have hhi := lt_below_succ (q := q) ht
  rw [roundTrip?_eq hq, Option.isSome_map, List.find?_isSome]
  rcases le_or_gt (q - below q (unit q 17) * unit q 17) (unit q 17 / 2) with h | h
  · refine ⟨below q (unit q 17), mem_neighbours.mpr (Or.inl rfl), ?_⟩
    have hreads : RoundsTo (below q (unit q 17) * unit q 17) q := by
      refine hself.of_near hq ?_
      rw [abs_of_nonpos (by linarith)]
      linarith
    simpa only [decide_eq_true_eq] using hreads
  · refine ⟨below q (unit q 17) + 1, mem_neighbours.mpr (Or.inr rfl), ?_⟩
    have hreads : RoundsTo ((below q (unit q 17) + 1 : ℤ) * unit q 17) q := by
      refine hself.of_near hq ?_
      rw [abs_of_nonneg (by linarith)]
      push_cast
      linarith
    simpa only [decide_eq_true_eq] using hreads

end

/-- A search over a range stops at the first index that has an answer. -/
theorem findSome?_range {α : Type} {f : ℕ → Option α} {k : ℕ} {a : α}
    (h : (List.range k).findSome? f = some a) : ∃ i < k, f i = some a ∧ ∀ j < i, f j = none := by
  induction k with
  | zero => simp at h
  | succ k ih =>
    rw [List.range_succ, List.findSome?_append] at h
    rcases Option.or_eq_some_iff.mp h with h | ⟨hnone, h⟩
    · obtain ⟨i, hi, hf⟩ := ih h
      exact ⟨i, by omega, hf⟩
    · rw [List.findSome?_eq_none_iff] at hnone
      exact ⟨k, by omega, by simpa using h, fun j hj => hnone j (List.mem_range.mpr hj)⟩

/-- **`shortest` computes the shortest decimal of a double.** -/
theorem shortest_spec {q : ℚ} (hq : 0 < q) (hself : RoundsTo q q) :
    ∃ n, Shortest q ((shortest q).1 * 10 ^ (shortest q).2) n := by
  obtain ⟨⟨m, e⟩, hme⟩ :
      ∃ me, (List.range 17).findSome? (fun i => roundTrip? q (i + 1)) = some me := by
    rw [← Option.isSome_iff_exists, List.findSome?_isSome_iff]
    exact ⟨16, by simp, roundTrip?_seventeen hq hself⟩
  have hshort : shortest q = (m, e) := by
    rw [shortest, hme]
    rfl
  obtain ⟨i, -, hi, hfirst⟩ := findSome?_range hme
  obtain ⟨hreads, hdigits, hnearest⟩ := of_roundTrip? hq (Nat.succ_pos i) hi
  rw [hshort]
  refine ⟨i + 1, hreads, hdigits, ?_, hnearest⟩
  intro j hj y hy hr
  rcases Nat.eq_zero_or_pos j with rfl | hpos
  · obtain ⟨c, s, hc, rfl⟩ := hy
    have hzero : c = 0 := by simpa using hc
    have := hr.pos hq
    simp [hzero] at this
  · have hsome := roundTrip?_isSome hq hpos hy hr
    have hnone := hfirst (j - 1) (by omega)
    rw [Nat.sub_add_cancel hpos] at hnone
    rw [hnone] at hsome
    cases hsome

/-- **There is one shortest decimal.** -/
theorem Shortest.unique {q x x' : ℚ} {n n' : ℕ} (hq : 0 < q) (h : Shortest q x n)
    (h' : Shortest q x' n') : x = x' := by
  obtain rfl : n = n' := by
    rcases lt_trichotomy n n' with hlt | he | hlt
    · exact absurd h.reads (h'.least n hlt x h.digits)
    · exact he
    · exact absurd h'.reads (h.least n' hlt x' h'.digits)
  rcases h.nearest x' h'.digits h'.reads with he | hlt | ⟨he, k, hk⟩
  · exact he.symm
  · rcases h'.nearest x h.digits h.reads with he' | hlt' | ⟨he', -⟩
    · exact he'
    · linarith
    · linarith
  · rcases h'.nearest x h.digits h.reads with he' | hlt' | ⟨-, k', hk'⟩
    · exact he'
    · linarith
    · by_contra hne
      -- both are even, so `q` in the middle is a decimal of `n` digits itself
      have hmid : q = ((k + k' : ℤ) : ℚ) * unit q n := by
        rcases abs_eq_abs.mp he with heq | heq
        · exact absurd (by linarith) hne
        · push_cast
          linarith
      have hself := h.reads.self hq
      have hx : x = q := by
        rcases h.nearest q (Digits.of_unit hq hmid) hself with he' | hlt | ⟨he', -⟩
        · exact he'.symm
        · rw [sub_self, abs_zero] at hlt
          exact absurd hlt (not_lt.mpr (abs_nonneg _))
        · rw [sub_self, abs_zero, abs_eq_zero] at he'
          linarith
      have hx' : x' = q := by
        rw [hx, sub_self, abs_zero] at he
        linarith [abs_eq_zero.mp he.symm]
      exact hne (hx.trans hx'.symm)

/-! ## Fifteen digits -/

/-- Two decimals of `n` digits are not close together. -/
theorem Digits.gap {n : ℕ} {x y : ℚ} (hx : Digits n x) (hy : Digits n y) (hlt : x < y) :
    x < 10 ^ n * (y - x) := by
  obtain ⟨c, s, hc, rfl⟩ := hx
  obtain ⟨c', s', hc', rfl⟩ := hy
  have hcn : (c : ℚ) < 10 ^ n := by exact_mod_cast hc
  have hcn' : (c' : ℚ) < 10 ^ n := by exact_mod_cast hc'
  -- the difference is a multiple of the smaller unit
  have apart {t : ℚ} (ht : 0 < t) {i j : ℕ} (h : (i : ℚ) * t < j * t) : t ≤ j * t - i * t := by
    have hij : i < j := by exact_mod_cast lt_of_mul_lt_mul_right h ht.le
    have hle : ((i + 1 : ℕ) : ℚ) * t ≤ j * t :=
      mul_le_mul_of_nonneg_right (by exact_mod_cast hij) ht.le
    push_cast at hle
    linarith
  have scale (m k : ℕ) (e : ℤ) :
      (m : ℚ) * 10 ^ ((k : ℤ) + e) = ((m * 10 ^ k : ℕ) : ℚ) * 10 ^ e := by
    rw [ten_zpow_add]
    push_cast
    ring
  rcases le_total s s' with h | h
  · obtain ⟨k, rfl⟩ : ∃ k : ℕ, s' = k + s := ⟨(s' - s).toNat, by omega⟩
    rw [scale] at hlt ⊢
    calc (c : ℚ) * 10 ^ s < 10 ^ n * 10 ^ s := mul_lt_mul_of_pos_right hcn (ten_zpow_pos s)
      _ ≤ _ := mul_le_mul_of_nonneg_left (apart (ten_zpow_pos s) hlt) (by positivity)
  · obtain ⟨k, rfl⟩ : ∃ k : ℕ, s = k + s' := ⟨(s - s').toNat, by omega⟩
    rw [scale] at hlt ⊢
    calc _ < (c' : ℚ) * 10 ^ s' := hlt
      _ ≤ 10 ^ n * 10 ^ s' := mul_le_mul_of_nonneg_right hcn'.le (ten_zpow_pos s').le
      _ ≤ _ := mul_le_mul_of_nonneg_left (apart (ten_zpow_pos s') hlt) (by positivity)

/-- **Two decimals of fifteen digits are not read as one normal double.** -/
theorem Digits.eq_of_roundsTo {x y q : ℚ} (hx : Digits 15 x) (hy : Digits 15 y)
    (hn : 2 ^ (-1022 : ℤ) ≤ q) (hrx : RoundsTo x q) (hry : RoundsTo y q) : x = y := by
  have hdx := abs_le.mp (hrx.abs_sub_le hn)
  have hdy := abs_le.mp (hry.abs_sub_le hn)
  rcases lt_trichotomy x y with hlt | he | hlt
  · have := hx.gap hy hlt
    linarith
  · exact he
  · have := hy.gap hx hlt
    linarith

/-- **A decimal of at most fifteen digits is the shortest one of its double**, in the
normal range. -/
theorem shortest_of_digits {x q : ℚ} (hd : Digits 15 x) (hn : 2 ^ (-1022 : ℤ) ≤ x)
    (hr : RoundsTo x q) : ∃ n, Shortest q x n := by
  classical
  have hex : ∃ n, Digits n x := ⟨15, hd⟩
  have hle : Nat.find hex ≤ 15 := Nat.find_min' hex hd
  have hnq := hr.normal hn
  refine ⟨Nat.find hex, hr, Nat.find_spec hex, ?_, ?_⟩
  · intro m hm y hy hry
    obtain rfl := hd.eq_of_roundsTo (hy.mono (hm.le.trans hle)) hnq hr hry
    exact Nat.find_min hex hm hy
  · intro y hy hry
    exact Or.inl (hd.eq_of_roundsTo (hy.mono hle) hnq hr hry).symm

/-! ## A decimal through its double -/

/-- The number a decimal denotes. -/
def Decimal.toRat? : Decimal → Option ℚ
  | .finite d => some d.toRat
  | _ => none

/-- The number `x` is written as the shortest decimal of a double, or as that of its
negative. -/
def Survives (x : ℚ) : Prop := ∃ q n, Shortest q |x| n

/-- A layout keeps the number. -/
theorem toRat_fixed (neg : Bool) (n : ℕ) {e : ℤ} (he : 0 ≤ e) :
    Dec.toRat ⟨neg, n * 10 ^ (e.toNat + 1), -((1 : ℕ) : ℤ)⟩ = Dec.toRat ⟨neg, n, e⟩ := by
  obtain ⟨k, rfl⟩ := Int.eq_ofNat_of_zero_le he
  unfold Dec.toRat
  simp only [Int.toNat_natCast]
  push_cast
  rw [zpow_natCast, zpow_neg, zpow_one, pow_succ]
  ring

theorem ite_neg_eq_abs (q : ℚ) : (if q < 0 then -q else q) = |q| := by
  split
  · next h => exact (abs_of_neg h).symm
  · next h => exact (abs_of_nonneg (not_lt.mp h)).symm

theorem ofDouble_finite {q : ℚ} (hq : q ≠ 0) :
    (Decimal.ofDouble (.finite q)).toRat? =
      some (Dec.toRat ⟨decide (q < 0), (shortest |q|).1, (shortest |q|).2⟩) := by
  unfold Decimal.ofDouble Double.repr
  simp only [if_neg hq, ite_neg_eq_abs]
  split_ifs with hpoint he
  · exact congrArg some (toRat_fixed _ _ he)
  · rw [not_le] at he
    have hneg : -(((-(shortest |q|).2).toNat : ℕ) : ℤ) = (shortest |q|).2 := by omega
    simp only [Decimal.toRat?, hneg]
  · rfl

/-- A double without its sign is one. -/
theorem roundsTo_abs {x q : ℚ} (h : RoundsTo x q) (hq : q ≠ 0) : RoundsTo |q| |q| := by
  rcases lt_trichotomy x 0 with hx | rfl | hx
  · have hpos := neg_pos.mpr hx
    have hneg := ofRat_neg hpos
    rw [neg_neg, show Double.ofRat x = .finite q from h] at hneg
    split at hneg
    · cases hneg
    · next hlt =>
      have hq' : |q| = roundPos (-x) := by
        rw [Double.finite.inj hneg, abs_neg, abs_of_nonneg (roundPos_nonneg hpos)]
      have hr : RoundsTo (-x) |q| := (ofRat_eq_finite_iff hpos).mpr ⟨hq'.symm, hq' ▸ not_le.mp hlt⟩
      exact hr.self (abs_pos.mpr hq)
  · exact absurd (Double.finite.inj (h.symm.trans ofRat_zero)) hq
  · have hge := roundPos_nonneg hx
    rw [((ofRat_eq_finite_iff hx).mp h).1] at hge
    rw [abs_of_nonneg hge]
    exact h.self (lt_of_le_of_ne hge hq.symm)

theorem shortest_ne_zero {x q : ℚ} (h : RoundsTo x q) (hq : q ≠ 0) : (shortest |q|).1 ≠ 0 := by
  intro h0
  have hpos := abs_pos.mpr hq
  obtain ⟨n, hn⟩ := shortest_spec hpos (roundsTo_abs h hq)
  have := hn.reads.pos hpos
  simp [h0] at this

theorem ofDouble_ofRat_pos {x : ℚ} (hx : 0 < x) :
    (Decimal.ofDouble (.ofRat (-x))).toRat? = (Decimal.ofDouble (.ofRat x)).toRat?.map (-·) := by
  rw [ofRat_neg hx, ofRat_pos hx]
  split
  · rfl
  · rcases (roundPos_nonneg hx).eq_or_lt with h0 | hpos
    · rw [← h0]
      simp [Decimal.ofDouble, Double.repr, Decimal.toRat?, Dec.toRat]
    · rw [ofDouble_finite hpos.ne', ofDouble_finite (neg_ne_zero.mpr hpos.ne')]
      simp [Dec.toRat, hpos, hpos.le, abs_neg]

/-- The shortest decimal of zero is zero. -/
theorem Shortest.eq_zero {x : ℚ} {n : ℕ} (h : Shortest 0 x n) : x = 0 := by
  have hzero : Digits 0 0 := ⟨0, 0, by norm_num, by norm_num⟩
  obtain rfl : n = 0 := by
    by_contra hn
    exact h.least 0 (Nat.pos_of_ne_zero hn) 0 hzero ofRat_zero
  obtain ⟨c, s, hc, rfl⟩ := h.digits
  simp [Nat.lt_one_iff.mp hc]

theorem survives_zero : Survives 0 := by
  refine ⟨0, 0, ?_⟩
  rw [abs_zero]
  refine ⟨ofRat_zero, ⟨0, 0, by norm_num, by norm_num⟩, fun m hm => absurd hm (Nat.not_lt_zero m),
    fun y hy _ => Or.inl ?_⟩
  obtain ⟨c, s, hc, rfl⟩ := hy
  simp [Nat.lt_one_iff.mp hc]

/-- **A number comes back from its double just when it is the shortest decimal of it.** -/
theorem toRat?_ofDouble_iff (x : ℚ) :
    (Decimal.ofDouble (.ofRat x)).toRat? = some x ↔ Survives x := by
  have pos {x : ℚ} (hx : 0 < x) :
      (Decimal.ofDouble (.ofRat x)).toRat? = some x ↔ ∃ q n, Shortest q x n := by
    constructor
    · intro h
      rcases he : Double.ofRat x with q | _ | _ | _
      · rw [he] at h
        rcases eq_or_ne q 0 with rfl | hne
        · simp [Decimal.ofDouble, Double.repr, Decimal.toRat?, Dec.toRat] at h
          exact absurd h hx.ne
        · have hq : 0 < q := by
            have hge := roundPos_nonneg hx
            rw [((ofRat_eq_finite_iff hx).mp he).1] at hge
            exact lt_of_le_of_ne hge hne.symm
          rw [ofDouble_finite hne, Option.some.injEq] at h
          obtain ⟨n, hn⟩ := shortest_spec hq (RoundsTo.self he hq)
          refine ⟨q, n, ?_⟩
          rw [← h]
          simpa [Dec.toRat, not_lt.mpr hq.le, abs_of_pos hq] using hn
      all_goals
        rw [he] at h
        cases h
    · rintro ⟨q, n, hs⟩
      have he : Double.ofRat x = .finite q := hs.reads
      have hge := roundPos_nonneg hx
      rw [((ofRat_eq_finite_iff hx).mp he).1] at hge
      rcases hge.eq_or_lt with rfl | hq
      · exact absurd hs.eq_zero hx.ne'
      · obtain ⟨n', hn'⟩ := shortest_spec hq (RoundsTo.self he hq)
        rw [he, ofDouble_finite hq.ne', abs_of_pos hq, hs.unique hq hn']
        simp [Dec.toRat, not_lt.mpr hq.le]
  unfold Survives
  rcases lt_trichotomy x 0 with hx | rfl | hx
  · rw [abs_of_neg hx, ← pos (neg_pos.mpr hx)]
    have hneg := ofDouble_ofRat_pos (neg_pos.mpr hx)
    rw [neg_neg] at hneg
    rw [hneg]
    cases (Decimal.ofDouble (.ofRat (-x))).toRat? with
    | none => simp
    | some y => simp [neg_eq_iff_eq_neg]
  · refine iff_of_true ?_ survives_zero
    simp [ofRat_zero, Decimal.ofDouble, Double.repr, Decimal.toRat?, Dec.toRat]
  · rw [abs_of_pos hx, pos hx]

/-- **The text of a double comes back**, so that one pass through a double settles. -/
theorem survives_of_ofDouble {x : ℚ} {d : Dec} (h : Decimal.ofDouble (.ofRat x) = .finite d) :
    Survives d.toRat := by
  have hd : (Decimal.ofDouble (.ofRat x)).toRat? = some d.toRat := by
    rw [h]
    rfl
  cases he : Double.ofRat x with
  | finite q =>
    rw [he] at hd
    by_cases hq : q = 0
    · subst hq
      have hzero : d.toRat = 0 := by
        simpa [Decimal.ofDouble, Double.repr, Decimal.toRat?, Dec.toRat] using hd.symm
      rw [hzero]
      exact survives_zero
    · rw [ofDouble_finite hq, Option.some.injEq] at hd
      obtain ⟨n, hn⟩ := shortest_spec (abs_pos.mpr hq) (roundsTo_abs he hq)
      refine ⟨|q|, n, ?_⟩
      rw [← hd]
      have habs : |Dec.toRat ⟨decide (q < 0), (shortest |q|).1, (shortest |q|).2⟩| =
          (shortest |q|).1 * 10 ^ (shortest |q|).2 := by
        have hten := ten_zpow_pos (shortest |q|).2
        unfold Dec.toRat
        split
        · rw [neg_one_mul, abs_mul, abs_neg, abs_of_pos hten, Nat.abs_cast]
        · rw [one_mul, abs_mul, abs_of_pos hten, Nat.abs_cast]
      rw [habs]
      exact hn
  | inf => rw [he] at hd; cases hd
  | negInf => rw [he] at hd; cases hd
  | nan => rw [he] at hd; cases hd

/-- **A decimal that comes back has at most seventeen digits.** -/
theorem Survives.digits {x : ℚ} (h : Survives x) : Digits 17 |x| := by
  obtain ⟨q, n, hs⟩ := h
  rcases (abs_nonneg x).eq_or_lt with h0 | hx
  · exact ⟨0, 0, by norm_num, by rw [← h0]; norm_num⟩
  have hge := roundPos_nonneg hx
  rw [((ofRat_eq_finite_iff hx).mp hs.reads).1] at hge
  rcases hge.eq_or_lt with rfl | hq
  · exact absurd hs.eq_zero hx.ne'
  · obtain ⟨⟨m, e⟩, hme⟩ := Option.isSome_iff_exists.mp (roundTrip?_seventeen hq (hs.reads.self hq))
    obtain ⟨hreads, hdigits, -⟩ := of_roundTrip? hq (by norm_num) hme
    exact hs.digits.mono (not_lt.mp fun hlt => hs.least 17 hlt _ hdigits hreads)

/-- A decimal of eighteen digits or more, the last one not zero, does not come back. -/
theorem not_survives {c : ℕ} (hc : 10 ^ 17 ≤ c) (hlast : c % 10 ≠ 0) (s : ℤ) :
    ¬ Survives (c * 10 ^ s) := by
  intro h
  have hten := ten_zpow_pos s
  have hpos : (0 : ℚ) < c := by
    have : (10 ^ 17 : ℚ) ≤ c := by exact_mod_cast hc
    linarith
  obtain ⟨c', s', hc', hx⟩ := h.digits
  rw [abs_of_pos (mul_pos hpos hten)] at hx
  rcases le_or_gt s' s with hs | hs
  · -- seventeen digits do not reach up to it
    have hlt : (c' : ℚ) < c := by exact_mod_cast hc'.trans_le hc
    have hle : (c' : ℚ) * 10 ^ s' ≤ c' * 10 ^ s :=
      mul_le_mul_of_nonneg_left (zpow_le_zpow_right₀ (by norm_num) hs) (by positivity)
    have := mul_lt_mul_of_pos_right hlt hten
    linarith
  · obtain ⟨k, rfl⟩ : ∃ k : ℕ, s' = (k + 1 : ℕ) + s := ⟨(s' - s - 1).toNat, by omega⟩
    rw [ten_zpow_add, ← mul_assoc, pow_succ] at hx
    have hdigits := mul_right_cancel₀ hten.ne' hx
    have hnat : c = c' * 10 ^ k * 10 := by
      rw [mul_assoc]
      exact_mod_cast hdigits
    omega

/-- A finite double has a finite text. -/
theorem exists_ofDouble (q : ℚ) : ∃ d, Decimal.ofDouble (.finite q) = .finite d := by
  unfold Decimal.ofDouble Double.repr
  dsimp only
  split_ifs <;> exact ⟨_, rfl⟩

/-- **Amounts of everyday size come back.** -/
theorem Survives.of_digits {x : ℚ} (hd : Digits 15 |x|) (hlo : 10 ^ (-307 : ℤ) ≤ |x|)
    (hhi : |x| ≤ 10 ^ 308) : Survives x := by
  have hpos : 0 < |x| := (ten_zpow_pos _).trans_le hlo
  obtain ⟨q, hq⟩ := exists_roundsTo hpos hhi
  have hnormal : (2 : ℚ) ^ (-1022 : ℤ) ≤ |x| := by
    have hpow : 10 ^ 307 ≤ 2 ^ 1022 := by decide +kernel
    refine le_trans ?_ hlo
    rw [zpow_neg, zpow_neg, zpow_ofNat, zpow_ofNat]
    exact inv_anti₀ (by positivity) (by exact_mod_cast hpow)
  obtain ⟨n, hn⟩ := shortest_of_digits hd hnormal hq
  exact ⟨q, n, hn⟩

/-- A whole number of units of `10 ^ (-k)` comes back, up to fifteen digits. -/
theorem survives_of_decimals {x : ℚ} {m : ℤ} {k : ℕ} (hx : x = m * 10 ^ (-k : ℤ)) (hk : k ≤ 300)
    (hm : |m| < 10 ^ 15) : Survives x := by
  have habs : |x| = (m.natAbs : ℚ) * 10 ^ (-k : ℤ) := by
    rw [hx, abs_mul, abs_of_pos (ten_zpow_pos _), Nat.cast_natAbs, Int.cast_abs]
  rcases eq_or_ne m 0 with rfl | hm0
  · rw [hx, Int.cast_zero, zero_mul]
    exact survives_zero
  have hlt : m.natAbs < 10 ^ 15 := by zify; exact hm
  have hone : (1 : ℚ) ≤ m.natAbs := by
    exact_mod_cast Nat.one_le_iff_ne_zero.mpr (Int.natAbs_ne_zero.mpr hm0)
  have hten := ten_zpow_pos (-k : ℤ)
  refine Survives.of_digits ⟨m.natAbs, -k, hlt, habs⟩ ?_ ?_
  · calc (10 : ℚ) ^ (-307 : ℤ) ≤ 10 ^ (-k : ℤ) := zpow_le_zpow_right₀ (by norm_num) (by omega)
      _ ≤ m.natAbs * 10 ^ (-k : ℤ) := le_mul_of_one_le_left hten.le hone
      _ = |x| := habs.symm
  · have hle : (10 : ℚ) ^ (-k : ℤ) ≤ 1 := zpow_le_one_of_nonpos₀ (by norm_num) (by omega)
    have hq : (m.natAbs : ℚ) ≤ 10 ^ 15 := by exact_mod_cast hlt.le
    calc |x| = m.natAbs * 10 ^ (-k : ℤ) := habs
      _ ≤ 10 ^ 15 * 1 := mul_le_mul hq hle hten.le (by norm_num)
      _ ≤ 10 ^ 308 := by rw [mul_one]; exact pow_le_pow_right₀ (by norm_num) (by norm_num)

end Py
