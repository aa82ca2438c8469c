import Tronado.Http.Base
import Tronado.Lib.Delay

/-!
# The backoff of a config

`BackoffLaw` says what `_backoff` should do on every attempt the retry loop can
reach: it returns a delay between zero and `max_backoff`, within half of the
clamped exponential and the whole of it, and the delays grow with the attempt.

* `backoffDelay_eq`: with a factor and a ceiling from zero on, the delay is the
  clamped exponential times the share that the jitter picks.
* `backoffLaw_iff`: the law holds of the configs with such a ceiling, a factor that
  is a number, and at most 1024 retries.
-/

namespace Tronado

open Py Py.Double Run

variable {config : TronadoConfig}

/-- `min(backoff_factor * 2 ** attempt, max_backoff)`. -/
def backoffBase (config : TronadoConfig) (attempt : ℕ) : Double :=
  (config.backoffFactor.mul (.finite (2 ^ attempt))).min config.maxBackoff

/-- The bounds of a delay. -/
structure DelayBounds (config : TronadoConfig) (attempt : ℕ) (delay : Double) : Prop where
  nonneg : le (.finite 0) delay = true
  ceiling : le delay config.maxBackoff = true
  half : le ((backoffBase config attempt).mul (.finite (1 / 2))) delay = true
  full : le delay (backoffBase config attempt) = true

/-- What `_backoff` should do on the attempts below `max_retries`. -/
structure BackoffLaw (config : TronadoConfig) : Prop where
  total : ∀ attempt < config.maxRetries, ∀ jitter,
    ∃ delay, backoffWith config attempt jitter = .ok delay ∧ DelayBounds config attempt delay
  mono : ∀ i j, i ≤ j → j < config.maxRetries → ∀ jitter delay delay',
    backoffWith config i jitter = .ok delay → backoffWith config j jitter = .ok delay' →
      le delay delay' = true

/-- The share of the base that a jitter picks. -/
def share (jitter : Jitter) : ℚ := 1 / 2 + 1 / 2 * jitter.val

theorem half_le_share (jitter : Jitter) : 1 / 2 ≤ share jitter := by
  have := jitter.property.1
  unfold share
  linarith

theorem share_pos (jitter : Jitter) : 0 < share jitter :=
  (by norm_num : (0 : ℚ) < 1 / 2).trans_le (half_le_share jitter)

theorem share_le_one (jitter : Jitter) : share jitter ≤ 1 := by
  have := jitter.property.2
  unfold share
  linarith

/-- A config whose backoff is made of numbers from zero on. -/
structure Sane (config : TronadoConfig) : Prop where
  factor : NonNeg config.backoffFactor
  ceiling : NonNeg config.maxBackoff

theorem factor_nonNeg (h : config.backoffFactor ≠ .nan) : NonNeg config.backoffFactor := by
  have hlt := config.backoffFactor_nonneg
  rw [← nonNeg_iff]
  cases hf : config.backoffFactor with
  | finite q =>
    rw [hf, lt_finite, decide_eq_false_iff_not, not_lt] at hlt
    simpa using hlt
  | inf => rfl
  | negInf =>
    rw [hf] at hlt
    cases hlt
  | nan => exact absurd hf h

theorem Sane.power_nonNeg (h : Sane config) (attempt : ℕ) :
    NonNeg (config.backoffFactor.mul (.finite (2 ^ attempt))) :=
  h.factor.mul_nonNeg (by positivity)

theorem Sane.base_nonNeg (h : Sane config) (attempt : ℕ) : NonNeg (backoffBase config attempt) :=
  (h.power_nonNeg attempt).min_nonNeg h.ceiling

/-- **The delay is a share of the base**: both clamps behind it do nothing. -/
theorem backoffDelay_eq (h : Sane config) (attempt : ℕ) (jitter : Jitter) :
    backoffDelay (.finite (2 ^ attempt)) config.backoffFactor config.maxBackoff jitter =
      (backoffBase config attempt).mul (.finite (share jitter)) := by
  have hbase := h.base_nonNeg attempt
  have hdelay : NonNeg ((backoffBase config attempt).mul (.finite (share jitter))) :=
    hbase.mul_nonNeg (share_pos jitter)
  have hle :
      le ((backoffBase config attempt).mul (.finite (share jitter))) config.maxBackoff = true :=
    hdelay.le_trans (hbase.mul_le_self (share_pos jitter) (share_le_one jitter))
      ((h.power_nonNeg attempt).min_le_right h.ceiling)
  show Double.max (.finite 0)
      (((backoffBase config attempt).mul (.finite (share jitter))).min config.maxBackoff) = _
  rw [hdelay.min_eq_left hle, hdelay.max_zero]

theorem backoffWith_eq (h : Sane config) {attempt : ℕ} (hlt : attempt < 1024) (jitter : Jitter) :
    backoffWith config attempt jitter =
      .ok ((backoffBase config attempt).mul (.finite (share jitter))) := by
  rw [backoffWith, computeBackoff_of_lt hlt, backoffDelay_eq h]

theorem delayBounds (h : Sane config) (attempt : ℕ) (jitter : Jitter) :
    DelayBounds config attempt ((backoffBase config attempt).mul (.finite (share jitter))) := by
  have hbase := h.base_nonNeg attempt
  have hdelay := hbase.mul_nonNeg (share_pos jitter)
  have hfull := hbase.mul_le_self (share_pos jitter) (share_le_one jitter)
  exact {
    nonneg := nonNeg_iff.mpr hdelay
    ceiling := hdelay.le_trans hfull ((h.power_nonNeg attempt).min_le_right h.ceiling)
    half := hbase.mul_mono hbase.le_refl (by norm_num) (half_le_share jitter)
    full := hfull }

theorem backoffBase_mono (h : Sane config) {i j : ℕ} (hij : i ≤ j) :
    le (backoffBase config i) (backoffBase config j) = true := by
  have hpow : (2 : ℚ) ^ i ≤ 2 ^ j := pow_le_pow_right₀ (by norm_num) hij
  exact (h.power_nonNeg i).min_mono (h.power_nonNeg j) h.ceiling
    (h.factor.mul_mono h.factor.le_refl (by positivity) hpow)

theorem backoffLaw_of_sane (h : Sane config) (hmax : config.maxRetries ≤ 1024) :
    BackoffLaw config := by
  constructor
  · intro attempt hlt jitter
    exact ⟨_, backoffWith_eq h (by omega) jitter, delayBounds h attempt jitter⟩
  · intro i j hij hlt jitter delay delay' hi hj
    rw [backoffWith_eq h (by omega)] at hi hj
    cases hi
    cases hj
    exact (h.base_nonNeg i).mul_mono (backoffBase_mono h hij) (share_pos jitter) le_rfl

/-- A config that follows the law and retries at all is made of numbers. -/
theorem sane_of_backoffLaw (h : BackoffLaw config) (hpos : 0 < config.maxRetries) :
    Sane config := by
  obtain ⟨delay, -, hb⟩ := h.total 0 hpos .zero
  have hceiling := (nonNeg_iff.mp hb.nonneg).of_le hb.ceiling
  refine ⟨factor_nonNeg ?_, hceiling⟩
  intro hnan
  have hbase : backoffBase config 0 = .nan := by
    rw [backoffBase, hnan]
    generalize config.maxBackoff = ceiling
    cases ceiling <;> rfl
  have hfull := hb.full
  rw [hbase, le_nan] at hfull
  cases hfull

theorem maxRetries_le_of_backoffLaw (h : BackoffLaw config) : config.maxRetries ≤ 1024 := by
  by_contra hlt
  obtain ⟨delay, hd, -⟩ := h.total 1024 (by omega) .zero
  rw [backoffWith, computeBackoff_of_ge le_rfl] at hd
  cases hd

/-- **When the backoff follows its law.** -/
theorem backoffLaw_iff (config : TronadoConfig) :
    BackoffLaw config ↔ config.maxRetries = 0 ∨
      (config.backoffFactor ≠ .nan ∧ le (.finite 0) config.maxBackoff = true ∧
        config.maxRetries ≤ 1024) := by
  constructor
  · intro h
    rcases Nat.eq_zero_or_pos config.maxRetries with h0 | hpos
    · exact Or.inl h0
    · have hsane := sane_of_backoffLaw h hpos
      refine Or.inr ⟨?_, nonNeg_iff.mpr hsane.ceiling, maxRetries_le_of_backoffLaw h⟩
      intro hnan
      have hfactor := hsane.factor
      rw [hnan] at hfactor
      cases hfactor
  · rintro (h0 | ⟨hfactor, hceiling, hmax⟩)
    · constructor
      · intro attempt hlt
        omega
      · intro i j _ hlt
        omega
    · exact backoffLaw_of_sane ⟨factor_nonNeg hfactor, nonNeg_iff.mp hceiling⟩ hmax

/-- With 1025 retries, attempt 1024 has no delay. -/
theorem not_backoffLaw : ¬ ∀ config : TronadoConfig, BackoffLaw config := by
  intro h
  have hle := maxRetries_le_of_backoffLaw (h { TronadoConfig.standard with maxRetries := 1025 })
  exact absurd hle (by decide)

end Tronado
