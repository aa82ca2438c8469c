import Tronado.Calls
import Tronado.Taxonomy

/-!
# Which exceptions escape a call

`except TronadoError` is meant to catch everything a call raises (`Closed`).  Three
partial operations stand outside the handlers of the loop: `2.0 ** attempt`,
`time.sleep` on a delay the server may have named, and `json.loads` on a text that
nests too deeply.

* `timeSleep_ok_iff`: the delays `time.sleep` takes.
* `invoke_closed_iff`: a blocking call is closed exactly when each pause before its
  last attempt can be computed and slept, and the last response decodes.
-/

namespace Tronado

open Py Run

/-- `time.sleep(d)`: it rejects `nan`, what does not fit 64 bits of nanoseconds,
and then negative delays.  CPython adds the delay to the monotonic clock, and so raises
`OSError` for some delays just below `2 ^ 63` nanoseconds; these are left out. -/
def timeSleep : Double → Except PyErr Unit
  | .nan => .error (.valueError [.text "Invalid value NaN (not a number)"])
  | .inf => .error .overflowError
  | .negInf => .error .overflowError
  | .finite q =>
    if 2 ^ 63 ≤ q * 10 ^ 9 ∨ q * 10 ^ 9 < -2 ^ 63 then .error .overflowError
    else if q < 0 then .error (.valueError [.text "sleep length must be non-negative"])
    else .ok ()

/-- A delay that `time.sleep` takes. -/
def Sleepable (d : Double) : Prop := ∃ q : ℚ, d = .finite q ∧ 0 ≤ q ∧ q * 10 ^ 9 < 2 ^ 63

theorem timeSleep_ok_iff {d : Double} : timeSleep d = .ok () ↔ Sleepable d := by
  unfold timeSleep Sleepable
  cases d with
  | finite q =>
    simp only [Double.finite.injEq, exists_eq_left']
    split_ifs with h1 h2
    · refine ⟨fun h => (nomatch h), ?_⟩
      intro h
      rcases h1 with h1 | h1
      · exact absurd h.2 (not_lt.mpr h1)
      · nlinarith [h.1]
    · exact ⟨fun h => (nomatch h), fun h => absurd h.1 (not_le.mpr h2)⟩
    · exact ⟨fun _ => ⟨not_lt.mp h2, not_le.mp (fun h => h1 (Or.inl h))⟩, fun _ => rfl⟩
  | inf => simp
  | negInf => simp
  | nan => simp

theorem timeSleep_error {d : Double} {e : PyErr} (h : timeSleep d = .error e) :
    e.isTronado = false := by
  unfold timeSleep at h
  cases d with
  | finite q =>
    simp only at h
    split_ifs at h
    · cases h; rfl
    · cases h; rfl
  | inf => cases h; rfl
  | negInf => cases h; rfl
  | nan => cases h; rfl

section

variable [Runtime] {ρ : Type}

/-- Only a `TronadoError` escapes. -/
def Closed (result : Except PyErr ρ) : Prop := ∀ e, result = .error e → e.isTronado = true

/-- The pause after attempt `i` can be computed, and `time.sleep` takes it. -/
def PauseFits (config : TronadoConfig) (operation : Operation ρ) (prepared : PreparedRequest)
    (env : Env Outcome PyErr) (i : ℕ) : Prop :=
  match toldDelay (env.answer i) with
  | some d => Sleepable d
  | none =>
    i < 1024 ∧ Sleepable (backoffDelay (.finite (2 ^ i)) config.backoffFactor config.maxBackoff
      (env.jitter ((policy config operation prepared).drawnBefore env i)))

theorem pauseReturns_iff {config : TronadoConfig} {operation : Operation ρ}
    {prepared : PreparedRequest} {env : Env Outcome PyErr} {i : ℕ} (hs : env.sleep = timeSleep) :
    (policy config operation prepared).PauseReturns env i ↔
      PauseFits config operation prepared env i := by
  unfold Policy.PauseReturns Policy.delay PauseFits
  rw [hs]
  simp only [show (policy config operation prepared).told = toldDelay from rfl]
  cases toldDelay (env.answer i) with
  | some d => simp [timeSleep_ok_iff]
  | none =>
    simp only [show (policy config operation prepared).backoff = backoffWith config from rfl,
      backoffWith]
    by_cases hi : i < 1024
    · simp [computeBackoff_of_lt hi, timeSleep_ok_iff, hi]
    · simp [computeBackoff_of_ge (not_lt.mp hi), hi]

/-- **A response is closed when its text decodes.** -/
theorem processResponse_closed_iff {operation : Operation ρ} {statusCode : ℕ} {text : Str} :
    Closed (processResponse operation statusCode text) ↔ ∃ data, safeJson text = .ok data := by
  unfold processResponse
  cases hj : safeJson text with
  | error e =>
    refine ⟨?_, fun ⟨_, h⟩ => (nomatch h)⟩
    intro h
    have := h e rfl
    rw [error_of_safeJson hj] at this
    cases this
  | ok data =>
    refine ⟨fun _ => ⟨data, rfl⟩, ?_⟩
    intro _ e he
    rw [ok_bind] at he
    obtain ⟨a, rfl, -⟩ := errorClass_of_error he
    rfl

theorem verdict_closed_iff {config : TronadoConfig} {operation : Operation ρ}
    {prepared : PreparedRequest} {o : Outcome} :
    Closed (verdict config operation prepared o) ↔
      ∀ r, o = .response r → ∃ data, safeJson r.text = .ok data := by
  cases o with
  | timeout => exact ⟨fun _ _ h => (nomatch h), fun _ e he => by cases he; rfl⟩
  | requestError exc => exact ⟨fun _ _ h => (nomatch h), fun _ e he => by cases he; rfl⟩
  | response r =>
    rw [show verdict config operation prepared (.response r)
      = processResponse operation r.statusCode r.text from rfl, processResponse_closed_iff]
    simp

/-- **Which blocking calls raise nothing but `TronadoError`.**  Once the request is
prepared: those in which every pause before the last attempt can be computed and
slept, and the last answer, if it is a response, does not nest too deeply. -/
theorem invoke_closed_iff (t : SyncTransport) (operation : Operation ρ)
    (requestModel : Option RequestModel) (version : Str) (query : Option (List (Str × Value)))
    (answer : ℕ → Outcome) (jitter : ℕ → Jitter) (prepared : PreparedRequest)
    (hp : prepareRequest t.config operation requestModel version query = .ok prepared) :
    let env : Env Outcome PyErr := ⟨answer, jitter, timeSleep⟩
    let last := (policy t.config operation prepared).stop env
    Closed ((t.invoke operation requestModel version query).run env World.start).1 ↔
      (∀ i < last, PauseFits t.config operation prepared env i) ∧
        ∀ r, answer last = .response r → ∃ data, safeJson r.text = .ok data := by
  intro env last
  have hr : (t.invoke operation requestModel version query).run env World.start
      = (policy t.config operation prepared).run prepared env := by
    rw [SyncTransport.run_invoke, runCall, hp]; rfl
  rw [hr]
  rcases (policy t.config operation prepared).pauses_or_first_bad env with
    hpause | ⟨j, hj, hpause, hbad⟩
  · rw [Policy.run_of_pauses prepared hpause]
    rw [show (policy t.config operation prepared).finish
      = verdict t.config operation prepared from rfl, verdict_closed_iff]
    refine ⟨fun h => ⟨fun i hi => (pauseReturns_iff rfl).mp (hpause i hi), h⟩, fun h => h.2⟩
  · refine ⟨?_, fun h => absurd ((pauseReturns_iff rfl).mpr (h.1 j hj)) hbad⟩
    intro h
    obtain ⟨e, he, hnot⟩ := error_of_bad_pause (fun d e => timeSleep_error) hj hpause hbad
    have hcaught := h e he
    rw [hnot] at hcaught
    cases hcaught

end

/-- A call whose requests all time out. -/
theorem invoke_closed_iff_timeout :
    let _ := Runtime.sample
    ∃ prepared,
      prepareRequest .standard Ops.tronGetPriceToToman none (lit "v5") none = .ok prepared ∧
      let env : Env Outcome PyErr :=
        ⟨fun _ => .timeout, fun _ => ⟨0, le_rfl, zero_lt_one⟩, timeSleep⟩
      let last := (policy .standard Ops.tronGetPriceToToman prepared).stop env
      (Closed (((SyncTransport.mk .standard).invoke Ops.tronGetPriceToToman none (lit "v5")
          none).run env World.start).1 ↔
        (∀ i < last, PauseFits .standard Ops.tronGetPriceToToman prepared env i) ∧
          ∀ r, Outcome.timeout = .response r → ∃ data, safeJson r.text = .ok data) :=
  let _ := Runtime.sample
  ⟨_, rfl, invoke_closed_iff ⟨.standard⟩ Ops.tronGetPriceToToman none (lit "v5") none
    (fun _ => .timeout) (fun _ => ⟨0, le_rfl, zero_lt_one⟩) _ rfl⟩

/-- A response 503 with `Retry-After: inf` makes `time.sleep` raise `OverflowError`. -/
theorem not_closed_retry_after_inf :
    ¬ ∀ (_ : Runtime) (t : SyncTransport) (ρ : Type) (operation : Operation ρ)
      (requestModel : Option RequestModel) (version : Str) (query : Option (List (Str × Value)))
      (answer : ℕ → Outcome) (jitter : ℕ → Jitter) (prepared : PreparedRequest),
      prepareRequest t.config operation requestModel version query = .ok prepared →
        Closed ((t.invoke operation requestModel version query).run ⟨answer, jitter, timeSleep⟩
          World.start).1 := by
  intro h
  let _ := Runtime.sample
  have hc := h Runtime.sample ⟨.standard⟩ _ Ops.tronGetPriceToToman none (lit "v5") none
    (fun _ => .response ⟨503, [(lit "Retry-After", lit "inf")], []⟩)
    (fun _ => ⟨0, le_rfl, zero_lt_one⟩) _ rfl
  rw [SyncTransport.run_invoke] at hc
  exact absurd (hc .overflowError rfl) (by decide)

end Tronado
