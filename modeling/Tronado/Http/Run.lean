import Tronado.Http.AsyncTransport
import Tronado.Http.SyncTransport
import Tronado.Lib.Retry

/-!
# The transports follow one retry policy

`policy` is the retry policy of a call: the budget is `max_retries`, or zero when
the operation is not idempotent, a network error or a retryable status is worth
another attempt, and `verdict` is what the last outcome becomes.

* `runCall` is a whole call in these terms.
* `SyncTransport.run_invoke`, `AsyncTransport.run_invoke`: both transports compute
  it, from any world.
-/

namespace Tronado

open Py Run

variable [Runtime] {ρ : Type}

/-- What a call ends with, given the outcome of its last attempt. -/
def verdict (config : TronadoConfig) (operation : Operation ρ) (prepared : PreparedRequest) :
    Outcome → Except PyErr ρ
  | .timeout =>
    .error (.tronado (.timeout [.text "Request to ", .chars prepared.url, .text " timed out after ",
      .float config.timeout, .text "s."]))
  | .requestError exc =>
    .error (.tronado (.connection [.text "Failed to reach ", .chars prepared.url, .text ": ",
      .chars exc]))
  | .response r => processResponse operation r.statusCode r.text

/-- A network error, or a response whose status is retryable. -/
def worthRetry : Outcome → Bool
  | .timeout => true
  | .requestError _ => true
  | .response r => isRetryableStatus r.statusCode

/-- The `Retry-After` of an outcome. -/
def toldDelay : Outcome → Option Double
  | .response r => retryAfter r.headers
  | _ => none

/-- The retry policy of a call. -/
def policy (config : TronadoConfig) (operation : Operation ρ) (prepared : PreparedRequest) :
    Policy Outcome PyErr ρ where
  budget := if operation.idempotent then config.maxRetries else 0
  again := worthRetry
  told := toldDelay
  backoff := backoffWith config
  finish := verdict config operation prepared

/-- A call: the request is prepared and then sent as the policy says. -/
def runCall (config : TronadoConfig) (operation : Operation ρ) (requestModel : Option RequestModel)
    (version : Str) (query : Option (List (Str × Value))) (env : Env Outcome PyErr)
    (w : World PreparedRequest) : Except PyErr ρ × World PreparedRequest :=
  match prepareRequest config operation requestModel version query with
  | .error e => (.error e, w)
  | .ok prepared =>
    let P := policy config operation prepared
    P.loop prepared env P.budget 0 w

theorem retryAllowed_iff_budget {config : TronadoConfig} {operation : Operation ρ}
    {prepared : PreparedRequest} {attempt : ℕ} :
    retryAllowed config attempt operation.idempotent = true ↔
      attempt < (policy config operation prepared).budget := by
  rw [retryAllowed_iff, policy]
  cases operation.idempotent <;> simp

theorem statusIsRetryable_iff_budget {config : TronadoConfig} {operation : Operation ρ}
    {prepared : PreparedRequest} {r : Response} {attempt : ℕ} :
    statusIsRetryable config r.statusCode attempt operation.idempotent = true ↔
      (policy config operation prepared).again (.response r) = true ∧
        attempt < (policy config operation prepared).budget := by
  rw [statusIsRetryable, Bool.and_eq_true]
  exact and_congr Iff.rfl retryAllowed_iff_budget

theorem pause_response {config : TronadoConfig} {operation : Operation ρ}
    {prepared : PreparedRequest} (env : Env Outcome PyErr) (attempt : ℕ) (r : Response)
    (w : World PreparedRequest) :
    (policy config operation prepared).pause env attempt (.response r) w =
      match retryAfter r.headers with
      | some d => (.ok d, w)
      | none => (backoffWith config attempt (env.jitter w.drawn), w.draw) := rfl

theorem error_of_delay {config : TronadoConfig} {operation : Operation ρ}
    {prepared : PreparedRequest} {env : Env Outcome PyErr} {i : ℕ} {e : PyErr}
    (h : (policy config operation prepared).delay env i = .error e) : e = .overflowError := by
  unfold Policy.delay at h
  cases ht : (policy config operation prepared).told (env.answer i) with
  | some d => rw [ht] at h; cases h
  | none => rw [ht] at h; exact (error_of_computeBackoff h).2

/-- **A pause that does not return raises no `TronadoError`**: the backoff raises
`OverflowError`, and what the sleep raises is none either. -/
theorem error_of_bad_pause {config : TronadoConfig} {operation : Operation ρ}
    {prepared : PreparedRequest} {env : Env Outcome PyErr} {j : ℕ}
    (hsleep : ∀ d e, env.sleep d = .error e → e.isTronado = false)
    (hj : j < (policy config operation prepared).stop env)
    (hp : ∀ i < j, (policy config operation prepared).PauseReturns env i)
    (hbad : ¬ (policy config operation prepared).PauseReturns env j) :
    ∃ e, ((policy config operation prepared).run prepared env).1 = .error e ∧
      e.isTronado = false := by
  obtain ⟨e, he, -, hcause⟩ := Policy.run_of_bad_pause prepared hj hp hbad
  refine ⟨e, he, ?_⟩
  rcases hcause with hd | ⟨d, -, hd⟩
  · rw [error_of_delay hd]; rfl
  · exact hsleep d e hd

/-! ## The blocking loop -/

namespace SyncTransport

/-- **One attempt is one step of the policy.** -/
theorem run_attempts_step (t : SyncTransport) (operation : Operation ρ) (prepared : PreparedRequest)
    (env : Env Outcome PyErr) (attempt : ℕ) (w : World PreparedRequest) :
    (t.attempts operation prepared attempt).run env w =
      (policy t.config operation prepared).attemptThen prepared env attempt w
        (fun w => (t.attempts operation prepared (attempt + 1)).run env w) := by
  rw [attempts, Prog.run_bind, Prog.run_request, Policy.attemptThen]
  dsimp only
  cases env.answer w.sent with
  | timeout =>
    dsimp only
    by_cases h : retryAllowed t.config attempt operation.idempotent = true
    · rw [dif_pos h, if_pos ⟨rfl, retryAllowed_iff_budget.mp h⟩, Prog.run_pause]
      rfl
    · rw [dif_neg h, if_neg (fun hb => h (retryAllowed_iff_budget.mpr hb.2))]
      rfl
  | requestError exc =>
    dsimp only
    by_cases h : retryAllowed t.config attempt operation.idempotent = true
    · rw [dif_pos h, if_pos ⟨rfl, retryAllowed_iff_budget.mp h⟩, Prog.run_pause]
      rfl
    · rw [dif_neg h, if_neg (fun hb => h (retryAllowed_iff_budget.mpr hb.2))]
      rfl
  | response r =>
    dsimp only
    by_cases h : statusIsRetryable t.config r.statusCode attempt operation.idempotent = true
    · rw [dif_pos h, if_pos (statusIsRetryable_iff_budget.mp h), pause_response]
      cases retryAfter r.headers with
      | some d => rw [Prog.run_pause]; rfl
      | none => rw [Prog.run_pause]; rfl
    · rw [dif_neg h, if_neg (fun hb => h (statusIsRetryable_iff_budget.mpr hb))]
      rfl

/-- **The loop of the transport is the loop of the policy.** -/
theorem run_attempts (t : SyncTransport) (operation : Operation ρ) (prepared : PreparedRequest)
    (env : Env Outcome PyErr) (w : World PreparedRequest) :
    (t.attempts operation prepared 0).run env w =
      let P := policy t.config operation prepared
      P.loop prepared env P.budget 0 w :=
  Policy.eq_loop_of_step _ prepared env
    (fun attempt w => (t.attempts operation prepared attempt).run env w)
    (t.run_attempts_step operation prepared env) 0 w

/-- **A call prepares its request and then follows the policy.** -/
theorem run_invoke (t : SyncTransport) (operation : Operation ρ)
    (requestModel : Option RequestModel) (version : Str) (query : Option (List (Str × Value)))
    (env : Env Outcome PyErr) (w : World PreparedRequest) :
    (t.invoke operation requestModel version query).run env w =
      runCall t.config operation requestModel version query env w := by
  rw [invoke, Prog.run_bind, Prog.run_lift, runCall]
  cases prepareRequest t.config operation requestModel version query with
  | error e => rfl
  | ok prepared => exact t.run_attempts operation prepared env w

end SyncTransport

/-! ## The coroutine -/

namespace AsyncTransport

/-- **One attempt is one step of the policy.** -/
theorem run_attempts_step (t : AsyncTransport) (operation : Operation ρ)
    (prepared : PreparedRequest) (env : Env Outcome PyErr) (attempt : ℕ)
    (w : World PreparedRequest) :
    (t.attempts operation prepared attempt).run env w =
      (policy t.config operation prepared).attemptThen prepared env attempt w
        (fun w => (t.attempts operation prepared (attempt + 1)).run env w) := by
  rw [attempts, Coroutine.run_bind, Coroutine.run_awaitRequest, Policy.attemptThen]
  dsimp only
  cases env.answer w.sent with
  | timeout =>
    dsimp only
    by_cases h : retryAllowed t.config attempt operation.idempotent = true
    · rw [dif_pos h, if_pos ⟨rfl, retryAllowed_iff_budget.mp h⟩, Coroutine.run_pause]
      rfl
    · rw [dif_neg h, if_neg (fun hb => h (retryAllowed_iff_budget.mpr hb.2))]
      rfl
  | requestError exc =>
    dsimp only
    by_cases h : retryAllowed t.config attempt operation.idempotent = true
    · rw [dif_pos h, if_pos ⟨rfl, retryAllowed_iff_budget.mp h⟩, Coroutine.run_pause]
      rfl
    · rw [dif_neg h, if_neg (fun hb => h (retryAllowed_iff_budget.mpr hb.2))]
      rfl
  | response r =>
    dsimp only
    by_cases h : statusIsRetryable t.config r.statusCode attempt operation.idempotent = true
    · rw [dif_pos h, if_pos (statusIsRetryable_iff_budget.mp h), pause_response]
      cases retryAfter r.headers with
      | some d => rw [Coroutine.run_pause]; rfl
      | none => rw [Coroutine.run_pause]; rfl
    · rw [dif_neg h, if_neg (fun hb => h (statusIsRetryable_iff_budget.mpr hb))]
      rfl

/-- **The loop of the transport is the loop of the policy.** -/
theorem run_attempts (t : AsyncTransport) (operation : Operation ρ) (prepared : PreparedRequest)
    (env : Env Outcome PyErr) (w : World PreparedRequest) :
    (t.attempts operation prepared 0).run env w =
      let P := policy t.config operation prepared
      P.loop prepared env P.budget 0 w :=
  Policy.eq_loop_of_step _ prepared env
    (fun attempt w => (t.attempts operation prepared attempt).run env w)
    (t.run_attempts_step operation prepared env) 0 w

/-- **A call prepares its request and then follows the policy.** -/
theorem run_invoke (t : AsyncTransport) (operation : Operation ρ)
    (requestModel : Option RequestModel) (version : Str) (query : Option (List (Str × Value)))
    (env : Env Outcome PyErr) (w : World PreparedRequest) :
    (t.invoke operation requestModel version query).run env w =
      runCall t.config operation requestModel version query env w := by
  rw [invoke, Coroutine.run_bind, Coroutine.run_ret, runCall]
  cases prepareRequest t.config operation requestModel version query with
  | error e => rfl
  | ok prepared => exact t.run_attempts operation prepared env w

end AsyncTransport

end Tronado
