import Tronado.Config
import Tronado.Http.Retry

/-!
# What the transports share

The methods of `BaseTransport` that read the config, and what both transports see
of `httpx`: an `Outcome` is what `client.request` does.  It raises
`httpx.TimeoutException`, raises another `httpx.RequestError`, or returns a
response.
-/

namespace Tronado

open Py Run

/-- What `httpx` returns. -/
structure Response where
  statusCode : ℕ
  headers : Headers
  text : Str

/-- What `client.request` does; a request error has the text `str(exc)`.  It is taken to
raise nothing else: no `UnicodeEncodeError` for a header outside ASCII, no
`httpx.InvalidURL`, and no error of a client that is closed. -/
inductive Outcome
  | timeout
  | requestError (exc : Str)
  | response (r : Response)

def retryAllowed (config : TronadoConfig) (attempt : ℕ) (idempotent : Bool) : Bool :=
  shouldRetry attempt config.maxRetries idempotent

def statusIsRetryable (config : TronadoConfig) (statusCode attempt : ℕ) (idempotent : Bool) :
    Bool :=
  isRetryableStatus statusCode && retryAllowed config attempt idempotent

/-- The part of `_backoff` after the jitter has been drawn. -/
def backoffWith (config : TronadoConfig) (attempt : ℕ) (jitter : Jitter) : Except PyErr Double :=
  computeBackoff attempt config.backoffFactor config.maxBackoff jitter

theorem retryAllowed_iff {config : TronadoConfig} {attempt : ℕ} {idempotent : Bool} :
    retryAllowed config attempt idempotent = true ↔
      idempotent = true ∧ attempt < config.maxRetries := by
  cases idempotent <;> simp [retryAllowed, shouldRetry]

theorem lt_of_retryAllowed {config : TronadoConfig} {attempt : ℕ} {idempotent : Bool}
    (h : retryAllowed config attempt idempotent = true) : attempt < config.maxRetries :=
  (retryAllowed_iff.mp h).2

theorem lt_of_statusIsRetryable {config : TronadoConfig} {statusCode attempt : ℕ}
    {idempotent : Bool} (h : statusIsRetryable config statusCode attempt idempotent = true) :
    attempt < config.maxRetries :=
  lt_of_retryAllowed (Bool.and_eq_true_iff.mp h).2

end Tronado
