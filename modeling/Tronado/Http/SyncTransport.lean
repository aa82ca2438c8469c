import Tronado.Http.Base
import Tronado.Http.Processing

/-!
# The blocking transport

`SyncTransport.invoke` prepares the request and enters the loop, `attempts`, which
sends it until an outcome is not worth a retry or the budget is used up.  The loop
ends because `attempt` only grows while it is below `max_retries`.
-/

namespace Tronado

open Py Run

/-- Blocking code of the package. -/
abbrev Blocking (α : Type) := Prog PreparedRequest Outcome PyErr α

structure SyncTransport where
  config : TronadoConfig

namespace SyncTransport

/-- `self._backoff(attempt)`. -/
def backoff (t : SyncTransport) (attempt : ℕ) : Blocking Double := do
  let jitter ← Prog.random
  Prog.lift (backoffWith t.config attempt jitter)

variable [Runtime] {ρ : Type}

/-- The loop of `invoke`. -/
def attempts (t : SyncTransport) (operation : Operation ρ) (prepared : PreparedRequest)
    (attempt : ℕ) : Blocking ρ := do
  let outcome ← Prog.request prepared
  match outcome with
  | .timeout =>
    if h : retryAllowed t.config attempt operation.idempotent = true then
      let delay ← t.backoff attempt
      Prog.sleep delay
      attempts t operation prepared (attempt + 1)
    else
      Prog.raise (.tronado (.timeout [.text "Request to ", .chars prepared.url,
        .text " timed out after ", .float t.config.timeout, .text "s."]))
  | .requestError exc =>
    if h : retryAllowed t.config attempt operation.idempotent = true then
      let delay ← t.backoff attempt
      Prog.sleep delay
      attempts t operation prepared (attempt + 1)
    else
      Prog.raise (.tronado (.connection [.text "Failed to reach ", .chars prepared.url,
        .text ": ", .chars exc]))
  | .response response =>
    if h : statusIsRetryable t.config response.statusCode attempt operation.idempotent = true then
      -- `retry_after_seconds(response.headers) or self._backoff(attempt)`
      let delay ← match retryAfter response.headers with
        | some delay => pure delay
        | none => t.backoff attempt
      Prog.sleep delay
      attempts t operation prepared (attempt + 1)
    else Prog.lift (processResponse operation response.statusCode response.text)
termination_by t.config.maxRetries - attempt
decreasing_by
  · have := lt_of_retryAllowed h; omega
  · have := lt_of_retryAllowed h; omega
  · have := lt_of_statusIsRetryable h; omega

/-- `invoke`. -/
def invoke (t : SyncTransport) (operation : Operation ρ) (requestModel : Option RequestModel)
    (version : Str) (query : Option (List (Str × Value))) : Blocking ρ := do
  let prepared ← Prog.lift (prepareRequest t.config operation requestModel version query)
  t.attempts operation prepared 0

end SyncTransport

end Tronado
