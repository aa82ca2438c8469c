import Tronado.Http.Base
import Tronado.Http.Processing

/-!
# The asynchronous transport

`AsyncTransport.invoke` is a coroutine: it stops at each `await`, on the request
and on `asyncio.sleep`, and goes on when the event loop resumes it.  Drawing the
jitter is the one other thing it takes from outside.
-/

namespace Tronado

open Py Run

/-- Code of the package under `async`. -/
abbrev Awaitable (α : Type) := Coroutine PreparedRequest Outcome PyErr α

structure AsyncTransport where
  config : TronadoConfig

namespace AsyncTransport

/-- `self._backoff(attempt)`. -/
def backoff (t : AsyncTransport) (attempt : ℕ) : Awaitable Double := do
  let jitter ← Coroutine.drawJitter
  .ret (backoffWith t.config attempt jitter)

variable [Runtime] {ρ : Type}

/-- The loop of `invoke`. -/
def attempts (t : AsyncTransport) (operation : Operation ρ) (prepared : PreparedRequest)
    (attempt : ℕ) : Awaitable ρ := do
  let outcome ← Coroutine.awaitRequest prepared
  match outcome with
  | .timeout =>
    if h : retryAllowed t.config attempt operation.idempotent = true then
      let delay ← t.backoff attempt
      Coroutine.awaitSleep delay
      attempts t operation prepared (attempt + 1)
    else
      Coroutine.raise (.tronado (.timeout [.text "Request to ", .chars prepared.url,
        .text " timed out after ", .float t.config.timeout, .text "s."]))
  | .requestError exc =>
    if h : retryAllowed t.config attempt operation.idempotent = true then
      let delay ← t.backoff attempt
      Coroutine.awaitSleep delay
      attempts t operation prepared (attempt + 1)
    else
      Coroutine.raise (.tronado (.connection [.text "Failed to reach ", .chars prepared.url,
        .text ": ", .chars exc]))
  | .response response =>
    if h : statusIsRetryable t.config response.statusCode attempt operation.idempotent = true then
      -- `retry_after_seconds(response.headers) or self._backoff(attempt)`
      let delay ← match retryAfter response.headers with
        | some delay => pure delay
        | none => t.backoff attempt
      Coroutine.awaitSleep delay
      attempts t operation prepared (attempt + 1)
    else .ret (processResponse operation response.statusCode response.text)
termination_by t.config.maxRetries - attempt
decreasing_by
  · have := lt_of_retryAllowed h; omega
  · have := lt_of_retryAllowed h; omega
  · have := lt_of_statusIsRetryable h; omega

/-- `invoke`. -/
def invoke (t : AsyncTransport) (operation : Operation ρ) (requestModel : Option RequestModel)
    (version : Str) (query : Option (List (Str × Value))) : Awaitable ρ := do
  let prepared ← .ret (prepareRequest t.config operation requestModel version query)
  t.attempts operation prepared 0

end AsyncTransport

end Tronado
