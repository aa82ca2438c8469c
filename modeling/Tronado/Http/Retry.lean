import Tronado.Exceptions
import Tronado.Lib.Run

/-!
# Retry decisions

The pure helpers that decide, for both transports, whether and when to try again.

* `computeBackoff` raises `OverflowError`, from `2.0 ** attempt`, exactly from
  attempt `1024` on (`computeBackoff_of_lt`, `computeBackoff_of_ge`).
* `retryAfter` is a `Retry-After` header that the transports follow: the value of
  `retryAfterSeconds`, unless it is zero, which the `or` in their loop skips.
-/

namespace Tronado

open Py Run

/-- `RETRYABLE_STATUS_CODES`. -/
def retryableStatusCodes : List ℕ := [429, 500, 502, 503, 504]

def isRetryableStatus (statusCode : ℕ) : Bool := retryableStatusCodes.contains statusCode

def shouldRetry (attempt maxRetries : ℕ) (idempotent : Bool) : Bool :=
  if !idempotent then false else decide (attempt < maxRetries)

/-- `2.0 ** attempt`. -/
def powTwo (attempt : ℕ) : Except PyErr Double :=
  if attempt < 1024 then .ok (.finite (2 ^ attempt)) else .error .overflowError

/-- The delay `compute_backoff` makes of `2.0 ** attempt`. -/
def backoffDelay (power backoffFactor maxBackoff : Double) (jitter : Jitter) : Double :=
  let base := backoffFactor.mul power
  let base := base.min maxBackoff
  let delay := base.mul (.finite (1 / 2 + 1 / 2 * jitter.val))
  Double.max (.finite 0) (delay.min maxBackoff)

def computeBackoff (attempt : ℕ) (backoffFactor maxBackoff : Double) (jitter : Jitter) :
    Except PyErr Double :=
  (powTwo attempt).map fun power => backoffDelay power backoffFactor maxBackoff jitter

/-- A header map: `httpx.Headers` of a response. -/
abbrev Headers := List (Str × Str)

/-- `headers.get(name)`: names are compared without case, and the values of a
repeated header are joined. -/
def Headers.get (headers : Headers) (name : String) : Option Str :=
  let wanted := (lit name).map asciiLower
  match headers.filter (fun p => p.1.map asciiLower == wanted) with
  | [] => none
  | ps => some ((lit ", ").intercalate (ps.map Prod.snd))

/-- A `str` that is not empty. -/
def nonEmpty (s : Option Str) : Option Str := s.filter (· ≠ [])

def retryAfterSeconds (headers : Headers) : Option Double :=
  match (nonEmpty (headers.get "Retry-After")).or (nonEmpty (headers.get "retry-after")) with
  | none => none
  | some raw =>
    match Double.parse (strip raw) with
    | none => none
    | some value => if Double.le (.finite 0) value then some value else none

/-- The left side of `retry_after_seconds(...) or ...`, when it is taken. -/
def retryAfter (headers : Headers) : Option Double :=
  (retryAfterSeconds headers).filter Double.truthy

theorem computeBackoff_of_lt {attempt : ℕ} (h : attempt < 1024) (factor ceiling : Double)
    (jitter : Jitter) :
    computeBackoff attempt factor ceiling jitter =
      .ok (backoffDelay (.finite (2 ^ attempt)) factor ceiling jitter) := by
  rw [computeBackoff, powTwo, if_pos h]
  rfl

/-- **The backoff fails from attempt `1024` on**, whatever the settings. -/
theorem computeBackoff_of_ge {attempt : ℕ} (h : 1024 ≤ attempt) (factor ceiling : Double)
    (jitter : Jitter) : computeBackoff attempt factor ceiling jitter = .error .overflowError := by
  rw [computeBackoff, powTwo, if_neg (by omega)]
  rfl

theorem error_of_computeBackoff {attempt : ℕ} {factor ceiling : Double} {jitter : Jitter}
    {e : PyErr} (h : computeBackoff attempt factor ceiling jitter = .error e) :
    1024 ≤ attempt ∧ e = .overflowError := by
  by_cases hlt : attempt < 1024
  · rw [computeBackoff_of_lt hlt] at h
    cases h
  · rw [computeBackoff_of_ge (by omega)] at h
    exact ⟨by omega, (Except.error.inj h).symm⟩

end Tronado
