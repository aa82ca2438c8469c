import Tronado.Authenticity
import Tronado.Disputes

/-!
# What unsigned requests can do

Anyone can send requests to the endpoints.  A request is `verified` if its header passes
`verify_signature` under the key of the application.

* `verifies_iff`: only a header that holds the hex of the digest passes.
* `App.forged_ignored`: requests that are not verified leave no trace in the state, and
  none of them is acknowledged.
-/

namespace Tronado

open Py Schema

section

variable {hmacSha512 : Bytes → Bytes → Digest} {signingKey : RawBody} {body : Bytes}

/-- What is hashed under which key. -/
theorem computeSignature_ok {expected : Str} :
    computeSignature hmacSha512 (.bytes body) signingKey = .ok expected ↔
      ∃ key, toBytes signingKey = .ok key ∧ expected = hex (hmacSha512 key body).val := by
  unfold computeSignature
  constructor
  · intro h
    obtain ⟨key, hkey, h⟩ := bind_eq_ok h
    cases h
    exact ⟨key, hkey, rfl⟩
  · rintro ⟨key, hkey, rfl⟩
    rw [hkey]
    rfl

theorem compareDigest_eq_true {a b : Str} (ha : isAscii a = true) :
    compareDigest a b = .ok true ↔ a = b := by
  unfold compareDigest
  constructor
  · intro h
    split at h
    · exact beq_iff_eq.mp (Except.ok.inj h)
    · cases h
  · rintro rfl
    rw [ha]
    simp

theorem error_of_compareDigest {a b : Str} {e : PyErr} (h : compareDigest a b = .error e) :
    e = .typeError := by
  unfold compareDigest at h
  split at h
  · cases h
  · exact (Except.error.inj h).symm

end

section

variable [Runtime] (hmacSha512 : Bytes → Bytes → Digest) (signingKey : RawBody)

/-- Does `verify_signature` say yes? -/
def verifies (body : Bytes) (header : Option Str) : Bool :=
  match verifySignature hmacSha512 (.bytes body) header signingKey with
  | .ok valid => valid
  | .error _ => false

variable {hmacSha512 signingKey} {body : Bytes} {header : Option Str}

/-- **Only a signed header passes**, under a key of bytes or of text. -/
theorem verifies_iff :
    verifies hmacSha512 signingKey body header = true ↔
      ∃ key, toBytes signingKey = .ok key ∧ Signed hmacSha512 body header key := by
  have hverifies : verifies hmacSha512 signingKey body header = true ↔
      verifySignature hmacSha512 (.bytes body) header signingKey = .ok true := by
    unfold verifies
    cases verifySignature hmacSha512 (.bytes body) header signingKey <;> simp
  rw [hverifies]
  cases header with
  | none => simp [verifySignature, Signed]
  | some text =>
    cases text with
    | nil =>
      refine iff_of_false ?_ ?_
      · intro h
        cases h
      · rintro ⟨key, -, text, htext, hhex⟩
        cases htext
        exact hex_ne_nil _ hhex.symm
    | cons c text =>
      constructor
      · intro h
        obtain ⟨expected, hexpected, h⟩ := bind_eq_ok h
        obtain ⟨key, hkey, rfl⟩ := computeSignature_ok.mp hexpected
        have hlower := (compareDigest_eq_true (isAscii_hex _)).mp h
        exact ⟨key, hkey, _, rfl, (lower_eq_hex_iff _ _).mp hlower.symm⟩
      · rintro ⟨key, hkey, text, htext, hhex⟩
        cases htext
        show (computeSignature hmacSha512 (.bytes body) signingKey >>= _) = _
        rw [computeSignature_ok.mpr ⟨key, hkey, rfl⟩, ok_bind]
        exact (compareDigest_eq_true (isAscii_hex _)).mpr ((lower_eq_hex_iff _ _).mpr hhex).symm

/-- What verification raises is none of the exceptions that the endpoints catch. -/
theorem error_of_verifySignature {rawBody : RawBody} {e : PyErr}
    (h : verifySignature hmacSha512 rawBody header signingKey = .error e) :
    e.isTronado = false := by
  cases header with
  | none => cases h
  | some text =>
    cases text with
    | nil => cases h
    | cons c text =>
      rcases bind_eq_error h with h | ⟨expected, -, h⟩
      · rcases bind_eq_error h with h | ⟨key, -, h⟩
        · obtain ⟨s, rfl⟩ := error_of_toBytes h
          rfl
        · rcases bind_eq_error h with h | ⟨body, -, h⟩
          · obtain ⟨s, rfl⟩ := error_of_toBytes h
            rfl
          · cases h
      · rw [error_of_compareDigest h]
        rfl

/-- **401 is the answer to what does not verify**, where there is an answer. -/
theorem status_eq_iff {α : Type} {model : Model α} {kind : String} {status : ℕ}
    (h : statusOf (constructWith (fun raw => parse raw model kind) hmacSha512 (.bytes body) header
      signingKey) = .ok status) :
    status = 401 ↔ verifies hmacSha512 signingKey body header = false := by
  unfold verifies
  cases hv : verifySignature hmacSha512 (.bytes body) header signingKey with
  | error e =>
    rw [constructWith, requireValidSignature, hv, error_bind, error_bind] at h
    have he := error_of_verifySignature hv
    cases e with
    | tronado e => cases he
    | _ => cases h
  | ok valid =>
    rw [constructWith_of_verified _ hv] at h
    cases valid with
    | false =>
      cases h
      exact iff_of_true rfl rfl
    | true =>
      refine iff_of_false ?_ ?_
      · rintro rfl
        rw [if_pos rfl] at h
        cases hp : parse (.bytes body) model kind with
        | ok payload => rw [hp] at h; cases h
        | error e =>
          rw [hp] at h
          rcases error_of_parse hp with ⟨m, rfl⟩ | ⟨-, rfl⟩
          · cases h
          · cases h
      · intro hfalse
        cases hfalse

/-- What is constructed was verified. -/
theorem toOption_constructWith {α : Type} {parseBody : RawBody → Except PyErr α}
    (h : verifies hmacSha512 signingKey body header = false) :
    (constructWith parseBody hmacSha512 (.bytes body) header signingKey).toOption = none := by
  cases hc : constructWith parseBody hmacSha512 (.bytes body) header signingKey with
  | error e => rfl
  | ok payload =>
    unfold verifies at h
    rw [(constructWith_ok hc).1] at h
    cases h

end

/-! ## Requests to the endpoints -/

namespace Callback

/-- `await request.body()`. -/
def rawBody : Callback → Bytes
  | payment rawBody _ => rawBody
  | dispute rawBody _ => rawBody

/-- `request.headers.get("X-Tronado-Sig", "")`. -/
def signature : Callback → Str
  | payment _ signature => signature.getD []
  | dispute _ signature => signature.getD []

variable [Runtime] (hmacSha512 : Bytes → Bytes → Digest) (signingKey : RawBody)

/-- Does the request verify? -/
def verified (r : Callback) : Bool := verifies hmacSha512 signingKey r.rawBody (some r.signature)

variable {hmacSha512 signingKey} {r : Callback}

theorem paymentEvent_of_forged (h : r.verified hmacSha512 signingKey = false) :
    r.paymentEvent hmacSha512 signingKey = none := by
  cases r with
  | payment rawBody signature => exact toOption_constructWith h
  | dispute rawBody signature => rfl

theorem disputeEvent_of_forged (h : r.verified hmacSha512 signingKey = false) :
    r.disputeEvent hmacSha512 signingKey = none := by
  cases r with
  | payment rawBody signature => rfl
  | dispute rawBody signature => exact toOption_constructWith h

theorem answer_eq_iff {status : ℕ} (h : r.answer hmacSha512 signingKey = .ok status) :
    status = 401 ↔ r.verified hmacSha512 signingKey = false := by
  cases r with
  | payment rawBody signature => exact status_eq_iff h
  | dispute rawBody signature => exact status_eq_iff h

end Callback

namespace App

variable [Runtime] (hmacSha512 : Bytes → Bytes → Digest) (signingKey : RawBody)

/-- **Without the key nothing can be done to the application.**  Whatever requests arrive,
the state is that of the verified ones alone, as if the others had never been sent; a
request is verified exactly if its header holds the hex of the digest of its body under the
key; and a request that is not is answered with 401, if it is answered at all, which no
other request is. -/
theorem forged_ignored (rs : List Callback) :
    (run hmacSha512 signingKey empty rs).2 =
        (run hmacSha512 signingKey empty (rs.filter (Callback.verified hmacSha512 signingKey))).2 ∧
      ∀ r : Callback,
        (r.verified hmacSha512 signingKey = true ↔
          ∃ key, toBytes signingKey = .ok key ∧
            Signed hmacSha512 r.rawBody (some r.signature) key) ∧
        ∀ status, r.answer hmacSha512 signingKey = .ok status →
          (status = 401 ↔ r.verified hmacSha512 signingKey = false) := by
  refine ⟨?_, fun r => ⟨verifies_iff, fun status h => Callback.answer_eq_iff h⟩⟩
  have hsame {α : Type} {event : Callback → Option α}
      (h : ∀ r, Callback.verified hmacSha512 signingKey r = false → event r = none) :
      (rs.filter (Callback.verified hmacSha512 signingKey)).filterMap event =
        rs.filterMap event := by
    rw [List.filterMap_filter]
    apply List.filterMap_congr
    intro r _
    cases hr : r.verified hmacSha512 signingKey with
    | true => rfl
    | false => exact (h r hr).symm
  rw [run_eq, run_eq, hsame fun r => Callback.paymentEvent_of_forged,
    hsame fun r => Callback.disputeEvent_of_forged]

end App

end Tronado
