import Tronado.Exceptions
import Tronado.Models.Webhook

/-!
# Inbound webhooks

Both kinds of callback carry `X-Tronado-Sig`, the hex of an HMAC-SHA512 of the raw
body.  The function itself is a parameter, `hmacSha512`: any function of a key and
a body with 64 bytes.  `verifySignature` compares the header, stripped and lowered,
with the expected text by `hmac.compare_digest`, which takes ASCII text only.
`constructEvent` and `constructDisputeEvent` verify first and parse then.
-/

namespace Tronado

open Py Schema

/-- An HMAC-SHA512 digest. -/
def Digest := {b : Bytes // b.length = 64}

/-- `RawBody` and `SigningKey`: bytes, or text that is encoded as UTF-8. -/
inductive RawBody
  | bytes (b : Bytes)
  | str (s : Str)

/-- `_to_bytes(value)`. -/
def toBytes : RawBody → Except PyErr Bytes
  | .bytes b => .ok b
  | .str s =>
    match encodeUtf8 s with
    | some b => .ok b
    | none => .error (.unicodeEncodeError s)

theorem error_of_toBytes {rawBody : RawBody} {e : PyErr} (h : toBytes rawBody = .error e) :
    ∃ s, e = .unicodeEncodeError s := by
  cases rawBody with
  | bytes b => cases h
  | str s =>
    unfold toBytes at h
    simp only at h
    split at h
    · cases h
    · exact ⟨s, (Except.error.inj h).symm⟩

/-- `hmac.compare_digest(a, b)` of two `str`. -/
def compareDigest (a b : Str) : Except PyErr Bool :=
  if isAscii a && isAscii b then .ok (a == b) else .error .typeError

/-- `raise TronadoWebhookError(...)`. -/
def webhookError {α : Type} (message : Message) : Except PyErr α :=
  .error (.tronado (.webhook message))

/-- `compute_signature`. -/
def computeSignature (hmacSha512 : Bytes → Bytes → Digest) (rawBody signingKey : RawBody) :
    Except PyErr Str := do
  let key ← toBytes signingKey
  let body ← toBytes rawBody
  return hex (hmacSha512 key body).val

variable [Runtime]

/-- `verify_signature`. -/
def verifySignature (hmacSha512 : Bytes → Bytes → Digest) (rawBody : RawBody)
    (signatureHeader : Option Str) (signingKey : RawBody) : Except PyErr Bool :=
  match signatureHeader with
  | none => .ok false
  | some [] => .ok false
  | some header => do
    let expected ← computeSignature hmacSha512 rawBody signingKey
    let provided := lower (strip header)
    compareDigest expected provided

/-- `json.loads(_to_bytes(raw_body))`. -/
def loadsRaw (rawBody : RawBody) : Except PyErr Value := do
  let body ← toBytes rawBody
  match loadsBytes Runtime.maxNesting body with
  | .ok data => .ok data
  | .error .valueError => .error (.valueError [.jsonError body])
  | .error .recursionError => .error .recursionError

/-- `_parse(raw_body, model, kind)`. -/
def parse {α : Type} (rawBody : RawBody) (model : Model α) (kind : String) : Except PyErr α :=
  match loadsRaw rawBody with
  | .ok data =>
    match model.validate data with
    | some payload => .ok payload
    | none =>
      webhookError [.text kind, .text " body failed validation: ",
        .validationError model.name data]
  -- `except (ValueError, TypeError)`; an encoding error is a `ValueError`
  | .error (.valueError exc) =>
    webhookError ([.text kind, .text " body is not valid JSON: "] ++ exc)
  | .error (.unicodeEncodeError s) =>
    webhookError [.text kind, .text " body is not valid JSON: ", .encodeError s]
  | .error e => .error e

/-- The message of `InvalidSignatureError`. -/
def invalidSignature : PyErr :=
  .tronado (.invalidSignature
    [.text "Tronado webhook signature verification failed; rejecting the request."])

/-- `_require_valid_signature`. -/
def requireValidSignature (hmacSha512 : Bytes → Bytes → Digest) (rawBody : RawBody)
    (signatureHeader : Option Str) (signingKey : RawBody) : Except PyErr Unit := do
  let valid ← verifySignature hmacSha512 rawBody signatureHeader signingKey
  if !valid then .error invalidSignature else .ok ()

/-- Verify the signature, then parse. -/
def constructWith {α : Type} (parseBody : RawBody → Except PyErr α)
    (hmacSha512 : Bytes → Bytes → Digest) (rawBody : RawBody) (signatureHeader : Option Str)
    (signingKey : RawBody) : Except PyErr α := do
  requireValidSignature hmacSha512 rawBody signatureHeader signingKey
  parseBody rawBody

/-- `parse_callback`. -/
def parseCallback (rawBody : RawBody) : Except PyErr CallbackPayload :=
  parse rawBody CallbackPayload.model "Callback"

/-- `construct_event`. -/
def constructEvent : (Bytes → Bytes → Digest) → RawBody → Option Str → RawBody →
    Except PyErr CallbackPayload :=
  constructWith parseCallback

/-- `parse_dispute_callback`. -/
def parseDisputeCallback (rawBody : RawBody) : Except PyErr DisputeCallbackPayload :=
  parse rawBody DisputeCallbackPayload.model "Dispute callback"

/-- `construct_dispute_event`. -/
def constructDisputeEvent : (Bytes → Bytes → Digest) → RawBody → Option Str → RawBody →
    Except PyErr DisputeCallbackPayload :=
  constructWith parseDisputeCallback

/-- What construction does once the verification has answered. -/
theorem constructWith_of_verified {α : Type} (parseBody : RawBody → Except PyErr α)
    {hmacSha512 : Bytes → Bytes → Digest} {rawBody key : RawBody} {header : Option Str}
    {valid : Bool} (h : verifySignature hmacSha512 rawBody header key = .ok valid) :
    constructWith parseBody hmacSha512 rawBody header key =
      if valid then parseBody rawBody else .error invalidSignature := by
  rw [constructWith, requireValidSignature, h]
  cases valid <;> rfl

/-- **What is constructed has been verified and parsed.** -/
theorem constructWith_ok {α : Type} {parseBody : RawBody → Except PyErr α}
    {hmacSha512 : Bytes → Bytes → Digest} {rawBody key : RawBody} {header : Option Str} {a : α}
    (h : constructWith parseBody hmacSha512 rawBody header key = .ok a) :
    verifySignature hmacSha512 rawBody header key = .ok true ∧ parseBody rawBody = .ok a := by
  cases hv : verifySignature hmacSha512 rawBody header key with
  | error e =>
    rw [constructWith, requireValidSignature, hv, error_bind, error_bind] at h
    cases h
  | ok valid =>
    rw [constructWith_of_verified parseBody hv] at h
    cases valid with
    | true => exact ⟨rfl, h⟩
    | false => cases h

/-! ## Parsing -/

theorem parse_ok_iff {α : Type} {rawBody : RawBody} {model : Model α} {kind : String} {a : α} :
    parse rawBody model kind = .ok a ↔
      ∃ o, loadsRaw rawBody = .ok (.dict o) ∧ model.fields o = some a := by
  unfold parse
  cases hl : loadsRaw rawBody with
  | ok data =>
    simp only
    cases hv : model.validate data with
    | some b =>
      obtain ⟨o, rfl, ho⟩ := Model.validate_eq_some hv
      simp [ho]
    | none =>
      refine ⟨fun h => (nomatch h), ?_⟩
      rintro ⟨o, hd, ho⟩
      cases hd
      rw [Model.validate_dict, ho] at hv
      cases hv
  | error e =>
    cases e <;> simp [webhookError]

/-- What `json.loads` raises on a body. -/
theorem error_of_loadsRaw {rawBody : RawBody} {e : PyErr} (h : loadsRaw rawBody = .error e) :
    (∃ s, e = .unicodeEncodeError s) ∨ (∃ m, e = .valueError m) ∨ e = .recursionError := by
  unfold loadsRaw at h
  cases hb : toBytes rawBody with
  | error e' =>
    rw [hb, error_bind] at h
    cases h
    exact Or.inl (error_of_toBytes hb)
  | ok body =>
    rw [hb, ok_bind] at h
    split at h
    · cases h
    · exact Or.inr (Or.inl ⟨_, (Except.error.inj h).symm⟩)
    · exact Or.inr (Or.inr (Except.error.inj h).symm)

/-- **Parsing raises `TronadoWebhookError` only**, unless the body nests too
deeply. -/
theorem error_of_parse {α : Type} {rawBody : RawBody} {model : Model α} {kind : String} {e : PyErr}
    (h : parse rawBody model kind = .error e) :
    (∃ m, e = .tronado (.webhook m)) ∨
      loadsRaw rawBody = .error .recursionError ∧ e = .recursionError := by
  unfold parse at h
  cases hl : loadsRaw rawBody with
  | ok data =>
    rw [hl] at h
    simp only at h
    split at h
    · cases h
    · exact Or.inl ⟨_, (Except.error.inj h).symm⟩
  | error e' =>
    rw [hl] at h
    rcases error_of_loadsRaw hl with ⟨s, rfl⟩ | ⟨m, rfl⟩ | rfl
    · exact Or.inl ⟨_, (Except.error.inj h).symm⟩
    · exact Or.inl ⟨_, (Except.error.inj h).symm⟩
    · exact Or.inr ⟨rfl, (Except.error.inj h).symm⟩

theorem parse_of_recursionError {α : Type} {rawBody : RawBody} (model : Model α) (kind : String)
    (h : loadsRaw rawBody = .error .recursionError) :
    parse rawBody model kind = .error .recursionError := by
  rw [parse, h]

end Tronado
