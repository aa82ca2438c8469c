import Mathlib.Tactic.MkIffOfInductiveProp
import Tronado.Http.Processing

/-!
# Which exception a response becomes

`errorClass` is the class of the exception that `processData` raises, or `none`
when it returns a model (`agreesWith_errorClass`).
`Documented` says which class the documentation gives to a response.

* `processResponse_documented_iff`: on exactly which responses the two agree.
* `processResponse_ok`: what is known of a response that became a model.
-/

namespace Tronado

open Py Schema

section

variable {ρ : Type}

theorem validateModel_of_some {α : Type} {model : Model α} {data : Value} {a : α} {statusCode : ℕ}
    (h : model.validate data = some a) : validateModel model data statusCode = .ok a := by
  rw [validateModel, h]

theorem validateModel_of_none {α : Type} {model : Model α} {data : Value} (statusCode : ℕ)
    (h : model.validate data = none) :
    ∃ e, validateModel model data statusCode = .error (.tronado (.api e)) ∧ e.cls = .api := by
  rw [validateModel, h]
  exact ⟨_, rfl, rfl⟩

theorem validate_of_validateModel {α : Type} {model : Model α} {data : Value} {a : α}
    {statusCode : ℕ} (h : validateModel model data statusCode = .ok a) :
    model.validate data = some a := by
  cases hv : model.validate data with
  | none =>
    obtain ⟨e, he, -⟩ := validateModel_of_none statusCode hv
    rw [he] at h
    cases h
  | some b =>
    rw [validateModel_of_some hv] at h
    exact congrArg some (Except.ok.inj h)

/-- A result is as its class tells: an exception of that class, or a model. -/
def AgreesWith (result : Except PyErr ρ) : Option ApiErrorClass → Prop
  | some cls => ∃ e, result = .error (.tronado (.api e)) ∧ e.cls = cls
  | none => ∃ a, result = .ok a

theorem agreesWith_raise (e : ApiError) : AgreesWith (e.raise : Except PyErr ρ) (some e.cls) :=
  ⟨e, rfl, rfl⟩

theorem agreesWith_validateModel {model : Model ρ} {data : Value} {statusCode : ℕ} :
    AgreesWith (validateModel model data statusCode)
      (if (model.validate data).isSome then none else some .api) := by
  cases h : model.validate data with
  | some a => exact ⟨a, validateModel_of_some h⟩
  | none => exact validateModel_of_none _ h

/-- The class for a flat operation, after the status checks. -/
def flatClass (operation : Operation ρ) (statusCode : ℕ) (data : Value) : Option ApiErrorClass :=
  if (notFoundValue operation data).isSome then some .orderNotFound
  else if 400 ≤ statusCode then some .validation
  else if (operation.responseModel.validate data).isSome then none
  else some .api

theorem agreesWith_processFlat (operation : Operation ρ) (statusCode : ℕ) (data : Value) :
    AgreesWith (processFlat operation statusCode data) (flatClass operation statusCode data) := by
  unfold processFlat flatClass
  cases hn : notFoundValue operation data with
  | some value => exact agreesWith_raise _
  | none =>
    by_cases h400 : 400 ≤ statusCode
    · simp only [h400, if_true, Option.isSome_none, Bool.false_eq_true, if_false]
      exact agreesWith_raise _
    · simp only [h400, if_false, Option.isSome_none, Bool.false_eq_true]
      exact agreesWith_validateModel

end

section

variable [Runtime] {ρ : Type}

/-- The class for an enveloped operation, after the status checks. -/
def envelopedClass (operation : Operation ρ) (data : Value) : Option ApiErrorClass :=
  match ApiEnvelope.model.validate data with
  | none => some .api
  | some envelope =>
    if envelope.isSuccessful then
      if (operation.responseModel.validate envelope.data).isSome then none else some .api
    else if envelope.code = -1 then some .authentication
    else some .validation

/-- The class of the exception a decoded response becomes, if it becomes one. -/
def errorClass (operation : Operation ρ) (statusCode : ℕ) (data : Value) : Option ApiErrorClass :=
  if statusCode = 401 then some .authentication
  else if statusCode = 429 then some .rateLimit
  else if 500 ≤ statusCode then some .server
  else if operation.envelope then envelopedClass operation data
  else flatClass operation statusCode data

theorem agreesWith_processEnveloped (operation : Operation ρ) (statusCode : ℕ) (data : Value) :
    AgreesWith (processEnveloped operation statusCode data) (envelopedClass operation data) := by
  unfold processEnveloped envelopedClass
  cases hv : ApiEnvelope.model.validate data with
  | none =>
    obtain ⟨e, he, hc⟩ := validateModel_of_none statusCode hv
    rw [he]
    exact ⟨e, rfl, hc⟩
  | some envelope =>
    rw [validateModel_of_some hv, ok_bind]
    cases hs : envelope.isSuccessful with
    | true =>
      simp only [hs, if_true]
      exact agreesWith_validateModel
    | false =>
      by_cases hc : envelope.code = -1
      · simp only [hs, hc, if_true, if_false, Bool.false_eq_true]
        exact agreesWith_raise _
      · simp only [hs, hc, if_false, Bool.false_eq_true]
        exact agreesWith_raise _

/-- **`errorClass` is the class of the exception that `processData` raises.** -/
theorem agreesWith_errorClass (operation : Operation ρ) (statusCode : ℕ) (data : Value) :
    AgreesWith (processData operation statusCode data) (errorClass operation statusCode data) := by
  unfold processData errorClass
  split_ifs
  · exact agreesWith_raise _
  · exact agreesWith_raise _
  · exact agreesWith_raise _
  · exact agreesWith_processEnveloped operation statusCode data
  · exact agreesWith_processFlat operation statusCode data

/-- What `processData` raises is a `TronadoAPIError` of that class. -/
theorem errorClass_of_error {operation : Operation ρ} {statusCode : ℕ} {data : Value} {e : PyErr}
    (h : processData operation statusCode data = .error e) :
    ∃ a, e = .tronado (.api a) ∧ errorClass operation statusCode data = some a.cls := by
  have hagree := agreesWith_errorClass operation statusCode data
  rw [h] at hagree
  cases hc : errorClass operation statusCode data with
  | none =>
    rw [hc] at hagree
    obtain ⟨a, ha⟩ := hagree
    cases ha
  | some cls =>
    rw [hc] at hagree
    obtain ⟨a, ha, rfl⟩ := hagree
    exact ⟨a, Except.error.inj ha, rfl⟩

/-! ## The documented class -/

/-- A status that is not one of the three looked at before the body. -/
def PlainStatus (statusCode : ℕ) : Prop := statusCode ≠ 401 ∧ statusCode ≠ 429 ∧ statusCode < 500

/-- The body is an unsuccessful envelope, and its code is as `code` says. -/
def Rejected (operation : Operation ρ) (data : Value) (code : ℤ → Prop) : Prop :=
  operation.envelope = true ∧ ∃ envelope, ApiEnvelope.model.validate data = some envelope ∧
    envelope.isSuccessful = false ∧ code envelope.code

/-- The class the documentation gives to the exception of a response. -/
@[mk_iff]
structure Documented (operation : Operation ρ) (statusCode : ℕ) (data : Value)
    (cls : ApiErrorClass) : Prop where
  authentication : cls = .authentication ↔
    statusCode = 401 ∨ (PlainStatus statusCode ∧ Rejected operation data (· = -1))
  rateLimit : cls = .rateLimit ↔ statusCode = 429
  server : cls = .server ↔ 500 ≤ statusCode
  orderNotFound : cls = .orderNotFound ↔
    (200 ≤ statusCode ∧ statusCode ≤ 299) ∧ operation.envelope = false ∧
      (notFoundValue operation data).isSome = true
  validation : cls = .validation ↔
    PlainStatus statusCode ∧ ¬ Rejected operation data (· = -1) ∧
      (400 ≤ statusCode ∨ Rejected operation data (· ≠ -1))

/-- A not-found key in the body of a flat response that is no success. -/
def FalseMiss (operation : Operation ρ) (statusCode : ℕ) (data : Value) : Prop :=
  PlainStatus statusCode ∧ operation.envelope = false ∧
    (notFoundValue operation data).isSome = true ∧ ¬ (200 ≤ statusCode ∧ statusCode ≤ 299)

/-- A rejection of an enveloped operation whose body is no envelope, or a
successful one whose data do not fit. -/
def UnreadableRejection (operation : Operation ρ) (statusCode : ℕ) (data : Value) : Prop :=
  PlainStatus statusCode ∧ 400 ≤ statusCode ∧ operation.envelope = true ∧
    ∀ envelope, ApiEnvelope.model.validate data = some envelope →
      envelope.isSuccessful = true ∧ (operation.responseModel.validate envelope.data).isSome = false

/-- **The class is the documented one outside the two defects.** -/
theorem documented_errorClass_iff {operation : Operation ρ} {statusCode : ℕ} {data : Value}
    {cls : ApiErrorClass} (h : errorClass operation statusCode data = some cls) :
    Documented operation statusCode data cls ↔
      ¬ FalseMiss operation statusCode data ∧ ¬ UnreadableRejection operation statusCode data := by
  rw [documented_iff]
  unfold errorClass envelopedClass flatClass at h
  unfold FalseMiss UnreadableRejection PlainStatus Rejected
  cases hv : ApiEnvelope.model.validate data with
  | none =>
    simp only [hv] at h ⊢
    grind
  | some envelope =>
    simp only [hv, Option.some.injEq, forall_eq', exists_eq_left'] at h ⊢
    grind

/-- A response that becomes a model is neither. -/
theorem no_defect_of_model {operation : Operation ρ} {statusCode : ℕ} {data : Value}
    (h : errorClass operation statusCode data = none) :
    ¬ FalseMiss operation statusCode data ∧ ¬ UnreadableRejection operation statusCode data := by
  unfold errorClass envelopedClass flatClass at h
  unfold FalseMiss UnreadableRejection PlainStatus
  cases hv : ApiEnvelope.model.validate data with
  | none =>
    simp only [hv] at h ⊢
    grind
  | some envelope =>
    simp only [hv, Option.some.injEq, forall_eq'] at h ⊢
    grind

/-- **When the exception is the documented one.**  A text that nests too deeply
escapes as `RecursionError`; a not-found key is taken for a missing order whatever
the status; and a rejection of an enveloped operation whose body does not fit is
raised as the base class.  On every other response the class is as documented. -/
theorem processResponse_documented_iff (operation : Operation ρ) (statusCode : ℕ) (text : Str) :
    (∀ e, processResponse operation statusCode text = .error e →
      ∃ a data, e = .tronado (.api a) ∧ safeJson text = .ok data ∧
        Documented operation statusCode data a.cls) ↔
    ∃ data, safeJson text = .ok data ∧ ¬ FalseMiss operation statusCode data ∧
      ¬ UnreadableRejection operation statusCode data := by
  unfold processResponse
  cases hj : safeJson text with
  | error e => simp
  | ok data =>
    rw [ok_bind]
    have hagree := agreesWith_errorClass operation statusCode data
    cases hc : errorClass operation statusCode data with
    | none =>
      rw [hc] at hagree
      obtain ⟨a, ha⟩ := hagree
      rw [ha]
      exact ⟨fun _ => ⟨data, rfl, no_defect_of_model hc⟩, fun _ e he => nomatch he⟩
    | some cls =>
      rw [hc] at hagree
      obtain ⟨a, ha, rfl⟩ := hagree
      rw [ha]
      constructor
      · intro h
        obtain ⟨a', data', he, hd, hdoc⟩ := h _ rfl
        cases he
        cases hd
        exact ⟨data, rfl, (documented_errorClass_iff hc).mp hdoc⟩
      · rintro ⟨data', hd, hok⟩ e he
        cases hd
        cases he
        exact ⟨a, data, rfl, rfl, (documented_errorClass_iff hc).mpr hok⟩

end

/-- A rejected status lookup is reported as a missing order. -/
theorem notFound_of_rejection :
    ¬ ∀ (_ : Runtime) (ρ : Type) (operation : Operation ρ) (statusCode : ℕ) (text : Str)
      (e : PyErr), processResponse operation statusCode text = .error e →
        ∃ a data, e = .tronado (.api a) ∧ safeJson text = .ok data ∧
          Documented operation statusCode data a.cls := by
  intro h
  let _ := Runtime.sample
  obtain ⟨a, data, he, -, hdoc⟩ :=
    h _ OrderStatus Ops.getStatus 404 (lit "\x7b\"Error\":\"bad id\"\x7d") _ rfl
  have hcls : a.cls = .orderNotFound := by cases he; rfl
  exact absurd (hdoc.orderNotFound.mp hcls).1.2 (by decide)

/-! ## What a model says about its response -/

theorem processFlat_ok {ρ : Type} {operation : Operation ρ} {statusCode : ℕ} {data : Value} {r : ρ}
    (h : processFlat operation statusCode data = .ok r) :
    statusCode < 400 ∧ notFoundValue operation data = none ∧
      operation.responseModel.validate data = some r := by
  unfold processFlat at h
  cases hn : notFoundValue operation data with
  | some value => rw [hn] at h; cases h
  | none =>
    by_cases h400 : 400 ≤ statusCode
    · simp only [hn, h400] at h
      cases h
    · simp only [hn, h400] at h
      exact ⟨by omega, rfl, validate_of_validateModel h⟩

section

variable [Runtime] {ρ : Type}

theorem processEnveloped_ok {operation : Operation ρ} {statusCode : ℕ} {data : Value} {r : ρ}
    (h : processEnveloped operation statusCode data = .ok r) :
    ∃ envelope, ApiEnvelope.model.validate data = some envelope ∧
      envelope.isSuccessful = true ∧ operation.responseModel.validate envelope.data = some r := by
  unfold processEnveloped at h
  cases hv : ApiEnvelope.model.validate data with
  | none =>
    obtain ⟨e, he, -⟩ := validateModel_of_none statusCode hv
    rw [he] at h
    cases h
  | some envelope =>
    rw [validateModel_of_some hv, ok_bind] at h
    cases hs : envelope.isSuccessful with
    | true =>
      simp only [hs] at h
      exact ⟨envelope, rfl, hs, validate_of_validateModel h⟩
    | false =>
      by_cases hc : envelope.code = -1
      · simp only [hs, hc] at h
        cases h
      · simp only [hs, hc] at h
        cases h

theorem processData_ok {operation : Operation ρ} {statusCode : ℕ} {data : Value} {r : ρ}
    (h : processData operation statusCode data = .ok r) :
    (statusCode ≠ 401 ∧ statusCode ≠ 429 ∧ statusCode < 500) ∧
      if operation.envelope then processEnveloped operation statusCode data = .ok r
      else processFlat operation statusCode data = .ok r := by
  unfold processData at h
  by_cases h401 : statusCode = 401
  · rw [if_pos h401] at h; cases h
  by_cases h429 : statusCode = 429
  · rw [if_neg h401, if_pos h429] at h; cases h
  by_cases h500 : 500 ≤ statusCode
  · rw [if_neg h401, if_neg h429, if_pos h500] at h; cases h
  rw [if_neg h401, if_neg h429, if_neg h500] at h
  refine ⟨⟨h401, h429, by omega⟩, ?_⟩
  split <;> simpa [*] using h

/-- **A response that became a model** had no status of an authentication, rate
limit or server error.  A flat one had a status below 400, no not-found key, and a
body that fits; an enveloped one had a successful envelope whose data fit. -/
theorem processResponse_ok {operation : Operation ρ} {statusCode : ℕ} {text : Str} {r : ρ}
    (h : processResponse operation statusCode text = .ok r) :
    ∃ data, safeJson text = .ok data ∧
      (statusCode ≠ 401 ∧ statusCode ≠ 429 ∧ statusCode < 500) ∧
      (operation.envelope = false →
        statusCode < 400 ∧ notFoundValue operation data = none ∧
          operation.responseModel.validate data = some r) ∧
      (operation.envelope = true →
        ∃ envelope, ApiEnvelope.model.validate data = some envelope ∧
          envelope.isSuccessful = true ∧
          operation.responseModel.validate envelope.data = some r) := by
  unfold processResponse at h
  cases hj : safeJson text with
  | error e => rw [hj] at h; cases h
  | ok data =>
    rw [hj, ok_bind] at h
    obtain ⟨hstatus, hbody⟩ := processData_ok h
    refine ⟨data, rfl, hstatus, ?_, ?_⟩
    · intro hf
      rw [hf] at hbody
      exact processFlat_ok hbody
    · intro ht
      rw [ht] at hbody
      exact processEnveloped_ok hbody

end

/-- The token of a created order, and the status of one that was accepted. -/
theorem processResponse_ok_token :
    let _ := Runtime.sample
    let created := lit "\x7b\"IsSuccessful\":true,\"Code\":0,\"Data\":\x7b\"Token\":\"t\"\x7d\x7d"
    let accepted := lit "\x7b\"PaymentID\":\"p\",\"OrderStatusID\":30,\"IsPaid\":true\x7d"
    let token : OrderTokenData := ⟨"t", none, none, none, none⟩
    let status : OrderStatus :=
      ⟨none, some "p", none, none, none, none, none, some 30, none, true, none⟩
    (∃ data, safeJson created = .ok data ∧ (200 ≠ 401 ∧ 200 ≠ 429 ∧ 200 < 500) ∧
      (Ops.getOrderToken.envelope = false →
        200 < 400 ∧ notFoundValue Ops.getOrderToken data = none ∧
          Ops.getOrderToken.responseModel.validate data = some token) ∧
      (Ops.getOrderToken.envelope = true →
        ∃ envelope, ApiEnvelope.model.validate data = some envelope ∧
          envelope.isSuccessful = true ∧
          Ops.getOrderToken.responseModel.validate envelope.data = some token)) ∧
    ∃ data, safeJson accepted = .ok data ∧ (200 ≠ 401 ∧ 200 ≠ 429 ∧ 200 < 500) ∧
      (Ops.getStatus.envelope = false →
        200 < 400 ∧ notFoundValue Ops.getStatus data = none ∧
          Ops.getStatus.responseModel.validate data = some status) ∧
      (Ops.getStatus.envelope = true →
        ∃ envelope, ApiEnvelope.model.validate data = some envelope ∧
          envelope.isSuccessful = true ∧
          Ops.getStatus.responseModel.validate envelope.data = some status) :=
  let _ := Runtime.sample
  ⟨@processResponse_ok _ _ Ops.getOrderToken 200 _ _ rfl,
    @processResponse_ok _ _ Ops.getStatus 200 _ _ rfl⟩

/-- A redirect with an empty object for a body is taken for an order. -/
theorem model_of_redirect :
    ¬ ∀ (_ : Runtime) (ρ : Type) (operation : Operation ρ) (statusCode : ℕ) (text : Str) (r : ρ),
      processResponse operation statusCode text = .ok r →
        (200 ≤ statusCode ∧ statusCode ≤ 299) ∧ ∃ data, safeJson text = .ok data ∧
          (operation.envelope = true →
            ∃ envelope, ApiEnvelope.model.validate data = some envelope ∧
              envelope.isSuccessful = true) ∧
          notFoundValue operation data = none := by
  intro h
  let _ := Runtime.sample
  exact absurd (h _ OrderStatus Ops.getStatus 302 (lit "{}") _ rfl).1.2 (by decide)

end Tronado
