import Tronado.Config
import Tronado.Operations

/-!
# Preparing requests and reading responses

The pure half of a call, shared by both transports.

* `prepareRequest` builds the request.  `encodeJson_modelDump`: encoding the body
  of a request model never fails, because its strings have no lone surrogates.
* `processResponse` turns a response into a model or an exception.  It looks at
  the status (401, 429, 500 and above), then at the envelope of an enveloped
  operation, or at the not-found key and the status of a flat one.
-/

namespace Tronado

open Py Schema

/-- A resolved HTTP request. -/
structure PreparedRequest where
  method : String
  url : Str
  headers : Dict Str Str
  content : Bytes
  params : Option (List (Str × Value))

/-- `_json_default` on a `Decimal`: `float(obj)`. -/
def jsonDefault : Decimal → Double
  | .finite d => d.toDouble
  | .infinity neg => if neg then .negInf else .inf
  | .nan => .nan

/-- `encode_json(payload)`. -/
def encodeJson (payload : Obj) : Except PyErr Bytes :=
  let text := dumps jsonDefault (.dict payload)
  match encodeUtf8 text with
  | some b => .ok b
  | none => .error (.unicodeEncodeError text)

theorem encodeJson_ok {payload : Obj}
    (h : ∀ p ∈ payload, (∀ c ∈ p.1, isScalar c = true) ∧
      ∀ c ∈ dumps jsonDefault p.2, isScalar c = true) :
    ∃ b, encodeJson payload = .ok b := by
  have hs := dumps_dict_scalar jsonDefault h
  have hall : (dumps jsonDefault (.dict payload)).all isScalar = true := by
    rw [List.all_eq_true]; exact hs
  rw [encodeJson, encodeUtf8, if_pos hall]
  exact ⟨_, rfl⟩

/-- `{k: v for k, v in query.items() if v is not None} or None`. -/
def queryParams (query : List (Str × Value)) : Option (List (Str × Value)) :=
  let params := query.filter fun
    | (_, .null) => false
    | _ => true
  if params.isEmpty then none else some params

variable [Runtime] {ρ : Type}

/-- The body of a request. -/
def encodeBody (operation : Operation ρ) (requestModel : Option RequestModel) :
    Except PyErr Bytes :=
  match operation.requestModel with
  | none => encodeJson []
  | some _ =>
    match requestModel with
    | none =>
      ApiError.raise {
        cls := .api
        message := [.text "Operation ", .repr (lit operation.name),
          .text " requires a request body but none was given."] }
    | some model => encodeJson model.modelDump

/-- `prepare_request`. -/
def prepareRequest (config : TronadoConfig) (operation : Operation ρ)
    (requestModel : Option RequestModel) (version : Str) (query : Option (List (Str × Value))) :
    Except PyErr PreparedRequest := do
  let url := config.baseUrl ++ formatPath operation.pathTemplate version
  let content ← encodeBody operation requestModel
  let headers ← config.buildHeaders operation.requiresAuth
  let params := query.bind queryParams
  return { method := operation.method, url, headers, content, params }

/-- `_safe_json(text)`; it catches `ValueError`, but not `RecursionError`. -/
def safeJson (text : Str) : Except PyErr Value :=
  if text = [] then .ok .null
  else match loads Runtime.maxNesting text with
    | .ok data => .ok data
    | .error .valueError => .ok .null
    | .error .recursionError => .error .recursionError

/-- `isinstance(value, str) and value`. -/
def nonEmptyStr : Value → Option Str
  | .str (c :: s) => some (c :: s)
  | _ => none

/-- `_extract_message(data, default)`. -/
def extractMessage (data : Value) (default : Message) : Message :=
  match ["Message", "message", "Error", "error", "ErrorMessage"].findSome?
      (fun key => (data.get? (lit key)).bind nonEmptyStr) with
  | some value => [.chars value]
  | none => default

/-- `_validate_model(model_cls, data, status_code)`. -/
def validateModel {α : Type} (model : Model α) (data : Value) (statusCode : ℕ) : Except PyErr α :=
  match model.validate data with
  | some a => .ok a
  | none =>
    ApiError.raise {
      cls := .api
      message := [.text "Could not parse Tronado response into ", .text model.name, .text "."]
      statusCode := some statusCode
      response := data }

/-- `operation.not_found_key`, when the body is an object that has it: the value
under it. -/
def notFoundValue (operation : Operation ρ) (data : Value) : Option Value :=
  (operation.notFoundKey.filter (· ≠ "")).bind fun key => data.get? (lit key)

/-- `process_response` on an enveloped operation, after the status checks. -/
def processEnveloped (operation : Operation ρ) (statusCode : ℕ) (data : Value) :
    Except PyErr ρ := do
  let envelope ← validateModel ApiEnvelope.model data statusCode
  if !envelope.isSuccessful then
    let message : Message :=
      if envelope.message = "" then [.text "Tronado request was not successful."]
      else [.chars (lit envelope.message)]
    if envelope.code = -1 then
      ApiError.raise {
        cls := .authentication, message, statusCode := some statusCode
        code := .int envelope.code, response := data }
    else
      ApiError.raise {
        cls := .validation, message, statusCode := some statusCode
        code := .int envelope.code, response := data }
  else validateModel operation.responseModel envelope.data statusCode

/-- `process_response` on a flat operation, after the status checks. -/
def processFlat (operation : Operation ρ) (statusCode : ℕ) (data : Value) : Except PyErr ρ :=
  match notFoundValue operation data with
  | some value =>
    ApiError.raise {
      cls := .orderNotFound, message := [.value value], statusCode := some statusCode
      response := data }
  | none =>
    if 400 ≤ statusCode then
      ApiError.raise {
        cls := .validation
        message := extractMessage data
          [.text "Request failed with status ", .int statusCode, .text "."]
        statusCode := some statusCode
        response := data }
    else validateModel operation.responseModel data statusCode

/-- `process_response`, once the text has been decoded. -/
def processData (operation : Operation ρ) (statusCode : ℕ) (data : Value) : Except PyErr ρ :=
  if statusCode = 401 then
    ApiError.raise {
      cls := .authentication
      message := extractMessage data [.text "API key is wrong or not specified."]
      statusCode := some statusCode
      code := (data.get? (lit "Code")).getD .null
      response := data }
  else if statusCode = 429 then
    ApiError.raise {
      cls := .rateLimit
      message := extractMessage data [.text "Rate limit exceeded."]
      statusCode := some statusCode
      response := data }
  else if 500 ≤ statusCode then
    ApiError.raise {
      cls := .server
      message := extractMessage data [.text "Tronado server error."]
      statusCode := some statusCode
      response := data }
  else if operation.envelope then processEnveloped operation statusCode data
  else processFlat operation statusCode data

/-- `process_response`. -/
def processResponse (operation : Operation ρ) (statusCode : ℕ) (text : Str) : Except PyErr ρ := do
  let data ← safeJson text
  processData operation statusCode data

/-- `_safe_json` raises nothing but `RecursionError`. -/
theorem error_of_safeJson {text : Str} {e : PyErr} (h : safeJson text = .error e) :
    e = .recursionError := by
  unfold safeJson at h
  split at h
  · cases h
  · split at h
    · cases h
    · cases h
    · exact (Except.error.inj h).symm

/-! ## Encoding a request -/

/-- **The body of a request model can always be encoded.** -/
theorem encodeJson_modelDump (r : RequestModel) : ∃ b, encodeJson r.modelDump = .ok b := by
  have str (s : String) : ∀ c ∈ dumps jsonDefault (.str (lit s)), isScalar c = true := by
    rw [dumps]; exact quote_scalar (isScalar_lit s)
  have dec (d : Decimal) : ∀ c ∈ dumps jsonDefault (.decimal d), isScalar c = true := by
    rw [dumps]; exact isScalar_lit _
  have int (n : ℤ) : ∀ c ∈ dumps jsonDefault (.int n), isScalar c = true := by
    rw [dumps]; exact isScalar_lit _
  refine encodeJson_ok ?_
  cases r with
  | getOrderToken r =>
    simp only [RequestModel.modelDump, GetOrderTokenRequest.dump, List.forall_mem_cons]
    exact ⟨⟨isScalar_lit _, str _⟩, ⟨isScalar_lit _, str _⟩, ⟨isScalar_lit _, dec _⟩,
      ⟨isScalar_lit _, str _⟩, by simp⟩
  | getStatus r =>
    simp only [RequestModel.modelDump, GetStatusRequest.dump, List.forall_mem_cons]
    exact ⟨⟨isScalar_lit _, str _⟩, by simp⟩
  | getPriceWithWage r =>
    simp only [RequestModel.modelDump, GetPriceWithWageRequest.dump, List.forall_mem_cons]
    exact ⟨⟨isScalar_lit _, str _⟩, ⟨isScalar_lit _, str _⟩, ⟨isScalar_lit _, dec _⟩, by simp⟩
  | tomanConvert r =>
    simp only [RequestModel.modelDump, TomanConvertRequest.dump, List.forall_mem_cons]
    exact ⟨⟨isScalar_lit _, int _⟩, ⟨isScalar_lit _, str _⟩, by simp⟩
  | dollarConvert r =>
    simp only [RequestModel.modelDump, DollarConvertRequest.dump, List.forall_mem_cons]
    exact ⟨⟨isScalar_lit _, dec _⟩, ⟨isScalar_lit _, str _⟩, by simp⟩

/-- The body is missing, or it is encoded. -/
theorem encodeBody_cases (operation : Operation ρ) (requestModel : Option RequestModel) :
    (∃ b, encodeBody operation requestModel = .ok b) ∨
      ∃ e, encodeBody operation requestModel = .error (.tronado (.api e)) ∧ e.cls = .api := by
  unfold encodeBody
  cases operation.requestModel with
  | none => exact Or.inl (encodeJson_ok (by simp))
  | some cls =>
    cases requestModel with
    | none => exact Or.inr ⟨_, rfl, rfl⟩
    | some r => exact Or.inl (encodeJson_modelDump r)

/-- The body of an operation that is called with its request model. -/
theorem encodeBody_ok {operation : Operation ρ} {requestModel : Option RequestModel}
    (h : operation.requestModel.isSome = true → requestModel.isSome = true) :
    ∃ b, encodeBody operation requestModel = .ok b := by
  unfold encodeBody
  cases ho : operation.requestModel with
  | none => exact encodeJson_ok (by simp)
  | some cls =>
    rw [ho] at h
    cases requestModel with
    | none => exact absurd (h rfl) (by simp)
    | some r => exact encodeJson_modelDump r

/-- **Preparing a request fails only with a `TronadoError`**: the plain
`TronadoAPIError`, or `TronadoConfigError`. -/
theorem error_of_prepareRequest {config : TronadoConfig} {operation : Operation ρ}
    {requestModel : Option RequestModel} {version : Str} {query : Option (List (Str × Value))}
    {e : PyErr}
    (h : prepareRequest config operation requestModel version query = .error e) :
    (∃ a, e = .tronado (.api a) ∧ a.cls = .api) ∨ ∃ m, e = .tronado (.config m) := by
  unfold prepareRequest at h
  rcases encodeBody_cases operation requestModel with ⟨b, hb⟩ | ⟨a, ha, hc⟩
  · rw [hb, ok_bind] at h
    unfold TronadoConfig.buildHeaders at h
    split_ifs at h
    · cases hk : config.apiKey with
      | none => rw [hk] at h; exact Or.inr ⟨_, (Except.error.inj h).symm⟩
      | some key => rw [hk] at h; cases h
    · cases h
  · rw [ha, error_bind] at h
    exact Or.inl ⟨a, (Except.error.inj h).symm, hc⟩

end Tronado
