import Tronado.Arguments
import Tronado.Headers
import Tronado.Lib.Exchange
import Tronado.Sending
import Tronado.Taxonomy

/-!
# The endpoint matrix

`Call.endpoint` is the matrix of the design document: for each public method its path,
whether it is authenticated and may be retried, its query and the members of its body.
It is written without looking at the operations or at what prepares a request, and `Meets`
compares a request with its row.

An amount is sent as the text of its nearest double: the amount itself just when that
survives its double, and no JSON at all when it is beyond the doubles (`AmountOf`,
`Field.Overflows`).

* `RequestModel.read_body`: a body is read back as the model it was made of.
* `SyncTransport.exchanges_invoke`: what `invoke` exchanges with the server.
* `Call.meets_matrix`: whatever a call is given and whatever the server does, over
  either transport it sends nothing but repetitions of one request that meets its row.
-/

namespace Tronado

open Py Run Schema

/-! ## Bodies -/

/-- The members of a body: strings, finite decimals and integers. -/
def Scalar (v : Value) : Prop :=
  (∃ s, v = .str s) ∨ (∃ d, v = .decimal (.finite d)) ∨ ∃ n, v = .int n

theorem reads_sent {v : Value} {limit : ℕ} (h : Scalar v) :
    Loads.Reads limit (dumps jsonDefault v) (sent v) := by
  rcases h with ⟨s, rfl⟩ | ⟨d, rfl⟩ | ⟨n, rfl⟩
  · rw [dumps]
    exact Loads.reads_quote s
  · rw [dumps]
    exact Loads.reads_repr d.toRat
  · rw [dumps]
    exact Loads.reads_int n

/-- A body that is read as an object by a reader that lets `NaN` and `Infinity` through. -/
def IsRead (body : Bytes) (o : Obj) : Prop :=
  ∃ text, decodeUtf8 (body.map UInt8.toNat) = some text ∧
    loadsExact text.length text = .ok (.dict o)

/-- A body that is a JSON object. -/
def IsObject (body : Bytes) (o : Obj) : Prop := IsRead body o ∧ (Value.dict o).isJson = true

/-- **A body of scalars is read back**, the strings and integers as they are and an
amount as the decimal that its text writes. -/
theorem isRead_of_encodeJson {payload : Obj} (hne : payload ≠ [])
    (hscalar : ∀ p ∈ payload, Scalar p.2) (hn : (payload.map Prod.fst).Nodup) {b : Bytes}
    (hb : encodeJson payload = .ok b) : IsRead b (payload.map (Prod.map id sent)) := by
  unfold encodeJson at hb
  dsimp only at hb
  split at hb
  · next b' he =>
    cases hb
    refine ⟨_, decodeUtf8_encodeUtf8 he, loadsExact_dumps ?_ hne ?_ hn⟩
    · rw [dumps, List.cons_append]
      exact Nat.succ_pos _
    · intro p hp
      exact reads_sent (hscalar p hp)
  · cases hb

/-- An endpoint without input is sent `{}`. -/
theorem isRead_empty {b : Bytes} (hb : encodeJson [] = .ok b) : IsRead b [] := by
  have he : encodeJson [] = .ok [0x7B, 0x7D] := rfl
  rw [he] at hb
  cases hb
  exact ⟨[0x7B, 0x7D], rfl, rfl⟩

section

variable [Runtime]

/-- The names of the members a model is dumped with. -/
def RequestModel.names : RequestModel → List String
  | getOrderToken _ => ["PaymentID", "WalletAddress", "TronAmount", "CallbackUrl"]
  | getStatus _ => ["Id"]
  | getPriceWithWage _ => ["RequestCode", "WalletAddress", "TronAmount"]
  | tomanConvert _ => ["Toman", "Wallet"]
  | dollarConvert _ => ["Dollar", "Wallet"]

theorem RequestModel.map_fst_modelDump (r : RequestModel) :
    r.modelDump.map Prod.fst = r.names.map lit := by
  cases r <;> rfl

theorem RequestModel.nodup_names (r : RequestModel) : (r.modelDump.map Prod.fst).Nodup := by
  rw [map_fst_modelDump, List.nodup_map_iff fun _ _ => lit_inj.mp]
  cases r <;> simp [names]

theorem RequestModel.modelDump_scalar (r : RequestModel) : ∀ p ∈ r.modelDump, Scalar p.2 := by
  cases r with
  | getOrderToken r => simp [modelDump, GetOrderTokenRequest.dump, Scalar]
  | getStatus r => simp [modelDump, GetStatusRequest.dump, Scalar]
  | getPriceWithWage r => simp [modelDump, GetPriceWithWageRequest.dump, Scalar]
  | tomanConvert r => simp [modelDump, TomanConvertRequest.dump, Scalar]
  | dollarConvert r => simp [modelDump, DollarConvertRequest.dump, Scalar]

/-- **A body is read back as the model it was made of.** -/
theorem RequestModel.read_body {r : RequestModel} {b : Bytes}
    (hb : encodeJson r.modelDump = .ok b) : IsRead b (r.modelDump.map (Prod.map id sent)) := by
  refine isRead_of_encodeJson ?_ r.modelDump_scalar r.nodup_names hb
  intro he
  have hnames : r.names = [] := by
    have := r.map_fst_modelDump
    rw [he] at this
    exact List.map_eq_nil_iff.mp this.symm
  cases r <;> cases hnames

end

/-! ## What `invoke` exchanges -/

section

variable [Runtime] {ρ : Type} {config : TronadoConfig} {operation : Operation ρ}
  {requestModel : Option RequestModel} {version : Str} {query : Option (List (Str × Value))}

/-- What a request is prepared from. -/
structure PreparedFrom (config : TronadoConfig) (operation : Operation ρ)
    (requestModel : Option RequestModel) (version : Str) (query : Option (List (Str × Value)))
    (prepared : PreparedRequest) : Prop where
  method : prepared.method = operation.method
  url : prepared.url = config.baseUrl ++ formatPath operation.pathTemplate version
  headers : config.buildHeaders operation.requiresAuth = .ok prepared.headers
  content : encodeBody operation requestModel = .ok prepared.content
  params : prepared.params = query.bind queryParams

theorem preparedFrom {prepared : PreparedRequest}
    (h : prepareRequest config operation requestModel version query = .ok prepared) :
    PreparedFrom config operation requestModel version query prepared := by
  unfold prepareRequest at h
  cases hb : encodeBody operation requestModel with
  | error e => rw [hb, error_bind] at h; cases h
  | ok content =>
    cases hh : config.buildHeaders operation.requiresAuth with
    | error e => rw [hb, ok_bind, hh, error_bind] at h; cases h
    | ok headers =>
      rw [hb, ok_bind, hh, ok_bind] at h
      cases h
      exact ⟨rfl, rfl, hh, hb, rfl⟩

/-- What `invoke` exchanges: nothing, if the request cannot be prepared, and else the
attempts of its policy. -/
inductive Invoked (config : TronadoConfig) (operation : Operation ρ)
    (requestModel : Option RequestModel) (version : Str) (query : Option (List (Str × Value))) :
    List (Exchange PreparedRequest Outcome) → Except PyErr ρ → Prop
  | refused {e : PyErr}
      (h : prepareRequest config operation requestModel version query = .error e) :
      Invoked config operation requestModel version query [] (.error e)
  | attempted {prepared : PreparedRequest} {xs : List (Exchange PreparedRequest Outcome)}
      {r : Except PyErr ρ}
      (h : prepareRequest config operation requestModel version query = .ok prepared)
      (hx : (policy config operation prepared).Attempts prepared
        (policy config operation prepared).budget xs r) :
      Invoked config operation requestModel version query xs r

/-- **What `invoke` exchanges with the server.** -/
theorem SyncTransport.exchanges_invoke :
    Exchanges ((SyncTransport.mk config).invoke operation requestModel version query)
      (Invoked config operation requestModel version query) := by
  intro env w
  rw [SyncTransport.run_invoke]
  unfold runCall
  cases hp : prepareRequest config operation requestModel version query with
  | error e => exact ⟨[], .refl w, .refused hp⟩
  | ok prepared =>
    obtain ⟨xs, hb, hx⟩ := Policy.exchanges_loop (P := policy config operation prepared) prepared
      (policy config operation prepared).budget 0 env w
    exact ⟨xs, hb, .attempted hp hx⟩

end

/-! ## The matrix -/

/-- The argument behind a member of a body. -/
inductive Field
  | text (arg : Str)
  | url (arg : Str)
  | amount (arg : AmountInput)
  | number (arg : ℤ)

/-- A member with an amount: the decimal of the double nearest to the argument, which is the
argument itself just when that survives its double. -/
def AmountOf (arg : AmountInput) (v : Value) : Prop :=
  ∃ d, decimalOf arg = .ok (.finite d) ∧ v = Loads.written (.ofRat d.toRat) ∧
    (v.literal? = some d.toRat ↔ Survives d.toRat)

/-- What the member is: a text is stripped, and a callback URL is `https`. -/
def Field.Is [Runtime] : Field → Value → Prop
  | text arg, v => v = .str (trim arg)
  | url arg, v => v = .str (trim arg) ∧ (lit "https://").isPrefixOf (lower (trim arg)) = true
  | amount arg, v => AmountOf arg v
  | number arg, v => v = .int arg

/-- A member of a body, under its name. -/
structure Member [Runtime] (f : String × Field) (p : Str × Value) : Prop where
  name : p.1 = lit f.1
  value : f.2.Is p.2

/-- An amount beyond the doubles, for which `Infinity` or `-Infinity` is sent. -/
def Field.Overflows : Field → Prop
  | amount arg => ∃ d, decimalOf arg = .ok (.finite d) ∧ ∀ q, Double.ofRat d.toRat ≠ .finite q
  | _ => False

/-- A row of the matrix. -/
structure Endpoint where
  path : Str
  auth : Bool
  retried : Bool := true
  /-- `wageFromBusinessPercentage`, in the query. -/
  wage : Option ℤ := none
  fields : List (String × Field) := []

/-- **The endpoint matrix.** -/
def Call.endpoint (version : Str) {ρ : Type} : Call ρ → Endpoint
  | getOrderToken paymentId walletAddress tronAmount callbackUrl wage => {
      path := lit "/api/" ++ version ++ lit "/GetOrderToken"
      auth := true
      retried := false
      wage := some wage
      fields := [("PaymentID", .text paymentId), ("WalletAddress", .text walletAddress),
        ("TronAmount", .amount tronAmount), ("CallbackUrl", .url callbackUrl)] }
  | getStatus id => {
      path := lit "/Order/GetStatus"
      auth := true
      fields := [("Id", .text id)] }
  | getStatusByPaymentId id => {
      path := lit "/Order/GetStatusByPaymentID"
      auth := true
      fields := [("Id", .text id)] }
  | tronGetPriceToToman => { path := lit "/Tron/GetPriceToToman", auth := false }
  | tronGetPriceWithWageToToman requestCode walletAddress tronAmount => {
      path := lit "/Tron/GetPriceWithWageToToman"
      auth := false
      fields := [("RequestCode", .text requestCode), ("WalletAddress", .text walletAddress),
        ("TronAmount", .amount tronAmount)] }
  | tomanConvertToTron toman wallet => {
      path := lit "/Toman/ConvertToTronWageSubtracted"
      auth := false
      fields := [("Toman", .number toman), ("Wallet", .text wallet)] }
  | tomanGetPriceToToman => { path := lit "/Toman/GetPriceToToman", auth := false }
  | dollarConvertToTron dollar wallet => {
      path := lit "/Dollar/ConvertToTronWageSubtracted"
      auth := false
      fields := [("Dollar", .amount dollar), ("Wallet", .text wallet)] }
  | dollarGetPriceToToman => { path := lit "/Dollar/GetPriceToToman", auth := false }

/-- The body holds the members of the row, in their order and nothing else; and it is a
JSON object unless an amount overflows. -/
def Endpoint.Body [Runtime] (row : Endpoint) (body : Bytes) : Prop :=
  ∃ o, IsRead body o ∧ List.Forall₂ Member row.fields o ∧
    (IsObject body o ↔ ∀ f ∈ row.fields, ¬ f.2.Overflows)

/-- `params` of the query. -/
def wageParams (wage : ℤ) : List (Str × Value) :=
  [(lit "wageFromBusinessPercentage", .int wage)]

/-- A request that meets its row. -/
structure Meets [Runtime] (config : TronadoConfig) (row : Endpoint) (request : PreparedRequest) :
    Prop where
  method : request.method = "POST"
  url : request.url = config.baseUrl ++ row.path
  headers : ∀ name, request.headers.get? name = config.header row.auth name
  /-- A protected endpoint is not called without the key. -/
  key : row.auth = true → config.apiKey.isSome = true
  params : request.params = row.wage.map wageParams
  wage : ∀ wage ∈ row.wage, 0 ≤ wage ∧ wage ≤ 100
  body : row.Body request.content

/-- The value is what the last answer is read as. -/
def ReadFrom [Runtime] {ρ : Type} (operation : Operation ρ)
    (xs : List (Exchange PreparedRequest Outcome)) (a : ρ) : Prop :=
  ∃ x response, xs.getLast? = some x ∧ x.answer = .response response ∧
    processResponse operation response.statusCode response.text = .ok a

/-- An exception that no response becomes. -/
def Unanswered (e : PyErr) : Prop := e.apiClass = none ∨ e.apiClass = some .api

/-- What a call exchanges with the server. -/
structure Sends [Runtime] {ρ : Type} (config : TronadoConfig) (operation : Operation ρ)
    (row : Endpoint) (xs : List (Exchange PreparedRequest Outcome)) (r : Except PyErr ρ) :
    Prop where
  length_le : xs.length ≤ (if row.retried then config.maxRetries else 0) + 1
  same : ∀ x ∈ xs, ∀ y ∈ xs, x.request = y.request
  meets : ∀ x ∈ xs, Meets config row x.request
  answered : ∀ a, r = .ok a → ReadFrom operation xs a
  /-- A response that is not retried decides the call. -/
  settled : ∀ x ∈ xs, ∀ response, x.answer = .response response →
    isRetryableStatus response.statusCode = false →
      r = processResponse operation response.statusCode response.text
  /-- Where nothing was sent, the exception tells of no response. -/
  unsent : xs = [] → ∃ e, r = .error e ∧ Unanswered e

section

variable {ρ α : Type}

/-- A warning is no exchange. -/
theorem Call.between_entered (call : Call ρ) (env : Env Outcome PyErr)
    (w : World PreparedRequest) : Between env w (call.entered w) [] := by
  unfold entered
  cases call.deprecation with
  | none => exact .refl w
  | some text => exact .warn text w

theorem checkWage_ok {wage checked : ℤ} (h : checkWage wage = .ok checked) :
    checked = wage ∧ 0 ≤ wage ∧ wage ≤ 100 := by
  unfold checkWage at h
  split at h
  · next hrange => exact ⟨(Except.ok.inj h).symm, hrange⟩
  · cases h

/-! ### The members of a body -/

/-- An amount is written down exactly just when it survives its double. -/
theorem literal?_written_iff {x : ℚ} :
    (Loads.written (.ofRat x)).literal? = some x ↔ Survives x := by
  have hliteral : (Loads.written (.ofRat x)).literal? = (Decimal.ofDouble (.ofRat x)).toRat? := by
    cases Double.ofRat x <;> rfl
  rw [hliteral]
  exact toRat?_ofDouble_iff x

/-- A double is JSON just when it is finite. -/
theorem isJson_written {x : Double} :
    (Loads.written x).isJson = true ↔ ∃ q, x = .finite q := by
  cases x with
  | finite q => exact iff_of_true rfl ⟨q, rfl⟩
  | inf => exact iff_of_false Bool.false_ne_true (by simp)
  | negInf => exact iff_of_false Bool.false_ne_true (by simp)
  | nan => exact iff_of_false Bool.false_ne_true (by simp)

section

variable [Runtime] {row : Endpoint} {fields : List (String × Field)} {b : Bytes} {o : Obj}

/-- A member is JSON unless it is an amount that overflows. -/
theorem Field.isJson_iff {f : Field} {v : Value} (h : f.Is v) :
    v.isJson = true ↔ ¬ f.Overflows := by
  cases f with
  | text arg =>
    obtain rfl := h
    exact iff_of_true rfl id
  | url arg =>
    obtain ⟨rfl, -⟩ := h
    exact iff_of_true rfl id
  | number arg =>
    obtain rfl := h
    exact iff_of_true rfl id
  | amount arg =>
    obtain ⟨d, hd, rfl, -⟩ := h
    rw [isJson_written]
    constructor
    · rintro ⟨q, hq⟩ ⟨d', hd', hover⟩
      rw [hd] at hd'
      cases hd'
      exact hover q hq
    · intro hfits
      by_contra hnone
      exact hfits ⟨d, hd, fun q hq => hnone ⟨q, hq⟩⟩

/-- The members of a body make it JSON unless one of them overflows. -/
theorem isJson_members (h : List.Forall₂ Member fields o) :
    (Value.dict o).isJson = true ↔ ∀ f ∈ fields, ¬ f.2.Overflows := by
  rw [isJson_dict]
  induction h with
  | nil => simp
  | cons hmember _ ih =>
    rw [List.forall_mem_cons, List.forall_mem_cons, ih, Field.isJson_iff hmember.value]

/-- The member of a field is found under its name. -/
theorem member_of_field (h : List.Forall₂ Member fields o) (hn : (fields.map Prod.fst).Nodup)
    {f : String × Field} (hf : f ∈ fields) : ∃ v, getItem? (lit f.1) o = some v ∧ f.2.Is v := by
  induction h with
  | nil => cases hf
  | @cons f' p fields o hmember _ ih =>
    rw [List.map_cons, List.nodup_cons] at hn
    rcases List.mem_cons.mp hf with rfl | hmem
    · exact ⟨p.2, if_pos hmember.name, hmember.value⟩
    · have hne : p.1 ≠ lit f.1 := by
        rw [hmember.name]
        intro he
        exact hn.1 (lit_inj.mp he ▸ List.mem_map_of_mem hmem)
      obtain ⟨v, hv, his⟩ := ih hn.2 hmem
      exact ⟨v, (if_neg hne).trans hv, his⟩

/-- **What a body says of its one amount**: the amount, just when that survives its double. -/
theorem Endpoint.Body.said_iff (h : row.Body b)
    (hn : (row.fields.map Prod.fst).Nodup) {name : String} {arg : AmountInput}
    (hf : (name, Field.amount arg) ∈ row.fields)
    (hone : ∀ f ∈ row.fields, f.2.Overflows → f.2 = .amount arg) {d : Dec}
    (hd : decimalOf arg = .ok (.finite d)) :
    sentNumber? b name = some d.toRat ↔ Survives d.toRat := by
  obtain ⟨o, ⟨text, htext, hload⟩, hmembers, -⟩ := h
  obtain ⟨v, hget, his⟩ := member_of_field hmembers hn hf
  have hsays : v.literal? = some d.toRat ↔ Survives d.toRat := by
    obtain ⟨d', hd', -, hsays⟩ := his
    rw [hd] at hd'
    cases hd'
    exact hsays
  rw [sentNumber?_of_read htext hload, hget, ← hsays]
  split
  · exact Iff.rfl
  · next hnot =>
    refine iff_of_false (by simp) ?_
    -- an amount with a value is JSON, and no other member can overflow
    intro hvalue
    have hv : v.isJson = true := by
      obtain ⟨d', -, rfl, -⟩ := his
      cases hx : Double.ofRat d'.toRat with
      | finite q => rfl
      | _ => rw [hx] at hvalue; cases hvalue
    refine hnot ((isJson_members hmembers).mpr ?_)
    intro f hmem hover
    rw [hone f hmem hover] at hover
    exact (Field.isJson_iff his).mp hv hover

/-- A body is told by its members. -/
theorem Endpoint.body_of_members (hread : IsRead b o)
    (hmembers : List.Forall₂ Member row.fields o) : row.Body b := by
  refine ⟨o, hread, hmembers, ?_⟩
  rw [IsObject, and_iff_right hread]
  exact isJson_members hmembers

/-- The body of an endpoint without input. -/
theorem body_of_empty (hfields : row.fields = []) (hb : encodeJson [] = .ok b) : row.Body b := by
  refine Endpoint.body_of_members (isRead_empty hb) ?_
  rw [hfields]
  exact .nil

end

/-- A model that is built was read from its arguments. -/
theorem fields_of_construct {model : Model α} {kwargs : Obj} {a : α}
    (h : construct model kwargs = .ok a) : model.fields kwargs = some a := by
  unfold construct at h
  rw [Model.validate_dict] at h
  cases hf : model.fields kwargs with
  | none => rw [hf] at h; cases h
  | some b => rw [hf] at h; exact congrArg some (Except.ok.inj h)

end

section

variable [Runtime] {ρ : Type} {config : TronadoConfig} {operation : Operation ρ}
  {requestModel : Option RequestModel} {version : Str} {query : Option (List (Str × Value))}
  {row : Endpoint}

theorem Sends.nil {e : PyErr} (h : Unanswered e) : Sends config operation row [] (.error e) := by
  refine ⟨Nat.zero_le _, ?_, ?_, ?_, ?_, fun _ => ⟨e, rfl, h⟩⟩
  · simp
  · simp
  · intro a ha
    cases ha
  · simp

/-- A response that becomes a model is not retried. -/
theorem not_retryable_of_ok {statusCode : ℕ} {text : Str} {a : ρ}
    (h : processResponse operation statusCode text = .ok a) :
    isRetryableStatus statusCode = false := by
  obtain ⟨data, -, hdata⟩ := bind_eq_ok h
  obtain ⟨⟨-, h429, h500⟩, -⟩ := processData_ok hdata
  rw [Bool.eq_false_iff]
  intro hretryable
  simp only [isRetryableStatus, retryableStatusCodes, List.contains_iff_mem, List.mem_cons,
    List.not_mem_nil, or_false] at hretryable
  omega

/-- **No answer that becomes a model is passed over**: a call that is given one returns
its model. -/
theorem Sends.kept {xs : List (Exchange PreparedRequest Outcome)} {r : Except PyErr ρ}
    (h : Sends config operation row xs r) {x : Exchange PreparedRequest Outcome} (hx : x ∈ xs)
    {response : Response} (hanswer : x.answer = .response response) {a : ρ}
    (ha : processResponse operation response.statusCode response.text = .ok a) : r = .ok a := by
  rw [h.settled x hx response hanswer (not_retryable_of_ok ha), ha]

/-- An operation that is called as its row says. -/
structure Fits (operation : Operation ρ) (requestModel : Option RequestModel) (version : Str)
    (query : Option (List (Str × Value))) (row : Endpoint) : Prop where
  method : operation.method = "POST"
  path : formatPath operation.pathTemplate version = row.path
  auth : operation.requiresAuth = row.auth
  retried : operation.idempotent = row.retried
  params : query.bind queryParams = row.wage.map wageParams
  wage : ∀ wage ∈ row.wage, 0 ≤ wage ∧ wage ≤ 100
  body : ∀ b, encodeBody operation requestModel = .ok b → row.Body b

theorem Fits.meets (h : Fits operation requestModel version query row) {prepared : PreparedRequest}
    (hp : prepareRequest config operation requestModel version query = .ok prepared) :
    Meets config row prepared := by
  have hfrom := preparedFrom hp
  have hheaders := hfrom.headers
  rw [h.auth] at hheaders
  refine ⟨?_, ?_, get?_buildHeaders hheaders, ?_, ?_, h.wage, h.body _ hfrom.content⟩
  · rw [hfrom.method, h.method]
  · rw [hfrom.url, h.path]
  · intro hauth
    rw [hauth] at hheaders
    exact isSome_apiKey_of_buildHeaders hheaders
  · rw [hfrom.params, h.params]

/-- **An operation that fits its row sends what the row says.** -/
theorem Fits.sends (h : Fits operation requestModel version query row) :
    Exchanges ((SyncTransport.mk config).invoke operation requestModel version query)
      (Sends config operation row) := by
  refine SyncTransport.exchanges_invoke.mono ?_
  intro xs r hx
  cases hx with
  | refused he =>
    apply Sends.nil
    rcases error_of_prepareRequest he with ⟨a, rfl, ha⟩ | ⟨m, rfl⟩
    · exact Or.inr (congrArg some ha)
    · exact Or.inl rfl
  | attempted hp hx =>
    refine ⟨?_, ?_, ?_, ?_, ?_, fun h => absurd h hx.ne⟩
    · rw [← h.retried]
      exact hx.length_le
    · intro x hmem y hmem'
      rw [hx.same x hmem, hx.same y hmem']
    · intro x hmem
      rw [hx.same x hmem]
      exact h.meets hp
    · intro a ha
      obtain ⟨x, hlast, hfinish⟩ := hx.decided a ha
      cases hanswer : x.answer with
      | response response =>
        rw [hanswer] at hfinish
        exact ⟨x, response, hlast, hanswer, hfinish⟩
      | timeout => rw [hanswer] at hfinish; cases hfinish
      | requestError exc => rw [hanswer] at hfinish; cases hfinish
    · intro x hmem response hanswer hstatus
      have hsettled := hx.settled x hmem
      rw [hanswer] at hsettled
      exact hsettled hstatus

/-! ### The request models -/

theorem text_of_validate {arg : Str} {s : String} (h : Runtime.str (.str arg) = some s) :
    (Field.text arg).Is (.str (lit s)) := by
  rw [Runtime.str_str] at h
  show Value.str (lit s) = .str (trim arg)
  rw [lit_of_toString? h]

theorem number_of_validate {arg n : ℤ} (h : Runtime.int (.int arg) = some n) :
    (Field.number arg).Is (.int n) := by
  rw [Runtime.int_int] at h
  cases h
  rfl

theorem amount_of_validate {arg : AmountInput} {amount : Decimal}
    (h : decimalOf arg = .ok amount) {d : Dec} (hd : TronDecimal (.decimal amount) = some d) :
    (Field.amount arg).Is (sent (.decimal (.finite d))) := by
  refine ⟨d, ?_, rfl, literal?_written_iff⟩
  cases amount with
  | finite d' =>
    have hd' : Runtime.decimal (.decimal (.finite d')) = some d := hd
    rw [Runtime.decimal_finite] at hd'
    rw [h, Option.some.inj hd']
  | infinity neg => exact absurd (Runtime.decimal_infinity neg ▸ hd : none = some d) (by simp)
  | nan => exact absurd (Runtime.decimal_nan ▸ hd : none = some d) (by simp)

theorem url_of_validate {arg : Str} {url : CallbackUrl}
    (h : (Runtime.str (.str arg)).bind requireHttps = some url) :
    (Field.url arg).Is (.str (lit url.val)) := by
  obtain ⟨text, htext, hhttps⟩ := Option.bind_eq_some_iff.mp h
  unfold requireHttps at hhttps
  split at hhttps
  · next hvalid =>
    cases hhttps
    rw [Runtime.str_str] at htext
    rw [isHttps, lit_of_toString? htext] at hvalid
    exact ⟨congrArg Value.str (lit_of_toString? htext), hvalid⟩
  · cases hhttps

theorem body_of_modelDump {r : RequestModel} {b : Bytes}
    (h : List.Forall₂ (fun f p => Member f (p.1, sent p.2)) row.fields r.modelDump)
    (hb : encodeJson r.modelDump = .ok b) : row.Body b :=
  Endpoint.body_of_members (RequestModel.read_body hb) (List.forall₂_map_right_iff.mpr h)

/-- The body of an order that is created. -/
theorem orderBody {paymentId walletAddress callbackUrl : Str} {tronAmount : AmountInput}
    {amount : Decimal} {wage : ℤ} {request : GetOrderTokenRequest}
    (hamount : decimalOf tronAmount = .ok amount)
    (hrequest : construct GetOrderTokenRequest.model [
      (lit "payment_id", .str paymentId), (lit "wallet_address", .str walletAddress),
      (lit "tron_amount", .decimal amount), (lit "callback_url", .str callbackUrl)] = .ok request)
    {b : Bytes} (hb : encodeJson (RequestModel.getOrderToken request).modelDump = .ok b) :
    ((Call.getOrderToken paymentId walletAddress tronAmount callbackUrl wage).endpoint
      version).Body b := by
  obtain ⟨payment, hpayment, h⟩ := bind_eq_some (fields_of_construct hrequest)
  obtain ⟨wallet, hwallet, h⟩ := bind_eq_some h
  obtain ⟨d, hd, h⟩ := bind_eq_some h
  obtain ⟨url, hurl, h⟩ := bind_eq_some h
  obtain rfl := Option.some.inj h
  refine body_of_modelDump ?_ hb
  exact .cons ⟨rfl, text_of_validate hpayment⟩ (.cons ⟨rfl, text_of_validate hwallet⟩
    (.cons ⟨rfl, amount_of_validate hamount hd⟩ (.cons ⟨rfl, url_of_validate hurl⟩ .nil)))

/-- An operation of the price resources, which has no path parameters and no query. -/
theorem Fits.plain {operation : Operation ρ} {text : String} (hmethod : operation.method = "POST")
    (hpath : operation.pathTemplate = [.text text]) (hrow : row.path = lit text)
    (hauth : operation.requiresAuth = row.auth) (hretried : operation.idempotent = row.retried)
    (hwage : row.wage = none)
    (hbody : ∀ b, encodeBody operation requestModel = .ok b → row.Body b) :
    Fits operation requestModel version none row := by
  refine ⟨hmethod, ?_, hauth, hretried, ?_, ?_, hbody⟩
  · rw [hpath, hrow]
    exact List.append_nil _
  · rw [hwage]
    rfl
  · rw [hwage]
    simp

/-- **Each row is met by the operation of its method**, given what the arguments come to. -/
theorem Call.fits (version : Str) {call : Call ρ} {handed : Handed}
    (h : call.arguments = .ok handed) :
    Fits call.operation handed.1 version handed.2 (call.endpoint version) := by
  cases call with
  | getOrderToken paymentId walletAddress tronAmount callbackUrl wage =>
    obtain ⟨amount, hamount, h⟩ := bind_eq_ok h
    obtain ⟨request, hrequest, h⟩ := bind_eq_ok h
    obtain ⟨checked, hchecked, h⟩ := bind_eq_ok h
    cases h
    obtain ⟨rfl, hrange⟩ := checkWage_ok hchecked
    refine ⟨rfl, ?_, rfl, rfl, rfl, ?_, ?_⟩
    · show lit "/api/" ++ (version ++ (lit "/GetOrderToken" ++ [])) = _
      rw [List.append_nil, ← List.append_assoc]
      rfl
    · intro wage hwage
      cases hwage
      exact hrange
    · intro b hb
      exact orderBody hamount hrequest hb
  | getStatus id =>
    obtain ⟨request, hrequest, h⟩ := bind_eq_ok h
    cases h
    obtain ⟨s, hs, h⟩ := bind_eq_some (fields_of_construct hrequest)
    cases h
    refine .plain rfl rfl rfl rfl rfl rfl fun b hb => body_of_modelDump ?_ hb
    exact .cons ⟨rfl, text_of_validate hs⟩ .nil
  | getStatusByPaymentId id =>
    obtain ⟨request, hrequest, h⟩ := bind_eq_ok h
    cases h
    obtain ⟨s, hs, h⟩ := bind_eq_some (fields_of_construct hrequest)
    cases h
    refine .plain rfl rfl rfl rfl rfl rfl fun b hb => body_of_modelDump ?_ hb
    exact .cons ⟨rfl, text_of_validate hs⟩ .nil
  | tronGetPriceToToman =>
    cases h
    exact .plain rfl rfl rfl rfl rfl rfl fun b hb => body_of_empty rfl hb
  | tronGetPriceWithWageToToman requestCode walletAddress tronAmount =>
    obtain ⟨amount, hamount, h⟩ := bind_eq_ok h
    obtain ⟨request, hrequest, h⟩ := bind_eq_ok h
    cases h
    obtain ⟨code, hcode, h⟩ := bind_eq_some (fields_of_construct hrequest)
    obtain ⟨wallet, hwallet, h⟩ := bind_eq_some h
    obtain ⟨d, hd, h⟩ := bind_eq_some h
    cases h
    refine .plain rfl rfl rfl rfl rfl rfl fun b hb => body_of_modelDump ?_ hb
    exact .cons ⟨rfl, text_of_validate hcode⟩ (.cons ⟨rfl, text_of_validate hwallet⟩
      (.cons ⟨rfl, amount_of_validate hamount hd⟩ .nil))
  | tomanConvertToTron toman wallet =>
    obtain ⟨request, hrequest, h⟩ := bind_eq_ok h
    cases h
    obtain ⟨n, hn, h⟩ := bind_eq_some (fields_of_construct hrequest)
    obtain ⟨s, hs, h⟩ := bind_eq_some h
    cases h
    refine .plain rfl rfl rfl rfl rfl rfl fun b hb => body_of_modelDump ?_ hb
    exact .cons ⟨rfl, number_of_validate hn⟩ (.cons ⟨rfl, text_of_validate hs⟩ .nil)
  | tomanGetPriceToToman =>
    cases h
    exact .plain rfl rfl rfl rfl rfl rfl fun b hb => body_of_empty rfl hb
  | dollarConvertToTron dollar wallet =>
    obtain ⟨amount, hamount, h⟩ := bind_eq_ok h
    obtain ⟨request, hrequest, h⟩ := bind_eq_ok h
    cases h
    obtain ⟨d, hd, h⟩ := bind_eq_some (fields_of_construct hrequest)
    obtain ⟨s, hs, h⟩ := bind_eq_some h
    cases h
    refine .plain rfl rfl rfl rfl rfl rfl fun b hb => body_of_modelDump ?_ hb
    exact .cons ⟨rfl, amount_of_validate hamount hd⟩ (.cons ⟨rfl, text_of_validate hs⟩ .nil)
  | dollarGetPriceToToman =>
    cases h
    exact .plain rfl rfl rfl rfl rfl rfl fun b hb => body_of_empty rfl hb

/-! ### Both transports -/

/-- **In one environment both stacks do the same**, even where a pause raises. -/
theorem Call.run_sync_eq_run_async (config : TronadoConfig) (version : Str) (call : Call ρ)
    (env : Env Outcome PyErr) (w : World PreparedRequest) :
    (call.sync ⟨config⟩ version).run env w = (call.async ⟨config⟩ version).run env w := by
  rw [run_sync, run_async]

/-- **A blocking call** sends what its row says. -/
theorem Call.exchanges (config : TronadoConfig) (version : Str) (call : Call ρ) :
    Exchanges (call.sync ⟨config⟩ version)
      (Sends config call.operation (call.endpoint version)) := by
  intro env w
  rw [run_sync, runMethod]
  have hentered := call.between_entered env w
  cases h : call.arguments with
  | error e => exact ⟨[], hentered, .nil (Or.inl (apiClass_eq_none (error_of_arguments h)))⟩
  | ok handed =>
    obtain ⟨xs, hb, hx⟩ := (call.fits version h).sends env (call.entered w)
    rw [SyncTransport.run_invoke] at hb hx
    exact ⟨xs, hentered.trans hb, hx⟩

/-- **The endpoint matrix is what is sent.**  In any environment and after anything that
was sent before, a public method over either transport exchanges no more than its row
allows, each time the same request, and that request meets the row: method, URL, headers,
query and the members of its body.  What it returns is read from the last answer, and an
answer that is not retried decides it. -/
theorem Call.meets_matrix (config : TronadoConfig) (version : Str) (call : Call ρ)
    (env : Env Outcome PyErr) (w : World PreparedRequest) :
    ∃ xs, Between env w ((call.sync ⟨config⟩ version).run env w).2 xs ∧
      Between env w ((call.async ⟨config⟩ version).run env w).2 xs ∧
      Sends config call.operation (call.endpoint version) xs
        ((call.sync ⟨config⟩ version).run env w).1 ∧
      Sends config call.operation (call.endpoint version) xs
        ((call.async ⟨config⟩ version).run env w).1 := by
  obtain ⟨xs, hb, hx⟩ := call.exchanges config version env w
  refine ⟨xs, hb, ?_, hx, ?_⟩
  · rw [← call.run_sync_eq_run_async config version env w]
    exact hb
  · rw [← call.run_sync_eq_run_async config version env w]
    exact hx

end

end Tronado
