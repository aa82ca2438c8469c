import Mathlib.Algebra.Order.BigOperators.Group.List
import Tronado.Programs

/-!
# The payment flow

`paymentFlow` is the documented flow of a payment without webhooks: the invoice is
converted to TRX, an order of that amount, as its nearest double, is created, and its status
is looked up until the payment is accepted, at most 24 times.

* `Polled`: what the lookups are.
* `paymentFlow_spec`: what the flow sends, whatever the server does.
-/

namespace Tronado

open Py Run Script

/-- How the flow ends. -/
inductive FlowEnd
  | accepted (status : OrderStatus)
  | timedOut

/-- `except OrderNotFoundError: status = None`. -/
def orNotFound : Except PyErr OrderStatus → Except PyErr (Option OrderStatus)
  | .ok status => .ok (some status)
  | .error e => if e.apiClass = some .orderNotFound then .ok none else .error e

theorem eq_ok_of_orNotFound {r : Except PyErr OrderStatus} {status : OrderStatus}
    (h : orNotFound r = .ok (some status)) : r = .ok status := by
  unfold orNotFound at h
  split at h
  · cases h
    rfl
  · split at h
    · cases h
    · cases h

theorem notFound_of_orNotFound {r : Except PyErr OrderStatus} {status : Option OrderStatus}
    (h : orNotFound r = .ok status) (e : PyErr) (he : r = .error e) :
    e.apiClass = some .orderNotFound := by
  subst he
  unfold orNotFound at h
  dsimp only at h
  split at h
  · next hclass => exact hclass
  · cases h

/-- Poll for completion, `n` times at most. -/
def poll (paymentId : Str) : ℕ → Program FlowEnd
  | 0 => .ret (.ok .timedOut)
  | n + 1 =>
    .call (.getStatusByPaymentId paymentId) fun status =>
      match orNotFound status with
      | .error e => .ret (.error e)
      | .ok status =>
        match status.filter OrderStatus.isPaymentAccepted with
        | some status => .ret (.ok (.accepted status))
        | none =>
          .sleep (.finite 5) fun
            | .error e => .ret (.error e)
            | .ok _ => poll paymentId n

/-- The arguments of the flow. -/
structure Invoice where
  wallet : Str
  paymentId : Str
  callbackUrl : Str
  toman : ℤ

/-- The conversion of an invoice. -/
def Invoice.conversion (invoice : Invoice) : Call TronConversion :=
  .tomanConvertToTron invoice.toman invoice.wallet

/-- The order for a converted invoice. -/
def Invoice.order (invoice : Invoice) (conversion : TronConversion) : Call OrderTokenData :=
  .getOrderToken invoice.paymentId invoice.wallet (.decimal (.finite conversion.tronAmount))
    invoice.callbackUrl 0

/-- `main`. -/
def paymentFlow (invoice : Invoice) : Program FlowEnd :=
  .call invoice.conversion fun
    | .error e => .ret (.error e)
    | .ok conversion =>
      .call (invoice.order conversion) fun
        | .error e => .ret (.error e)
        | .ok _ => poll invoice.paymentId 24

/-! ## The calls of the flow -/

/-- A lookup, and that it did not end the flow with an exception. -/
def IsLookup (paymentId : Str) (step : Step) : Prop :=
  ∃ xs r, step = ⟨.getStatusByPaymentId paymentId, xs, r⟩

def Heard (step : Step) : Prop :=
  ∀ e, step.result = .error e → e.apiClass = some .orderNotFound

/-- What `n` lookups at most come to. -/
structure Polled (paymentId : Str) (n : ℕ) (steps : List Step) (r : Except PyErr FlowEnd) :
    Prop where
  length_le : steps.length ≤ n
  lookups : ∀ step ∈ steps, IsLookup paymentId step
  /-- The payment was accepted according to the last lookup. -/
  accepted : ∀ status, r = .ok (.accepted status) → status.isPaymentAccepted = true ∧
    ∃ xs, steps.getLast? = some ⟨.getStatusByPaymentId paymentId, xs, .ok status⟩
  /-- All lookups were answered, and none accepted. -/
  timedOut : r = .ok .timedOut → steps.length = n ∧ ∀ step ∈ steps, Heard step
  /-- No accepted payment is missed. -/
  noticed : ∀ xs status, ⟨.getStatusByPaymentId paymentId, xs, .ok status⟩ ∈ steps →
    status.isPaymentAccepted = true → r = .ok (.accepted status)

theorem Polled.none (paymentId : Str) : Polled paymentId 0 [] (.ok .timedOut) := by
  refine ⟨le_rfl, ?_, ?_, ?_, ?_⟩
  · simp
  · intro status h
    cases h
  · intro _
    simp
  · simp

/-- The lookup shows no payment, and the flow ends with an exception. -/
theorem Polled.raised {paymentId : Str} {n : ℕ} {xs : List (Exchange PreparedRequest Outcome)}
    {r : Except PyErr OrderStatus} {e : PyErr}
    (hunpaid : ∀ status, r = .ok status → status.isPaymentAccepted = false) :
    Polled paymentId (n + 1) [⟨.getStatusByPaymentId paymentId, xs, r⟩] (.error e) := by
  refine ⟨?_, ?_, ?_, ?_, ?_⟩
  · simp
  · intro step hstep
    exact ⟨xs, r, List.mem_singleton.mp hstep⟩
  · intro status h
    cases h
  · intro h
    cases h
  · intro ys status hmem hpaid
    cases List.mem_singleton.mp hmem
    rw [hunpaid status rfl] at hpaid
    cases hpaid

/-- The lookup shows an accepted payment. -/
theorem Polled.paid {paymentId : Str} {n : ℕ} {xs : List (Exchange PreparedRequest Outcome)}
    {status : OrderStatus} (h : status.isPaymentAccepted = true) :
    Polled paymentId (n + 1) [⟨.getStatusByPaymentId paymentId, xs, .ok status⟩]
      (.ok (.accepted status)) := by
  refine ⟨?_, ?_, ?_, ?_, ?_⟩
  · simp
  · intro step hstep
    exact ⟨xs, _, List.mem_singleton.mp hstep⟩
  · intro status' hstatus
    cases hstatus
    exact ⟨h, xs, rfl⟩
  · intro hstatus
    cases hstatus
  · intro ys status' hmem _
    cases List.mem_singleton.mp hmem
    rfl

/-- The lookup shows no payment, and the flow goes on. -/
theorem Polled.next {paymentId : Str} {n : ℕ} {xs : List (Exchange PreparedRequest Outcome)}
    {r : Except PyErr OrderStatus} {steps : List Step} {result : Except PyErr FlowEnd}
    (hr : ∀ e, r = .error e → e.apiClass = some .orderNotFound)
    (hunpaid : ∀ status, r = .ok status → status.isPaymentAccepted = false)
    (hsteps : (∃ e, steps = [] ∧ result = .error e) ∨ Polled paymentId n steps result) :
    Polled paymentId (n + 1) (⟨.getStatusByPaymentId paymentId, xs, r⟩ :: steps) result := by
  rcases hsteps with ⟨e, rfl, rfl⟩ | h
  · exact .raised hunpaid
  · refine ⟨Nat.succ_le_succ h.length_le, ?_, ?_, ?_, ?_⟩
    · intro step hstep
      rcases List.mem_cons.mp hstep with rfl | hstep
      · exact ⟨xs, r, rfl⟩
      · exact h.lookups step hstep
    · intro status hstatus
      obtain ⟨haccepted, ys, hlast⟩ := h.accepted status hstatus
      refine ⟨haccepted, ys, ?_⟩
      rw [List.getLast?_cons, hlast]
      rfl
    · intro hresult
      obtain ⟨hlength, hheard⟩ := h.timedOut hresult
      refine ⟨congrArg Nat.succ hlength, ?_⟩
      intro step hstep
      rcases List.mem_cons.mp hstep with rfl | hstep
      · exact hr
      · exact hheard step hstep
    · intro ys status hmem hpaid
      rcases List.mem_cons.mp hmem with heq | hmem
      · cases heq
        rw [hunpaid status rfl] at hpaid
        cases hpaid
      · exact h.noticed ys status hmem hpaid

/-- **What the lookups are.** -/
theorem polled_of_follows {paymentId : Str} {n : ℕ} {steps : List Step}
    {r : Except PyErr FlowEnd} (h : Follows (poll paymentId n) steps r) :
    Polled paymentId n steps r := by
  induction n generalizing steps with
  | zero =>
    cases h with
    | ret => exact .none paymentId
  | succ n ih =>
    cases h with
    | @call _ _ _ xs lookup rest _ h =>
      dsimp only at h
      split at h
      · next e he =>
        cases h with
        | ret =>
          apply Polled.raised
          rintro status rfl
          cases he
      · next status hstatus =>
        split at h
        · next paid hpaid =>
          obtain ⟨rfl, haccepted⟩ := Option.filter_eq_some_iff.mp hpaid
          cases h with
          | ret =>
            rw [eq_ok_of_orNotFound hstatus]
            exact .paid haccepted
        · next hunpaid =>
          have hr : ∀ paid, lookup = .ok paid → paid.isPaymentAccepted = false := by
            rintro paid rfl
            cases hstatus
            simpa using hunpaid
          refine .next (notFound_of_orNotFound hstatus) hr ?_
          cases h with
          | sleep h =>
            dsimp only at h
            split at h
            · cases h with
              | ret => exact Or.inl ⟨_, rfl, rfl⟩
            · exact Or.inr (ih h)

/-- The calls of the flow. -/
inductive FlowSteps (invoice : Invoice) : List Step → Except PyErr FlowEnd → Prop
  | noPrice {xs : List (Exchange PreparedRequest Outcome)} {e : PyErr} :
      FlowSteps invoice [⟨invoice.conversion, xs, .error e⟩] (.error e)
  | noOrder {xs ys : List (Exchange PreparedRequest Outcome)} {conversion : TronConversion}
      {e : PyErr} :
      FlowSteps invoice [⟨invoice.conversion, xs, .ok conversion⟩,
        ⟨invoice.order conversion, ys, .error e⟩] (.error e)
  | ordered {xs ys : List (Exchange PreparedRequest Outcome)} {conversion : TronConversion}
      {order : OrderTokenData} {lookups : List Step} {r : Except PyErr FlowEnd}
      (h : Polled invoice.paymentId 24 lookups r) :
      FlowSteps invoice (⟨invoice.conversion, xs, .ok conversion⟩ ::
        ⟨invoice.order conversion, ys, .ok order⟩ :: lookups) r

theorem flowSteps_of_follows {invoice : Invoice} {steps : List Step} {r : Except PyErr FlowEnd}
    (h : Follows (paymentFlow invoice) steps r) : FlowSteps invoice steps r := by
  cases h with
  | call h =>
    dsimp only at h
    split at h
    · cases h with
      | ret => exact .noPrice
    · cases h with
      | call h =>
        dsimp only at h
        split at h
        · cases h with
          | ret => exact .noOrder
        · exact .ordered (polled_of_follows h)

/-! ## What the flow sends -/

section

variable [Runtime] {config : TronadoConfig} {invoice : Invoice} {r : Except PyErr FlowEnd}

/-- The exchanges of the flow: those of the conversion, of the order and of the lookups. -/
structure FlowSpec (config : TronadoConfig) (invoice : Invoice)
    (cs os ls : List (Exchange PreparedRequest Outcome)) (r : Except PyErr FlowEnd) : Prop where
  conversions : cs.length ≤ config.maxRetries + 1 ∧
    ∀ x ∈ cs, Meets config (invoice.conversion.endpoint versionTag) x.request
  /-- One order at most is asked for, of the double nearest to the amount the invoice was
  converted to: of that amount itself just when it survives its double. -/
  order : os.length ≤ 1 ∧ ∀ x ∈ os, ∃ conversion, ReadFrom Ops.tomanConvertToTron cs conversion ∧
    Meets config ((invoice.order conversion).endpoint versionTag) x.request ∧
      (sentNumber? x.request.content "TronAmount" = some conversion.tronAmount.toRat ↔
        Survives conversion.tronAmount.toRat)
  lookups : ls.length ≤ 24 * (config.maxRetries + 1) ∧
    ∀ x ∈ ls, (∃ order, ReadFrom Ops.getOrderToken os order) ∧
      Meets config ((Call.getStatusByPaymentId invoice.paymentId).endpoint versionTag) x.request
  /-- An accepted payment is what the last answer says. -/
  accepted : ∀ status, r = .ok (.accepted status) →
    status.isPaymentAccepted = true ∧ ReadFrom Ops.getStatusByPaymentId ls status
  timedOut : r = .ok .timedOut → 24 ≤ ls.length
  /-- No answer that says accepted is missed. -/
  noticed : ∀ x ∈ ls, ∀ response status, x.answer = .response response →
    processResponse Ops.getStatusByPaymentId response.statusCode response.text = .ok status →
      status.isPaymentAccepted = true → r = .ok (.accepted status)

/-- What the request for an order says of its amount. -/
theorem Invoice.order_amount {conversion : TronConversion} {request : PreparedRequest}
    (h : Meets config ((invoice.order conversion).endpoint versionTag) request) :
    sentNumber? request.content "TronAmount" = some conversion.tronAmount.toRat ↔
      Survives conversion.tronAmount.toRat := by
  have hfield : ("TronAmount", Field.amount (.decimal (.finite conversion.tronAmount))) ∈
      ((invoice.order conversion).endpoint versionTag).fields := by
    simp [Invoice.order, Call.endpoint]
  refine h.body.said_iff ?_ hfield ?_ rfl
  · simp [Invoice.order, Call.endpoint]
  · simp [Invoice.order, Call.endpoint, Field.Overflows]

/-- The exchanges of the lookups. -/
theorem Polled.exchanges {paymentId : Str} {n : ℕ} {steps : List Step}
    (h : Polled paymentId n steps r) (hs : ∀ step ∈ steps, step.Sends config) :
    (steps.flatMap Segment.exchanges).length ≤ n * (config.maxRetries + 1) ∧
      ∀ x ∈ steps.flatMap Segment.exchanges,
        Meets config ((Call.getStatusByPaymentId paymentId).endpoint versionTag) x.request := by
  constructor
  · have hle : ∀ k ∈ steps.map fun step => step.exchanges.length, k ≤ config.maxRetries + 1 := by
      intro k hk
      obtain ⟨step, hstep, rfl⟩ := List.mem_map.mp hk
      obtain ⟨xs, r, rfl⟩ := h.lookups step hstep
      exact (hs _ hstep).length_le
    have hsum := List.sum_le_card_nsmul _ _ hle
    rw [List.length_map, Nat.nsmul_eq_mul] at hsum
    rw [List.length_flatMap]
    exact hsum.trans (Nat.mul_le_mul_right _ h.length_le)
  · intro x hx
    obtain ⟨step, hstep, hmem⟩ := List.mem_flatMap.mp hx
    obtain ⟨xs, r, rfl⟩ := h.lookups step hstep
    exact (hs _ hstep).meets x hmem

/-- An answer that says accepted ends the lookups. -/
theorem Polled.noticed_answer {paymentId : Str} {n : ℕ} {steps : List Step}
    (h : Polled paymentId n steps r) (hs : ∀ step ∈ steps, step.Sends config)
    {x : Exchange PreparedRequest Outcome} (hx : x ∈ steps.flatMap Segment.exchanges)
    {response : Response} {status : OrderStatus} (hanswer : x.answer = .response response)
    (hstatus : processResponse Ops.getStatusByPaymentId response.statusCode response.text =
      .ok status) (hpaid : status.isPaymentAccepted = true) : r = .ok (.accepted status) := by
  obtain ⟨step, hstep, hmem⟩ := List.mem_flatMap.mp hx
  obtain ⟨xs, result, rfl⟩ := h.lookups step hstep
  obtain rfl : result = .ok status := (hs _ hstep).kept hmem hanswer hstatus
  exact h.noticed xs status hstep hpaid

/-- A lookup that was heard of was sent. -/
theorem exchanges_ne_nil {step : Step} (hs : step.Sends config) (hheard : Heard step) :
    step.exchanges ≠ [] := by
  intro hnil
  obtain ⟨e, he, hclass⟩ := hs.unsent hnil
  have hfound := hheard e he
  rcases hclass with hclass | hclass <;> rw [hfound] at hclass <;> cases hclass

/-- A flow that times out has sent every lookup. -/
theorem Polled.le_length {paymentId : Str} {n : ℕ} {steps : List Step}
    (h : Polled paymentId n steps r) (hs : ∀ step ∈ steps, step.Sends config)
    (hr : r = .ok .timedOut) : n ≤ (steps.flatMap Segment.exchanges).length := by
  obtain ⟨hlength, hheard⟩ := h.timedOut hr
  have hle : ∀ k ∈ steps.map fun step => step.exchanges.length, 1 ≤ k := by
    intro k hk
    obtain ⟨step, hstep, rfl⟩ := List.mem_map.mp hk
    exact List.length_pos_iff.mpr (exchanges_ne_nil (hs step hstep) (hheard step hstep))
  have hsum := List.card_nsmul_le_sum _ _ hle
  rw [List.length_map, Nat.nsmul_eq_mul, mul_one, hlength] at hsum
  rwa [List.length_flatMap]

/-- An accepted payment is what the last answer says. -/
theorem Polled.readFrom {paymentId : Str} {n : ℕ} {steps : List Step}
    (h : Polled paymentId n steps r) (hs : ∀ step ∈ steps, step.Sends config)
    {status : OrderStatus} (hr : r = .ok (.accepted status)) :
    ReadFrom Ops.getStatusByPaymentId (steps.flatMap Segment.exchanges) status := by
  obtain ⟨-, xs, hlast⟩ := h.accepted status hr
  obtain ⟨init, rfl⟩ := List.getLast?_eq_some_iff.mp hlast
  have hsends := hs ⟨.getStatusByPaymentId paymentId, xs, .ok status⟩ (by simp)
  obtain ⟨x, response, hx, hanswer, hread⟩ := hsends.answered status rfl
  refine ⟨x, response, ?_, hanswer, hread⟩
  rw [List.flatMap_append, List.flatMap_singleton, List.getLast?_append,
    show xs.getLast? = some x from hx]
  rfl

/-- **The calls of the flow send what the flow may send.** -/
theorem flowSpec_of_steps {steps : List Step} (h : FlowSteps invoice steps r)
    (hs : ∀ step ∈ steps, step.Sends config) :
    ∃ cs os ls, steps.flatMap Segment.exchanges = cs ++ (os ++ ls) ∧
      FlowSpec config invoice cs os ls r := by
  cases h with
  | @noPrice xs e =>
    have hconversion := hs ⟨invoice.conversion, xs, .error e⟩ (by simp)
    refine ⟨xs, [], [], by simp, ⟨hconversion.length_le, hconversion.meets⟩, ?_, ?_, ?_, ?_, ?_⟩
    · simp
    · simp
    · intro status h
      cases h
    · intro h
      cases h
    · simp
  | @noOrder xs ys conversion e =>
    have hconversion := hs ⟨invoice.conversion, xs, .ok conversion⟩ (by simp)
    have horder := hs ⟨invoice.order conversion, ys, .error e⟩ (by simp)
    refine ⟨xs, ys, [], by simp, ⟨hconversion.length_le, hconversion.meets⟩,
      ⟨horder.length_le, ?_⟩, ?_, ?_, ?_, ?_⟩
    · intro x hx
      have hmeets := horder.meets x hx
      exact ⟨conversion, hconversion.answered conversion rfl, hmeets, Invoice.order_amount hmeets⟩
    · simp
    · intro status h
      cases h
    · intro h
      cases h
    · simp
  | @ordered xs ys conversion order lookups r h =>
    have hconversion := hs ⟨invoice.conversion, xs, .ok conversion⟩ (by simp)
    have horder := hs ⟨invoice.order conversion, ys, .ok order⟩ (by simp)
    have hlookups : ∀ step ∈ lookups, step.Sends config := fun step hstep =>
      hs step (List.mem_cons_of_mem _ (List.mem_cons_of_mem _ hstep))
    obtain ⟨hlength, hmeets⟩ := h.exchanges hlookups
    refine ⟨xs, ys, lookups.flatMap Segment.exchanges, rfl,
      ⟨hconversion.length_le, hconversion.meets⟩, ⟨horder.length_le, ?_⟩, ⟨hlength, ?_⟩, ?_,
      h.le_length hlookups, ?_⟩
    · intro x hx
      have hmeets := horder.meets x hx
      exact ⟨conversion, hconversion.answered conversion rfl, hmeets, Invoice.order_amount hmeets⟩
    · intro x hx
      exact ⟨⟨order, horder.answered order rfl⟩, hmeets x hx⟩
    · intro status hr
      exact ⟨(h.accepted status hr).1, h.readFrom hlookups hr⟩
    · intro x hx response status
      exact h.noticed_answer hlookups hx

/-- **The payment flow.**  Whatever the server answers, the flow asks for the conversion of
the invoice, then for at most one order, of the double nearest to the amount that the
conversion was answered with, and then, once the order exists, for its status; each request
meets its row of the matrix.  It reports an accepted payment if an answer to a lookup says so, and only then,
and gives up only after 24 lookups. -/
theorem paymentFlow_spec (client : TronadoClient) (invoice : Invoice) (env : Env Outcome PyErr)
    (w : World PreparedRequest) :
    ∃ cs os ls, Between env w ((client.exec (paymentFlow invoice)).run env w).2
        (cs ++ (os ++ ls)) ∧
      FlowSpec client.config invoice cs os ls
        ((client.exec (paymentFlow invoice)).run env w).1 := by
  obtain ⟨xs, hb, steps, hx⟩ := TronadoClient.exchanges_exec client (paymentFlow invoice) env w
  obtain ⟨cs, os, ls, hparts, hspec⟩ :=
    flowSpec_of_steps (flowSteps_of_follows hx.splits.follows) hx.splits.each
  rw [hx.splits.exchanges, hparts] at hb
  exact ⟨cs, os, ls, hb, hspec⟩

end

end Tronado
