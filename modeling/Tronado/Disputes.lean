import Tronado.Crediting

/-!
# The dispute handler, and both endpoints together

`disputeCallback` is the documented handler of dispute callbacks.  It acknowledges
an event of another type without recording it, and one whose `dedup_key` has been
processed; otherwise it records the key and acts on the outcome.  `Callback` is a
request to either endpoint of the application, `App.run` any sequence of them.

* `App.run_eq`: the endpoints do not interfere.
* `App.actions_of_dispute`: what is done about one dispute.
* `App.run_converges`: which events arrived decides what is done, not their order
  and not how often they came.
-/

namespace Tronado

open Py Dedup

/-- What the handler does about a dispute. -/
inductive DisputeAction
  /-- `reverse_credit(event.payment_id)` -/
  | reverseCredit (disputeId : ℤ) (paymentId : Option String)
  /-- `adjust_credit(event.payment_id, event.user_must_pay_toman_delta)` -/
  | adjustCredit (disputeId : ℤ) (paymentId : Option String) (userMustPayTomanDelta : Option ℤ)
      (tronAmountDelta : Option Dec)
  /-- A line in the log. -/
  | logOnly (disputeId : ℤ) (outcome : Option String)

namespace DisputeAction

def disputeId : DisputeAction → ℤ
  | reverseCredit disputeId _ => disputeId
  | adjustCredit disputeId _ _ _ => disputeId
  | logOnly disputeId _ => disputeId

end DisputeAction

/-- The branches on the outcome. -/
def DisputeCallbackPayload.action (event : DisputeCallbackPayload) : DisputeAction :=
  if event.isAnnulled then .reverseCredit event.disputeId event.paymentId
  else if event.isAmountAdjusted then
    .adjustCredit event.disputeId event.paymentId event.userMustPayTomanDelta
      event.tronAmountDelta
  else .logOnly event.disputeId event.outcome

@[simp] theorem disputeId_action (event : DisputeCallbackPayload) :
    event.action.disputeId = event.dedupKey := by
  unfold DisputeCallbackPayload.action
  split_ifs <;> rfl

/-- `_processed_disputes`, and the actions so far. -/
structure DisputeState where
  processedDisputes : List ℤ
  actions : List DisputeAction

namespace DisputeState

def empty : DisputeState := ⟨[], []⟩

/-- `_processed_disputes.add(event.dedup_key)`. -/
def addProcessed (s : DisputeState) (event : DisputeCallbackPayload) : DisputeState :=
  { s with processedDisputes := event.dedupKey :: s.processedDisputes }

/-- Do it. -/
def act (s : DisputeState) (action : DisputeAction) : DisputeState :=
  { s with actions := s.actions ++ [action] }

/-- The handler, from the event on. -/
def deliver (s : DisputeState) (event : DisputeCallbackPayload) : DisputeState :=
  if !event.isDisputeAccepted || decide (event.dedupKey ∈ s.processedDisputes) then s
  else (s.addProcessed event).act event.action

/-- Any number of deliveries, in any order. -/
def deliverAll (events : List DisputeCallbackPayload) : DisputeState := events.foldl deliver empty

/-! ## The ledger behind the handler -/

/-- The events the handler looks up. -/
def accepted (events : List DisputeCallbackPayload) : List DisputeCallbackPayload :=
  events.filter DisputeCallbackPayload.isDisputeAccepted

/-- Every recorded event has an effect. -/
abbrev ledgerOf (events : List DisputeCallbackPayload) : Ledger DisputeCallbackPayload ℤ :=
  run DisputeCallbackPayload.dedupKey (fun _ => true) (accepted events)

/-- The state and a ledger that has seen the same keys and emitted what was acted on. -/
structure Follows (s : DisputeState) (l : Ledger DisputeCallbackPayload ℤ) : Prop where
  processed : s.processedDisputes = l.seen
  actions : s.actions = l.emitted.map DisputeCallbackPayload.action

/-- An accepted event is one step of the ledger. -/
theorem Follows.deliver_accepted {s : DisputeState} {l : Ledger DisputeCallbackPayload ℤ}
    (h : Follows s l) {event : DisputeCallbackPayload} (ha : event.isDisputeAccepted = true) :
    Follows (s.deliver event)
      (step DisputeCallbackPayload.dedupKey (fun _ => true) l event) := by
  unfold deliver step
  rw [h.processed]
  by_cases hk : event.dedupKey ∈ l.seen
  · simpa [ha, hk] using h
  · rw [if_neg (by simp [ha, hk]), if_neg hk]
    constructor
    · show event.dedupKey :: s.processedDisputes = _
      rw [h.processed]
    · show s.actions ++ [event.action] = _
      rw [h.actions]
      simp

/-- Any other event is none. -/
theorem deliver_other (s : DisputeState) {event : DisputeCallbackPayload}
    (h : event.isDisputeAccepted = false) : s.deliver event = s := by
  rw [deliver, h]
  rfl

/-- **The handler follows the ledger of the accepted events.** -/
theorem follows_deliverAll (events : List DisputeCallbackPayload) :
    Follows (deliverAll events) (ledgerOf events) := by
  induction events using List.reverseRecOn with
  | nil => exact ⟨rfl, rfl⟩
  | append_singleton events event ih =>
    have hs : deliverAll (events ++ [event]) = (deliverAll events).deliver event := by
      rw [deliverAll, List.foldl_append]
      rfl
    rw [hs]
    by_cases ha : event.isDisputeAccepted = true
    · have hl : ledgerOf (events ++ [event]) =
          step DisputeCallbackPayload.dedupKey (fun _ => true) (ledgerOf events) event := by
        simp [ledgerOf, accepted, run, ha]
      rw [hl]
      exact ih.deliver_accepted ha
    · have hl : ledgerOf (events ++ [event]) = ledgerOf events := by
        simp [ledgerOf, accepted, ha]
      rw [hl, deliver_other _ (by simpa using ha)]
      exact ih

/-- **What is done about one dispute**: the action of its first accepted event, once. -/
theorem actions_deliverAll (events : List DisputeCallbackPayload) (d : ℤ) :
    (deliverAll events).actions.filter (fun a => decide (a.disputeId = d)) =
      ((accepted events).find? (fun event => decide (event.disputeId = d))).toList.map
        DisputeCallbackPayload.action := by
  rw [(follows_deliverAll events).actions, List.filter_map]
  have hkey : (fun a => decide (a.disputeId = d)) ∘ DisputeCallbackPayload.action =
      fun event => decide (event.dedupKey = d) := by
    funext event
    rw [Function.comp_apply, disputeId_action]
  rw [hkey, filter_emitted]
  cases h : first DisputeCallbackPayload.dedupKey (accepted events) d with
  | none =>
    show _ = (first DisputeCallbackPayload.dedupKey (accepted events) d).toList.map _
    rw [h]
    rfl
  | some event =>
    show _ = (first DisputeCallbackPayload.dedupKey (accepted events) d).toList.map _
    rw [h]
    rfl

end DisputeState

/-! ## Both endpoints -/

section

variable [Runtime] (hmacSha512 : Bytes → Bytes → Digest) (signingKey : RawBody)

/-- `dispute_callback`: the status of the response, and the next state. -/
def disputeCallback (s : DisputeState) (rawBody : Bytes) (signature : Option Str) :
    Except PyErr ℕ × DisputeState :=
  -- `request.headers.get("X-Tronado-Sig", "")`
  match constructDisputeEvent hmacSha512 (.bytes rawBody) (some (signature.getD [])) signingKey with
  | .error (.tronado (.invalidSignature _)) => (.ok 401, s)
  | .error (.tronado (.webhook _)) => (.ok 400, s)
  | .error e => (.error e, s)
  | .ok event => (.ok 200, s.deliver event)

/-- A request to one of the two endpoints. -/
inductive Callback
  | payment (rawBody : Bytes) (signature : Option Str)
  | dispute (rawBody : Bytes) (signature : Option Str)

/-- The state of the application. -/
structure App where
  payments : HandlerState
  disputes : DisputeState

namespace App

def empty : App := ⟨.empty, .empty⟩

/-- One request. -/
def handle (app : App) : Callback → Except PyErr ℕ × App
  | .payment rawBody signature =>
    let r := paymentCallback hmacSha512 signingKey app.payments rawBody signature
    (r.1, { app with payments := r.2 })
  | .dispute rawBody signature =>
    let r := disputeCallback hmacSha512 signingKey app.disputes rawBody signature
    (r.1, { app with disputes := r.2 })

/-- Any sequence of requests: the answers, and the state they leave. -/
def run (app : App) : List Callback → List (Except PyErr ℕ) × App
  | [] => ([], app)
  | r :: rs =>
    let (answer, app) := handle hmacSha512 signingKey app r
    let (answers, app) := run app rs
    (answer :: answers, app)

end App

/-- The status for what construction returns or raises. -/
def statusOf {α : Type} : Except PyErr α → Except PyErr ℕ
  | .error (.tronado (.invalidSignature _)) => .ok 401
  | .error (.tronado (.webhook _)) => .ok 400
  | .error e => .error e
  | .ok _ => .ok 200

namespace Callback

/-- The answer to a request: it does not see the state. -/
def answer : Callback → Except PyErr ℕ
  | payment rawBody signature =>
    statusOf (constructEvent hmacSha512 (.bytes rawBody) (some (signature.getD [])) signingKey)
  | dispute rawBody signature =>
    statusOf
      (constructDisputeEvent hmacSha512 (.bytes rawBody) (some (signature.getD [])) signingKey)

/-- The IPN a request delivers, if it delivers one. -/
def paymentEvent : Callback → Option CallbackPayload
  | payment rawBody signature => deliveredEvent hmacSha512 signingKey (rawBody, signature)
  | dispute _ _ => none

/-- The dispute event a request delivers, if it delivers one. -/
def disputeEvent : Callback → Option DisputeCallbackPayload
  | payment _ _ => none
  | dispute rawBody signature =>
    (constructDisputeEvent hmacSha512 (.bytes rawBody) (some (signature.getD []))
      signingKey).toOption

end Callback

theorem paymentCallback_answer (s : HandlerState) (rawBody : Bytes) (signature : Option Str) :
    (paymentCallback hmacSha512 signingKey s rawBody signature).1 =
      Callback.answer hmacSha512 signingKey (.payment rawBody signature) := by
  unfold paymentCallback Callback.answer
  dsimp only
  generalize constructEvent hmacSha512 (.bytes rawBody) (some (signature.getD [])) signingKey = r
  rcases r with e | event
  · rcases e with e | _ | _ | _ | _ | _ | _ | _
    · cases e <;> rfl
    all_goals rfl
  · rfl

theorem disputeCallback_eq (s : DisputeState) (rawBody : Bytes) (signature : Option Str) :
    disputeCallback hmacSha512 signingKey s rawBody signature =
      (Callback.answer hmacSha512 signingKey (.dispute rawBody signature),
        (Callback.disputeEvent hmacSha512 signingKey (.dispute rawBody signature)).elim s
          s.deliver) := by
  unfold disputeCallback Callback.answer Callback.disputeEvent
  dsimp only
  generalize constructDisputeEvent hmacSha512 (.bytes rawBody) (some (signature.getD []))
    signingKey = r
  rcases r with e | event
  · rcases e with e | _ | _ | _ | _ | _ | _ | _
    · cases e <;> rfl
    all_goals rfl
  · rfl

namespace App

/-- **One request** is answered as it deserves, and touches the state of its own
endpoint only. -/
theorem handle_eq (app : App) (r : Callback) :
    handle hmacSha512 signingKey app r =
      (r.answer hmacSha512 signingKey,
        ⟨(r.paymentEvent hmacSha512 signingKey).elim app.payments app.payments.deliver,
          (r.disputeEvent hmacSha512 signingKey).elim app.disputes app.disputes.deliver⟩) := by
  cases r with
  | payment rawBody signature =>
    show (_, App.mk _ _) = _
    rw [paymentCallback_answer,
      paymentCallback_state hmacSha512 signingKey app.payments (rawBody, signature)]
    rfl
  | dispute rawBody signature =>
    show (_, App.mk _ _) = _
    rw [disputeCallback_eq]
    rfl

theorem run_from (app : App) (rs : List Callback) :
    run hmacSha512 signingKey app rs =
      (rs.map (Callback.answer hmacSha512 signingKey),
        ⟨(rs.filterMap (Callback.paymentEvent hmacSha512 signingKey)).foldl HandlerState.deliver
            app.payments,
          (rs.filterMap (Callback.disputeEvent hmacSha512 signingKey)).foldl DisputeState.deliver
            app.disputes⟩) := by
  induction rs generalizing app with
  | nil => rfl
  | cons r rs ih =>
    rw [run, handle_eq]
    dsimp only
    rw [ih, List.map_cons, List.filterMap_cons, List.filterMap_cons]
    cases r.paymentEvent hmacSha512 signingKey <;>
      cases r.disputeEvent hmacSha512 signingKey <;> rfl

/-- **The endpoints do not interfere**: however the requests to both of them are
interleaved, every answer is decided by its request alone, and the state of each
endpoint is what its own requests deliver. -/
theorem run_eq (rs : List Callback) :
    run hmacSha512 signingKey empty rs =
      (rs.map (Callback.answer hmacSha512 signingKey),
        ⟨HandlerState.deliverAll (rs.filterMap (Callback.paymentEvent hmacSha512 signingKey)),
          DisputeState.deliverAll
            (rs.filterMap (Callback.disputeEvent hmacSha512 signingKey))⟩) :=
  run_from hmacSha512 signingKey empty rs

/-- **A dispute is acted on at most once, whatever arrives**: the actions about it
are that of the first verified and accepted event with its id, and none if there is
no such event. -/
theorem actions_of_dispute (rs : List Callback) (d : ℤ) :
    (run hmacSha512 signingKey empty rs).2.disputes.actions.filter
        (fun a => decide (a.disputeId = d)) =
      ((DisputeState.accepted (rs.filterMap (Callback.disputeEvent hmacSha512 signingKey))).find?
        (fun event => decide (event.disputeId = d))).toList.map
          DisputeCallbackPayload.action := by
  rw [run_eq]
  exact DisputeState.actions_deliverAll _ d

/-- A key stands for one event, at each endpoint. -/
structure Consistent (rs : List Callback) : Prop where
  payments : KeyDetermines CallbackPayload.dedupKey
    (rs.filterMap (Callback.paymentEvent hmacSha512 signingKey))
  disputes : KeyDetermines DisputeCallbackPayload.dedupKey
    (DisputeState.accepted (rs.filterMap (Callback.disputeEvent hmacSha512 signingKey)))

/-- The same events reach the handlers. -/
structure SameEvents (rs rs' : List Callback) : Prop where
  payments : ∀ event, event ∈ rs.filterMap (Callback.paymentEvent hmacSha512 signingKey) ↔
    event ∈ rs'.filterMap (Callback.paymentEvent hmacSha512 signingKey)
  disputes : ∀ event,
    event ∈ DisputeState.accepted (rs.filterMap (Callback.disputeEvent hmacSha512 signingKey)) ↔
      event ∈ DisputeState.accepted
        (rs'.filterMap (Callback.disputeEvent hmacSha512 signingKey))

/-- Two states with the same keys, and the same effects up to their order. -/
structure Agree (app app' : App) : Prop where
  processed : ∀ k, k ∈ app.payments.processed ↔ k ∈ app'.payments.processed
  credited : app.payments.credited.Perm app'.payments.credited
  processedDisputes : ∀ d,
    d ∈ app.disputes.processedDisputes ↔ d ∈ app'.disputes.processedDisputes
  actions : app.disputes.actions.Perm app'.disputes.actions

/-- **Membership alone decides the effects**: where a key stands for one event, two
runs of the application to which the same events were delivered agree, whatever the
order, the repetitions, the interleaving of the endpoints and the rejected requests
between them. -/
theorem run_converges (rs rs' : List Callback) (hc : Consistent hmacSha512 signingKey rs)
    (hs : SameEvents hmacSha512 signingKey rs rs') :
    Agree (run hmacSha512 signingKey empty rs).2 (run hmacSha512 signingKey empty rs').2 := by
  rw [run_eq, run_eq]
  have hkeys {ε κ : Type} (key : ε → κ) {es es' : List ε} (h : ∀ e, e ∈ es ↔ e ∈ es') (k : κ) :
      k ∈ es.map key ↔ k ∈ es'.map key := by
    simp only [List.mem_map, h]
  constructor
  · intro k
    have h (events : List CallbackPayload) :
        k ∈ (HandlerState.deliverAll events).processed ↔
          k ∈ events.map CallbackPayload.dedupKey := by
      rw [← (inv_run CallbackPayload.dedupKey CallbackPayload.isPaymentAccepted events).seen,
        ← HandlerState.toLedger_deliverAll]
      rfl
    rw [h, h]
    exact hkeys _ hs.payments k
  · have h (events : List CallbackPayload) : (HandlerState.deliverAll events).credited =
        (Dedup.run CallbackPayload.dedupKey CallbackPayload.isPaymentAccepted events).emitted := by
      rw [← HandlerState.toLedger_deliverAll]
      rfl
    rw [h, h]
    exact emitted_perm hc.payments hs.payments
  · intro d
    have h (events : List DisputeCallbackPayload) :
        d ∈ (DisputeState.deliverAll events).processedDisputes ↔
          d ∈ (DisputeState.accepted events).map DisputeCallbackPayload.dedupKey := by
      rw [(DisputeState.follows_deliverAll events).processed,
        (inv_run _ _ (DisputeState.accepted events)).seen]
    rw [h, h]
    exact hkeys _ hs.disputes d
  · rw [(DisputeState.follows_deliverAll _).actions, (DisputeState.follows_deliverAll _).actions]
    apply List.Perm.map
    exact emitted_perm hc.disputes hs.disputes

/-- The same requests deliver the same events. -/
theorem sameEvents_of_requests {rs rs' : List Callback} (h : ∀ r, r ∈ rs ↔ r ∈ rs') :
    SameEvents hmacSha512 signingKey rs rs' := by
  constructor
  · intro event
    simp only [List.mem_filterMap, h]
  · intro event
    simp only [DisputeState.accepted, List.mem_filter, List.mem_filterMap, h]

/-- One dispute, delivered twice around one IPN. -/
theorem consistent_redelivered (body body' : Bytes) (signature signature' : Option Str) :
    Consistent hmacSha512 signingKey
      [.dispute body signature, .payment body' signature', .dispute body signature] := by
  have hnone : Callback.paymentEvent hmacSha512 signingKey (.dispute body signature) = none := rfl
  have hnone' : Callback.disputeEvent hmacSha512 signingKey (.payment body' signature') = none :=
    rfl
  constructor
  · cases hp : Callback.paymentEvent hmacSha512 signingKey (.payment body' signature') with
    | none => simp [KeyDetermines, hnone, hp]
    | some event => simp [KeyDetermines, hnone, hp]
  · cases hd : Callback.disputeEvent hmacSha512 signingKey (.dispute body signature) with
    | none => simp [KeyDetermines, hnone', hd, DisputeState.accepted]
    | some event =>
      by_cases ha : event.isDisputeAccepted = true
      · simp [KeyDetermines, hnone', hd, DisputeState.accepted, ha]
      · simp [KeyDetermines, hnone', hd, DisputeState.accepted, ha]

end App

end

/-- A digest of zeros. -/
def zeroDigest : Digest := ⟨List.replicate 64 0, rfl⟩

/-- An annulled dispute that arrives before the IPN of its payment and once more after
it has the effects it has when it arrives once, after the IPN. -/
theorem App.run_converges_redelivered :
    let dispute := Callback.dispute
      ((lit "\x7b\"Event\":\"DisputeAccepted\",\"DisputeId\":7,\"Outcome\":\"Annulled\"\x7d").map
        UInt8.ofNat) (some (hex zeroDigest.val))
    let payment := Callback.payment
      ((lit "\x7b\"PaymentId\":\"p\",\"OrderStatusID\":30\x7d").map UInt8.ofNat)
      (some (hex zeroDigest.val))
    Agree
      (@run Runtime.sample (fun _ _ => zeroDigest) (.bytes [1]) empty
        [dispute, payment, dispute]).2
      (@run Runtime.sample (fun _ _ => zeroDigest) (.bytes [1]) empty [payment, dispute]).2 := by
  intro dispute payment
  apply @App.run_converges Runtime.sample
  · exact @App.consistent_redelivered Runtime.sample _ _ _ _ _ _
  · apply @App.sameEvents_of_requests Runtime.sample
    intro r
    simp only [List.mem_cons, List.not_mem_nil, or_false]
    tauto

end Tronado
