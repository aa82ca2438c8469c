import Tronado.Lib.Dedup
import Tronado.Webhook

/-!
# The IPN handler

`paymentCallback` is the documented handler: it constructs the event, ignores it
when its `dedup_key` has been processed, and otherwise records the key and credits
an accepted payment.  `deliver` is what it does with a constructed event, and the
ledger of `Dedup` is the abstract machine behind it (`toLedger_deliver`).

* `paymentCallback_state`: a request changes the state only by delivering its event.
* `credits_eq`: how often a payment is credited, over any deliveries.
-/

namespace Tronado

open Py Dedup

/-- `event.dedup_key`. -/
abbrev DedupKey := Option String × Option ℤ

/-- The set of processed keys, and the payloads credited so far. -/
structure HandlerState where
  processed : List DedupKey
  credited : List CallbackPayload

namespace HandlerState

def empty : HandlerState := ⟨[], []⟩

/-- `_processed.add(event.dedup_key)`. -/
def addProcessed (s : HandlerState) (event : CallbackPayload) : HandlerState :=
  { s with processed := event.dedupKey :: s.processed }

/-- `credit_user(event.payment_id, ...)`. -/
def creditUser (s : HandlerState) (event : CallbackPayload) : HandlerState :=
  { s with credited := s.credited ++ [event] }

/-- The handler, from the event on. -/
def deliver (s : HandlerState) (event : CallbackPayload) : HandlerState :=
  if event.dedupKey ∈ s.processed then s
  else
    let s := s.addProcessed event
    if event.isPaymentAccepted then s.creditUser event else s

/-- Any number of deliveries, in any order. -/
def deliverAll (events : List CallbackPayload) : HandlerState := events.foldl deliver empty

/-- How often a payment has been credited. -/
def credits (s : HandlerState) (paymentId : String) : ℕ :=
  s.credited.countP (fun event => event.paymentId == some paymentId)

/-- The handler as a ledger. -/
def toLedger (s : HandlerState) : Ledger CallbackPayload DedupKey := ⟨s.processed, s.credited⟩

/-- **A delivery is a step of the ledger.** -/
theorem toLedger_deliver (s : HandlerState) (event : CallbackPayload) :
    (s.deliver event).toLedger =
      step CallbackPayload.dedupKey CallbackPayload.isPaymentAccepted s.toLedger event := by
  unfold deliver step toLedger
  by_cases h : event.dedupKey ∈ s.processed
  · simp only [h, if_true]
  · simp only [h, if_false]
    cases event.isPaymentAccepted <;> rfl

theorem toLedger_deliverAll (events : List CallbackPayload) :
    (deliverAll events).toLedger =
      run CallbackPayload.dedupKey CallbackPayload.isPaymentAccepted events := by
  have hfold : ∀ s : HandlerState, (events.foldl deliver s).toLedger =
      events.foldl (step CallbackPayload.dedupKey CallbackPayload.isPaymentAccepted)
        s.toLedger := by
    induction events with
    | nil => intro s; rfl
    | cons event events ih =>
      intro s
      rw [List.foldl_cons, List.foldl_cons, ih, toLedger_deliver]
  exact hfold empty

/-! ## How often a payment is credited -/

/-- The first delivered payload with this key is accepted. -/
def firstAccepted (events : List CallbackPayload) (k : DedupKey) : Bool :=
  (events.find? (fun event => decide (event.dedupKey = k))).any CallbackPayload.isPaymentAccepted

theorem credits_deliverAll (events : List CallbackPayload) (paymentId : String) :
    (deliverAll events).credits paymentId =
      (events.map CallbackPayload.dedupKey).dedup.countP
        (fun k => k.1 == some paymentId && firstAccepted events k) := by
  show (deliverAll events).toLedger.emitted.countP
    (fun event => event.paymentId == some paymentId) = _
  rw [toLedger_deliverAll]
  exact countP_emitted CallbackPayload.dedupKey CallbackPayload.isPaymentAccepted events
    (fun k => k.1 == some paymentId)

theorem isPaymentAccepted_iff {event : CallbackPayload}
    (h : event.isPaid = true → event.orderStatusId = some paymentAccepted) :
    event.isPaymentAccepted = true ↔ event.orderStatusId = some paymentAccepted := by
  rw [CallbackPayload.isPaymentAccepted, Bool.or_eq_true, beq_iff_eq]
  exact ⟨fun ha => ha.elim h id, Or.inr⟩

/-- Where a paid payload of a payment has status 30, the one key of the payment
whose payloads are accepted is that with status 30. -/
theorem firstAccepted_iff {events : List CallbackPayload} {paymentId : String}
    (h : ∀ event ∈ events, event.paymentId = some paymentId → event.isPaid = true →
      event.orderStatusId = some paymentAccepted) {k : DedupKey}
    (hk : k ∈ events.map CallbackPayload.dedupKey) :
    k.1 = some paymentId ∧ firstAccepted events k = true ↔
      k = (some paymentId, some paymentAccepted) := by
  obtain ⟨event, hf⟩ := exists_first hk
  obtain ⟨hmem, rfl⟩ := key_first hf
  have hfirst : firstAccepted events event.dedupKey = event.isPaymentAccepted := by
    show (first CallbackPayload.dedupKey events event.dedupKey).any _ = _
    rw [hf]
    rfl
  rw [hfirst]
  constructor
  · rintro ⟨hp, ha⟩
    exact Prod.ext hp ((isPaymentAccepted_iff (h event hmem hp)).mp ha)
  · intro he
    obtain ⟨hp, hs⟩ := Prod.ext_iff.mp he
    exact ⟨hp, (isPaymentAccepted_iff (h event hmem hp)).mpr hs⟩

/-- **How often a payment is credited**: once for each of its keys whose first
delivered payload is accepted.  Where paid means status 30 for the payloads of the
payment, as documented, that is once if some payload of it is accepted, and never
otherwise. -/
theorem credits_eq (events : List CallbackPayload) (paymentId : String) :
    (deliverAll events).credits paymentId =
      (events.map CallbackPayload.dedupKey).dedup.countP
        (fun k => k.1 == some paymentId && firstAccepted events k) ∧
    ((∀ event ∈ events, event.paymentId = some paymentId → event.isPaid = true →
        event.orderStatusId = some paymentAccepted) →
      (deliverAll events).credits paymentId =
        if events.any (fun event => event.paymentId == some paymentId && event.isPaymentAccepted)
        then 1 else 0) := by
  refine ⟨credits_deliverAll events paymentId, ?_⟩
  intro h
  have hkey : (events.map CallbackPayload.dedupKey).dedup.countP
      (fun k => k.1 == some paymentId && firstAccepted events k) =
        (events.map CallbackPayload.dedupKey).dedup.count
          (some paymentId, some paymentAccepted) := by
    apply List.countP_congr
    intro k hk
    rw [Bool.and_eq_true, beq_iff_eq, beq_iff_eq]
    exact firstAccepted_iff h (List.mem_dedup.mp hk)
  have hmem : (some paymentId, some paymentAccepted) ∈ events.map CallbackPayload.dedupKey ↔
      events.any (fun event => event.paymentId == some paymentId && event.isPaymentAccepted)
        = true := by
    rw [List.mem_map, List.any_eq_true]
    refine exists_congr (fun event => and_congr_right ?_)
    intro hm
    rw [Bool.and_eq_true, beq_iff_eq, Prod.ext_iff]
    exact and_congr_right (fun hp => (isPaymentAccepted_iff (h event hm hp)).symm)
  rw [credits_deliverAll, hkey, (List.nodup_dedup _).count]
  exact if_congr (List.mem_dedup.trans hmem) rfl rfl

/-- Two payloads of one payment, both marked as paid, with different status. -/
def twiceAccepted : List CallbackPayload :=
  [27, 30].map fun status =>
    { uniqueCode := none, paymentId := some "p", userTelegramId := none, wallet := none,
      hash := none, tronAmount := none, actualTronAmount := none, userPaidTomanAmount := none,
      tomanAmountWithoutWage := none, orderStatusId := some status, orderStatusTitle := none,
      isPaid := true, paymentDate := none }

/-- They are credited twice. -/
theorem credited_twice :
    ¬ ∀ (events : List CallbackPayload) (paymentId : String),
      (deliverAll events).credits paymentId =
        if events.any (fun event => event.paymentId == some paymentId && event.isPaymentAccepted)
        then 1 else 0 := by
  intro h
  exact absurd (h twiceAccepted "p") (by decide)

end HandlerState

/-! ## Requests -/

section

variable [Runtime]

/-- `payment_callback`: the status of the response, and the next state. -/
def paymentCallback (hmacSha512 : Bytes → Bytes → Digest) (signingKey : RawBody)
    (s : HandlerState) (rawBody : Bytes) (signature : Option Str) :
    Except PyErr ℕ × HandlerState :=
  -- `request.headers.get("X-Tronado-Sig", "")`
  match constructEvent hmacSha512 (.bytes rawBody) (some (signature.getD [])) signingKey with
  | .error (.tronado (.invalidSignature _)) => (.ok 401, s)
  | .error (.tronado (.webhook _)) => (.ok 400, s)
  | .error e => (.error e, s)
  | .ok event => (.ok 200, s.deliver event)

/-- The event a request delivers, if it delivers one. -/
def deliveredEvent (hmacSha512 : Bytes → Bytes → Digest) (signingKey : RawBody)
    (r : Bytes × Option Str) : Option CallbackPayload :=
  (constructEvent hmacSha512 (.bytes r.1) (some (r.2.getD [])) signingKey).toOption

/-- **A request changes the state only by delivering its event.** -/
theorem paymentCallback_state (hmacSha512 : Bytes → Bytes → Digest) (signingKey : RawBody)
    (s : HandlerState) (r : Bytes × Option Str) :
    (paymentCallback hmacSha512 signingKey s r.1 r.2).2 =
      (deliveredEvent hmacSha512 signingKey r).elim s s.deliver := by
  unfold paymentCallback deliveredEvent
  split <;> rename_i heq <;> rw [heq] <;> rfl

/-- **Any run of requests is a run of deliveries.** -/
theorem paymentCallback_run (hmacSha512 : Bytes → Bytes → Digest) (signingKey : RawBody)
    (rs : List (Bytes × Option Str)) :
    rs.foldl (fun s r => (paymentCallback hmacSha512 signingKey s r.1 r.2).2) .empty =
      HandlerState.deliverAll (rs.filterMap (deliveredEvent hmacSha512 signingKey)) := by
  have hfold : ∀ s : HandlerState,
      rs.foldl (fun s r => (paymentCallback hmacSha512 signingKey s r.1 r.2).2) s =
        (rs.filterMap (deliveredEvent hmacSha512 signingKey)).foldl HandlerState.deliver s := by
    induction rs with
    | nil => intro s; rfl
    | cons r rs ih =>
      intro s
      rw [List.foldl_cons, ih, paymentCallback_state, List.filterMap_cons]
      cases deliveredEvent hmacSha512 signingKey r <;> rfl
  exact hfold .empty

end

end Tronado
