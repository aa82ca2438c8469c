import Tronado.Lib.Division
import Tronado.Models.Order

/-!
# Models of the callbacks

`CallbackPayload` is the body of an IPN, `DisputeCallbackPayload` the body of a
dispute callback.  Both take `PaymentId` as well as `PaymentID`.

* `isPaymentAccepted`, `dedupKey`, `tronPriceToman`: what a handler of an IPN reads.
* `isDisputeAccepted`, `isAnnulled`, `isAmountAdjusted`: what a handler of a dispute
  reads.  Each of the last two is one documented outcome.
-/

namespace Tronado

open Py Schema

structure CallbackPayload where
  uniqueCode : Option String
  paymentId : Option String
  userTelegramId : Option ℤ
  wallet : Option String
  hash : Option String
  tronAmount : Option Dec
  actualTronAmount : Option Dec
  userPaidTomanAmount : Option ℤ
  tomanAmountWithoutWage : Option ℤ
  orderStatusId : Option ℤ
  orderStatusTitle : Option String
  isPaid : Bool
  paymentDate : Option DateTime

/-- The default context of the `decimal` module. -/
def defaultContext : Context where
  prec := 28
  emin := -999999
  emax := 999999
  prec_pos := by decide
  emin_le := by decide

namespace CallbackPayload

/-- `is_payment_accepted`. -/
def isPaymentAccepted (p : CallbackPayload) : Bool :=
  p.isPaid || p.orderStatusId == some paymentAccepted

/-- `dedup_key`. -/
def dedupKey (p : CallbackPayload) : Option String × Option ℤ := (p.paymentId, p.orderStatusId)

/-- `order_status`. -/
def orderStatus (p : CallbackPayload) : Option OrderStatusCode :=
  toKnownEnum OrderStatusCode.enum p.orderStatusId

/-- `tron_price_toman`. -/
def tronPriceToman (p : CallbackPayload) : Except Signal (Option Dec) :=
  match p.tomanAmountWithoutWage, p.tronAmount with
  | some toman, some tron =>
    -- a zero is as good as none to `not`
    if tron.coeff = 0 then .ok none
    else (Dec.div defaultContext (decOfInt toman) tron).map some
  | _, _ => .ok none

end CallbackPayload

structure DisputeCallbackPayload where
  event : String
  eventId : Option String
  disputeId : ℤ
  disputeType : Option String
  disputeTypeId : Option ℤ
  disputeTypeTitle : Option String
  outcome : Option String
  uniqueCode : Option String
  paymentId : Option String
  raisedAt : Option DateTime
  resolvedAt : Option DateTime
  originalTronAmount : Option Dec
  originalUserMustPayToman : Option ℤ
  tronAmount : Option Dec
  userMustPayToman : Option ℤ
  tronAmountDelta : Option Dec
  userMustPayTomanDelta : Option ℤ
  orderStatusId : Option ℤ
  orderStatusTitle : Option String
  isPaid : Bool

namespace DisputeCallbackPayload

/-- `is_dispute_accepted`. -/
def isDisputeAccepted (p : DisputeCallbackPayload) : Bool := p.event == disputeAccepted

/-- `outcome_code`. -/
def outcomeCode (p : DisputeCallbackPayload) : Option DisputeOutcome :=
  toKnownEnum DisputeOutcome.enum p.outcome

/-- `is_annulled`. -/
def isAnnulled (p : DisputeCallbackPayload) : Bool :=
  p.outcome == some DisputeOutcome.annulled.value

/-- `is_amount_adjusted`. -/
def isAmountAdjusted (p : DisputeCallbackPayload) : Bool :=
  p.outcome == some DisputeOutcome.amountAdjusted.value

/-- `dispute_type_code`. -/
def disputeTypeCode (p : DisputeCallbackPayload) : Option DisputeTypeCode :=
  toKnownEnum DisputeTypeCode.enum p.disputeTypeId

/-- `order_status`. -/
def orderStatus (p : DisputeCallbackPayload) : Option OrderStatusCode :=
  toKnownEnum OrderStatusCode.enum p.orderStatusId

/-- `dedup_key`. -/
def dedupKey (p : DisputeCallbackPayload) : ℤ := p.disputeId

theorem isAnnulled_iff {p : DisputeCallbackPayload} :
    p.isAnnulled = true ↔ p.outcomeCode = some .annulled := by
  rw [isAnnulled, beq_iff_eq, outcomeCode, toKnownEnum_eq_some_iff]
  rfl

theorem isAmountAdjusted_iff {p : DisputeCallbackPayload} :
    p.isAmountAdjusted = true ↔ p.outcomeCode = some .amountAdjusted := by
  rw [isAmountAdjusted, beq_iff_eq, outcomeCode, toKnownEnum_eq_some_iff]
  rfl

end DisputeCallbackPayload

variable [Runtime]

def CallbackPayload.model : Model CallbackPayload where
  name := "CallbackPayload"
  fields o := do
    let uniqueCode ← withDefault (optional Runtime.str) none ["UniqueCode", "unique_code"] o
    let paymentId ← withDefault (optional Runtime.str) none
      ["PaymentId", "PaymentID", "payment_id"] o
    let userTelegramId ← withDefault (optional Runtime.int) none
      ["UserTelegramId", "user_telegram_id"] o
    let wallet ← withDefault (optional Runtime.str) none ["Wallet", "wallet"] o
    let hash ← withDefault (optional Runtime.str) none ["Hash", "hash"] o
    let tronAmount ← withDefault (optional TronDecimal) none ["TronAmount", "tron_amount"] o
    let actualTronAmount ← withDefault (optional TronDecimal) none
      ["ActualTronAmount", "actual_tron_amount"] o
    let userPaidTomanAmount ← withDefault (optional Runtime.int) none
      ["UserPaidTomanAmount", "user_paid_toman_amount"] o
    let tomanAmountWithoutWage ← withDefault (optional Runtime.int) none
      ["TomanAmountWithoutWage", "toman_amount_without_wage"] o
    let orderStatusId ← withDefault (optional Runtime.int) none
      ["OrderStatusID", "order_status_id"] o
    let orderStatusTitle ← withDefault (optional Runtime.str) none
      ["OrderStatusTitle", "order_status_title"] o
    let isPaid ← withDefault Runtime.bool false ["IsPaid", "is_paid"] o
    let paymentDate ← withDefault (optional FlexibleDateTime) none
      ["PaymentDate", "payment_date"] o
    return {
      uniqueCode, paymentId, userTelegramId, wallet, hash, tronAmount, actualTronAmount,
      userPaidTomanAmount, tomanAmountWithoutWage, orderStatusId, orderStatusTitle, isPaid,
      paymentDate }

def DisputeCallbackPayload.model : Model DisputeCallbackPayload where
  name := "DisputeCallbackPayload"
  fields o := do
    let event ← required Runtime.str ["Event", "event"] o
    let eventId ← withDefault (optional Runtime.str) none ["EventId", "event_id"] o
    let disputeId ← required Runtime.int ["DisputeId", "dispute_id"] o
    let disputeType ← withDefault (optional Runtime.str) none ["DisputeType", "dispute_type"] o
    let disputeTypeId ← withDefault (optional Runtime.int) none
      ["DisputeTypeID", "dispute_type_id"] o
    let disputeTypeTitle ← withDefault (optional Runtime.str) none
      ["DisputeTypeTitle", "dispute_type_title"] o
    let outcome ← withDefault (optional Runtime.str) none ["Outcome", "outcome"] o
    let uniqueCode ← withDefault (optional Runtime.str) none ["UniqueCode", "unique_code"] o
    let paymentId ← withDefault (optional Runtime.str) none
      ["PaymentId", "PaymentID", "payment_id"] o
    let raisedAt ← withDefault (optional FlexibleDateTime) none ["RaisedAt", "raised_at"] o
    let resolvedAt ← withDefault (optional FlexibleDateTime) none ["ResolvedAt", "resolved_at"] o
    let originalTronAmount ← withDefault (optional TronDecimal) none
      ["OriginalTronAmount", "original_tron_amount"] o
    let originalUserMustPayToman ← withDefault (optional Runtime.int) none
      ["OriginalUserMustPayToman", "original_user_must_pay_toman"] o
    let tronAmount ← withDefault (optional TronDecimal) none ["TronAmount", "tron_amount"] o
    let userMustPayToman ← withDefault (optional Runtime.int) none
      ["UserMustPayToman", "user_must_pay_toman"] o
    let tronAmountDelta ← withDefault (optional TronDecimal) none
      ["TronAmountDelta", "tron_amount_delta"] o
    let userMustPayTomanDelta ← withDefault (optional Runtime.int) none
      ["UserMustPayTomanDelta", "user_must_pay_toman_delta"] o
    let orderStatusId ← withDefault (optional Runtime.int) none
      ["OrderStatusID", "order_status_id"] o
    let orderStatusTitle ← withDefault (optional Runtime.str) none
      ["OrderStatusTitle", "order_status_title"] o
    let isPaid ← withDefault Runtime.bool false ["IsPaid", "is_paid"] o
    return {
      event, eventId, disputeId, disputeType, disputeTypeId, disputeTypeTitle, outcome,
      uniqueCode, paymentId, raisedAt, resolvedAt, originalTronAmount, originalUserMustPayToman,
      tronAmount, userMustPayToman, tronAmountDelta, userMustPayTomanDelta, orderStatusId,
      orderStatusTitle, isPaid }

end Tronado
