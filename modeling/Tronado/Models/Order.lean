import Tronado.Models.Base

/-!
# Models of the `Order` resource

Request models carry what their validators check: a `GetOrderTokenRequest` has an
`https` callback, and its strings have no lone surrogates, so it can always be
encoded.  They are built, as in the package, by validating keyword arguments.
-/

namespace Tronado

open Py Schema

/-- `OrderStatusCode.PAYMENT_ACCEPTED`. -/
def paymentAccepted : ℤ := 30

variable [Runtime]

/-- `value.lower().startswith("https://")`. -/
def isHttps (value : String) : Bool := (lit "https://").isPrefixOf (lower (lit value))

/-- A callback URL: the validator `_require_https` has accepted it. -/
def CallbackUrl := {value : String // isHttps value = true}

/-- `_require_https`. -/
def requireHttps (value : String) : Option CallbackUrl :=
  if h : isHttps value = true then some ⟨value, h⟩ else none

structure GetOrderTokenRequest where
  paymentId : String
  walletAddress : String
  tronAmount : Dec
  callbackUrl : CallbackUrl

def GetOrderTokenRequest.model : Model GetOrderTokenRequest where
  name := "GetOrderTokenRequest"
  fields o := do
    let paymentId ← required Runtime.str ["PaymentID", "payment_id"] o
    let walletAddress ← required Runtime.str ["WalletAddress", "wallet_address"] o
    let tronAmount ← required TronDecimal ["TronAmount", "tron_amount"] o
    let callbackUrl ← required (fun v => (Runtime.str v).bind requireHttps)
      ["CallbackUrl", "callback_url"] o
    return { paymentId, walletAddress, tronAmount, callbackUrl }

/-- `model_dump(by_alias=True)`. -/
def GetOrderTokenRequest.dump (r : GetOrderTokenRequest) : Obj := [
  (lit "PaymentID", .str (lit r.paymentId)),
  (lit "WalletAddress", .str (lit r.walletAddress)),
  (lit "TronAmount", .decimal (.finite r.tronAmount)),
  (lit "CallbackUrl", .str (lit r.callbackUrl.val))]

structure GetStatusRequest where
  id : String

def GetStatusRequest.model : Model GetStatusRequest where
  name := "GetStatusRequest"
  fields o := do
    let id ← required Runtime.str ["Id", "id"] o
    return { id }

def GetStatusRequest.dump (r : GetStatusRequest) : Obj := [(lit "Id", .str (lit r.id))]

structure OrderTokenData where
  token : String
  fullPaymentUrl : Option String
  errorMessage : Option String
  estimatedTomanAmount : Option String
  estimatedTomanAmountExpireDateUtc : Option DateTime

def OrderTokenData.model : Model OrderTokenData where
  name := "OrderTokenData"
  fields o := do
    let token ← required Runtime.str ["Token", "token"] o
    let fullPaymentUrl ← withDefault (optional Runtime.str) none
      ["FullPaymentUrl", "full_payment_url"] o
    let errorMessage ← withDefault (optional Runtime.str) none ["ErrorMessage", "error_message"] o
    let estimatedTomanAmount ← withDefault (optional Runtime.str) none
      ["EstimatedTomanAmount", "estimated_toman_amount"] o
    let estimatedTomanAmountExpireDateUtc ← withDefault (optional FlexibleDateTime) none
      ["EstimatedTomanAmountExpireDateUtc", "estimated_toman_amount_expire_date_utc"] o
    return {
      token, fullPaymentUrl, errorMessage, estimatedTomanAmount,
      estimatedTomanAmountExpireDateUtc }

structure OrderStatus where
  uniqueCode : Option String
  paymentId : Option String
  userTelegramId : Option ℤ
  wallet : Option String
  hash : Option String
  tronAmount : Option Dec
  actualTronAmount : Option Dec
  orderStatusId : Option ℤ
  orderStatusTitle : Option String
  isPaid : Bool
  paymentDate : Option DateTime

namespace OrderStatus

/-- `order_status`. -/
def orderStatus (s : OrderStatus) : Option OrderStatusCode :=
  toKnownEnum OrderStatusCode.enum s.orderStatusId

/-- `is_payment_accepted`. -/
def isPaymentAccepted (s : OrderStatus) : Bool :=
  s.isPaid || s.orderStatusId == some paymentAccepted

omit [Runtime] in
theorem isPaymentAccepted_iff {s : OrderStatus} :
    s.isPaymentAccepted = true ↔
      s.isPaid = true ∨ s.orderStatus = some .paymentAccepted := by
  rw [isPaymentAccepted, Bool.or_eq_true, beq_iff_eq, orderStatus, toKnownEnum_eq_some_iff]
  rfl

end OrderStatus

def OrderStatus.model : Model OrderStatus where
  name := "OrderStatus"
  fields o := do
    let uniqueCode ← withDefault (optional Runtime.str) none ["UniqueCode", "unique_code"] o
    let paymentId ← withDefault (optional Runtime.str) none ["PaymentID", "payment_id"] o
    let userTelegramId ← withDefault (optional Runtime.int) none
      ["UserTelegramId", "user_telegram_id"] o
    let wallet ← withDefault (optional Runtime.str) none ["Wallet", "wallet"] o
    let hash ← withDefault (optional Runtime.str) none ["Hash", "hash"] o
    let tronAmount ← withDefault (optional TronDecimal) none ["TronAmount", "tron_amount"] o
    let actualTronAmount ← withDefault (optional TronDecimal) none
      ["ActualTronAmount", "actual_tron_amount"] o
    let orderStatusId ← withDefault (optional Runtime.int) none
      ["OrderStatusID", "order_status_id"] o
    let orderStatusTitle ← withDefault (optional Runtime.str) none
      ["OrderStatusTitle", "order_status_title"] o
    let isPaid ← withDefault Runtime.bool false ["IsPaid", "is_paid"] o
    let paymentDate ← withDefault (optional FlexibleDateTime) none
      ["PaymentDate", "payment_date"] o
    return {
      uniqueCode, paymentId, userTelegramId, wallet, hash, tronAmount, actualTronAmount,
      orderStatusId, orderStatusTitle, isPaid, paymentDate }

end Tronado
