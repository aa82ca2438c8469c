import Tronado.Http.AsyncTransport
import Tronado.Http.SyncTransport

/-!
# Resource facades

The public methods of v5, once over each transport.  A method builds its request
model from its arguments, as keyword arguments that the model validates, and hands
it to `invoke`.

A `Call` names a public method with its arguments.  `Call.sync` and `Call.async`
run it over the two stacks.
-/

namespace Tronado

open Py Schema Run

/-- `AmountInput`. -/
inductive AmountInput
  | decimal (d : Decimal)
  | int (n : ℤ)
  | float (x : Double)
  | str (s : Str)

/-- `_decimal(value)`: `Decimal(str(value))`, unless it is a `Decimal` already. -/
def decimalOf : AmountInput → Except PyErr Decimal
  | .decimal d => .ok d
  | .int n => .ok (.finite (decOfInt n))
  | .float x => .ok (.ofDouble x)
  | .str s =>
    match Decimal.parse s with
    | some d => .ok d
    | none => .error .invalidOperation

/-- `_check_wage(percentage)`. -/
def checkWage (percentage : ℤ) : Except PyErr ℤ :=
  if 0 ≤ percentage ∧ percentage ≤ 100 then .ok percentage
  else .error (.valueError [
    .text "wage_from_business_percentage must be between 0 and 100 (inclusive), ",
    .text "got ", .int percentage])

/-- The text of `_warn_toman_price_deprecated`. -/
def tomanPriceDeprecated : String :=
  "price.toman.get_price_to_toman() calls /Toman/GetPriceToToman, which is no longer " ++
    "documented; use price.dollar.get_price_to_toman() instead (same response)."

/-- `Model(**kwargs)`. -/
def construct {α : Type} (model : Model α) (kwargs : Obj) : Except PyErr α :=
  match model.validate (.dict kwargs) with
  | some a => .ok a
  | none => .error (.validationError model.name (.dict kwargs))

variable [Runtime]

/-! ## Blocking resources -/

structure OrderResource where
  transport : SyncTransport
  version : Str

namespace OrderResource

def getOrderToken (self : OrderResource) (paymentId walletAddress : Str)
    (tronAmount : AmountInput) (callbackUrl : Str) (wageFromBusinessPercentage : ℤ := 0) :
    Blocking OrderTokenData := do
  let amount ← Prog.lift (decimalOf tronAmount)
  let request ← Prog.lift (construct GetOrderTokenRequest.model [
    (lit "payment_id", .str paymentId),
    (lit "wallet_address", .str walletAddress),
    (lit "tron_amount", .decimal amount),
    (lit "callback_url", .str callbackUrl)])
  let wage ← Prog.lift (checkWage wageFromBusinessPercentage)
  self.transport.invoke Ops.getOrderToken (some (.getOrderToken request)) self.version
    (some [(lit "wageFromBusinessPercentage", .int wage)])

def getStatus (self : OrderResource) (id : Str) : Blocking OrderStatus := do
  let request ← Prog.lift (construct GetStatusRequest.model [(lit "id", .str id)])
  self.transport.invoke Ops.getStatus (some (.getStatus request)) self.version none

def getStatusByPaymentId (self : OrderResource) (id : Str) : Blocking OrderStatus := do
  let request ← Prog.lift (construct GetStatusRequest.model [(lit "id", .str id)])
  self.transport.invoke Ops.getStatusByPaymentId (some (.getStatus request)) self.version none

end OrderResource

structure TronPriceResource where
  transport : SyncTransport
  version : Str

namespace TronPriceResource

def getPriceToToman (self : TronPriceResource) : Blocking TronPrice :=
  self.transport.invoke Ops.tronGetPriceToToman none self.version none

def getPriceWithWageToToman (self : TronPriceResource) (requestCode walletAddress : Str)
    (tronAmount : AmountInput) : Blocking PriceWithWage := do
  let amount ← Prog.lift (decimalOf tronAmount)
  let request ← Prog.lift (construct GetPriceWithWageRequest.model [
    (lit "request_code", .str requestCode),
    (lit "wallet_address", .str walletAddress),
    (lit "tron_amount", .decimal amount)])
  self.transport.invoke Ops.tronGetPriceWithWageToToman (some (.getPriceWithWage request))
    self.version none

end TronPriceResource

structure TomanPriceResource where
  transport : SyncTransport
  version : Str

namespace TomanPriceResource

def convertToTronWageSubtracted (self : TomanPriceResource) (toman : ℤ) (wallet : Str) :
    Blocking TronConversion := do
  let request ← Prog.lift (construct TomanConvertRequest.model [
    (lit "toman", .int toman), (lit "wallet", .str wallet)])
  self.transport.invoke Ops.tomanConvertToTron (some (.tomanConvert request)) self.version none

def getPriceToToman (self : TomanPriceResource) : Blocking DollarPrice := do
  Prog.warn tomanPriceDeprecated
  self.transport.invoke Ops.tomanGetPriceToToman none self.version none

end TomanPriceResource

structure DollarPriceResource where
  transport : SyncTransport
  version : Str

namespace DollarPriceResource

def convertToTronWageSubtracted (self : DollarPriceResource) (dollar : AmountInput)
    (wallet : Str) : Blocking TronConversion := do
  let amount ← Prog.lift (decimalOf dollar)
  let request ← Prog.lift (construct DollarConvertRequest.model [
    (lit "dollar", .decimal amount), (lit "wallet", .str wallet)])
  self.transport.invoke Ops.dollarConvertToTron (some (.dollarConvert request)) self.version none

def getPriceToToman (self : DollarPriceResource) : Blocking DollarPrice :=
  self.transport.invoke Ops.dollarGetPriceToToman none self.version none

end DollarPriceResource

/-! ## Asynchronous resources -/

structure AsyncOrderResource where
  transport : AsyncTransport
  version : Str

namespace AsyncOrderResource

def getOrderToken (self : AsyncOrderResource) (paymentId walletAddress : Str)
    (tronAmount : AmountInput) (callbackUrl : Str) (wageFromBusinessPercentage : ℤ := 0) :
    Awaitable OrderTokenData := do
  let amount ← .ret (decimalOf tronAmount)
  let request ← .ret (construct GetOrderTokenRequest.model [
    (lit "payment_id", .str paymentId),
    (lit "wallet_address", .str walletAddress),
    (lit "tron_amount", .decimal amount),
    (lit "callback_url", .str callbackUrl)])
  let wage ← .ret (checkWage wageFromBusinessPercentage)
  self.transport.invoke Ops.getOrderToken (some (.getOrderToken request)) self.version
    (some [(lit "wageFromBusinessPercentage", .int wage)])

def getStatus (self : AsyncOrderResource) (id : Str) : Awaitable OrderStatus := do
  let request ← .ret (construct GetStatusRequest.model [(lit "id", .str id)])
  self.transport.invoke Ops.getStatus (some (.getStatus request)) self.version none

def getStatusByPaymentId (self : AsyncOrderResource) (id : Str) : Awaitable OrderStatus := do
  let request ← .ret (construct GetStatusRequest.model [(lit "id", .str id)])
  self.transport.invoke Ops.getStatusByPaymentId (some (.getStatus request)) self.version none

end AsyncOrderResource

structure AsyncTronPriceResource where
  transport : AsyncTransport
  version : Str

namespace AsyncTronPriceResource

def getPriceToToman (self : AsyncTronPriceResource) : Awaitable TronPrice :=
  self.transport.invoke Ops.tronGetPriceToToman none self.version none

def getPriceWithWageToToman (self : AsyncTronPriceResource) (requestCode walletAddress : Str)
    (tronAmount : AmountInput) : Awaitable PriceWithWage := do
  let amount ← .ret (decimalOf tronAmount)
  let request ← .ret (construct GetPriceWithWageRequest.model [
    (lit "request_code", .str requestCode),
    (lit "wallet_address", .str walletAddress),
    (lit "tron_amount", .decimal amount)])
  self.transport.invoke Ops.tronGetPriceWithWageToToman (some (.getPriceWithWage request))
    self.version none

end AsyncTronPriceResource

structure AsyncTomanPriceResource where
  transport : AsyncTransport
  version : Str

namespace AsyncTomanPriceResource

def convertToTronWageSubtracted (self : AsyncTomanPriceResource) (toman : ℤ) (wallet : Str) :
    Awaitable TronConversion := do
  let request ← .ret (construct TomanConvertRequest.model [
    (lit "toman", .int toman), (lit "wallet", .str wallet)])
  self.transport.invoke Ops.tomanConvertToTron (some (.tomanConvert request)) self.version none

def getPriceToToman (self : AsyncTomanPriceResource) : Awaitable DollarPrice := do
  Coroutine.emitWarning tomanPriceDeprecated
  self.transport.invoke Ops.tomanGetPriceToToman none self.version none

end AsyncTomanPriceResource

structure AsyncDollarPriceResource where
  transport : AsyncTransport
  version : Str

namespace AsyncDollarPriceResource

def convertToTronWageSubtracted (self : AsyncDollarPriceResource) (dollar : AmountInput)
    (wallet : Str) : Awaitable TronConversion := do
  let amount ← .ret (decimalOf dollar)
  let request ← .ret (construct DollarConvertRequest.model [
    (lit "dollar", .decimal amount), (lit "wallet", .str wallet)])
  self.transport.invoke Ops.dollarConvertToTron (some (.dollarConvert request)) self.version none

def getPriceToToman (self : AsyncDollarPriceResource) : Awaitable DollarPrice :=
  self.transport.invoke Ops.dollarGetPriceToToman none self.version none

end AsyncDollarPriceResource

/-! ## Calls -/

/-- A public resource method with its arguments. -/
inductive Call : Type → Type
  | getOrderToken (paymentId walletAddress : Str) (tronAmount : AmountInput) (callbackUrl : Str)
      (wageFromBusinessPercentage : ℤ) : Call OrderTokenData
  | getStatus (id : Str) : Call OrderStatus
  | getStatusByPaymentId (id : Str) : Call OrderStatus
  | tronGetPriceToToman : Call TronPrice
  | tronGetPriceWithWageToToman (requestCode walletAddress : Str) (tronAmount : AmountInput) :
      Call PriceWithWage
  | tomanConvertToTron (toman : ℤ) (wallet : Str) : Call TronConversion
  | tomanGetPriceToToman : Call DollarPrice
  | dollarConvertToTron (dollar : AmountInput) (wallet : Str) : Call TronConversion
  | dollarGetPriceToToman : Call DollarPrice

/-- The call over the blocking stack. -/
def Call.sync (t : SyncTransport) (version : Str) {ρ : Type} : Call ρ → Blocking ρ
  | getOrderToken paymentId walletAddress tronAmount callbackUrl wage =>
    OrderResource.getOrderToken ⟨t, version⟩ paymentId walletAddress tronAmount callbackUrl wage
  | getStatus id => OrderResource.getStatus ⟨t, version⟩ id
  | getStatusByPaymentId id => OrderResource.getStatusByPaymentId ⟨t, version⟩ id
  | tronGetPriceToToman => TronPriceResource.getPriceToToman ⟨t, version⟩
  | tronGetPriceWithWageToToman requestCode walletAddress tronAmount =>
    TronPriceResource.getPriceWithWageToToman ⟨t, version⟩ requestCode walletAddress tronAmount
  | tomanConvertToTron toman wallet =>
    TomanPriceResource.convertToTronWageSubtracted ⟨t, version⟩ toman wallet
  | tomanGetPriceToToman => TomanPriceResource.getPriceToToman ⟨t, version⟩
  | dollarConvertToTron dollar wallet =>
    DollarPriceResource.convertToTronWageSubtracted ⟨t, version⟩ dollar wallet
  | dollarGetPriceToToman => DollarPriceResource.getPriceToToman ⟨t, version⟩

/-- The call over the asynchronous stack. -/
def Call.async (t : AsyncTransport) (version : Str) {ρ : Type} : Call ρ → Awaitable ρ
  | getOrderToken paymentId walletAddress tronAmount callbackUrl wage =>
    AsyncOrderResource.getOrderToken ⟨t, version⟩ paymentId walletAddress tronAmount callbackUrl
      wage
  | getStatus id => AsyncOrderResource.getStatus ⟨t, version⟩ id
  | getStatusByPaymentId id => AsyncOrderResource.getStatusByPaymentId ⟨t, version⟩ id
  | tronGetPriceToToman => AsyncTronPriceResource.getPriceToToman ⟨t, version⟩
  | tronGetPriceWithWageToToman requestCode walletAddress tronAmount =>
    AsyncTronPriceResource.getPriceWithWageToToman ⟨t, version⟩ requestCode walletAddress
      tronAmount
  | tomanConvertToTron toman wallet =>
    AsyncTomanPriceResource.convertToTronWageSubtracted ⟨t, version⟩ toman wallet
  | tomanGetPriceToToman => AsyncTomanPriceResource.getPriceToToman ⟨t, version⟩
  | dollarConvertToTron dollar wallet =>
    AsyncDollarPriceResource.convertToTronWageSubtracted ⟨t, version⟩ dollar wallet
  | dollarGetPriceToToman => AsyncDollarPriceResource.getPriceToToman ⟨t, version⟩

end Tronado
