import Tronado.Models.Order
import Tronado.Models.Price

/-!
# Operations

An `Operation` describes one endpoint; it is generic in the response model it
resolves to.  The constants of v5 follow, each with the flags the source gives it.

A request model is an instance of one of the five request classes.
-/

namespace Tronado

open Py Schema

variable [Runtime]

/-- The request classes. -/
inductive RequestClass
  | getOrderToken
  | getStatus
  | getPriceWithWage
  | tomanConvert
  | dollarConvert
  deriving DecidableEq

/-- An instance of a request class. -/
inductive RequestModel
  | getOrderToken (r : GetOrderTokenRequest)
  | getStatus (r : GetStatusRequest)
  | getPriceWithWage (r : GetPriceWithWageRequest)
  | tomanConvert (r : TomanConvertRequest)
  | dollarConvert (r : DollarConvertRequest)

/-- `request_model.model_dump(by_alias=True, exclude_none=False)`. -/
def RequestModel.modelDump : RequestModel → Obj
  | getOrderToken r => r.dump
  | getStatus r => r.dump
  | getPriceWithWage r => r.dump
  | tomanConvert r => r.dump
  | dollarConvert r => r.dump

/-- A piece of a path template: text, or the placeholder `{version}`. -/
inductive PathPart
  | text (s : String)
  | version

/-- `path_template.format(version=version)`. -/
def formatPath (template : List PathPart) (version : Str) : Str :=
  template.flatMap fun
    | .text s => lit s
    | .version => version

/-- One API endpoint. -/
structure Operation (ρ : Type) where
  name : String
  method : String
  pathTemplate : List PathPart
  requestModel : Option RequestClass
  responseModel : Model ρ
  idempotent : Bool := true
  envelope : Bool := false
  notFoundKey : Option String := none
  requiresAuth : Bool := true

namespace Ops

def getOrderToken : Operation OrderTokenData where
  name := "get_order_token"
  method := "POST"
  pathTemplate := [.text "/api/", .version, .text "/GetOrderToken"]
  requestModel := some .getOrderToken
  responseModel := OrderTokenData.model
  idempotent := false
  envelope := true

def getStatus : Operation OrderStatus where
  name := "get_status"
  method := "POST"
  pathTemplate := [.text "/Order/GetStatus"]
  requestModel := some .getStatus
  responseModel := OrderStatus.model
  notFoundKey := some "Error"

def getStatusByPaymentId : Operation OrderStatus where
  name := "get_status_by_payment_id"
  method := "POST"
  pathTemplate := [.text "/Order/GetStatusByPaymentID"]
  requestModel := some .getStatus
  responseModel := OrderStatus.model
  notFoundKey := some "Error"

def tronGetPriceToToman : Operation TronPrice where
  name := "tron.get_price_to_toman"
  method := "POST"
  pathTemplate := [.text "/Tron/GetPriceToToman"]
  requestModel := none
  responseModel := TronPrice.model
  requiresAuth := false

def tronGetPriceWithWageToToman : Operation PriceWithWage where
  name := "tron.get_price_with_wage_to_toman"
  method := "POST"
  pathTemplate := [.text "/Tron/GetPriceWithWageToToman"]
  requestModel := some .getPriceWithWage
  responseModel := PriceWithWage.model
  requiresAuth := false

def tomanConvertToTron : Operation TronConversion where
  name := "toman.convert_to_tron_wage_subtracted"
  method := "POST"
  pathTemplate := [.text "/Toman/ConvertToTronWageSubtracted"]
  requestModel := some .tomanConvert
  responseModel := TronConversion.model
  requiresAuth := false

def tomanGetPriceToToman : Operation DollarPrice where
  name := "toman.get_price_to_toman"
  method := "POST"
  pathTemplate := [.text "/Toman/GetPriceToToman"]
  requestModel := none
  responseModel := DollarPrice.model
  requiresAuth := false

def dollarConvertToTron : Operation TronConversion where
  name := "dollar.convert_to_tron_wage_subtracted"
  method := "POST"
  pathTemplate := [.text "/Dollar/ConvertToTronWageSubtracted"]
  requestModel := some .dollarConvert
  responseModel := TronConversion.model
  requiresAuth := false

def dollarGetPriceToToman : Operation DollarPrice where
  name := "dollar.get_price_to_toman"
  method := "POST"
  pathTemplate := [.text "/Dollar/GetPriceToToman"]
  requestModel := none
  responseModel := DollarPrice.model
  requiresAuth := false

end Ops

end Tronado
