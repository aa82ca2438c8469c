import Tronado.Models.Base

/-!
# Models of the price resources
-/

namespace Tronado

open Py Schema

structure GetPriceWithWageRequest where
  requestCode : String
  walletAddress : String
  tronAmount : Dec

structure TomanConvertRequest where
  toman : ℤ
  wallet : String

structure DollarConvertRequest where
  dollar : Dec
  wallet : String

structure TronPrice where
  tronPriceToman : ℤ
  tronPriceDollar : Dec

structure PriceWithWage where
  actualAmountToman : ℤ
  amountWithWageToman : ℤ

structure TronConversion where
  tronAmount : Dec
  tronSunAmount : Dec

structure DollarPrice where
  dollarPrice : ℤ

variable [Runtime]

def GetPriceWithWageRequest.model : Model GetPriceWithWageRequest where
  name := "GetPriceWithWageRequest"
  fields o := do
    let requestCode ← required Runtime.str ["RequestCode", "request_code"] o
    let walletAddress ← required Runtime.str ["WalletAddress", "wallet_address"] o
    let tronAmount ← required TronDecimal ["TronAmount", "tron_amount"] o
    return { requestCode, walletAddress, tronAmount }

def GetPriceWithWageRequest.dump (r : GetPriceWithWageRequest) : Obj := [
  (lit "RequestCode", .str (lit r.requestCode)),
  (lit "WalletAddress", .str (lit r.walletAddress)),
  (lit "TronAmount", .decimal (.finite r.tronAmount))]

def TomanConvertRequest.model : Model TomanConvertRequest where
  name := "TomanConvertRequest"
  fields o := do
    let toman ← required Runtime.int ["Toman", "toman"] o
    let wallet ← required Runtime.str ["Wallet", "wallet"] o
    return { toman, wallet }

def TomanConvertRequest.dump (r : TomanConvertRequest) : Obj := [
  (lit "Toman", .int r.toman),
  (lit "Wallet", .str (lit r.wallet))]

def DollarConvertRequest.model : Model DollarConvertRequest where
  name := "DollarConvertRequest"
  fields o := do
    let dollar ← required TronDecimal ["Dollar", "dollar"] o
    let wallet ← required Runtime.str ["Wallet", "wallet"] o
    return { dollar, wallet }

def DollarConvertRequest.dump (r : DollarConvertRequest) : Obj := [
  (lit "Dollar", .decimal (.finite r.dollar)),
  (lit "Wallet", .str (lit r.wallet))]

def TronPrice.model : Model TronPrice where
  name := "TronPrice"
  fields o := do
    let tronPriceToman ← required Runtime.int ["TronPriceToman", "tron_price_toman"] o
    let tronPriceDollar ← required TronDecimal ["TronPriceDollar", "tron_price_dollar"] o
    return { tronPriceToman, tronPriceDollar }

def PriceWithWage.model : Model PriceWithWage where
  name := "PriceWithWage"
  fields o := do
    let actualAmountToman ← required Runtime.int ["ActualAmountToman", "actual_amount_toman"] o
    let amountWithWageToman ← required Runtime.int
      ["AmountWithWageToman", "amount_with_wage_toman"] o
    return { actualAmountToman, amountWithWageToman }

def TronConversion.model : Model TronConversion where
  name := "TronConversion"
  fields o := do
    let tronAmount ← required TronDecimal ["TronAmount", "tron_amount"] o
    let tronSunAmount ← required TronDecimal ["TronSunAmount", "tron_sun_amount"] o
    return { tronAmount, tronSunAmount }

def DollarPrice.model : Model DollarPrice where
  name := "DollarPrice"
  fields o := do
    let dollarPrice ← required Runtime.int ["DollarPrice", "dollar_price"] o
    return { dollarPrice }

end Tronado
