import Tronado.Exceptions
import Tronado.Lib.Percent
import Tronado.Models.Order

/-!
# The link to the payment page

`paymentPageUrl` puts the quoted token of an order into a fixed link.

* `paymentPageUrl_reads`: whoever opens the link reads the token, and nothing else.
-/

namespace Tronado

open Py Percent

/-- The page of `PAYMENT_PAGE_URL_TEMPLATE`. -/
def paymentPage : Str := lit "https://t.me/tronado_robot/customerpayment"

/-- `PAYMENT_PAGE_URL_TEMPLATE.format(token=token)`. -/
def paymentPageUrlTemplate (token : Str) : Str :=
  lit "https://t.me/tronado_robot/customerpayment?startapp=" ++ token

/-- `payment_page_url`. -/
def OrderTokenData.paymentPageUrl (data : OrderTokenData) : Except PyErr Str :=
  match Percent.quote (lit data.token) with
  | some token => .ok (paymentPageUrlTemplate token)
  | none => .error (.unicodeEncodeError (lit data.token))

theorem lit_template : lit "https://t.me/tronado_robot/customerpayment?startapp=" =
    paymentPage ++ 0x3F :: (lit "startapp" ++ [0x3D]) := by decide

/-- A token can always be quoted. -/
theorem quote_lit (s : String) : ∃ q, Percent.quote (lit s) = some q := by
  have hall : (lit s).all isScalar = true := by
    rw [List.all_eq_true]
    exact isScalar_lit s
  rw [Percent.quote, encodeUtf8, if_pos hall]
  exact ⟨_, rfl⟩

/-- **The link never fails and carries the token**: it is the payment page with one
parameter, `startapp`, whose value is the token, whatever the characters of the
token are. -/
theorem OrderTokenData.paymentPageUrl_reads (data : OrderTokenData) :
    ∃ url, data.paymentPageUrl = .ok url ∧ urlPage url = paymentPage ∧
      parseQsl (urlQuery url) = some [(lit "startapp", lit data.token)] := by
  obtain ⟨q, hq⟩ := quote_lit data.token
  have hsplit : paymentPageUrlTemplate q =
      paymentPage ++ 0x3F :: (lit "startapp" ++ 0x3D :: q) := by
    rw [paymentPageUrlTemplate, lit_template]
    simp
  have hname : Percent.quote (lit "startapp") = some (lit "startapp") := by decide
  have hpage : ∀ c ∈ paymentPage, c ≠ 0x23 ∧ c ≠ 0x3F := by decide
  have hquery : 0x23 ∉ lit "startapp" ++ 0x3D :: q := by
    intro hm
    rcases List.mem_append.mp hm with hm | hm
    · exact absurd hm (by decide)
    · rcases List.mem_cons.mp hm with h | h
      · cases h
      · exact (quote_chars hq h).ne (d := 0x23) (by decide) (by decide) rfl
  obtain ⟨h1, h2⟩ := urlPage_append hpage hquery
  refine ⟨paymentPageUrlTemplate q, ?_, ?_, ?_⟩
  · rw [paymentPageUrl, hq]
  · rw [hsplit, h1]
  · rw [hsplit, h2]
    exact parseQsl_quote hname hq

end Tronado
