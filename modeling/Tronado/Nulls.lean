import Tronado.Models.Webhook

/-!
# Null fields of the inbound models

For each inbound model, the kind of every field and the keys it is read under.

* `null_rules`: a key of a field that is declared `Optional` may be `null` as well
  as missing, unless a later spelling of the same field has a value; a `null` under
  a key of `Code`, `Message` or `IsPaid` is rejected where it is read.
* `not_null_is_absent_code`: so a null `Code` rejects a whole response.
* `not_null_is_absent_spelling`: and a null `PaymentId` hides the `PaymentID` behind it.
-/

namespace Tronado

open Py Schema

def ApiEnvelope.rows : List Row := [
  ⟨.required, ["IsSuccessful", "is_successful"]⟩,
  ⟨.strict, ["Code", "code"]⟩,
  ⟨.strict, ["Message", "message"]⟩,
  ⟨.nullable, ["Data", "data"]⟩]

def OrderTokenData.rows : List Row := [
  ⟨.required, ["Token", "token"]⟩,
  ⟨.nullable, ["FullPaymentUrl", "full_payment_url"]⟩,
  ⟨.nullable, ["ErrorMessage", "error_message"]⟩,
  ⟨.nullable, ["EstimatedTomanAmount", "estimated_toman_amount"]⟩,
  ⟨.nullable, ["EstimatedTomanAmountExpireDateUtc", "estimated_toman_amount_expire_date_utc"]⟩]

def OrderStatus.rows : List Row := [
  ⟨.nullable, ["UniqueCode", "unique_code"]⟩,
  ⟨.nullable, ["PaymentID", "payment_id"]⟩,
  ⟨.nullable, ["UserTelegramId", "user_telegram_id"]⟩,
  ⟨.nullable, ["Wallet", "wallet"]⟩,
  ⟨.nullable, ["Hash", "hash"]⟩,
  ⟨.nullable, ["TronAmount", "tron_amount"]⟩,
  ⟨.nullable, ["ActualTronAmount", "actual_tron_amount"]⟩,
  ⟨.nullable, ["OrderStatusID", "order_status_id"]⟩,
  ⟨.nullable, ["OrderStatusTitle", "order_status_title"]⟩,
  ⟨.strict, ["IsPaid", "is_paid"]⟩,
  ⟨.nullable, ["PaymentDate", "payment_date"]⟩]

def CallbackPayload.rows : List Row := [
  ⟨.nullable, ["UniqueCode", "unique_code"]⟩,
  ⟨.nullable, ["PaymentId", "PaymentID", "payment_id"]⟩,
  ⟨.nullable, ["UserTelegramId", "user_telegram_id"]⟩,
  ⟨.nullable, ["Wallet", "wallet"]⟩,
  ⟨.nullable, ["Hash", "hash"]⟩,
  ⟨.nullable, ["TronAmount", "tron_amount"]⟩,
  ⟨.nullable, ["ActualTronAmount", "actual_tron_amount"]⟩,
  ⟨.nullable, ["UserPaidTomanAmount", "user_paid_toman_amount"]⟩,
  ⟨.nullable, ["TomanAmountWithoutWage", "toman_amount_without_wage"]⟩,
  ⟨.nullable, ["OrderStatusID", "order_status_id"]⟩,
  ⟨.nullable, ["OrderStatusTitle", "order_status_title"]⟩,
  ⟨.strict, ["IsPaid", "is_paid"]⟩,
  ⟨.nullable, ["PaymentDate", "payment_date"]⟩]

def DisputeCallbackPayload.rows : List Row := [
  ⟨.required, ["Event", "event"]⟩,
  ⟨.nullable, ["EventId", "event_id"]⟩,
  ⟨.required, ["DisputeId", "dispute_id"]⟩,
  ⟨.nullable, ["DisputeType", "dispute_type"]⟩,
  ⟨.nullable, ["DisputeTypeID", "dispute_type_id"]⟩,
  ⟨.nullable, ["DisputeTypeTitle", "dispute_type_title"]⟩,
  ⟨.nullable, ["Outcome", "outcome"]⟩,
  ⟨.nullable, ["UniqueCode", "unique_code"]⟩,
  ⟨.nullable, ["PaymentId", "PaymentID", "payment_id"]⟩,
  ⟨.nullable, ["RaisedAt", "raised_at"]⟩,
  ⟨.nullable, ["ResolvedAt", "resolved_at"]⟩,
  ⟨.nullable, ["OriginalTronAmount", "original_tron_amount"]⟩,
  ⟨.nullable, ["OriginalUserMustPayToman", "original_user_must_pay_toman"]⟩,
  ⟨.nullable, ["TronAmount", "tron_amount"]⟩,
  ⟨.nullable, ["UserMustPayToman", "user_must_pay_toman"]⟩,
  ⟨.nullable, ["TronAmountDelta", "tron_amount_delta"]⟩,
  ⟨.nullable, ["UserMustPayTomanDelta", "user_must_pay_toman_delta"]⟩,
  ⟨.nullable, ["OrderStatusID", "order_status_id"]⟩,
  ⟨.nullable, ["OrderStatusTitle", "order_status_title"]⟩,
  ⟨.strict, ["IsPaid", "is_paid"]⟩]

/-! ## The models read their rows -/

section

variable [Runtime]

theorem ApiEnvelope.reads : ApiEnvelope.model.Reads ApiEnvelope.rows := by
  constructor
  · intro o o' h
    simp only [rows, List.forall_mem_cons] at h
    obtain ⟨h1, h2, h3, h4, -⟩ := h
    simp only [model]
    rw [required_congr h1, strict_congr h2, strict_congr h3, nullable_congr rfl h4]
  · intro r hr hk o h
    simp only [rows, List.mem_cons, List.not_mem_nil, or_false] at hr
    rcases hr with rfl | rfl | rfl | rfl <;> cases hk
    · simp [model, withDefault_null Runtime.int_null h]
    · simp [model, withDefault_null Runtime.str_null h]
  · decide

theorem OrderTokenData.reads : OrderTokenData.model.Reads OrderTokenData.rows := by
  constructor
  · intro o o' h
    simp only [rows, List.forall_mem_cons] at h
    obtain ⟨h1, h2, h3, h4, h5, -⟩ := h
    simp only [model]
    rw [required_congr h1, optional_congr h2, optional_congr h3, optional_congr h4,
      optional_congr h5]
  · intro r hr hk o h
    simp only [rows, List.mem_cons, List.not_mem_nil, or_false] at hr
    rcases hr with rfl | rfl | rfl | rfl | rfl <;> cases hk
  · decide

theorem OrderStatus.reads : OrderStatus.model.Reads OrderStatus.rows := by
  constructor
  · intro o o' h
    simp only [rows, List.forall_mem_cons] at h
    obtain ⟨h1, h2, h3, h4, h5, h6, h7, h8, h9, h10, h11, -⟩ := h
    simp only [model]
    rw [optional_congr h1, optional_congr h2, optional_congr h3, optional_congr h4,
      optional_congr h5, optional_congr h6, optional_congr h7, optional_congr h8,
      optional_congr h9, strict_congr h10, optional_congr h11]
  · intro r hr hk o h
    simp only [rows, List.mem_cons, List.not_mem_nil, or_false] at hr
    rcases hr with rfl | rfl | rfl | rfl | rfl | rfl | rfl | rfl | rfl | rfl | rfl <;> cases hk
    -- the fields before `IsPaid` do not matter
    iterate 9 refine bind_eq_none fun _ => ?_
    rw [withDefault_null Runtime.bool_null h]
    rfl
  · decide

theorem CallbackPayload.reads : CallbackPayload.model.Reads CallbackPayload.rows := by
  constructor
  · intro o o' h
    simp only [rows, List.forall_mem_cons] at h
    obtain ⟨h1, h2, h3, h4, h5, h6, h7, h8, h9, h10, h11, h12, h13, -⟩ := h
    simp only [model]
    rw [optional_congr h1, optional_congr h2, optional_congr h3, optional_congr h4,
      optional_congr h5, optional_congr h6, optional_congr h7, optional_congr h8,
      optional_congr h9, optional_congr h10, optional_congr h11, strict_congr h12,
      optional_congr h13]
  · intro r hr hk o h
    simp only [rows, List.mem_cons, List.not_mem_nil, or_false] at hr
    rcases hr with rfl | rfl | rfl | rfl | rfl | rfl | rfl | rfl | rfl | rfl | rfl | rfl | rfl <;>
      cases hk
    -- the fields before `IsPaid` do not matter
    iterate 11 refine bind_eq_none fun _ => ?_
    rw [withDefault_null Runtime.bool_null h]
    rfl
  · decide

theorem DisputeCallbackPayload.reads :
    DisputeCallbackPayload.model.Reads DisputeCallbackPayload.rows := by
  constructor
  · intro o o' h
    simp only [rows, List.forall_mem_cons] at h
    obtain ⟨h1, h2, h3, h4, h5, h6, h7, h8, h9, h10, h11, h12, h13, h14, h15, h16, h17, h18, h19,
      h20, -⟩ := h
    simp only [model]
    rw [required_congr h1, optional_congr h2, required_congr h3, optional_congr h4,
      optional_congr h5, optional_congr h6, optional_congr h7, optional_congr h8,
      optional_congr h9, optional_congr h10, optional_congr h11,
      optional_congr h12, optional_congr h13, optional_congr h14,
      optional_congr h15, optional_congr h16, optional_congr h17,
      optional_congr h18, optional_congr h19, strict_congr h20]
  · intro r hr hk o h
    simp only [rows, List.mem_cons, List.not_mem_nil, or_false] at hr
    rcases hr with rfl | rfl | rfl | rfl | rfl | rfl | rfl | rfl | rfl | rfl | rfl | rfl | rfl |
      rfl | rfl | rfl | rfl | rfl | rfl | rfl <;> cases hk
    -- the fields before `IsPaid` do not matter
    iterate 19 refine bind_eq_none fun _ => ?_
    rw [withDefault_null Runtime.bool_null h]
    rfl
  · decide

/-- **The rules of `null` for the inbound models.** -/
theorem null_rules :
    ApiEnvelope.model.NullRules ApiEnvelope.rows ∧
    OrderTokenData.model.NullRules OrderTokenData.rows ∧
    OrderStatus.model.NullRules OrderStatus.rows ∧
    CallbackPayload.model.NullRules CallbackPayload.rows ∧
    DisputeCallbackPayload.model.NullRules DisputeCallbackPayload.rows :=
  ⟨nullRules_of_reads ApiEnvelope.reads, nullRules_of_reads OrderTokenData.reads,
    nullRules_of_reads OrderStatus.reads, nullRules_of_reads CallbackPayload.reads,
    nullRules_of_reads DisputeCallbackPayload.reads⟩

end

/-- A successful `GetOrderToken` body without `Code`. -/
def codelessEnvelope : Obj := [
  (lit "IsSuccessful", .bool true),
  (lit "Data", .dict [(lit "Token", .str (lit "t"))])]

/-- A null `Code` rejects the envelope, though a missing one does not. -/
theorem not_null_is_absent_code :
    ¬ ∀ _ : Runtime,
      ApiEnvelope.model.NullIsAbsent ApiEnvelope.rows ∧
      OrderTokenData.model.NullIsAbsent OrderTokenData.rows ∧
      OrderStatus.model.NullIsAbsent OrderStatus.rows ∧
      CallbackPayload.model.NullIsAbsent CallbackPayload.rows ∧
      DisputeCallbackPayload.model.NullIsAbsent DisputeCallbackPayload.rows := by
  intro h
  let _ := Runtime.sample
  have hcode := (h Runtime.sample).1 ⟨.strict, ["Code", "code"]⟩ (by simp [ApiEnvelope.rows])
    (by simp) "Code" (by simp) codelessEnvelope
  have hnull : ApiEnvelope.model.validate
      (.dict (setItem (lit "Code") .null codelessEnvelope)) = none := rfl
  have hgone : (ApiEnvelope.model.validate
      (.dict (delItem (lit "Code") codelessEnvelope))).isSome = true := rfl
  rw [← hcode, hnull] at hgone
  cases hgone

/-- A callback that has its payment id under the second spelling. -/
def secondSpelling : Obj := [(lit "PaymentID", .str (lit "p"))]

/-- A null `PaymentId` is not as good as none before a `PaymentID` with a value. -/
theorem not_null_is_absent_spelling :
    ¬ ∀ _ : Runtime, ∀ r ∈ CallbackPayload.rows, r.kind = .nullable → ∀ k ∈ r.keys, ∀ o,
      CallbackPayload.model.validate (.dict (setItem (lit k) .null o)) =
        CallbackPayload.model.validate (.dict (delItem (lit k) o)) := by
  intro h
  let _ := Runtime.sample
  have hspelling := h Runtime.sample ⟨.nullable, ["PaymentId", "PaymentID", "payment_id"]⟩
    (by simp [CallbackPayload.rows]) rfl "PaymentId" (by simp) secondSpelling
  have hhidden : (CallbackPayload.model.validate
      (.dict (setItem (lit "PaymentId") .null secondSpelling))).bind (·.paymentId) = none := rfl
  have hread : (CallbackPayload.model.validate
      (.dict (delItem (lit "PaymentId") secondSpelling))).bind (·.paymentId) = some "p" := rfl
  rw [← hspelling, hhidden] at hread
  cases hread

end Tronado
