import Tronado.Authenticity

/-!
# The two callback formats

The parsers look at different fields of the same object.  The dispute parser wants
`Event` and `DisputeId`; the parser of IPN bodies wants nothing, and skips the
fields it does not know.

* `callback_fields_isSome`, `dispute_fields_isSome`: which fields each one reads.
* `parsers_overlap`: a body that the dispute parser takes is taken by the other one
  too exactly when the seven fields only an IPN has fit, and without `Event` and
  `DisputeId` there is no dispute event.
* `dispute_taken_for_payment`: so the documented dispute of an adjusted order passes for
  the IPN of an accepted payment.
-/

namespace Tronado

open Py Schema

section

variable [Runtime]

/-- The fields that both formats have fit. -/
structure SharedFields (o : Obj) : Prop where
  uniqueCode :
    (withDefault (optional Runtime.str) none ["UniqueCode", "unique_code"] o).isSome = true
  paymentId : (withDefault (optional Runtime.str) none
    ["PaymentId", "PaymentID", "payment_id"] o).isSome = true
  tronAmount :
    (withDefault (optional TronDecimal) none ["TronAmount", "tron_amount"] o).isSome = true
  orderStatusId :
    (withDefault (optional Runtime.int) none ["OrderStatusID", "order_status_id"] o).isSome = true
  orderStatusTitle : (withDefault (optional Runtime.str) none
    ["OrderStatusTitle", "order_status_title"] o).isSome = true
  isPaid : (withDefault Runtime.bool false ["IsPaid", "is_paid"] o).isSome = true

/-- The fields that only an IPN has fit.  A field that is missing does. -/
structure IpnFields (o : Obj) : Prop where
  userTelegramId : (withDefault (optional Runtime.int) none
    ["UserTelegramId", "user_telegram_id"] o).isSome = true
  wallet : (withDefault (optional Runtime.str) none ["Wallet", "wallet"] o).isSome = true
  hash : (withDefault (optional Runtime.str) none ["Hash", "hash"] o).isSome = true
  actualTronAmount : (withDefault (optional TronDecimal) none
    ["ActualTronAmount", "actual_tron_amount"] o).isSome = true
  userPaidTomanAmount : (withDefault (optional Runtime.int) none
    ["UserPaidTomanAmount", "user_paid_toman_amount"] o).isSome = true
  tomanAmountWithoutWage : (withDefault (optional Runtime.int) none
    ["TomanAmountWithoutWage", "toman_amount_without_wage"] o).isSome = true
  paymentDate : (withDefault (optional FlexibleDateTime) none
    ["PaymentDate", "payment_date"] o).isSome = true

/-- **What the parser of IPN bodies reads.** -/
theorem callback_fields_isSome {o : Obj} :
    (CallbackPayload.model.fields o).isSome = true ↔ SharedFields o ∧ IpnFields o := by
  simp only [CallbackPayload.model, isSome_bind_iff, Option.pure_def, Option.isSome_some,
    and_true, exists_and_right, ← Option.isSome_iff_exists]
  constructor
  · rintro ⟨code, payment, user, wallet, hash, tron, actual, paid, without, status, title, isPaid,
      date⟩
    exact ⟨⟨code, payment, tron, status, title, isPaid⟩,
      ⟨user, wallet, hash, actual, paid, without, date⟩⟩
  · rintro ⟨shared, ipn⟩
    exact ⟨shared.uniqueCode, shared.paymentId, ipn.userTelegramId, ipn.wallet, ipn.hash,
      shared.tronAmount, ipn.actualTronAmount, ipn.userPaidTomanAmount,
      ipn.tomanAmountWithoutWage, shared.orderStatusId, shared.orderStatusTitle, shared.isPaid,
      ipn.paymentDate⟩

/-- What the dispute parser wants, beside the shared fields. -/
theorem dispute_fields_isSome {o : Obj}
    (h : (DisputeCallbackPayload.model.fields o).isSome = true) :
    SharedFields o ∧ (required Runtime.str ["Event", "event"] o).isSome = true ∧
      (required Runtime.int ["DisputeId", "dispute_id"] o).isSome = true := by
  simp only [DisputeCallbackPayload.model, isSome_bind_iff, Option.pure_def, Option.isSome_some,
    and_true, exists_and_right, ← Option.isSome_iff_exists] at h
  obtain ⟨event, -, disputeId, -, -, -, -, code, payment, -, -, -, -, tron, -, -, -, status, title,
    isPaid⟩ := h
  exact ⟨⟨code, payment, tron, status, title, isPaid⟩, event, disputeId⟩

/-- The body is an object that carries the two fields of a dispute. -/
def CarriesDispute (rawBody : RawBody) : Prop :=
  ∃ o, loadsRaw rawBody = .ok (.dict o) ∧
    (hasKey (lit "Event") o = true ∨ hasKey (lit "event") o = true) ∧
    (hasKey (lit "DisputeId") o = true ∨ hasKey (lit "dispute_id") o = true)

theorem parses_iff {α : Type} {rawBody : RawBody} {model : Model α} {kind : String} {o : Obj}
    (h : loadsRaw rawBody = .ok (.dict o)) :
    (∃ a, parse rawBody model kind = .ok a) ↔ (model.fields o).isSome = true := by
  simp only [parse_ok_iff, h, Except.ok.injEq, Value.dict.injEq, exists_eq_left',
    Option.isSome_iff_exists]

/-- A dispute event carries the fields of a dispute. -/
theorem carriesDispute_of_parse {rawBody : RawBody} {d : DisputeCallbackPayload}
    (h : parseDisputeCallback rawBody = .ok d) : CarriesDispute rawBody := by
  obtain ⟨o, ho, hd⟩ := parse_ok_iff.mp h
  obtain ⟨-, event, disputeId⟩ := dispute_fields_isSome (o := o) (by rw [hd]; rfl)
  refine ⟨o, ho, ?_, ?_⟩
  · simpa using exists_hasKey_of_required event
  · simpa using exists_hasKey_of_required disputeId

/-- A body of a dispute is read as an IPN when the fields of an IPN fit. -/
theorem callback_of_dispute_iff {rawBody : RawBody} {d : DisputeCallbackPayload}
    (h : parseDisputeCallback rawBody = .ok d) :
    (∃ p, parseCallback rawBody = .ok p) ↔
      ∀ o, loadsRaw rawBody = .ok (.dict o) → IpnFields o := by
  obtain ⟨o, ho, hd⟩ := parse_ok_iff.mp h
  obtain ⟨shared, -⟩ := dispute_fields_isSome (o := o) (by rw [hd]; rfl)
  rw [parseCallback, parses_iff ho, callback_fields_isSome, ho]
  simp [shared]

/-- **How far the formats overlap.**  A body is taken by both parsers exactly when
the dispute parser takes it and the fields that only an IPN has, if they are there
at all, fit; so it is with a signed dispute callback that is replayed as an IPN.  A
dispute event is made only of a body that carries `Event` and `DisputeId`, whether
its signature is checked first or not. -/
theorem parsers_overlap (rawBody : RawBody) :
    (((∃ p, parseCallback rawBody = .ok p) ∧ ∃ d, parseDisputeCallback rawBody = .ok d) ↔
      (∃ d, parseDisputeCallback rawBody = .ok d) ∧
        ∀ o, loadsRaw rawBody = .ok (.dict o) → IpnFields o) ∧
    (∀ (hmacSha512 : Bytes → Bytes → Digest) (header : Option Str) (key : RawBody),
      (∃ d, constructDisputeEvent hmacSha512 rawBody header key = .ok d) →
        ((∃ p, constructEvent hmacSha512 rawBody header key = .ok p) ↔
          ∀ o, loadsRaw rawBody = .ok (.dict o) → IpnFields o)) ∧
    ((∃ d, parseDisputeCallback rawBody = .ok d) → CarriesDispute rawBody) ∧
    (∀ (hmacSha512 : Bytes → Bytes → Digest) (header : Option Str) (key : RawBody),
      (∃ d, constructDisputeEvent hmacSha512 rawBody header key = .ok d) →
        CarriesDispute rawBody) := by
  refine ⟨⟨fun ⟨hp, d, hd⟩ => ⟨⟨d, hd⟩, (callback_of_dispute_iff hd).mp hp⟩,
    fun ⟨⟨d, hd⟩, hf⟩ => ⟨(callback_of_dispute_iff hd).mpr hf, d, hd⟩⟩, ?_,
    fun ⟨d, hd⟩ => carriesDispute_of_parse hd, ?_⟩
  · rintro hmac header key ⟨d, hd⟩
    obtain ⟨hv, hparse⟩ := constructWith_ok hd
    rw [constructEvent, constructWith_of_verified parseCallback hv, if_pos rfl]
    exact callback_of_dispute_iff hparse
  · rintro hmac header key ⟨d, hd⟩
    exact carriesDispute_of_parse (constructWith_ok hd).2

end

/-- A dispute callback with no more than its two required fields. -/
def bareDispute : Bytes :=
  (lit "\x7b\"Event\":\"DisputeAccepted\",\"DisputeId\":1\x7d").map UInt8.ofNat

/-- The documented dispute callback of an order whose amount was adjusted, and which is still
paid; without its times and amounts. -/
def adjustedDispute : Bytes :=
  (lit ("\x7b\"Event\":\"DisputeAccepted\",\"DisputeId\":48302,\"Outcome\":\"AmountAdjusted\"," ++
    "\"PaymentId\":\"INV-20260922-1203\",\"OrderStatusID\":30,\"IsPaid\":true\x7d")).map UInt8.ofNat

theorem loadsRaw_bareDispute :
    let _ := Runtime.sample
    loadsRaw (.bytes bareDispute) = .ok (.dict [
      (lit "Event", .str (lit "DisputeAccepted")), (lit "DisputeId", .int 1)]) := by
  intro _
  have hdec : decode (bareDispute.map UInt8.toNat) =
      some (lit "\x7b\"Event\":\"DisputeAccepted\",\"DisputeId\":1\x7d") := by
    decide +kernel
  rw [loadsRaw, toBytes, ok_bind, loadsBytes_of_decode hdec]
  rfl

set_option maxRecDepth 1000 in
theorem loadsRaw_adjustedDispute :
    let _ := Runtime.sample
    loadsRaw (.bytes adjustedDispute) = .ok (.dict [
      (lit "Event", .str (lit "DisputeAccepted")), (lit "DisputeId", .int 48302),
      (lit "Outcome", .str (lit "AmountAdjusted")),
      (lit "PaymentId", .str (lit "INV-20260922-1203")), (lit "OrderStatusID", .int 30),
      (lit "IsPaid", .bool true)]) := by
  intro _
  have hdec : decode (adjustedDispute.map UInt8.toNat) =
      some (lit ("\x7b\"Event\":\"DisputeAccepted\",\"DisputeId\":48302,\"Outcome\":\"AmountAdjusted\","
        ++ "\"PaymentId\":\"INV-20260922-1203\",\"OrderStatusID\":30,\"IsPaid\":true\x7d")) := by
    decide +kernel
  rw [loadsRaw, toBytes, ok_bind, loadsBytes_of_decode hdec]
  rfl

/-- Both parsers take the bare dispute.  And the documented dispute of an adjusted order is
taken by `construct_event`, under the signature it came with, for an accepted payment. -/
theorem dispute_taken_for_payment :
    (¬ ∀ (_ : Runtime) (rawBody : RawBody),
      ¬ ((∃ p, parseCallback rawBody = .ok p) ∧ ∃ d, parseDisputeCallback rawBody = .ok d)) ∧
    ¬ ∀ (_ : Runtime) (hmacSha512 : Bytes → Bytes → Digest) (rawBody : RawBody)
      (header : Option Str) (key : RawBody) (d : DisputeCallbackPayload),
      constructDisputeEvent hmacSha512 rawBody header key = .ok d → d.isAmountAdjusted = true →
        ¬ ∃ p, constructEvent hmacSha512 rawBody header key = .ok p ∧
          p.isPaymentAccepted = true := by
  constructor
  · intro h
    let _ := Runtime.sample
    have hload := loadsRaw_bareDispute
    refine h Runtime.sample (.bytes bareDispute) ⟨?_, ?_⟩
    · rw [parseCallback, parses_iff hload]; rfl
    · rw [parseDisputeCallback, parses_iff hload]; rfl
  · intro h
    let _ := Runtime.sample
    let hmac : Bytes → Bytes → Digest := fun _ _ => ⟨List.replicate 64 0, rfl⟩
    let header : Str := List.replicate 128 0x30
    have hload := loadsRaw_adjustedDispute
    have hverified : verifySignature hmac (.bytes adjustedDispute) (some header) (.bytes []) =
        .ok true := by
      have hascii : AsciiHeader (some header) := by
        intro s hs
        cases hs
        decide +kernel
      obtain ⟨valid, hv, hiff⟩ := verifySignature_ok hmac adjustedDispute [] hascii
      rw [hv, hiff.mpr ⟨_, rfl, by decide +kernel⟩]
    have hdispute := constructWith_of_verified parseDisputeCallback hverified
    have hevent := constructWith_of_verified parseCallback hverified
    rw [if_pos rfl, parseDisputeCallback, parse_ok_iff.mpr ⟨_, hload, rfl⟩] at hdispute
    rw [if_pos rfl, parseCallback, parse_ok_iff.mpr ⟨_, hload, rfl⟩] at hevent
    exact h Runtime.sample hmac _ (some header) _ _ hdispute rfl ⟨_, hevent, rfl⟩

end Tronado
