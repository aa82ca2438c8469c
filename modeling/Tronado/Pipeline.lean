import Tronado.Amounts
import Tronado.Sending

/-!
# Amounts passed on

An amount under a literal with a point or an exponent is read through a double, and may
differ from the literal.  From then on it does not change any more: it is the decimal of
a double's text, which survives another double.

* `survives_of_literal`: such an amount survives.
* `amounts_passed_on`: whatever request it is put in says it exactly, and whoever reads
  that request as the package reads amounts has it again.
-/

namespace Tronado

open Py Schema

section

variable [Runtime] {α : Type}

/-- Any request that carries the amount says it exactly. -/
def SentExactly (d : Dec) : Prop :=
  ∀ (ρ : Type) config (operation : Operation ρ) (r : RequestModel) version query prepared key,
    operation.requestModel.isSome = true → r.amount? = some (key, d) →
      prepareRequest config operation (some r) version query = .ok prepared →
        sentNumber? prepared.content key = some d.toRat

/-- A member that carries the amount is read as it again. -/
def ReadAgain (d : Dec) : Prop :=
  ∃ d', TronDecimal (sent (.decimal (.finite d))).approx = some d' ∧ d'.toRat = d.toRat

/-- An amount that is read from a decimal literal is the text of a double. -/
theorem ofDouble_of_literal {e d : Dec}
    (hd : TronDecimal (Value.decimal (.finite e)).approx = some d) :
    Decimal.ofDouble (.ofRat e.toRat) = .finite d := by
  have hread : Runtime.decimal (.decimal (.ofDouble (.ofRat e.toRat))) = some d := hd
  cases hdouble : Decimal.ofDouble (.ofRat e.toRat) with
  | finite d' =>
    rw [hdouble, Runtime.decimal_finite] at hread
    rw [Option.some.inj hread]
  | infinity neg => rw [hdouble, Runtime.decimal_infinity] at hread; cases hread
  | nan => rw [hdouble, Runtime.decimal_nan] at hread; cases hread

/-- **An amount under a decimal literal survives.** -/
theorem survives_of_literal {e d : Dec}
    (hd : TronDecimal (Value.decimal (.finite e)).approx = some d) : Survives d.toRat :=
  survives_of_ofDouble (ofDouble_of_literal hd)

/-- An amount that survives is sent as it is. -/
theorem sentExactly_of_survives {d : Dec} (h : Survives d.toRat) : SentExactly d := by
  intro ρ config operation r version query prepared key hop hr hp
  rw [sentNumber?_modelDump hr (content_of_prepareRequest hop hp)]
  exact (toRat?_ofDouble_iff d.toRat).mpr h

/-- An amount that survives is read again. -/
theorem readAgain_of_survives {d : Dec} (h : Survives d.toRat) : ReadAgain d := by
  have hback := (toRat?_ofDouble_iff d.toRat).mpr h
  have hsent : sent (.decimal (.finite d)) = Loads.written (.ofRat d.toRat) := rfl
  rw [ReadAgain, hsent]
  cases hq : Double.ofRat d.toRat with
  | finite q =>
    rw [hq] at hback
    obtain ⟨d', hd'⟩ := exists_ofDouble q
    rw [hd'] at hback
    have hvalue : d'.toRat = d.toRat := Option.some.inj hback
    refine ⟨d', ?_, hvalue⟩
    show TronDecimal (Value.decimal (.ofDouble (.finite q))).approx = some d'
    rw [hd']
    show Runtime.decimal (.decimal (.ofDouble (.ofRat d'.toRat))) = some d'
    rw [hvalue, hq, hd', Runtime.decimal_finite]
  | inf => rw [hq] at hback; cases hback
  | negInf => rw [hq] at hback; cases hback
  | nan => rw [hq] at hback; cases hback

/-- Each amount under a decimal literal can be passed on. -/
def PassedOn (fields : List (AmountField α)) (o : Obj) (a : α) : Prop :=
  ∀ f ∈ fields, ∀ e, lookup f.keys o = some (.decimal (.finite e)) →
    ∃ d, f.value a = some d ∧ SentExactly d ∧ ReadAgain d

theorem passedOn_of_reads {m : Model α} {fields : List (AmountField α)}
    (hm : ReadsAmounts m fields) {o : Obj} {a : α}
    (h : m.fields (o.map (Prod.map id Value.approx)) = some a) : PassedOn fields o a := by
  intro f hf e he
  have hlookup : lookup f.keys (o.map (Prod.map id Value.approx)) =
      some (Value.decimal (.finite e)).approx := by
    rw [lookup_approx, he]
    rfl
  obtain ⟨d, hd, hvalue⟩ := hm f hf _ a h _ hlookup (fun hnull => nomatch hnull)
  have hsurvives := survives_of_literal hd
  exact ⟨d, hvalue, sentExactly_of_survives hsurvives, readAgain_of_survives hsurvives⟩

/-- The amounts of a response can be passed on. -/
def ResponsePassedOn (model : Model α) (fields : List (AmountField α)) : Prop :=
  ∀ (operation : Operation α) statusCode text a, operation.responseModel = model →
    processResponse operation statusCode text = .ok a →
      ∃ data o, loadsExact Runtime.maxNesting text = .ok data ∧
        responsePayload operation data = .dict o ∧ PassedOn fields o a

/-- The amounts of a callback can be passed on. -/
def CallbackPassedOn (parse : RawBody → Except PyErr α) (fields : List (AmountField α)) : Prop :=
  ∀ rawBody a, parse rawBody = .ok a →
    ∃ body text o, toBytes rawBody = .ok body ∧ decode (body.map UInt8.toNat) = some text ∧
      loadsExact Runtime.maxNesting text = .ok (.dict o) ∧ PassedOn fields o a

theorem responsePassedOn_of_reads {model : Model α} {fields : List (AmountField α)}
    (hm : ReadsAmounts model fields) : ResponsePassedOn model fields := by
  rintro operation statusCode text a rfl h
  obtain ⟨data, o, hdata, hpayload, ha⟩ := accepted_response h
  exact ⟨data, o, hdata, hpayload, passedOn_of_reads hm ha⟩

theorem callbackPassedOn_of_reads {model : Model α} {kind : String}
    {fields : List (AmountField α)} (hm : ReadsAmounts model fields) :
    CallbackPassedOn (fun rawBody => parse rawBody model kind) fields := by
  intro rawBody a h
  obtain ⟨body, text, o, hbody, htext, hload, ha⟩ := accepted_body h
  exact ⟨body, text, o, hbody, htext, hload, passedOn_of_reads hm ha⟩

end

/-- **Amounts can be passed on.**  An amount that any response or callback gives as a
literal with a point or an exponent is sent exactly in any request that carries it, and
is read again from there. -/
theorem amounts_passed_on [Runtime] :
    ResponsePassedOn OrderStatus.model OrderStatus.amounts ∧
      ResponsePassedOn TronPrice.model TronPrice.amounts ∧
      ResponsePassedOn TronConversion.model TronConversion.amounts ∧
      CallbackPassedOn parseCallback CallbackPayload.amounts ∧
      CallbackPassedOn parseDisputeCallback DisputeCallbackPayload.amounts :=
  ⟨responsePassedOn_of_reads OrderStatus.reads_amounts,
    responsePassedOn_of_reads TronPrice.reads_amounts,
    responsePassedOn_of_reads TronConversion.reads_amounts,
    callbackPassedOn_of_reads CallbackPayload.reads_amounts,
    callbackPassedOn_of_reads DisputeCallbackPayload.reads_amounts⟩

end Tronado
