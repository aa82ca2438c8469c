import Tronado.Lib.Literals
import Tronado.Taxonomy
import Tronado.Webhook

/-!
# Incoming amounts

An amount field is read exactly when its value is the number its literal denotes.  The
JSON decoder makes a double of a literal with a point or an exponent before the field
is validated, so this is a question about that double.

* `AmountField`: the `TronDecimal` fields of a model, as keys and values.
* `accepted_response`, `accepted_body`: what a model was read from, with every literal
  exact.
* `amounts_exact_iff`: an amount is exact just when its literal is an integer or the
  shortest decimal of a double.
-/

namespace Tronado

open Py Schema

/-- A `TronDecimal` field: the keys it is read under, and its value. -/
structure AmountField (α : Type) where
  keys : List String
  value : α → Option Dec

def OrderStatus.amounts : List (AmountField OrderStatus) := [
  ⟨["TronAmount", "tron_amount"], fun s => s.tronAmount⟩,
  ⟨["ActualTronAmount", "actual_tron_amount"], fun s => s.actualTronAmount⟩]

def TronPrice.amounts : List (AmountField TronPrice) := [
  ⟨["TronPriceDollar", "tron_price_dollar"], fun p => some p.tronPriceDollar⟩]

def TronConversion.amounts : List (AmountField TronConversion) := [
  ⟨["TronAmount", "tron_amount"], fun c => some c.tronAmount⟩,
  ⟨["TronSunAmount", "tron_sun_amount"], fun c => some c.tronSunAmount⟩]

def CallbackPayload.amounts : List (AmountField CallbackPayload) := [
  ⟨["TronAmount", "tron_amount"], fun p => p.tronAmount⟩,
  ⟨["ActualTronAmount", "actual_tron_amount"], fun p => p.actualTronAmount⟩]

def DisputeCallbackPayload.amounts : List (AmountField DisputeCallbackPayload) := [
  ⟨["OriginalTronAmount", "original_tron_amount"], fun p => p.originalTronAmount⟩,
  ⟨["TronAmount", "tron_amount"], fun p => p.tronAmount⟩,
  ⟨["TronAmountDelta", "tron_amount_delta"], fun p => p.tronAmountDelta⟩]

theorem lookup_approx (keys : List String) (o : Obj) :
    lookup keys (o.map (Prod.map id Value.approx)) = (lookup keys o).map Value.approx := by
  induction keys with
  | nil => rfl
  | cons k keys ih =>
    rw [lookup_cons, lookup_cons, ih, getItem?_map]
    cases getItem? (lit k) o <;> rfl

/-! ## Fields -/

section

variable [Runtime] {α : Type}

/-- Each of the fields is what `TronDecimal` makes of the value under its keys. -/
def ReadsAmounts (m : Model α) (fields : List (AmountField α)) : Prop :=
  ∀ f ∈ fields, ∀ o a, m.fields o = some a → ∀ v, lookup f.keys o = some v → v ≠ .null →
    ∃ d, TronDecimal v = some d ∧ f.value a = some d

variable {keys : List String} {o : Obj} {v : Value}

theorem required_amount {d : Dec} (h : required TronDecimal keys o = some d)
    (hv : lookup keys o = some v) : ∃ d', TronDecimal v = some d' ∧ some d = some d' := by
  rw [required, hv] at h
  exact ⟨d, h, rfl⟩

theorem optional_amount {x : Option Dec}
    (h : withDefault (optional TronDecimal) none keys o = some x)
    (hv : lookup keys o = some v) (hne : v ≠ .null) : ∃ d, TronDecimal v = some d ∧ x = some d := by
  rw [withDefault, hv] at h
  have hmap : (TronDecimal v).map some = some x := by
    cases v with
    | null => exact absurd rfl hne
    | _ => exact h
  obtain ⟨d, hd, he⟩ := Option.map_eq_some_iff.mp hmap
  exact ⟨d, hd, he.symm⟩

theorem OrderStatus.reads_amounts : ReadsAmounts OrderStatus.model OrderStatus.amounts := by
  intro f hf o a h v hv hne
  iterate 5 obtain ⟨_, -, h⟩ := bind_eq_some h
  obtain ⟨_, hamount, h⟩ := bind_eq_some h
  obtain ⟨_, hactual, h⟩ := bind_eq_some h
  iterate 4 obtain ⟨_, -, h⟩ := bind_eq_some h
  obtain rfl := Option.some.inj h
  simp only [OrderStatus.amounts, List.mem_cons, List.not_mem_nil, or_false] at hf
  rcases hf with rfl | rfl
  · exact optional_amount hamount hv hne
  · exact optional_amount hactual hv hne

theorem TronPrice.reads_amounts : ReadsAmounts TronPrice.model TronPrice.amounts := by
  intro f hf o a h v hv hne
  obtain ⟨_, -, h⟩ := bind_eq_some h
  obtain ⟨_, hdollar, h⟩ := bind_eq_some h
  obtain rfl := Option.some.inj h
  obtain rfl := List.mem_singleton.mp hf
  exact required_amount hdollar hv

theorem TronConversion.reads_amounts :
    ReadsAmounts TronConversion.model TronConversion.amounts := by
  intro f hf o a h v hv hne
  obtain ⟨_, hamount, h⟩ := bind_eq_some h
  obtain ⟨_, hsun, h⟩ := bind_eq_some h
  obtain rfl := Option.some.inj h
  simp only [TronConversion.amounts, List.mem_cons, List.not_mem_nil, or_false] at hf
  rcases hf with rfl | rfl
  · exact required_amount hamount hv
  · exact required_amount hsun hv

theorem CallbackPayload.reads_amounts :
    ReadsAmounts CallbackPayload.model CallbackPayload.amounts := by
  intro f hf o a h v hv hne
  iterate 5 obtain ⟨_, -, h⟩ := bind_eq_some h
  obtain ⟨_, hamount, h⟩ := bind_eq_some h
  obtain ⟨_, hactual, h⟩ := bind_eq_some h
  iterate 6 obtain ⟨_, -, h⟩ := bind_eq_some h
  obtain rfl := Option.some.inj h
  simp only [CallbackPayload.amounts, List.mem_cons, List.not_mem_nil, or_false] at hf
  rcases hf with rfl | rfl
  · exact optional_amount hamount hv hne
  · exact optional_amount hactual hv hne

theorem DisputeCallbackPayload.reads_amounts :
    ReadsAmounts DisputeCallbackPayload.model DisputeCallbackPayload.amounts := by
  intro f hf o a h v hv hne
  iterate 11 obtain ⟨_, -, h⟩ := bind_eq_some h
  obtain ⟨_, horiginal, h⟩ := bind_eq_some h
  obtain ⟨_, -, h⟩ := bind_eq_some h
  obtain ⟨_, hamount, h⟩ := bind_eq_some h
  obtain ⟨_, -, h⟩ := bind_eq_some h
  obtain ⟨_, hdelta, h⟩ := bind_eq_some h
  iterate 4 obtain ⟨_, -, h⟩ := bind_eq_some h
  obtain rfl := Option.some.inj h
  simp only [DisputeCallbackPayload.amounts, List.mem_cons, List.not_mem_nil, or_false] at hf
  rcases hf with rfl | rfl | rfl
  · exact optional_amount horiginal hv hne
  · exact optional_amount hamount hv hne
  · exact optional_amount hdelta hv hne

/-- **A literal comes through `TronDecimal` just when it is an integer or survives its
double.** -/
theorem TronDecimal_literal_iff {x : ℚ} (hx : v.literal? = some x) {d : Dec}
    (hd : TronDecimal v.approx = some d) : d.toRat = x ↔ (∃ n, v = .int n) ∨ Survives x := by
  rcases v with _ | _ | n | _ | ⟨e | _ | _⟩ | _ | _ | _
  case int =>
    have hdec : some (decOfInt n) = some d := (Runtime.decimal_int n).symm.trans hd
    cases hdec
    cases hx
    exact iff_of_true (toRat_decOfInt n) (Or.inl ⟨n, rfl⟩)
  case decimal.finite =>
    have hex : x = e.toRat := (Option.some.inj hx).symm
    have hround : Runtime.decimal (.decimal (.ofDouble (.ofRat x))) = some d := by
      rw [hex]
      exact hd
    have hvalue : (Decimal.ofDouble (.ofRat x)).toRat? = some d.toRat := by
      cases hdouble : Decimal.ofDouble (.ofRat x) with
      | finite d' =>
        rw [hdouble, Runtime.decimal_finite] at hround
        cases hround
        rfl
      | infinity neg => rw [hdouble, Runtime.decimal_infinity] at hround; cases hround
      | nan => rw [hdouble, Runtime.decimal_nan] at hround; cases hround
    rw [← toRat?_ofDouble_iff, hvalue, Option.some.injEq]
    simp
  all_goals cases hx

/-- Each amount under a number literal is that number just when the literal is an
integer or survives its double. -/
def ExactlyWhere (fields : List (AmountField α)) (o : Obj) (a : α) : Prop :=
  ∀ f ∈ fields, ∀ v x, lookup f.keys o = some v → v.literal? = some x →
    ((∃ d, f.value a = some d ∧ d.toRat = x) ↔ (∃ n, v = .int n) ∨ Survives x)

theorem exactlyWhere_of_reads {m : Model α} {fields : List (AmountField α)}
    (hm : ReadsAmounts m fields) {o : Obj} {a : α}
    (h : m.fields (o.map (Prod.map id Value.approx)) = some a) : ExactlyWhere fields o a := by
  intro f hf v x hv hx
  have hlookup : lookup f.keys (o.map (Prod.map id Value.approx)) = some v.approx := by
    rw [lookup_approx, hv]
    rfl
  have hne : v.approx ≠ .null := by
    rcases v with _ | _ | _ | _ | ⟨_ | _ | _⟩ | _ | _ | _ <;>
      simp_all [Value.literal?, Value.approx]
  obtain ⟨d, hd, hvalue⟩ := hm f hf _ a h _ hlookup hne
  rw [← TronDecimal_literal_iff hx hd, hvalue]
  simp

/-! ## Bodies -/

/-- The value that a response model is read from: the body, or what is under the data
key of its envelope. -/
def responsePayload (operation : Operation α) (data : Value) : Value :=
  if operation.envelope then
    match data with
    | .dict o => (lookup ["Data", "data"] o).getD .null
    | _ => .null
  else data

theorem safeJson_ok {text : Str} {data : Value} (h : safeJson text = .ok data) :
    data = .null ∨ ∃ v, loadsExact Runtime.maxNesting text = .ok v ∧ data = v.approx := by
  unfold safeJson at h
  split at h
  · exact Or.inl (Except.ok.inj h).symm
  · rw [loads_eq_approx] at h
    cases hv : loadsExact Runtime.maxNesting text with
    | error e =>
      rw [hv] at h
      cases e with
      | valueError => exact Or.inl (Except.ok.inj h).symm
      | recursionError => cases h
    | ok v =>
      rw [hv] at h
      exact Or.inr ⟨v, rfl, (Except.ok.inj h).symm⟩

theorem data_of_envelope {o : Obj} {envelope : ApiEnvelope}
    (h : ApiEnvelope.model.fields o = some envelope) :
    envelope.data = (lookup ["Data", "data"] o).getD .null := by
  iterate 3 obtain ⟨_, -, h⟩ := bind_eq_some h
  obtain ⟨data, hdata, h⟩ := bind_eq_some h
  obtain rfl := Option.some.inj h
  unfold withDefault at hdata
  cases hl : lookup ["Data", "data"] o with
  | none => rw [hl] at hdata; exact (Option.some.inj hdata).symm
  | some x => rw [hl] at hdata; exact (Option.some.inj hdata).symm

/-- **A response that became a model**, with its literals exact. -/
theorem accepted_response {operation : Operation α} {statusCode : ℕ} {text : Str} {r : α}
    (h : processResponse operation statusCode text = .ok r) :
    ∃ data o, loadsExact Runtime.maxNesting text = .ok data ∧
      responsePayload operation data = .dict o ∧
      operation.responseModel.fields (o.map (Prod.map id Value.approx)) = some r := by
  unfold processResponse at h
  cases hj : safeJson text with
  | error e => rw [hj] at h; cases h
  | ok data =>
    rw [hj, ok_bind] at h
    obtain ⟨-, hbody⟩ := processData_ok h
    unfold responsePayload
    cases hop : operation.envelope with
    | false =>
      rw [hop] at hbody
      obtain ⟨-, -, hvalid⟩ := processFlat_ok hbody
      obtain ⟨o, rfl, hfields⟩ := Model.validate_eq_some hvalid
      rcases safeJson_ok hj with hnull | ⟨v, hv, hdict⟩
      · cases hnull
      · obtain ⟨o', rfl, rfl⟩ := approx_eq_dict hdict.symm
        exact ⟨_, o', hv, rfl, hfields⟩
    | true =>
      rw [hop] at hbody
      obtain ⟨envelope, hvalid, -, hpayload⟩ := processEnveloped_ok hbody
      obtain ⟨o, rfl, hfields⟩ := Model.validate_eq_some hvalid
      rcases safeJson_ok hj with hnull | ⟨v, hv, hdict⟩
      · cases hnull
      · obtain ⟨o', rfl, rfl⟩ := approx_eq_dict hdict.symm
        rw [data_of_envelope hfields, lookup_approx] at hpayload
        cases hl : lookup ["Data", "data"] o' with
        | none => rw [hl] at hpayload; cases hpayload
        | some x =>
          rw [hl] at hpayload
          obtain ⟨p, hp, hr⟩ := Model.validate_eq_some hpayload
          obtain ⟨p', rfl, rfl⟩ := approx_eq_dict hp
          exact ⟨_, p', hv, by simp [hl], hr⟩

/-- **A body that became a model**, with its literals exact. -/
theorem accepted_body {rawBody : RawBody} {model : Model α} {kind : String} {a : α}
    (h : parse rawBody model kind = .ok a) :
    ∃ body text o, toBytes rawBody = .ok body ∧ decode (body.map UInt8.toNat) = some text ∧
      loadsExact Runtime.maxNesting text = .ok (.dict o) ∧
      model.fields (o.map (Prod.map id Value.approx)) = some a := by
  obtain ⟨o', hload, hfields⟩ := parse_ok_iff.mp h
  unfold loadsRaw at hload
  cases hb : toBytes rawBody with
  | error e => rw [hb] at hload; cases hload
  | ok body =>
    rw [hb, ok_bind] at hload
    unfold loadsBytes at hload
    cases ht : decode (body.map UInt8.toNat) with
    | none => rw [ht] at hload; cases hload
    | some text =>
      rw [ht] at hload
      simp only [loads_eq_approx] at hload
      cases hv : loadsExact Runtime.maxNesting text with
      | error e => rw [hv] at hload; cases e <;> cases hload
      | ok v =>
        rw [hv] at hload
        obtain ⟨o, rfl, rfl⟩ := approx_eq_dict (Except.ok.inj hload)
        exact ⟨body, text, o, rfl, ht, hv, hfields⟩

/-- What a response shows of the amounts of its model. -/
def ResponseAmounts (model : Model α) (fields : List (AmountField α)) : Prop :=
  ∀ (operation : Operation α) statusCode text r, operation.responseModel = model →
    processResponse operation statusCode text = .ok r →
      ∃ data o, loadsExact Runtime.maxNesting text = .ok data ∧
        responsePayload operation data = .dict o ∧ ExactlyWhere fields o r

/-- What a callback shows of the amounts of its model. -/
def CallbackAmounts (parse : RawBody → Except PyErr α) (fields : List (AmountField α)) : Prop :=
  ∀ rawBody a, parse rawBody = .ok a →
    ∃ body text o, toBytes rawBody = .ok body ∧ decode (body.map UInt8.toNat) = some text ∧
      loadsExact Runtime.maxNesting text = .ok (.dict o) ∧ ExactlyWhere fields o a

theorem responseAmounts_of_reads {model : Model α} {fields : List (AmountField α)}
    (hm : ReadsAmounts model fields) : ResponseAmounts model fields := by
  rintro operation statusCode text r rfl h
  obtain ⟨data, o, hdata, hpayload, hr⟩ := accepted_response h
  exact ⟨data, o, hdata, hpayload, exactlyWhere_of_reads hm hr⟩

theorem callbackAmounts_of_reads {model : Model α} {kind : String} {fields : List (AmountField α)}
    (hm : ReadsAmounts model fields) :
    CallbackAmounts (fun rawBody => parse rawBody model kind) fields := by
  intro rawBody a h
  obtain ⟨body, text, o, hbody, htext, hload, ha⟩ := accepted_body h
  exact ⟨body, text, o, hbody, htext, hload, exactlyWhere_of_reads hm ha⟩

end

/-- **When incoming amounts are exact.** -/
theorem amounts_exact_iff [Runtime] :
    ResponseAmounts OrderStatus.model OrderStatus.amounts ∧
      ResponseAmounts TronPrice.model TronPrice.amounts ∧
      ResponseAmounts TronConversion.model TronConversion.amounts ∧
      CallbackAmounts parseCallback CallbackPayload.amounts ∧
      CallbackAmounts parseDisputeCallback DisputeCallbackPayload.amounts :=
  ⟨responseAmounts_of_reads OrderStatus.reads_amounts,
    responseAmounts_of_reads TronPrice.reads_amounts,
    responseAmounts_of_reads TronConversion.reads_amounts,
    callbackAmounts_of_reads CallbackPayload.reads_amounts,
    callbackAmounts_of_reads DisputeCallbackPayload.reads_amounts⟩

/-! ## A price of nineteen digits -/

/-- Every amount that a response gives as a number literal is that number. -/
def ResponseExact [Runtime] {α : Type} (model : Model α) (fields : List (AmountField α)) : Prop :=
  ∀ (operation : Operation α) statusCode text r, operation.responseModel = model →
    processResponse operation statusCode text = .ok r →
      ∀ data o, loadsExact Runtime.maxNesting text = .ok data →
        responsePayload operation data = .dict o →
          ∀ f ∈ fields, ∀ v x, lookup f.keys o = some v → v.literal? = some x →
            ∃ d, f.value r = some d ∧ d.toRat = x

/-- A dollar price of nineteen digits. -/
def longPrice : Dec := ⟨false, 1234567890123456789, -19⟩

/-- A response that quotes it. -/
def longPriceText : Str :=
  lit "\x7b\"TronPriceToman\":1,\"TronPriceDollar\":0.1234567890123456789\x7d"

theorem toRat_longPrice : longPrice.toRat = 1234567890123456789 * 10 ^ (-19 : ℤ) := by
  simp [longPrice, Dec.toRat]

theorem not_survives_longPrice : ¬ Survives longPrice.toRat := by
  rw [toRat_longPrice]
  exact_mod_cast not_survives (c := 1234567890123456789) (by norm_num) (by norm_num) (-19)

/-- The price is read, rounded. -/
theorem not_responseExact :
    ¬ ∀ _ : Runtime, ResponseExact TronPrice.model TronPrice.amounts := by
  intro h
  let _ := Runtime.sample
  have hexact : loadsExact Runtime.maxNesting longPriceText = .ok (.dict [
      (lit "TronPriceToman", .int 1), (lit "TronPriceDollar", .decimal (.finite longPrice))]) := by
    rfl
  have hten := ten_zpow_pos (-19)
  obtain ⟨q, hq⟩ := exists_roundsTo (x := longPrice.toRat) (by rw [toRat_longPrice]; linarith)
    (by rw [toRat_longPrice]; exact le_trans (by norm_num) (one_le_pow₀ (by norm_num)))
  obtain ⟨d, hd⟩ := exists_ofDouble q
  have hload : safeJson longPriceText = .ok (.dict [
      (lit "TronPriceToman", .int 1), (lit "TronPriceDollar", .float (.finite q))]) := by
    rw [safeJson, if_neg (by decide), loads_eq_approx, hexact, ← show _ = Double.finite q from hq]
    rfl
  have hamount : TronDecimal (.float (.finite q)) = some d := by
    rw [TronDecimal, toDecimal, hd]
    rfl
  have hdollar : required TronDecimal ["TronPriceDollar", "tron_price_dollar"] [
      (lit "TronPriceToman", .int 1), (lit "TronPriceDollar", .float (.finite q))] = some d :=
    hamount
  have hvalid : TronPrice.model.validate (.dict [
      (lit "TronPriceToman", .int 1), (lit "TronPriceDollar", .float (.finite q))]) =
        some ⟨1, d⟩ := by
    rw [Model.validate_dict, TronPrice.model]
    dsimp only
    rw [hdollar]
    rfl
  have hprocess : processResponse Ops.tronGetPriceToToman 200 longPriceText = .ok ⟨1, d⟩ := by
    rw [processResponse, hload, ok_bind]
    exact validateModel_of_some hvalid
  obtain ⟨d', hd', hvalue⟩ := h Runtime.sample _ 200 longPriceText ⟨1, d⟩ rfl hprocess _ _ hexact
    rfl _ (List.mem_singleton.mpr rfl) (.decimal (.finite longPrice)) _ rfl rfl
  cases hd'
  have hsurvives := (TronDecimal_literal_iff (v := .decimal (.finite longPrice)) rfl (d := d)
    (by rw [← hamount, ← show _ = Double.finite q from hq]; rfl)).mp hvalue
  rcases hsurvives with ⟨n, hn⟩ | hsurvives
  · cases hn
  · exact not_survives_longPrice hsurvives

end Tronado
