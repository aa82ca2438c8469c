import Tronado.Http.Processing
import Tronado.Lib.Written

/-!
# Outgoing amounts

A request carries its amount as a JSON number, which is the text of the nearest double.
`sentNumber?` reads such a body as any JSON reader may, literals exact, and looks up the
amount.

* `sentNumber?_modelDump`: what a body says of the amount of its request.
* `amount_sent_iff`: it is the amount just when that survives its double, so that
  different such amounts have different bodies; the amounts of the documented domain do.
-/

namespace Tronado

open Py Schema

/-- The number under a name of a body that is a JSON object. -/
def sentNumber? (body : Bytes) (key : String) : Option ℚ := do
  let text ← decodeUtf8 (body.map UInt8.toNat)
  let data ← (loadsExact text.length text).toOption
  if data.isJson then (data.get? (lit key)).bind Value.literal? else none

/-- What a member of a body is read as. -/
def sent : Value → Value
  | .decimal d => Loads.written (jsonDefault d)
  | v => v

/-- A payload of strings and finite decimals. -/
def Plain (payload : Obj) : Prop :=
  ∀ p ∈ payload, (∃ s, p.2 = .str s) ∨ ∃ d, p.2 = .decimal (.finite d)

/-- **The body of a plain payload is read as the payload**, with each amount as the
decimal of its text. -/
theorem encodeJson_read {payload : Obj} (hne : payload ≠ []) (hplain : Plain payload)
    (hn : (payload.map Prod.fst).Nodup) {b : Bytes} (hb : encodeJson payload = .ok b) :
    ∃ text, decodeUtf8 (b.map UInt8.toNat) = some text ∧
      loadsExact text.length text = .ok (.dict (payload.map (Prod.map id sent))) := by
  unfold encodeJson at hb
  simp only at hb
  split at hb
  · next b' he =>
    cases hb
    refine ⟨_, decodeUtf8_encodeUtf8 he, loadsExact_dumps ?_ hne ?_ hn⟩
    · rw [dumps, List.cons_append]
      exact Nat.succ_pos _
    · intro p hp
      rcases hplain p hp with ⟨s, hs⟩ | ⟨d, hd⟩
      · rw [hs, dumps]
        exact Loads.reads_quote s
      · rw [hd, dumps]
        exact Loads.reads_repr d.toRat
  · cases hb

theorem sentNumber?_of_read {b : Bytes} {text : Str} {o : Obj}
    (htext : decodeUtf8 (b.map UInt8.toNat) = some text)
    (hload : loadsExact text.length text = .ok (.dict o)) (key : String) :
    sentNumber? b key =
      if (Value.dict o).isJson then (getItem? (lit key) o).bind Value.literal? else none := by
  rw [sentNumber?, htext]
  simp only [Option.bind_eq_bind, Option.bind_some, hload]
  rfl

/-- A double as the body has it, which is nothing where it is infinite. -/
theorem literal?_written (x : Double) :
    (if (Loads.written x).isJson then (Loads.written x).literal? else none) =
      (Decimal.ofDouble x).toRat? := by
  cases x <;> rfl

/-- What a body says of the one amount of its payload. -/
theorem sentNumber?_encodeJson {payload : Obj} {key : String} {d : Dec}
    (hget : getItem? (lit key) payload = some (.decimal (.finite d)))
    (hone : ∀ p ∈ payload, p.2 = .decimal (.finite d) ∨ ∃ s, p.2 = .str s)
    (hn : (payload.map Prod.fst).Nodup) {b : Bytes} (hb : encodeJson payload = .ok b) :
    sentNumber? b key = (Decimal.ofDouble (.ofRat d.toRat)).toRat? := by
  have hne : payload ≠ [] := by
    rintro rfl
    cases hget
  have hplain : Plain payload := fun p hp => (hone p hp).symm.imp id fun h => ⟨d, h⟩
  obtain ⟨text, htext, hload⟩ := encodeJson_read hne hplain hn hb
  have hsent : getItem? (lit key) (payload.map (Prod.map id sent)) =
      some (sent (.decimal (.finite d))) := by
    rw [getItem?_map, hget]
    rfl
  have hjson : (Value.dict (payload.map (Prod.map id sent))).isJson =
      (sent (.decimal (.finite d))).isJson := by
    rw [Bool.eq_iff_iff, isJson_dict]
    constructor
    · intro h
      exact h _ (mem_of_getItem? hsent)
    · intro h p hp
      obtain ⟨q, hq, rfl⟩ := List.mem_map.mp hp
      rcases hone q hq with hd | ⟨s, hs⟩
      · rwa [Prod.map_snd, hd]
      · rw [Prod.map_snd, hs]
        rfl
  rw [sentNumber?_of_read htext hload, hsent, hjson]
  exact literal?_written (.ofRat d.toRat)

section

variable [Runtime]

/-- The amount of a request, and the name it is sent under. -/
def RequestModel.amount? : RequestModel → Option (String × Dec)
  | .getOrderToken r => some ("TronAmount", r.tronAmount)
  | .getPriceWithWage r => some ("TronAmount", r.tronAmount)
  | .dollarConvert r => some ("Dollar", r.dollar)
  | _ => none

/-- **What a body says of the amount of its request.** -/
theorem sentNumber?_modelDump {r : RequestModel} {key : String} {d : Dec}
    (hr : r.amount? = some (key, d)) {b : Bytes} (hb : encodeJson r.modelDump = .ok b) :
    sentNumber? b key = (Decimal.ofDouble (.ofRat d.toRat)).toRat? := by
  cases r with
  | getStatus r => cases hr
  | tomanConvert r => cases hr
  | getOrderToken r =>
    cases hr
    exact sentNumber?_encodeJson rfl (by simp [RequestModel.modelDump, GetOrderTokenRequest.dump])
      (by simp [RequestModel.modelDump, GetOrderTokenRequest.dump, lit_inj]) hb
  | getPriceWithWage r =>
    cases hr
    exact sentNumber?_encodeJson rfl
      (by simp [RequestModel.modelDump, GetPriceWithWageRequest.dump])
      (by simp [RequestModel.modelDump, GetPriceWithWageRequest.dump, lit_inj]) hb
  | dollarConvert r =>
    cases hr
    exact sentNumber?_encodeJson rfl (by simp [RequestModel.modelDump, DollarConvertRequest.dump])
      (by simp [RequestModel.modelDump, DollarConvertRequest.dump, lit_inj]) hb

/-- The content of a prepared request is the encoded model. -/
theorem content_of_prepareRequest {ρ : Type} {config : TronadoConfig} {operation : Operation ρ}
    {r : RequestModel} {version : Str} {query : Option (List (Str × Value))}
    {prepared : PreparedRequest} (hop : operation.requestModel.isSome = true)
    (h : prepareRequest config operation (some r) version query = .ok prepared) :
    encodeJson r.modelDump = .ok prepared.content := by
  obtain ⟨cls, hcls⟩ := Option.isSome_iff_exists.mp hop
  obtain ⟨b, hb⟩ := encodeJson_modelDump r
  have hbody : encodeBody operation (some r) = .ok b := by
    rw [encodeBody, hcls]
    exact hb
  unfold prepareRequest at h
  rw [hbody, ok_bind] at h
  cases hh : config.buildHeaders operation.requiresAuth with
  | error e => rw [hh, error_bind] at h; cases h
  | ok headers =>
    rw [hh, ok_bind] at h
    cases h
    exact hb

/-- **When outgoing amounts are exact.**  A body says the amount of its request just
when that survives its double.  Then different amounts have different bodies.  Amounts
of six decimal places below a billion survive. -/
theorem amount_sent_iff :
    (∀ (r : RequestModel) key d b, r.amount? = some (key, d) → encodeJson r.modelDump = .ok b →
      (sentNumber? b key = some d.toRat ↔ Survives d.toRat)) ∧
    (∀ (ρ : Type) config (operation : Operation ρ) (r : RequestModel) version query prepared key d,
      operation.requestModel.isSome = true → r.amount? = some (key, d) →
        prepareRequest config operation (some r) version query = .ok prepared →
          (sentNumber? prepared.content key = some d.toRat ↔ Survives d.toRat)) ∧
    (∀ (r r' : RequestModel) key d d' b, r.amount? = some (key, d) → r'.amount? = some (key, d') →
      Survives d.toRat → Survives d'.toRat → encodeJson r.modelDump = .ok b →
        encodeJson r'.modelDump = .ok b → d.toRat = d'.toRat) ∧
    ∀ d : Dec, (∃ m : ℤ, d.toRat = m * 10 ^ (-6 : ℤ)) → |d.toRat| < 10 ^ 9 → Survives d.toRat := by
  have hsent (r : RequestModel) key d b (hr : r.amount? = some (key, d))
      (hb : encodeJson r.modelDump = .ok b) :
      sentNumber? b key = some d.toRat ↔ Survives d.toRat := by
    rw [sentNumber?_modelDump hr hb]
    exact toRat?_ofDouble_iff _
  refine ⟨hsent, ?_, ?_, ?_⟩
  · intro ρ config operation r version query prepared key d hop hr hp
    exact hsent r key d _ hr (content_of_prepareRequest hop hp)
  · intro r r' key d d' b hr hr' hs hs' hb hb'
    have hd := (hsent r key d b hr hb).mpr hs
    have hd' := (hsent r' key d' b hr' hb').mpr hs'
    exact Option.some.inj (hd.symm.trans hd')
  · rintro d ⟨m, hm⟩ hlt
    refine survives_of_decimals (k := 6) hm (by norm_num) ?_
    rw [hm, abs_mul, abs_of_pos (ten_zpow_pos _)] at hlt
    have hq : |(m : ℚ)| < 10 ^ 15 := by
      rw [zpow_neg, ← div_eq_mul_inv, div_lt_iff₀ (by positivity)] at hlt
      linarith
    exact_mod_cast hq

/-! ## An amount of nineteen digits -/

/-- Every body says the amount of its request. -/
def AmountsSent : Prop :=
  ∀ (r : RequestModel) key d b, r.amount? = some (key, d) → encodeJson r.modelDump = .ok b →
    sentNumber? b key = some d.toRat

end

/-- A request for the price of `0.1234567890123456789` dollars. -/
def longDollars [Runtime] : RequestModel := .dollarConvert ⟨⟨false, 1234567890123456789, -19⟩, "T"⟩

/-- The dollars are sent, rounded. -/
theorem not_amountsSent : ¬ ∀ _ : Runtime, AmountsSent := by
  intro h
  let _ := Runtime.sample
  obtain ⟨b, hb⟩ := encodeJson_modelDump longDollars
  have hsent := h Runtime.sample longDollars "Dollar" _ b rfl hb
  rw [sentNumber?_modelDump rfl hb, toRat?_ofDouble_iff] at hsent
  refine not_survives (c := 1234567890123456789) (by norm_num) (by norm_num) (-19) ?_
  simpa [Dec.toRat] using hsent

end Tronado
