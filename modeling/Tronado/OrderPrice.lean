import Tronado.Webhook

/-!
# The price of one TRX in an order

`PriceLaw` is what `tron_price_toman` promises: it returns, nothing where an amount is
missing or zero, and otherwise the quotient to 28 digits.  The quotient is computed in
the default decimal context, whose exponents end at a million.

* `tronPriceToman_iff`: the promise is kept just when the quotient is in the range of
  that context and needs no digit below it.
-/

namespace Tronado

open Py

/-- An amount is missing, or there is nothing to divide by. -/
def CallbackPayload.NotComputable (p : CallbackPayload) : Prop :=
  p.tomanAmountWithoutWage = none ∨ p.tronAmount = none ∨
    ∃ tron, p.tronAmount = some tron ∧ tron.toRat = 0

/-- What `tron_price_toman` promises. -/
def PriceLaw (p : CallbackPayload) : Prop :=
  ∃ price, p.tronPriceToman = .ok price ∧ (price = none ↔ p.NotComputable) ∧
    ∀ toman tron d, p.tomanAmountWithoutWage = some toman → p.tronAmount = some tron →
      price = some d → d.toRat = roundSig 28 (toman / tron.toRat)

/-- The quotient does not overflow, and its 28 digits end within the range. -/
def InRange (x : ℚ) : Prop :=
  |x| < (10 ^ 28 - 1 / 2) * 10 ^ (999972 : ℤ) ∧
    (10 ^ (-999999 : ℤ) ≤ |x| ∨ ∃ k : ℤ, roundSig 28 x = k * 10 ^ (-1000026 : ℤ))

theorem fits_iff (x : ℚ) : defaultContext.Fits x ↔ InRange x := Iff.rfl

section

variable {p : CallbackPayload}

theorem tronPriceToman_of_notComputable (h : p.NotComputable) : p.tronPriceToman = .ok none := by
  unfold CallbackPayload.tronPriceToman
  rcases h with h | h | ⟨tron, h, hzero⟩
  · rw [h]
  · rw [h]
    cases p.tomanAmountWithoutWage <;> rfl
  · rw [h]
    cases p.tomanAmountWithoutWage with
    | none => rfl
    | some toman => exact if_pos (Dec.toRat_eq_zero_iff.mp hzero)

theorem tronPriceToman_of_amounts {toman : ℤ} {tron : Dec}
    (htoman : p.tomanAmountWithoutWage = some toman) (htron : p.tronAmount = some tron)
    (hne : tron.toRat ≠ 0) :
    p.tronPriceToman = (Dec.div defaultContext (decOfInt toman) tron).map some := by
  unfold CallbackPayload.tronPriceToman
  rw [htoman, htron]
  exact if_neg fun hc => hne (Dec.toRat_eq_zero_iff.mpr hc)

/-- A price that is nothing keeps the promise where there is nothing to compute. -/
theorem priceLaw_of_notComputable (h : p.NotComputable) : PriceLaw p :=
  ⟨none, tronPriceToman_of_notComputable h, iff_of_true rfl h, fun _ _ _ _ _ hd => (nomatch hd)⟩

theorem priceLaw_of_amounts {toman : ℤ} {tron : Dec}
    (htoman : p.tomanAmountWithoutWage = some toman) (htron : p.tronAmount = some tron)
    (hne : tron.toRat ≠ 0) : PriceLaw p ↔ InRange (toman / tron.toRat) := by
  have hcomputable : ¬ p.NotComputable := by
    rintro (h | h | ⟨tron', h, hzero⟩)
    · rw [htoman] at h; cases h
    · rw [htron] at h; cases h
    · rw [htron] at h; cases h; exact hne hzero
  have hdiv := div_iff defaultContext (decOfInt toman)
    (fun hc => hne (Dec.toRat_eq_zero_iff.mpr hc))
  rw [toRat_decOfInt, fits_iff] at hdiv
  rw [← hdiv, PriceLaw, tronPriceToman_of_amounts htoman htron hne]
  constructor
  · rintro ⟨price, hprice, hnone, hright⟩
    cases hout : Dec.div defaultContext (decOfInt toman) tron with
    | error e => rw [hout] at hprice; cases hprice
    | ok r =>
      rw [hout] at hprice
      cases hprice
      exact ⟨r, rfl, hright toman tron r htoman htron rfl⟩
  · rintro ⟨r, hout, hr⟩
    refine ⟨some r, by rw [hout]; rfl, iff_of_false (by simp) hcomputable, ?_⟩
    intro toman' tron' d htoman' htron' hd
    cases htoman.symm.trans htoman'
    cases htron.symm.trans htron'
    cases hd
    exact hr

end

/-- **When the price of an order is right.** -/
theorem tronPriceToman_iff (p : CallbackPayload) :
    PriceLaw p ↔
      ∀ toman tron, p.tomanAmountWithoutWage = some toman → p.tronAmount = some tron →
        tron.toRat ≠ 0 → InRange (toman / tron.toRat) := by
  constructor
  · intro h toman tron htoman htron hne
    exact (priceLaw_of_amounts htoman htron hne).mp h
  · intro h
    by_cases hc : p.NotComputable
    · exact priceLaw_of_notComputable hc
    · unfold CallbackPayload.NotComputable at hc
      push Not at hc
      obtain ⟨htoman, htron, hzero⟩ := hc
      obtain ⟨toman, htoman⟩ := Option.ne_none_iff_exists'.mp htoman
      obtain ⟨tron, htron⟩ := Option.ne_none_iff_exists'.mp htron
      have hne := hzero tron htron
      exact (priceLaw_of_amounts htoman htron hne).mpr (h toman tron htoman htron hne)

/-! ## An order without a price -/

/-- Every payload that `parse_callback` returns has its price. -/
def PriceNeverFails [Runtime] : Prop :=
  ∀ rawBody p, parseCallback rawBody = .ok p → PriceLaw p

/-- `Runtime.sample`, with decimals in texts. -/
@[reducible]
def Runtime.textual : Runtime :=
  { Runtime.sample with
    decimal := fun
      | .str s => match Decimal.parse s with
        | some (.finite d) => some d
        | _ => none
      | v => Runtime.sample.decimal v
    decimal_null := rfl
    decimal_finite := fun _ => rfl
    decimal_infinity := fun _ => rfl
    decimal_nan := rfl
    decimal_int := fun _ => rfl }

/-- One Toman for `10 ^ (-1000000)` TRX. -/
def tinyOrder : Bytes :=
  (lit "\x7b\"TomanAmountWithoutWage\":1,\"TronAmount\":\"1E-1000000\"\x7d").map UInt8.ofNat

/-- A callback is parsed, and asking for its price raises. -/
theorem not_priceNeverFails : ¬ ∀ _ : Runtime, PriceNeverFails := by
  intro h
  let _ := Runtime.textual
  have hdec : decode (tinyOrder.map UInt8.toNat) =
      some (lit "\x7b\"TomanAmountWithoutWage\":1,\"TronAmount\":\"1E-1000000\"\x7d") := by
    decide +kernel
  have hload : loadsRaw (.bytes tinyOrder) = .ok (.dict [
      (lit "TomanAmountWithoutWage", .int 1), (lit "TronAmount", .str (lit "1E-1000000"))]) := by
    rw [loadsRaw, toBytes, ok_bind, loadsBytes_of_decode hdec]
    rfl
  have hamounts : (CallbackPayload.model.fields [
      (lit "TomanAmountWithoutWage", .int 1), (lit "TronAmount", .str (lit "1E-1000000"))]).map
        (fun p => (p.tomanAmountWithoutWage, p.tronAmount)) =
          some (some 1, some ⟨false, 1, -1000000⟩) := by
    decide +kernel
  obtain ⟨p, hp, hpair⟩ := Option.map_eq_some_iff.mp hamounts
  obtain ⟨htoman, htron⟩ := Prod.mk.inj hpair
  obtain ⟨price, hok, -⟩ :=
    h Runtime.textual (.bytes tinyOrder) p (parse_ok_iff.mpr ⟨_, hload, hp⟩)
  rw [tronPriceToman_of_amounts htoman htron (by simp [Dec.toRat])] at hok
  cases hok

end Tronado
