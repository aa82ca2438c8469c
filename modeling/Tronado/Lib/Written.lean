import Tronado.Lib.Literals

/-!
# Reading back what was written

What `loadsExact` makes of a text that `dumps` wrote, and `decodeUtf8` of bytes that
`encodeUtf8` wrote.

* `decodeUtf8_encodeUtf8`: the text comes back.
* `reads_quote`, `reads_repr`: so do strings, and doubles as the decimals of their texts.
* `loadsExact_dumps`: so does a dict of strings and decimals.
-/

namespace Py

/-! ## UTF-8 -/

theorem isTail_iff {b : ℕ} : isTail b = true ↔ 0x80 ≤ b ∧ b ≤ 0xBF := by
  simp [isTail]

/-- One character, written and read. -/
theorem decodeUtf8_utf8Char {c : ℕ} (h : isScalar c = true) (r : List ℕ) :
    decodeUtf8 (utf8Char c ++ r) = (decodeUtf8 r).map (c :: ·) := by
  have hmax : c < 0x110000 := by
    simp only [isScalar, Bool.or_eq_true, Bool.and_eq_true, decide_eq_true_eq] at h
    omega
  have tail (n : ℕ) : isTail (0x80 + n % 64) = true := isTail_iff.mpr (by omega)
  have hquot : c / 64 / 64 = c / 4096 := Nat.div_div_eq_div_mul c 64 64
  unfold utf8Char
  split_ifs with h1 h2 h3
  · rw [List.singleton_append, decodeUtf8.eq_def]
    dsimp only
    rw [if_pos h1]
  · have hvalue : (0xC0 + c / 64 - 0xC0) * 64 + (0x80 + c % 64 - 0x80) = c := by omega
    rw [List.cons_append, List.singleton_append, decodeUtf8.eq_def]
    simp only [tail, Bool.not_true, Bool.false_eq_true, if_false]
    rw [if_neg (by omega), if_pos (by omega), hvalue]
  · have hvalue : (0xE0 + c / 4096 - 0xE0) * 4096 + (0x80 + c / 64 % 64 - 0x80) * 64 +
        (0x80 + c % 64 - 0x80) = c := by omega
    rw [List.cons_append, List.cons_append, List.singleton_append, decodeUtf8.eq_def]
    simp only [tail, Bool.not_true, Bool.false_eq_true, if_false]
    rw [if_neg (by omega), if_neg (by omega), if_pos (by omega), hvalue]
  · have hvalue : (0xF0 + c / 262144 - 0xF0) * 262144 + (0x80 + c / 4096 % 64 - 0x80) * 4096 +
        (0x80 + c / 64 % 64 - 0x80) * 64 + (0x80 + c % 64 - 0x80) = c := by
      simp only [Nat.add_sub_cancel_left]
      omega
    rw [List.cons_append, List.cons_append, List.cons_append, List.singleton_append,
      decodeUtf8.eq_def]
    simp only [tail, Bool.not_true, Bool.false_eq_true, if_false, true_and]
    rw [if_neg (by omega), if_neg (by omega), if_neg (by omega), if_pos (by omega), hvalue]

theorem utf8Char_lt {c : ℕ} (h : isScalar c = true) : ∀ b ∈ utf8Char c, b < 256 := by
  have hmax : c < 0x110000 := by
    simp only [isScalar, Bool.or_eq_true, Bool.and_eq_true, decide_eq_true_eq] at h
    omega
  unfold utf8Char
  split_ifs <;> simp only [List.mem_cons, List.not_mem_nil, or_false] <;> omega

/-- **A text that was encoded is decoded.** -/
theorem decodeUtf8_encodeUtf8 {s : Str} {b : Bytes} (h : encodeUtf8 s = some b) :
    decodeUtf8 (b.map UInt8.toNat) = some s := by
  unfold encodeUtf8 at h
  split at h
  · next hs =>
    rw [List.all_eq_true] at hs
    cases h
    have hbytes : ((s.flatMap utf8Char).map UInt8.ofNat).map UInt8.toNat = s.flatMap utf8Char := by
      rw [List.map_map]
      conv_rhs => rw [← List.map_id (s.flatMap utf8Char)]
      apply List.map_congr_left
      intro b hb
      obtain ⟨c, hc, hb⟩ := List.mem_flatMap.mp hb
      exact Nat.mod_eq_of_lt (utf8Char_lt (hs c hc) b hb)
    rw [hbytes]
    clear hbytes
    induction s with
    | nil => rfl
    | cons c s ih =>
      rw [List.flatMap_cons, decodeUtf8_utf8Char (hs c (by simp)),
        ih fun d hd => hs d (by simp [hd])]
      rfl
  · cases h

namespace Loads

/-- The machine on a piece of text. -/
def run (limit : ℕ) (s : State) (t : Str) : Except LoadsError State := t.foldlM (stepExact limit) s

section

variable {limit : ℕ} {s s' : State}

@[simp] theorem run_nil : run limit s [] = .ok s := rfl

theorem run_cons {c : ℕ} {t : Str} (h : stepExact limit s c = .ok s') :
    run limit s (c :: t) = run limit s' t := by
  rw [run, List.foldlM_cons, h]
  rfl

theorem run_append {t t' : Str} (h : run limit s t = .ok s') :
    run limit s (t ++ t') = run limit s' t' := by
  unfold run at h ⊢
  rw [List.foldlM_append, h]
  rfl

end

/-! ## Strings -/

section

variable {limit : ℕ} {isKey : Bool} {st : List Frame}

/-- One character of a string, written and read. -/
theorem run_escapeChar (acc : Str) (c : ℕ) :
    run limit ⟨.string isKey acc .plain none, st⟩ (escapeChar c) =
      .ok ⟨.string isKey (acc ++ [c]) .plain none, st⟩ := by
  have hex_value : ∀ n < 16, hexValue (hexDigit n) = some n := by decide
  unfold escapeChar
  split_ifs with h1 h2 h3 h4 h5 h6 h7 h8
  · subst h1; rfl
  · subst h2; rfl
  · subst h3; rfl
  · subst h4; rfl
  · subst h5; rfl
  · subst h6; rfl
  · subst h7; rfl
  · -- four hexadecimal digits, the first two of them zero
    have hhi := hex_value (c / 16) (by omega)
    have hlo := hex_value (c % 16) (by omega)
    have hvalue : 16 * (16 * (16 * (16 * 0 + 0) + 0) + c / 16) + c % 16 = c := by omega
    have hhigh : isHigh c = false := by simp [isHigh]; omega
    have hprefix : run limit ⟨.string isKey acc .plain none, st⟩ (lit "\\u00") =
        .ok ⟨.string isKey acc (.hex 2 (16 * (16 * 0 + 0) + 0)) none, st⟩ := rfl
    have hthird : stepExact limit ⟨.string isKey acc (.hex 2 (16 * (16 * 0 + 0) + 0)) none, st⟩
        (hexDigit (c / 16)) =
          .ok ⟨.string isKey acc (.hex 3 (16 * (16 * (16 * 0 + 0) + 0) + c / 16)) none, st⟩ := by
      simp only [stepExact, step, stepString, hhi]
      rfl
    have hfourth : stepExact limit
        ⟨.string isKey acc (.hex 3 (16 * (16 * (16 * 0 + 0) + 0) + c / 16)) none, st⟩
        (hexDigit (c % 16)) = .ok ⟨.string isKey (acc ++ [c]) .plain none, st⟩ := by
      simp only [stepExact, step, stepString, hlo, hvalue, addEscape, hhigh]
      rfl
    rw [run_append hprefix, run_cons hthird, run_cons hfourth, run_nil]
  · refine run_cons (t := []) ?_
    simp only [stepExact, step, stepString]
    rw [if_neg h1, if_neg h2, if_neg h8]

theorem run_quoted (acc t : Str) :
    run limit ⟨.string isKey acc .plain none, st⟩ (t.flatMap escapeChar) =
      .ok ⟨.string isKey (acc ++ t) .plain none, st⟩ := by
  induction t generalizing acc with
  | nil => simp
  | cons c t ih =>
    rw [List.flatMap_cons, run_append (run_escapeChar acc c), ih, List.append_assoc]
    rfl

end

/-! ## Numbers -/

/-- The characters of a row of digits. -/
def Digital (ds : List Char) : Prop := ∀ c ∈ ds, c.isDigit = true

theorem isDigit_toNat {c : Char} (h : c.isDigit = true) : isDigit c.toNat = true := by
  simp only [Char.isDigit, Bool.and_eq_true, decide_eq_true_eq] at h
  simp only [isDigit, Bool.and_eq_true, decide_eq_true_eq]
  exact h

section

variable {limit : ℕ} {st : List Frame} {neg expNeg : Bool} {coeff scale exp : ℕ} {ds : List Char}
  (hd : Digital ds)
include hd

theorem run_int :
    run limit ⟨.number ⟨.int, neg, coeff, scale, expNeg, exp⟩, st⟩ (ds.map Char.toNat) =
      .ok ⟨.number ⟨.int, neg, Nat.ofDigitChars 10 ds coeff, scale, expNeg, exp⟩, st⟩ := by
  induction ds generalizing coeff with
  | nil => rfl
  | cons c ds ih =>
    have hc := isDigit_toNat (hd c (by simp))
    rw [List.map_cons, Nat.ofDigitChars_cons, ← ih fun d h => hd d (by simp [h])]
    refine run_cons ?_
    simp only [stepExact, NumPos.continues, stepNumber, hc, Bool.true_or, if_true]
    rfl

theorem run_frac :
    run limit ⟨.number ⟨.frac, neg, coeff, scale, expNeg, exp⟩, st⟩ (ds.map Char.toNat) =
      .ok ⟨.number ⟨.frac, neg, Nat.ofDigitChars 10 ds coeff, scale + ds.length, expNeg, exp⟩,
        st⟩ := by
  induction ds generalizing coeff scale with
  | nil => rfl
  | cons c ds ih =>
    have hc := isDigit_toNat (hd c (by simp))
    rw [List.map_cons, Nat.ofDigitChars_cons, List.length_cons, add_comm ds.length, ← add_assoc,
      ← ih fun d h => hd d (by simp [h])]
    refine run_cons ?_
    simp only [stepExact, NumPos.continues, stepNumber, hc, Bool.true_or, if_true]
    rfl

theorem run_expDigits :
    run limit ⟨.number ⟨.expDigits, neg, coeff, scale, expNeg, exp⟩, st⟩ (ds.map Char.toNat) =
      .ok ⟨.number ⟨.expDigits, neg, coeff, scale, expNeg, Nat.ofDigitChars 10 ds exp⟩, st⟩ := by
  induction ds generalizing exp with
  | nil => rfl
  | cons c ds ih =>
    have hc := isDigit_toNat (hd c (by simp))
    rw [List.map_cons, Nat.ofDigitChars_cons, ← ih fun d h => hd d (by simp [h])]
    refine run_cons ?_
    simp only [stepExact, NumPos.continues, stepNumber, hc, if_true]
    rfl

end

/-- Where the first digit of a literal leads. -/
def lead (c : Char) : NumPos := if c = '0' then .zero else .int

/-- A minus sign where it is wanted. -/
def minus (neg : Bool) : Str := if neg then [0x2D] else []

section

variable (limit : ℕ) (st : List Frame) (neg : Bool) {c : Char}

theorem run_lead (hc : c.isDigit = true) :
    run limit ⟨.value false, st⟩ (minus neg ++ [c.toNat]) =
      .ok ⟨.number ⟨lead c, neg, c.toNat - 48, 0, false, 0⟩, st⟩ := by
  have hdigit := isDigit_toNat hc
  have hrange : 48 ≤ c.toNat ∧ c.toNat ≤ 57 := by simpa [isDigit] using hdigit
  have hzero : c = '0' ↔ c.toNat = 48 := Char.toNat_inj.symm
  cases neg with
  | false =>
    refine run_cons (t := []) ?_
    have hws : isWs c.toNat = false := by simp [isWs]; omega
    simp only [stepExact, step, hws, startValue, lead, hzero]
    rw [if_neg (by decide), if_neg (by omega), if_neg (by omega), if_neg (by omega),
      if_neg (by omega)]
    split
    · next h => rw [h]
    · rfl
  | true =>
    have hminus : run limit ⟨.value false, st⟩ [0x2D] =
        .ok ⟨.number ⟨.sign, true, 0, 0, false, 0⟩, st⟩ := rfl
    rw [minus, if_pos rfl, run_append hminus]
    refine run_cons (t := []) ?_
    simp only [stepExact, NumPos.continues, stepNumber, if_true, lead, hzero]
    split
    · next h => rw [h]
    · rfl

/-- The digits before the point. -/
theorem run_whole {i : List Char} (hne : i ≠ []) (hi : Digital i)
    (hlead : i = ['0'] ∨ i.head? ≠ some '0') :
    ∃ p, (p = .zero ∨ p = .int) ∧ run limit ⟨.value false, st⟩ (minus neg ++ i.map Char.toNat) =
      .ok ⟨.number ⟨p, neg, Nat.ofDigitChars 10 i 0, 0, false, 0⟩, st⟩ := by
  cases i with
  | nil => exact absurd rfl hne
  | cons c r =>
    have hfirst := run_lead limit st neg (hi c (by simp))
    have hcoeff : Nat.ofDigitChars 10 (c :: r) 0 = Nat.ofDigitChars 10 r (c.toNat - 48) := by
      rw [Nat.ofDigitChars_cons, mul_zero, zero_add]
      rfl
    rw [List.map_cons, ← List.singleton_append, ← List.append_assoc, run_append hfirst, hcoeff]
    rcases hlead with h | h
    · obtain ⟨rfl, rfl⟩ := List.cons.inj h
      exact ⟨.zero, Or.inl rfl, rfl⟩
    · have hc : lead c = .int := if_neg fun he => h (by rw [he]; rfl)
      rw [hc]
      exact ⟨.int, Or.inr rfl, run_int fun d hd => hi d (by simp [hd])⟩

/-- **A literal with a point.** -/
theorem run_fixed {i f : List Char} (hne : i ≠ []) (hi : Digital i)
    (hlead : i = ['0'] ∨ i.head? ≠ some '0') (hfne : f ≠ []) (hf : Digital f) :
    run limit ⟨.value false, st⟩ (minus neg ++ (i ++ '.' :: f).map Char.toNat) =
      .ok ⟨.number ⟨.frac, neg, Nat.ofDigitChars 10 (i ++ f) 0, f.length, false, 0⟩, st⟩ := by
  obtain ⟨p, hp, hwhole⟩ := run_whole limit st neg hne hi hlead
  rw [List.map_append, ← List.append_assoc, run_append hwhole]
  cases f with
  | nil => exact absurd rfl hfne
  | cons c r =>
    have hc := isDigit_toNat (hf c (by simp))
    have hdot : stepExact limit ⟨.number ⟨p, neg, Nat.ofDigitChars 10 i 0, 0, false, 0⟩, st⟩ 0x2E =
        .ok ⟨.number ⟨.dot, neg, Nat.ofDigitChars 10 i 0, 0, false, 0⟩, st⟩ := by
      rcases hp with rfl | rfl <;> rfl
    have hdigit : stepExact limit ⟨.number ⟨.dot, neg, Nat.ofDigitChars 10 i 0, 0, false, 0⟩, st⟩
        c.toNat = .ok ⟨.number ⟨.frac, neg, 10 * Nat.ofDigitChars 10 i 0 + (c.toNat - 48), 1, false,
          0⟩, st⟩ := by
      simp only [stepExact, NumPos.continues, stepNumber, hc, if_true]
    have hcoeff : Nat.ofDigitChars 10 (i ++ c :: r) 0 =
        Nat.ofDigitChars 10 r (10 * Nat.ofDigitChars 10 i 0 + (c.toNat - 48)) := by
      rw [Nat.ofDigitChars_append, Nat.ofDigitChars_cons]
      rfl
    rw [List.map_cons, List.map_cons, show '.'.toNat = 0x2E from rfl, run_cons hdot,
      run_cons hdigit, run_frac fun d hd => hf d (by simp [hd]), hcoeff, List.length_cons,
      add_comm 1]

/-- The digits of a literal with an exponent. -/
theorem run_mantissa {c : Char} {f : List Char} (hc : c.isDigit = true) (hc0 : c ≠ '0')
    (hf : Digital f) :
    ∃ p, (p = .int ∨ p = .frac) ∧ run limit ⟨.value false, st⟩
        (minus neg ++ ([c] ++ (if f = [] then [] else '.' :: f)).map Char.toNat) =
      .ok ⟨.number ⟨p, neg, Nat.ofDigitChars 10 (c :: f) 0, f.length, false, 0⟩, st⟩ := by
  by_cases hfne : f = []
  · subst hfne
    have hcoeff : Nat.ofDigitChars 10 [c] 0 = c.toNat - 48 := by
      rw [Nat.ofDigitChars_cons, mul_zero, zero_add]
      rfl
    rw [hcoeff]
    have hlead := run_lead limit st neg hc
    rw [lead, if_neg hc0] at hlead
    exact ⟨.int, Or.inl rfl, hlead⟩
  · rw [if_neg hfne]
    refine ⟨.frac, Or.inr rfl, run_fixed limit st neg (by simp) ?_ (Or.inr ?_) hfne hf⟩
    · simpa [Digital] using hc
    · simpa using hc0

/-- **A literal with an exponent.** -/
theorem run_sci (expNeg : Bool) {c : Char} {f x : List Char} (hc : c.isDigit = true)
    (hc0 : c ≠ '0') (hf : Digital f) (hxne : x ≠ []) (hx : Digital x) :
    run limit ⟨.value false, st⟩ (minus neg ++ ([c] ++ (if f = [] then [] else '.' :: f) ++
        'e' :: (if expNeg then '-' else '+') :: x).map Char.toNat) =
      .ok ⟨.number ⟨.expDigits, neg, Nat.ofDigitChars 10 (c :: f) 0, f.length, expNeg,
        Nat.ofDigitChars 10 x 0⟩, st⟩ := by
  obtain ⟨p, hp, hmantissa⟩ := run_mantissa limit st neg hc hc0 hf
  rw [List.map_append, ← List.append_assoc, run_append hmantissa]
  generalize Nat.ofDigitChars 10 (c :: f) 0 = m
  cases x with
  | nil => exact absurd rfl hxne
  | cons d r =>
    have hd := isDigit_toNat (hx d (by simp))
    have hexp : stepExact limit ⟨.number ⟨p, neg, m, f.length, false, 0⟩, st⟩ 0x65 =
        .ok ⟨.number ⟨.exp, neg, m, f.length, false, 0⟩, st⟩ := by
      rcases hp with rfl | rfl <;> rfl
    have hsign : stepExact limit ⟨.number ⟨.exp, neg, m, f.length, false, 0⟩, st⟩
        (if expNeg then '-' else '+').toNat =
          .ok ⟨.number ⟨.expSign, neg, m, f.length, expNeg, 0⟩, st⟩ := by
      cases expNeg <;> rfl
    have hfirst : stepExact limit ⟨.number ⟨.expSign, neg, m, f.length, expNeg, 0⟩, st⟩ d.toNat =
        .ok ⟨.number ⟨.expDigits, neg, m, f.length, expNeg, d.toNat - 48⟩, st⟩ := by
      simp only [stepExact, NumPos.continues, stepNumber, hd, if_true]
    have hvalue : Nat.ofDigitChars 10 (d :: r) 0 = Nat.ofDigitChars 10 r (d.toNat - 48) := by
      rw [Nat.ofDigitChars_cons, mul_zero, zero_add]
      rfl
    rw [List.map_cons, List.map_cons, List.map_cons, show 'e'.toNat = 0x65 from rfl, run_cons hexp,
      run_cons hsign, run_cons hfirst, run_expDigits fun d hd => hx d (by simp [hd]), hvalue]

end

/-! ## The texts of doubles -/

theorem lit_signed (neg : Bool) (cs : List Char) :
    lit (signed neg (String.ofList cs)) = minus neg ++ cs.map Char.toNat := by
  cases neg <;> simp [lit, signed, minus]

theorem digital_toDigits (n : ℕ) : Digital (Nat.toDigits 10 n) := fun _ hc =>
  Nat.isDigit_of_mem_toDigits (by norm_num) (by norm_num) hc

theorem digital_leftpad {ds : List Char} (h : Digital ds) (k : ℕ) :
    Digital (ds.leftpad k '0') := by
  intro c hc
  rcases List.mem_append.mp hc with hc | hc
  · rw [(List.mem_replicate.mp hc).2]
    rfl
  · exact h c hc

theorem ofDigitChars_leftpad (n k : ℕ) :
    Nat.ofDigitChars 10 ((Nat.toDigits 10 n).leftpad k '0') 0 = n := by
  rw [List.leftpad, Nat.ofDigitChars_append, Nat.ofDigitChars_replicate_zero, mul_zero,
    Nat.ofDigitChars_ten_toDigits]

/-- Numerals do not start with a zero. -/
theorem head_toDigits {n : ℕ} (hn : n ≠ 0) : (Nat.toDigits 10 n).head? ≠ some '0' := by
  induction n using Nat.strong_induction_on with
  | _ n ih =>
    rw [Nat.toDigits_eq_if (by norm_num)]
    split
    · simpa using hn
    · have hrec := ih (n / 10) (by omega) (by omega)
      rw [List.head?_append]
      cases hd : (Nat.toDigits 10 (n / 10)).head? with
      | none => exact absurd (List.head?_eq_none_iff.mp hd) Nat.toDigits_ne_nil
      | some c => rwa [hd] at hrec

section

variable (limit : ℕ) (st : List Frame)

/-- The digits of a numeral before its last `scale`, with zeros in front where needed. -/
theorem whole_leftpad (n : ℕ) {scale : ℕ} (hs : 0 < scale) :
    let ds := (Nat.toDigits 10 n).leftpad (scale + 1) '0'
    ds.take (ds.length - scale) = ['0'] ∨ (ds.take (ds.length - scale)).head? ≠ some '0' := by
  intro ds
  have hlength : ds.length = max (scale + 1) (Nat.toDigits 10 n).length := List.length_leftpad
  rcases lt_or_ge scale (Nat.toDigits 10 n).length with hlong | hshort
  · right
    have hds : ds = Nat.toDigits 10 n := by
      simp only [ds, List.leftpad, Nat.sub_eq_zero_of_le hlong, List.replicate_zero,
        List.nil_append]
    have hn : n ≠ 0 := by
      rintro rfl
      rw [Nat.toDigits_zero, List.length_singleton] at hlong
      omega
    rw [List.head?_take, if_neg (by omega), hds]
    exact head_toDigits hn
  · left
    obtain ⟨m, hm⟩ : ∃ m, scale + 1 - (Nat.toDigits 10 n).length = m + 1 :=
      ⟨scale - (Nat.toDigits 10 n).length, by omega⟩
    have hone : ds.length - scale = 1 := by omega
    rw [hone]
    simp only [ds, List.leftpad, hm, List.replicate_succ, List.cons_append, List.take_succ_cons,
      List.take_zero]

theorem run_text_fixed (neg : Bool) (n : ℕ) {scale : ℕ} (hs : 0 < scale) :
    run limit ⟨.value false, st⟩ (lit (Repr.fixed neg n scale).text) =
      .ok ⟨.number ⟨.frac, neg, n, scale, false, 0⟩, st⟩ := by
  have hdigital := digital_leftpad (digital_toDigits n) (scale + 1)
  have hvalue := ofDigitChars_leftpad n (scale + 1)
  have hlead := whole_leftpad n hs
  have hlength : ((Nat.toDigits 10 n).leftpad (scale + 1) '0').length =
      max (scale + 1) (Nat.toDigits 10 n).length := List.length_leftpad
  rw [Repr.text, lit_signed]
  generalize (Nat.toDigits 10 n).leftpad (scale + 1) '0' = ds at *
  have hdrop : (ds.drop (ds.length - scale)).length = scale := by
    rw [List.length_drop]
    omega
  have hrun := run_fixed limit st neg
    (i := ds.take (ds.length - scale)) (f := ds.drop (ds.length - scale))
    (List.ne_nil_of_length_pos (by rw [List.length_take]; omega))
    (fun c hc => hdigital c (List.mem_of_mem_take hc)) hlead
    (List.ne_nil_of_length_pos (by omega)) (fun c hc => hdigital c (List.mem_of_mem_drop hc))
  rwa [List.take_append_drop, hvalue, hdrop] at hrun

theorem run_text_sci (neg : Bool) {n : ℕ} (hn : n ≠ 0) (e : ℤ) :
    ∃ m, run limit ⟨.value false, st⟩ (lit (Repr.sci neg n e).text) = .ok ⟨.number m, st⟩ ∧
      m.pos = .expDigits ∧ m.dec = ⟨neg, n, e⟩ := by
  have hdigital := digital_toDigits n
  have hvalue : Nat.ofDigitChars 10 (Nat.toDigits 10 n) 0 = n := Nat.ofDigitChars_ten_toDigits
  have hhead := head_toDigits hn
  rw [Repr.text, lit_signed]
  cases hds : Nat.toDigits 10 n with
  | nil => exact absurd hds Nat.toDigits_ne_nil
  | cons c r =>
    rw [hds] at hdigital hvalue hhead
    have hx : e + ((c :: r).length : ℤ) - 1 = e + r.length := by
      rw [List.length_cons]
      push_cast
      ring
    have hfrac : (if (c :: r).length = 1 then [] else '.' :: (c :: r).drop 1) =
        if r = [] then [] else '.' :: r := by
      cases r <;> simp
    rw [hx, hfrac]
    have hrun := run_sci limit st neg (decide (e + r.length < 0)) (f := r)
      (x := (Nat.toDigits 10 (e + r.length).natAbs).leftpad 2 '0') (hdigital c (by simp))
      (fun he => hhead (by rw [he]; rfl)) (fun d hd => hdigital d (by simp [hd]))
      (List.ne_nil_of_length_pos (by rw [List.length_leftpad]; omega))
      (digital_leftpad (digital_toDigits _) 2)
    rw [hvalue, ofDigitChars_leftpad] at hrun
    simp only [decide_eq_true_eq] at hrun
    refine ⟨_, hrun, rfl, ?_⟩
    simp only [Num.dec, Dec.mk.injEq, decide_eq_true_eq, true_and]
    split <;> omega

/-- **The text of a finite double is read as the decimal it writes.** -/
theorem run_text_finite {x q : ℚ} (h : Double.ofRat x = .finite q) :
    ∃ m, run limit ⟨.value false, st⟩ (lit (Double.finite q).repr.text) = .ok ⟨.number m, st⟩ ∧
      (m.pos = .frac ∨ m.pos = .expDigits) ∧
      m.exact = .decimal (Decimal.ofDouble (.finite q)) := by
  have fixed (neg : Bool) (n : ℕ) {scale : ℕ} (hs : 0 < scale) :
      ∃ m, run limit ⟨.value false, st⟩ (lit (Repr.fixed neg n scale).text) = .ok ⟨.number m, st⟩ ∧
        (m.pos = .frac ∨ m.pos = .expDigits) ∧
        m.exact = .decimal (.finite ⟨neg, n, -(scale : ℤ)⟩) :=
    ⟨_, run_text_fixed limit st neg n hs, Or.inl rfl, by simp [Num.exact, Num.dec]⟩
  unfold Decimal.ofDouble Double.repr
  by_cases hq : q = 0
  · simp only [if_pos hq]
    exact fixed false 0 one_pos
  · have hne := shortest_ne_zero h hq
    simp only [if_neg hq, ite_neg_eq_abs]
    split_ifs with hpoint he
    · exact fixed _ _ one_pos
    · exact fixed _ _ (by omega)
    · obtain ⟨m, hrun, hpos, hdec⟩ := run_text_sci limit st (decide (q < 0)) hne
        (shortest |q|).2
      exact ⟨m, hrun, Or.inr hpos, by simp only [Num.exact, hpos, hdec]⟩

end

/-! ## Dicts -/

/-- A member's text is read as `v`, whether a comma or a brace follows. -/
def Reads (limit : ℕ) (t : Str) (v : Value) : Prop :=
  ∀ items k st c, c = 0x2C ∨ c = 0x7D →
    run limit ⟨.value false, .dict items k :: st⟩ (t ++ [c]) =
      afterValue c (.dict (setItem k v items) k :: st)

/-- The value of a double's text. -/
def written : Double → Value
  | .finite q => .decimal (.ofDouble (.finite q))
  | x => .float x

section

variable {limit : ℕ}

theorem run_singleton (s : State) (c : ℕ) : run limit s [c] = stepExact limit s c := by
  rw [run, List.foldlM_cons]
  cases stepExact limit s c <;> rfl

/-- **A string comes back.** -/
theorem reads_quote (t : Str) : Reads limit (quote t) (.str t) := by
  intro items k st c hc
  have hopen : stepExact limit ⟨.value false, .dict items k :: st⟩ 0x22 =
      .ok ⟨.string false [] .plain none, .dict items k :: st⟩ := rfl
  have hclose : run limit ⟨.string false t .plain none, .dict items k :: st⟩ [0x22] =
      .ok ⟨.after, .dict (setItem k (.str t) items) k :: st⟩ := rfl
  rw [quote, List.cons_append, List.cons_append, run_cons hopen, List.append_assoc,
    run_append (run_quoted [] t), List.nil_append, run_append hclose, run_singleton]
  rfl

/-- **A double comes back as the decimal of its text.** -/
theorem reads_repr (x : ℚ) : Reads limit (lit (Double.ofRat x).repr.text) (written (.ofRat x)) := by
  intro items k st c hc
  cases hx : Double.ofRat x with
  | finite q =>
    obtain ⟨m, hrun, hpos, hexact⟩ := run_text_finite limit (.dict items k :: st) hx
    have hstop : m.pos.continues c = false := by
      rcases hpos with hpos | hpos <;> rcases hc with rfl | rfl <;> rw [hpos] <;> rfl
    rw [run_append hrun, run_singleton]
    simp only [stepExact, hstop, afterExact, hexact]
    rfl
  | inf =>
    have hword : run limit ⟨.value false, .dict items k :: st⟩ (lit Double.inf.repr.text) =
        .ok ⟨.after, .dict (setItem k (.float .inf) items) k :: st⟩ := rfl
    rw [run_append hword, run_singleton]
    rfl
  | negInf =>
    have hword : run limit ⟨.value false, .dict items k :: st⟩ (lit Double.negInf.repr.text) =
        .ok ⟨.after, .dict (setItem k (.float .negInf) items) k :: st⟩ := rfl
    rw [run_append hword, run_singleton]
    rfl
  | nan =>
    have hword : run limit ⟨.value false, .dict items k :: st⟩ (lit Double.nan.repr.text) =
        .ok ⟨.after, .dict (setItem k (.float .nan) items) k :: st⟩ := rfl
    rw [run_append hword, run_singleton]
    rfl

/-- The text of an integer. -/
theorem lit_toString_int (n : ℤ) :
    lit (toString n) = minus (decide (n < 0)) ++ (Nat.toDigits 10 n.natAbs).map Char.toNat := by
  cases n with
  | ofNat m => simp [toString, Int.repr, Nat.repr, lit, minus]
  | negSucc m => simp [toString, Int.repr, Nat.repr, lit, minus]

/-- **An integer comes back.** -/
theorem reads_int (n : ℤ) : Reads limit (lit (toString n)) (.int n) := by
  intro items k st c hc
  have hlead : Nat.toDigits 10 n.natAbs = ['0'] ∨ (Nat.toDigits 10 n.natAbs).head? ≠ some '0' := by
    by_cases hn : n.natAbs = 0
    · rw [hn]
      exact Or.inl (Nat.toDigits_zero 10)
    · exact Or.inr (head_toDigits hn)
  obtain ⟨p, hp, hrun⟩ := run_whole limit (.dict items k :: st) (decide (n < 0))
    Nat.toDigits_ne_nil (digital_toDigits n.natAbs) hlead
  rw [Nat.ofDigitChars_ten_toDigits] at hrun
  have hstop : p.continues c = false := by
    rcases hp with rfl | rfl <;> rcases hc with rfl | rfl <;> rfl
  have hexact : (⟨p, decide (n < 0), n.natAbs, 0, false, 0⟩ : Num).exact = .int n := by
    have hsign : (if decide (n < 0) = true then (-1 : ℤ) else 1) * n.natAbs = n := by
      by_cases hn : n < 0
      · rw [if_pos (decide_eq_true hn)]
        omega
      · rw [if_neg (by simpa using hn)]
        omega
    rcases hp with rfl | rfl
    · exact congrArg Value.int hsign
    · exact congrArg Value.int hsign
  rw [lit_toString_int, run_append hrun, run_singleton]
  simp only [stepExact, hstop, afterExact, hexact]
  rcases hp with rfl | rfl <;> rfl

/-- A member, from its name on. -/
theorem run_member {t : Str} {v : Value} (h : Reads limit t v) {c : ℕ} (hc : c = 0x2C ∨ c = 0x7D)
    (first : Bool) (items : List (Str × Value)) (k k' : Str) (st : List Frame) :
    run limit ⟨.key first, .dict items k' :: st⟩ (quote k ++ 0x3A :: t ++ [c]) =
      afterValue c (.dict (setItem k v items) k :: st) := by
  have hopen : stepExact limit ⟨.key first, .dict items k' :: st⟩ 0x22 =
      .ok ⟨.string true [] .plain none, .dict items k' :: st⟩ := rfl
  have hclose : run limit ⟨.string true k .plain none, .dict items k' :: st⟩ [0x22] =
      .ok ⟨.colon, .dict items k :: st⟩ := rfl
  have hcolon : stepExact limit ⟨.colon, .dict items k :: st⟩ 0x3A =
      .ok ⟨.value false, .dict items k :: st⟩ := rfl
  rw [quote, List.cons_append, List.cons_append, List.cons_append, run_cons hopen,
    List.append_assoc, List.append_assoc, run_append (run_quoted [] k), List.nil_append,
    run_append hclose, List.cons_append, run_cons hcolon, h items k st c hc]

end

theorem setItem_of_not_mem {κ ν : Type} [DecidableEq κ] {k : κ} {d : List (κ × ν)}
    (h : k ∉ d.map Prod.fst) (v : ν) : setItem k v d = d ++ [(k, v)] := by
  induction d with
  | nil => rfl
  | cons p d ih =>
    rw [List.map_cons, List.mem_cons, not_or] at h
    rw [setItem, if_neg (Ne.symm h.1), ih h.2, List.cons_append]

section

variable {limit : ℕ} {dec : Decimal → Double} {w : Value → Value}

/-- The members of a dict, up to its brace. -/
theorem run_dictItems {items : List (Str × Value)} (hne : items ≠ [])
    (h : ∀ p ∈ items, Reads limit (dumps dec p.2) (w p.2)) (first : Bool)
    (acc : List (Str × Value)) (hn : (acc.map Prod.fst ++ items.map Prod.fst).Nodup) (k : Str) :
    run limit ⟨.key first, [.dict acc k]⟩ (dumps.dictItems dec items ++ [0x7D]) =
      .ok ⟨.done (.dict (acc ++ items.map (Prod.map id w))), []⟩ := by
  induction items generalizing first acc k with
  | nil => exact absurd rfl hne
  | cons p r ih =>
    obtain ⟨k', v⟩ := p
    have hp := h (k', v) (by simp)
    have hk : k' ∉ acc.map Prod.fst := by
      rw [List.map_cons, List.nodup_append] at hn
      exact fun hm => hn.2.2 k' hm k' (by simp) rfl
    cases r with
    | nil =>
      rw [dumps.dictItems, run_member hp (Or.inr rfl), setItem_of_not_mem hk]
      rfl
    | cons q r =>
      have hcomma : run limit ⟨.key first, [.dict acc k]⟩
          (quote k' ++ 0x3A :: dumps dec v ++ [0x2C]) =
          .ok ⟨.key false, [.dict (acc ++ [(k', w v)]) k']⟩ := by
        rw [run_member hp (Or.inl rfl), setItem_of_not_mem hk]
        rfl
      have hrest := ih (by simp) (fun p hp => h p (by simp [hp])) false
        (acc ++ [(k', w v)]) (by simpa using hn) k'
      have htext : dumps.dictItems dec ((k', v) :: q :: r) ++ [0x7D] =
          (quote k' ++ 0x3A :: dumps dec v ++ [0x2C]) ++
            (dumps.dictItems dec (q :: r) ++ [0x7D]) := by
        rw [dumps.dictItems]
        simp
      rw [htext, run_append hcomma, hrest, List.append_assoc]
      rfl

end

end Loads

open Loads in
/-- **A dict comes back**, if its values do. -/
theorem loadsExact_dumps {limit : ℕ} (hl : 0 < limit) {dec : Decimal → Double} {w : Value → Value}
    {items : List (Str × Value)} (hne : items ≠ [])
    (h : ∀ p ∈ items, Reads limit (dumps dec p.2) (w p.2)) (hn : (items.map Prod.fst).Nodup) :
    loadsExact limit (dumps dec (.dict items)) = .ok (.dict (items.map (Prod.map id w))) := by
  have hopen : stepExact limit ⟨.value false, []⟩ 0x7B = .ok ⟨.key true, [.dict [] []]⟩ := by
    simp only [stepExact, step, startValue, push, List.length_nil, hl]
    rfl
  have hrun : run limit ⟨.value false, []⟩ (dumps dec (.dict items)) =
      .ok ⟨.done (.dict (items.map (Prod.map id w))), []⟩ := by
    rw [dumps, List.cons_append, run_cons hopen]
    exact run_dictItems hne h true [] (by simpa using hn) []
  unfold run at hrun
  rw [loadsExact, hrun]
  rfl

end Py
