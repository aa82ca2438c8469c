import Tronado.Lib.Loads
import Tronado.Lib.Shortest

/-!
# Reading number literals exactly

`loadsExact` is `json.loads(s, parse_float=Decimal)`: the decoder of `loads`, except
that a literal with a point or an exponent becomes the decimal it denotes instead of
the nearest double.

* `loads_eq_approx`: `loads` is the exact reading with every such decimal rounded.
* `Value.literal?`: the number that a literal denotes.
-/

namespace Py

/-- A value whose decimals are read as doubles. -/
def Value.approx : Value → Value
  | .null => .null
  | .bool b => .bool b
  | .int n => .int n
  | .float x => .float x
  | .decimal (.finite d) => .float d.toDouble
  | .decimal d => .decimal d
  | .str s => .str s
  | .list xs => .list (approxList xs)
  | .dict items => .dict (approxItems items)
where
  approxList : List Value → List Value
    | [] => []
    | v :: r => approx v :: approxList r
  approxItems : List (Str × Value) → List (Str × Value)
    | [] => []
    | (k, v) :: r => (k, approx v) :: approxItems r

/-- The number a literal denotes, where a value was read from one. -/
def Value.literal? : Value → Option ℚ
  | .int n => some n
  | .decimal d => d.toRat?
  | _ => none

/-- A value read from JSON proper: without `NaN` and the infinities, which are the only
doubles of an exact reading. -/
def Value.isJson : Value → Bool
  | .float _ => false
  | .list xs => allList xs
  | .dict items => allItems items
  | _ => true
where
  allList : List Value → Bool
    | [] => true
    | v :: r => isJson v && allList r
  allItems : List (Str × Value) → Bool
    | [] => true
    | (_, v) :: r => isJson v && allItems r

theorem isJson_dict {items : List (Str × Value)} :
    (Value.dict items).isJson = true ↔ ∀ p ∈ items, p.2.isJson = true := by
  rw [Value.isJson]
  induction items with
  | nil => exact iff_of_true rfl (fun _ hp => absurd hp List.not_mem_nil)
  | cons p r ih => rw [Value.isJson.allItems, Bool.and_eq_true, ih, List.forall_mem_cons]

theorem approxList_eq (xs : List Value) : Value.approx.approxList xs = xs.map Value.approx := by
  induction xs with
  | nil => rfl
  | cons v r ih => rw [Value.approx.approxList, ih, List.map_cons]

theorem approxItems_eq (items : List (Str × Value)) :
    Value.approx.approxItems items = items.map (Prod.map id Value.approx) := by
  induction items with
  | nil => rfl
  | cons p r ih => rw [Value.approx.approxItems, ih, List.map_cons]; rfl

@[simp] theorem approx_list (xs : List Value) :
    (Value.list xs).approx = .list (xs.map Value.approx) := by
  rw [Value.approx, approxList_eq]

@[simp] theorem approx_dict (items : List (Str × Value)) :
    (Value.dict items).approx = .dict (items.map (Prod.map id Value.approx)) := by
  rw [Value.approx, approxItems_eq]

/-- The object behind a rounded one. -/
theorem approx_eq_dict {v : Value} {items : List (Str × Value)} (h : v.approx = .dict items) :
    ∃ items', v = .dict items' ∧ items = items'.map (Prod.map id Value.approx) := by
  rcases v with _ | _ | _ | _ | ⟨_ | _ | _⟩ | _ | _ | items'
  case dict =>
    rw [approx_dict] at h
    exact ⟨items', rfl, (Value.dict.inj h).symm⟩
  all_goals simp [Value.approx] at h

section

variable {κ ν ν' : Type} [DecidableEq κ]

theorem setItem_map (f : ν → ν') (k : κ) (v : ν) (d : List (κ × ν)) :
    setItem k (f v) (d.map (Prod.map id f)) = (setItem k v d).map (Prod.map id f) := by
  induction d with
  | nil => rfl
  | cons p d ih =>
    obtain ⟨k', v'⟩ := p
    rw [List.map_cons, Prod.map_apply, id_eq, setItem, setItem, ih]
    split <;> rfl

theorem getItem?_map (f : ν → ν') (k : κ) (d : List (κ × ν)) :
    getItem? k (d.map (Prod.map id f)) = (getItem? k d).map f := by
  induction d with
  | nil => rfl
  | cons p d ih =>
    obtain ⟨k', v'⟩ := p
    rw [List.map_cons, Prod.map_apply, id_eq, getItem?, getItem?, ih]
    split <;> rfl

end

namespace Loads

/-- The decimal that a literal with a point or an exponent denotes. -/
def Num.dec (n : Num) : Dec :=
  ⟨n.neg, n.coeff, (if n.expNeg then -(n.exp : ℤ) else n.exp) - n.scale⟩

/-- The value of a literal, exactly. -/
def Num.exact (n : Num) : Value :=
  match n.pos with
  | .zero | .int => n.value
  | _ => .decimal (.finite n.dec)

/-- Whether a literal goes on with `c`, or has to. -/
def NumPos.continues (p : NumPos) (c : ℕ) : Bool :=
  let isExp := c == 0x65 || c == 0x45
  match p with
  | .zero => c == 0x2E || isExp
  | .int => isDigit c || c == 0x2E || isExp
  | .frac => isDigit c || isExp
  | .expDigits => isDigit c
  | _ => true

/-- A character after a literal. -/
def afterExact (n : Num) (c : ℕ) (st : List Frame) : Except LoadsError State :=
  match complete n.exact st with
  | ⟨.done v, st⟩ => if isWs c then .ok ⟨.done v, st⟩ else bad
  | ⟨_, st⟩ => afterValue c st

/-- One character of the text. -/
def stepExact (limit : ℕ) (s : State) (c : ℕ) : Except LoadsError State :=
  match s.mode with
  | .number n =>
    if n.pos.continues c then stepNumber n c s.stack else afterExact n c s.stack
  | _ => step limit s c

/-- The end of the text. -/
def finishExact (s : State) : Except LoadsError Value :=
  match s.mode with
  | .number n =>
    if n.pos.complete ∧ s.stack = [] then .ok n.exact else .error .valueError
  | _ => finish s

/-! ## Rounding while reading -/

def Frame.approx : Frame → Frame
  | .list items => .list (items.map Value.approx)
  | .dict items k => .dict (items.map (Prod.map id Value.approx)) k

def Mode.approx : Mode → Mode
  | .word rest v => .word rest v.approx
  | .done v => .done v.approx
  | m => m

def State.approx (s : State) : State := ⟨s.mode.approx, s.stack.map Frame.approx⟩

theorem exact_approx {n : Num} (h : n.pos.complete = true) : n.exact.approx = n.value := by
  obtain ⟨pos, neg, coeff, scale, expNeg, exp⟩ := n
  have hfloat : (Value.decimal (.finite (Num.dec ⟨pos, neg, coeff, scale, expNeg, exp⟩))).approx =
      .float (.ofRat (((if neg then -1 else 1 : ℤ) : ℚ) * coeff *
        (10 : ℚ) ^ ((if expNeg then -(exp : ℤ) else exp) - scale))) := by
    simp only [Value.approx, Dec.toDouble, Dec.toRat, Num.dec]
    cases neg <;> simp
  cases pos with
  | zero => rfl
  | int => rfl
  | frac => exact hfloat
  | expDigits => exact hfloat
  | _ => cases h

theorem complete_approx (v : Value) (st : List Frame) :
    complete v.approx (st.map Frame.approx) = (complete v st).approx := by
  cases st with
  | nil => rfl
  | cons f st =>
    cases f with
    | list items => simp [complete, State.approx, Frame.approx, Mode.approx]
    | dict items k =>
      rw [List.map_cons, Frame.approx, complete, setItem_map]
      rfl

theorem endString_approx (isKey : Bool) (s : Str) (st : List Frame) :
    endString isKey s (st.map Frame.approx) = (endString isKey s st).approx := by
  cases isKey with
  | false => exact complete_approx (.str s) st
  | true =>
    cases st with
    | nil => exact complete_approx (.str s) []
    | cons f st =>
      cases f with
      | list items => exact complete_approx (.str s) (.list items :: st)
      | dict items k => rfl

/-- Rounding the containers first or last makes no difference to a step. -/
def Commutes (f : List Frame → Except LoadsError State) : Prop :=
  ∀ st, f (st.map Frame.approx) = (f st).map State.approx

namespace Commutes

variable {f g : List Frame → Except LoadsError State}

theorem ite_of (p : Prop) [Decidable p] (hf : Commutes f) (hg : ¬ p → Commutes g) :
    Commutes fun st => if p then f st else g st := by
  intro st
  dsimp only
  split
  · exact hf st
  · next hp => exact hg hp st

theorem ite (p : Prop) [Decidable p] (hf : Commutes f) (hg : Commutes g) :
    Commutes fun st => if p then f st else g st :=
  ite_of p hf fun _ => hg

theorem error : Commutes fun _ => bad := fun _ => rfl

theorem mode {m : Mode} (h : m.approx = m) : Commutes fun st => .ok ⟨m, st⟩ := by
  intro st
  rw [Except.map, State.approx, h]

theorem push (limit : ℕ) {f : Frame} {m : Mode} (hf : f.approx = f) (hm : m.approx = m) :
    Commutes (push limit f m) := by
  intro st
  unfold Loads.push
  rw [List.length_map]
  split
  · rw [Except.map, State.approx, List.map_cons, hf, hm]
  · rfl

end Commutes

theorem startValue_commutes (limit c : ℕ) : Commutes (startValue limit c) := by
  unfold startValue
  refine .ite _ (.mode rfl) (.ite _ (.push _ rfl rfl) (.ite _ (.push _ rfl rfl) ?_))
  exact .ite _ (.mode rfl) (.ite _ (.mode rfl) (.ite _ (.mode rfl) (.ite _ (.mode rfl)
    (.ite _ (.mode rfl) (.ite _ (.mode rfl) (.ite _ (.mode rfl) (.ite _ (.mode rfl) .error)))))))

theorem afterValue_commutes (c : ℕ) : Commutes (afterValue c) := by
  intro st
  cases st with
  | nil => rfl
  | cons f st =>
    cases f with
    | list items =>
      have hclose := complete_approx (.list items) st
      rw [approx_list] at hclose
      simp only [List.map_cons, Frame.approx, afterValue, hclose]
      split_ifs <;> rfl
    | dict items k =>
      have hclose := complete_approx (.dict items) st
      rw [approx_dict] at hclose
      simp only [List.map_cons, Frame.approx, afterValue, hclose]
      split_ifs <;> rfl

theorem stepString_commutes (isKey : Bool) (acc : Str) (escape : Escape) (high : Option ℕ) (c : ℕ) :
    Commutes (stepString isKey acc escape high c) := by
  cases escape with
  | plain =>
    exact .ite _ (fun st => congrArg Except.ok (endString_approx isKey acc st))
      (.ite _ (.mode rfl) (.ite _ .error (.mode rfl)))
  | backslash =>
    refine .ite _ (.mode rfl) ?_
    cases escaped c with
    | none => exact .error
    | some d => exact .mode rfl
  | hex count value =>
    unfold stepString
    cases hexValue c with
    | none => exact .error
    | some d => exact .ite _ (.mode rfl) (.mode rfl)

/-- Inside a literal there is nothing to round. -/
theorem stepNumber_commutes {n : Num} {c : ℕ} (h : n.pos.continues c = true) :
    Commutes (stepNumber n c) := by
  obtain ⟨pos, neg, coeff, scale, expNeg, exp⟩ := n
  cases pos with
  | sign => exact .ite _ (.mode rfl) (.ite _ (.mode rfl) (.ite _ (.mode rfl) .error))
  | zero =>
    exact .ite_of _ (.mode rfl) fun hdot => .ite_of _ (.mode rfl) fun hexp =>
      absurd h (by simpa [NumPos.continues, hdot] using hexp)
  | int =>
    exact .ite_of _ (.mode rfl) fun hdigit => .ite_of _ (.mode rfl) fun hdot =>
      .ite_of _ (.mode rfl) fun hexp =>
        absurd h (by simpa [NumPos.continues, hdigit, hdot] using hexp)
  | dot => exact .ite _ (.mode rfl) .error
  | frac =>
    exact .ite_of _ (.mode rfl) fun hdigit => .ite_of _ (.mode rfl) fun hexp =>
      absurd h (by simpa [NumPos.continues, hdigit] using hexp)
  | exp => exact .ite _ (.mode rfl) (.ite _ (.mode rfl) (.ite _ (.mode rfl) .error))
  | expSign => exact .ite _ (.mode rfl) .error
  | expDigits => exact .ite_of _ (.mode rfl) fun hdigit => absurd h hdigit

theorem stepNumber_of_not_continues {n : Num} {c : ℕ} (h : n.pos.continues c = false)
    (st : List Frame) : n.pos.complete = true ∧ stepNumber n c st = afterNumber n c st := by
  obtain ⟨pos, neg, coeff, scale, expNeg, exp⟩ := n
  cases pos <;> simp_all [NumPos.continues, NumPos.complete, stepNumber]

theorem afterExact_approx {n : Num} (h : n.pos.complete = true) (c : ℕ) (st : List Frame) :
    afterNumber n c (st.map Frame.approx) = (afterExact n c st).map State.approx := by
  unfold afterNumber afterExact
  rw [if_pos h, ← exact_approx h, complete_approx]
  obtain ⟨mode, stack⟩ := complete n.exact st
  cases mode with
  | done v =>
    simp only [State.approx, Mode.approx]
    split <;> rfl
  | _ => exact afterValue_commutes c stack

theorem value_commutes (limit : ℕ) (first : Bool) (c : ℕ) :
    Commutes fun st => step limit ⟨.value first, st⟩ c := by
  have hstart := startValue_commutes limit c
  refine .ite _ (.mode rfl) ?_
  cases first with
  | false => exact hstart
  | true =>
    intro st
    rcases st with _ | ⟨items | ⟨items, k⟩, st⟩
    · exact hstart []
    · have hclose := complete_approx (.list items) st
      rw [approx_list] at hclose
      simp only [List.map_cons, Frame.approx, hclose]
      split
      · rfl
      · exact hstart (.list items :: st)
    · exact hstart (.dict items k :: st)

theorem key_commutes (first : Bool) (c : ℕ) :
    Commutes fun st => step 0 ⟨.key first, st⟩ c := by
  refine .ite _ (.mode rfl) (.ite _ (.mode rfl) ?_)
  cases first with
  | false => exact .error
  | true =>
    intro st
    rcases st with _ | ⟨items | ⟨items, k⟩, st⟩
    · rfl
    · rfl
    · have hclose := complete_approx (.dict items) st
      rw [approx_dict] at hclose
      simp only [List.map_cons, Frame.approx, hclose]
      split <;> rfl

/-- **One character, exactly or rounded.** -/
theorem step_approx (limit : ℕ) (s : State) (c : ℕ) :
    step limit s.approx c = (stepExact limit s c).map State.approx := by
  obtain ⟨mode, stack⟩ := s
  cases mode with
  | value first => exact value_commutes limit first c stack
  | key first => exact key_commutes first c stack
  | colon =>
    have h : Commutes fun st => if isWs c then .ok ⟨.colon, st⟩
        else if c = 0x3A then .ok ⟨.value false, st⟩ else bad :=
      .ite _ (.mode rfl) (.ite _ (.mode rfl) .error)
    exact h stack
  | string isKey acc escape high => exact stepString_commutes isKey acc escape high c stack
  | number n =>
    simp only [stepExact]
    split
    · next h => exact stepNumber_commutes h stack
    · next h =>
      obtain ⟨hcomplete, -⟩ := stepNumber_of_not_continues (Bool.not_eq_true _ ▸ h) stack
      have hstep := (stepNumber_of_not_continues (Bool.not_eq_true _ ▸ h)
        (stack.map Frame.approx)).2
      exact hstep.trans (afterExact_approx hcomplete c stack)
  | word rest v =>
    simp only [stepExact, step, State.approx, Mode.approx]
    match rest with
    | [] => rfl
    | [d] =>
      simp only [complete_approx]
      split <;> rfl
    | d :: e :: r =>
      dsimp only
      split <;> rfl
  | after => exact afterValue_commutes c stack
  | done v =>
    simp only [stepExact, step, State.approx, Mode.approx]
    split <;> rfl

theorem finish_approx (s : State) :
    finish s.approx = (finishExact s).map Value.approx := by
  obtain ⟨mode, stack⟩ := s
  cases mode with
  | number n =>
    simp only [finish, finishExact, State.approx, Mode.approx, List.map_eq_nil_iff]
    split
    · next h => rw [← exact_approx h.1]; rfl
    · rfl
  | _ => rfl

end Loads

open Loads in
/-- `json.loads(s, parse_float=Decimal)`. -/
def loadsExact (limit : ℕ) (s : Str) : Except LoadsError Value :=
  s.foldlM (stepExact limit) ⟨.value false, []⟩ >>= finishExact

open Loads in
/-- **`loads` is the exact reading, rounded.** -/
theorem loads_eq_approx (limit : ℕ) (s : Str) :
    loads limit s = (loadsExact limit s).map Value.approx := by
  have hrun (t : Str) (s : State) :
      t.foldlM (step limit) s.approx = (t.foldlM (stepExact limit) s).map State.approx := by
    induction t generalizing s with
    | nil => rfl
    | cons c t ih =>
      rw [List.foldlM_cons, List.foldlM_cons, step_approx]
      cases stepExact limit s c with
      | error e => rfl
      | ok s' => exact ih s'
  have hall := hrun s ⟨.value false, []⟩
  unfold loads loadsExact
  rw [show s.foldlM (step limit) ⟨.value false, []⟩ = _ from hall]
  cases s.foldlM (stepExact limit) ⟨.value false, []⟩ with
  | error e => rfl
  | ok s' => exact finish_approx s'

end Py
