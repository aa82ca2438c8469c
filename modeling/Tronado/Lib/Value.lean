import Mathlib.Data.List.Nodup
import Tronado.Lib.Number

/-!
# Python values, dicts and bytes

`Value` holds the objects that pass through a JSON program: what `json.loads`
returns, and the `Decimal`s that take part in what `json.dumps` is given.

A `dict` keeps one pair for each key, in the order of first insertion.  Inside a
`Value` it is the bare list of pairs; `Dict` is the same list with the proof that
no key is repeated.  `setItem` replaces in place or appends, as Python does.
-/

namespace Py

/-! ## Dicts -/

section Dict

variable {κ ν : Type} [DecidableEq κ]

/-- `d.get(k)`. -/
def getItem? (k : κ) : List (κ × ν) → Option ν
  | [] => none
  | (k', v) :: d => if k' = k then some v else getItem? k d

/-- `k in d`. -/
def hasKey (k : κ) (d : List (κ × ν)) : Bool := (getItem? k d).isSome

/-- `d[k] = v`. -/
def setItem (k : κ) (v : ν) : List (κ × ν) → List (κ × ν)
  | [] => [(k, v)]
  | (k', v') :: d => if k' = k then (k', v) :: d else (k', v') :: setItem k v d

theorem mem_keys_setItem {k x : κ} {v : ν} {d : List (κ × ν)} :
    x ∈ (setItem k v d).map Prod.fst ↔ x = k ∨ x ∈ d.map Prod.fst := by
  induction d with
  | nil => simp [setItem]
  | cons p d ih =>
    rw [setItem]
    split
    · next h =>
      subst h
      simp
    · rw [List.map_cons, List.mem_cons, ih, List.map_cons, List.mem_cons]
      exact or_left_comm

@[simp] theorem getItem?_setItem_self (k : κ) (v : ν) (d : List (κ × ν)) :
    getItem? k (setItem k v d) = some v := by
  induction d with
  | nil => simp [setItem, getItem?]
  | cons p d ih =>
    rw [setItem]
    split
    · next h => rw [getItem?, if_pos h]
    · next h => rw [getItem?, if_neg h, ih]

theorem getItem?_setItem_of_ne {k k' : κ} (h : k' ≠ k) (v : ν) (d : List (κ × ν)) :
    getItem? k' (setItem k v d) = getItem? k' d := by
  induction d with
  | nil => simp [setItem, getItem?, h.symm]
  | cons p d ih =>
    obtain ⟨k₀, v₀⟩ := p
    rw [setItem]
    split
    · next h₀ =>
      subst h₀
      rw [getItem?, if_neg h.symm, getItem?, if_neg h.symm]
    · rw [getItem?, getItem?, ih]

/-- `del d[k]`, if it is there. -/
def delItem (k : κ) (d : List (κ × ν)) : List (κ × ν) := d.filter (fun p => p.1 ≠ k)

@[simp] theorem getItem?_delItem_self (k : κ) (d : List (κ × ν)) :
    getItem? k (delItem k d) = none := by
  induction d with
  | nil => rfl
  | cons p d ih =>
    by_cases h : p.1 = k
    · rwa [delItem, List.filter_cons_of_neg (by simpa using h)]
    · rwa [delItem, List.filter_cons_of_pos (by simpa using h), getItem?, if_neg h]

theorem getItem?_delItem_of_ne {k k' : κ} (h : k' ≠ k) (d : List (κ × ν)) :
    getItem? k' (delItem k d) = getItem? k' d := by
  induction d with
  | nil => rfl
  | cons p d ih =>
    by_cases hp : p.1 = k
    · rw [delItem, List.filter_cons_of_neg (by simpa using hp), getItem?,
        if_neg (fun he => h (he.symm.trans hp))]
      exact ih
    · rw [delItem, List.filter_cons_of_pos (by simpa using hp), getItem?, getItem?]
      exact congrArg (fun x => if p.1 = k' then some p.2 else x) ih

theorem mem_of_getItem? {k : κ} {v : ν} {d : List (κ × ν)} (h : getItem? k d = some v) :
    (k, v) ∈ d := by
  induction d with
  | nil => simp [getItem?] at h
  | cons p d ih =>
    obtain ⟨k₀, v₀⟩ := p
    rw [getItem?] at h
    split at h
    · next h₀ =>
      subst h₀
      cases h
      exact List.mem_cons_self
    · exact List.mem_cons_of_mem _ (ih h)

theorem nodup_setItem {k : κ} {v : ν} {d : List (κ × ν)} (h : (d.map Prod.fst).Nodup) :
    ((setItem k v d).map Prod.fst).Nodup := by
  induction d with
  | nil => simp [setItem]
  | cons p d ih =>
    rw [List.map_cons, List.nodup_cons] at h
    rw [setItem]
    split
    · simpa using h
    · next hne =>
      rw [List.map_cons, List.nodup_cons]
      refine ⟨?_, ih h.2⟩
      intro hm
      rcases mem_keys_setItem.mp hm with he | hm
      · exact hne he
      · exact h.1 hm

theorem getItem?_of_not_mem {k : κ} {d : List (κ × ν)} (h : k ∉ d.map Prod.fst) :
    getItem? k d = none := by
  cases hv : getItem? k d with
  | none => rfl
  | some v => exact absurd (List.mem_map_of_mem (mem_of_getItem? hv)) h

/-- A key is there once. -/
theorem filter_key_eq {k : κ} {v : ν} {d : List (κ × ν)} (hn : (d.map Prod.fst).Nodup)
    (h : (k, v) ∈ d) : d.filter (fun p => decide (p.1 = k)) = [(k, v)] := by
  induction d with
  | nil => cases h
  | cons p d ih =>
    rw [List.map_cons, List.nodup_cons] at hn
    rcases List.mem_cons.mp h with rfl | h
    · rw [List.filter_cons_of_pos (by simp), List.filter_eq_nil_iff.mpr]
      intro q hq
      have hne : q.1 ≠ k := fun he => hn.1 (List.mem_map.mpr ⟨q, hq, he⟩)
      simpa using hne
    · have hne : p.1 ≠ k := fun he => hn.1 (List.mem_map.mpr ⟨(k, v), h, he.symm⟩)
      rw [List.filter_cons_of_neg (by simpa using hne), ih hn.2 h]

end Dict

/-- A Python `dict`: pairs in insertion order, no key twice. -/
structure Dict (κ ν : Type) where
  items : List (κ × ν)
  nodup : (items.map Prod.fst).Nodup

namespace Dict

variable {κ ν : Type}

def empty : Dict κ ν := ⟨[], by simp⟩

/-- The keys of a dict. -/
def keys (d : Dict κ ν) : List κ := d.items.map Prod.fst

@[simp] theorem keys_empty : (empty : Dict κ ν).keys = [] := rfl

variable [DecidableEq κ]

/-- `d.get(k)`. -/
def get? (d : Dict κ ν) (k : κ) : Option ν := getItem? k d.items

/-- `d[k] = v`. -/
def set (d : Dict κ ν) (k : κ) (v : ν) : Dict κ ν := ⟨setItem k v d.items, nodup_setItem d.nodup⟩

/-- `d.update(items)`. -/
def update (d : Dict κ ν) (items : List (κ × ν)) : Dict κ ν :=
  items.foldl (fun d p => d.set p.1 p.2) d

/-- `dict(items)`. -/
def ofList (items : List (κ × ν)) : Dict κ ν := empty.update items

@[simp] theorem mem_keys_set (d : Dict κ ν) (k x : κ) (v : ν) :
    x ∈ (d.set k v).keys ↔ x = k ∨ x ∈ d.keys := mem_keys_setItem

@[simp] theorem mem_keys_update (d : Dict κ ν) (items : List (κ × ν)) (x : κ) :
    x ∈ (d.update items).keys ↔ x ∈ d.keys ∨ x ∈ items.map Prod.fst := by
  induction items generalizing d with
  | nil => simp [update]
  | cons p items ih =>
    have h := ih (d.set p.1 p.2)
    rw [mem_keys_set] at h
    rw [update, List.foldl_cons, ← update, h, List.map_cons, List.mem_cons, or_assoc,
      or_left_comm]

theorem mem_items_set (d : Dict κ ν) (k : κ) (v : ν) : (k, v) ∈ (d.set k v).items :=
  mem_of_getItem? (getItem?_setItem_self k v d.items)

theorem get?_set (d : Dict κ ν) (k x : κ) (v : ν) :
    (d.set k v).get? x = if x = k then some v else d.get? x := by
  by_cases h : x = k
  · subst h
    rw [if_pos rfl]
    exact getItem?_setItem_self x v d.items
  · rw [if_neg h]
    exact getItem?_setItem_of_ne h v d.items

/-- **The items win over what was there before.** -/
theorem get?_update (d : Dict κ ν) {items : List (κ × ν)} (hn : (items.map Prod.fst).Nodup)
    (x : κ) : (d.update items).get? x = (getItem? x items).or (d.get? x) := by
  induction items generalizing d with
  | nil => rfl
  | cons p items ih =>
    rw [List.map_cons, List.nodup_cons] at hn
    have hstep : d.update (p :: items) = (d.set p.1 p.2).update items := rfl
    rw [hstep, ih _ hn.2, get?_set, getItem?]
    by_cases h : p.1 = x
    · subst h
      rw [if_pos rfl, if_pos rfl, getItem?_of_not_mem hn.1]
      rfl
    · rw [if_neg (Ne.symm h), if_neg h]

theorem get?_ofList {items : List (κ × ν)} (hn : (items.map Prod.fst).Nodup) (x : κ) :
    (ofList items).get? x = getItem? x items := by
  rw [ofList, get?_update _ hn]
  exact Option.or_none

end Dict

/-! ## Values -/

/-- A Python object of the kinds JSON has, and `Decimal`. -/
inductive Value
  | null
  | bool (b : Bool)
  | int (n : ℤ)
  | float (x : Double)
  | decimal (d : Decimal)
  | str (s : Str)
  | list (xs : List Value)
  | dict (items : List (Str × Value))

/-- `value.get(key)` where `isinstance(value, dict)`. -/
def Value.get? (v : Value) (k : Str) : Option Value :=
  match v with
  | .dict items => getItem? k items
  | _ => none

/-! ## Bytes -/

/-- A Python `bytes`. -/
abbrev Bytes := List UInt8

/-- UTF-8 of one code point. -/
def utf8Char (c : ℕ) : List ℕ :=
  if c < 0x80 then [c]
  else if c < 0x800 then [0xC0 + c / 64, 0x80 + c % 64]
  else if c < 0x10000 then [0xE0 + c / 4096, 0x80 + c / 64 % 64, 0x80 + c % 64]
  else [0xF0 + c / 262144, 0x80 + c / 4096 % 64, 0x80 + c / 64 % 64, 0x80 + c % 64]

/-- A Unicode scalar value: a code point that is no surrogate. -/
def isScalar (c : ℕ) : Bool := c < 0xD800 || (0xE000 ≤ c && c < 0x110000)

/-- `s.encode("utf-8")`; `none` is `UnicodeEncodeError`. -/
def encodeUtf8 (s : Str) : Option Bytes :=
  if s.all isScalar then some ((s.flatMap utf8Char).map UInt8.ofNat) else none

/-- The characters of a Lean string are scalar values. -/
theorem isScalar_lit (s : String) : ∀ c ∈ lit s, isScalar c = true := by
  intro c hc
  obtain ⟨ch, -, rfl⟩ := List.mem_map.mp hc
  have h := ch.valid
  simp only [UInt32.isValidChar, Nat.isValidChar] at h
  simp only [isScalar, Char.toNat, Bool.or_eq_true, Bool.and_eq_true, decide_eq_true_eq]
  omega

/-- A `str` of scalar values, as a Lean string. -/
def toString? (s : Str) : Option String :=
  if s.all isScalar then some (String.ofList (s.map Char.ofNat)) else none

/-- The Lean string is the `str`. -/
theorem lit_of_toString? {s : Str} {t : String} (h : toString? s = some t) : lit t = s := by
  unfold toString? at h
  split at h
  · next hall =>
    cases h
    have hchar : ∀ c ∈ s, (Char.ofNat c).toNat = c := by
      intro c hc
      have hscalar := List.all_eq_true.mp hall c hc
      simp only [isScalar, Bool.or_eq_true, Bool.and_eq_true, decide_eq_true_eq] at hscalar
      have hvalid : c.isValidChar := by
        unfold Nat.isValidChar
        omega
      rw [Char.ofNat, dif_pos hvalid]
      rfl
    rw [lit, String.toList_ofList, List.map_map]
    exact (List.map_congr_left hchar).trans (List.map_id s)
  · cases h

/-- The lower-case hexadecimal digit of a number below sixteen. -/
def hexDigit (n : ℕ) : ℕ := if n < 10 then 48 + n else 87 + n

/-- `bytes.hex()`. -/
def hex (b : Bytes) : Str := b.flatMap (fun x => [hexDigit (x.toNat / 16), hexDigit (x.toNat % 16)])

theorem mem_hex {b : Bytes} {c : ℕ} (h : c ∈ hex b) : (48 ≤ c ∧ c ≤ 57) ∨ (97 ≤ c ∧ c ≤ 102) := by
  obtain ⟨x, -, hx⟩ := List.mem_flatMap.mp h
  have hlt : x.toNat < 256 := x.toNat_lt
  simp only [List.mem_cons, List.not_mem_nil, or_false, hexDigit] at hx
  rcases hx with rfl | rfl <;> split <;> omega

end Py
