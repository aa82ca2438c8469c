import Mathlib.Data.List.Pairwise
import Tronado.Lib.Value

/-!
# Validation of JSON objects by field

A schema reads the fields of a model out of a JSON object.  Each field has a
validator for its value and a list of keys it is looked up under: the first key
that is present is taken, whatever the others hold.  Keys that belong to no field
are not looked at.

* `required`: a field that must be present.
* `withDefault`: a field that may be missing, in which case it has its default,
  which is not validated.
* `optional`: a validator that lets `null` through.
* `Model.validate`: only objects are accepted.

`Row`s describe the fields of a model from outside.  When a model reads only its
rows (`Model.Reads`), its keys set to `null` follow rules that need no more
(`nullRules_of_reads`).

`isSome_required` says when a required field is read, and `isSome_bind_iff` when a
row of fields is.
-/

namespace Schema

open Py

variable {α β : Type}

/-- A validator: the value it makes of a JSON value, or `none` for an error. -/
abbrev Validator (α : Type) := Value → Option α

/-- A JSON object. -/
abbrev Obj := List (Str × Value)

/-- `Optional[...]`: `null` is let through. -/
def optional (v : Validator α) : Validator (Option α)
  | .null => some none
  | x => (v x).map some

/-- The value under the first key that is present. -/
def lookup (keys : List String) (o : Obj) : Option Value :=
  keys.findSome? (fun k => getItem? (lit k) o)

/-- A field that must be present. -/
def required (v : Validator α) (keys : List String) (o : Obj) : Option α := (lookup keys o).bind v

/-- A field with a default. -/
def withDefault (v : Validator α) (default : α) (keys : List String) (o : Obj) : Option α :=
  match lookup keys o with
  | some x => v x
  | none => some default

/-- A model: its name, and how its fields are read. -/
structure Model (α : Type) where
  name : String
  fields : Obj → Option α

/-- `model_validate(data)`. -/
def Model.validate (m : Model α) : Validator α
  | .dict o => m.fields o
  | _ => none

@[simp] theorem Model.validate_dict (m : Model α) (o : Obj) :
    m.validate (.dict o) = m.fields o := rfl

theorem Model.validate_eq_some {m : Model α} {v : Value} {a : α} (h : m.validate v = some a) :
    ∃ o, v = .dict o ∧ m.fields o = some a := by
  cases v with
  | dict o => exact ⟨o, rfl, h⟩
  | _ => cases h

/-! ## When a field is read -/

/-- A field under a single row of keys is missing when none of them is there. -/
theorem lookup_eq_none_iff {keys : List String} {o : Obj} :
    lookup keys o = none ↔ ∀ k ∈ keys, hasKey (lit k) o = false := by
  simp [lookup, hasKey]

theorem isSome_required {v : Validator α} {keys : List String} {o : Obj} :
    (required v keys o).isSome = true ↔ ∃ x, lookup keys o = some x ∧ (v x).isSome = true := by
  unfold required
  cases lookup keys o <;> simp

/-- **A required field is there**, under one of its keys. -/
theorem exists_hasKey_of_required {v : Validator α} {keys : List String} {o : Obj}
    (h : (required v keys o).isSome = true) : ∃ k ∈ keys, hasKey (lit k) o = true := by
  obtain ⟨x, hx, -⟩ := isSome_required.mp h
  by_contra hn
  simp only [not_exists, not_and, Bool.not_eq_true] at hn
  rw [lookup_eq_none_iff.mpr hn] at hx
  cases hx

/-- A row of fields is read when each one is. -/
theorem isSome_bind_iff {x : Option α} {f : α → Option β} :
    (x >>= f).isSome = true ↔ ∃ a, x = some a ∧ (f a).isSome = true := by
  cases x <;> simp

/-- One field of a row that is read. -/
theorem bind_eq_some {x : Option α} {f : α → Option β} {b : β} (h : x >>= f = some b) :
    ∃ a, x = some a ∧ f a = some b := by
  cases x with
  | none => cases h
  | some a => exact ⟨a, rfl, h⟩

theorem bind_eq_none {x : Option α} {f : α → Option β} (h : ∀ a, f a = none) : x >>= f = none := by
  cases x with
  | none => rfl
  | some a => exact h a

/-! ## Null and absent -/

/-- What a field makes of a missing value and of `null`. -/
inductive Kind
  /-- It has to be there. -/
  | required
  /-- It may be missing, but its type has no `null`. -/
  | strict
  /-- It may be missing, and its type has `null`. -/
  | nullable
  deriving DecidableEq

/-- A field seen from outside. -/
structure Row where
  kind : Kind
  keys : List String

/-- A field under these keys is missing or `null`. -/
def Missing (keys : List String) (o : Obj) : Prop :=
  lookup keys o = none ∨ lookup keys o = some .null

/-- One of the keys is there. -/
def Present (keys : List String) (o : Obj) : Prop := ∃ k ∈ keys, hasKey (lit k) o = true

/-- Two objects look the same to a field. -/
def Row.Alike (r : Row) (o o' : Obj) : Prop :=
  lookup r.keys o = lookup r.keys o' ∨ (r.kind = .nullable ∧ Missing r.keys o ∧ Missing r.keys o')

/-- A model reads these rows and nothing else, each under keys of its own. -/
structure Model.Reads (m : Model α) (rows : List Row) : Prop where
  congr : ∀ o o', (∀ r ∈ rows, r.Alike o o') → m.fields o = m.fields o'
  rejects : ∀ r ∈ rows, r.kind = .strict → ∀ o, lookup r.keys o = some .null → m.fields o = none
  nodup : (rows.flatMap Row.keys).Nodup

/-- What becomes of a key that is set to `null`, next to the same object without
the key. -/
structure Model.NullRules (m : Model α) (rows : List Row) : Prop where
  /-- Nothing changes behind a key that is listed earlier and is there. -/
  shadowed : ∀ r ∈ rows, ∀ before k after, r.keys = before ++ k :: after →
    ∀ o, Present before o →
      m.validate (.dict (setItem (lit k) .null o)) = m.validate (.dict (delItem (lit k) o))
  /-- `null` is as good as nothing, unless a later key has a value. -/
  nullable : ∀ r ∈ rows, r.kind = .nullable → ∀ before k after, r.keys = before ++ k :: after →
    ∀ o, Missing after o →
      m.validate (.dict (setItem (lit k) .null o)) = m.validate (.dict (delItem (lit k) o))
  /-- `null` is rejected where it is read. -/
  strict : ∀ r ∈ rows, r.kind = .strict → ∀ before k after, r.keys = before ++ k :: after →
    ∀ o, ¬ Present before o → m.validate (.dict (setItem (lit k) .null o)) = none

/-- Every key of a field that may be missing may as well be `null`. -/
def Model.NullIsAbsent (m : Model α) (rows : List Row) : Prop :=
  ∀ r ∈ rows, r.kind ≠ .required → ∀ k ∈ r.keys, ∀ o,
    m.validate (.dict (setItem (lit k) .null o)) = m.validate (.dict (delItem (lit k) o))

theorem required_congr {v : Validator α} {keys : List String} {o o' : Obj}
    (h : Row.Alike ⟨.required, keys⟩ o o') : required v keys o = required v keys o' := by
  rcases h with h | ⟨h, -⟩
  · exact congrArg (fun x => Option.bind x v) h
  · cases h

theorem strict_congr {v : Validator α} {d : α} {keys : List String} {o o' : Obj}
    (h : Row.Alike ⟨.strict, keys⟩ o o') : withDefault v d keys o = withDefault v d keys o' := by
  rcases h with h | ⟨h, -⟩
  · unfold withDefault
    rw [show lookup keys o = lookup keys o' from h]
  · cases h

theorem withDefault_of_missing {v : Validator α} {d : α} {keys : List String} {o : Obj}
    (hv : v .null = some d) (h : Missing keys o) : withDefault v d keys o = some d := by
  unfold withDefault
  rcases h with h | h <;> rw [h]
  exact hv

theorem withDefault_null {v : Validator α} {d : α} {keys : List String} {o : Obj}
    (hv : v .null = none) (h : lookup keys o = some .null) : withDefault v d keys o = none := by
  unfold withDefault
  rw [h]
  exact hv

theorem nullable_congr {v : Validator α} {d : α} {keys : List String} {o o' : Obj}
    (hv : v .null = some d) (h : Row.Alike ⟨.nullable, keys⟩ o o') :
    withDefault v d keys o = withDefault v d keys o' := by
  rcases h with h | ⟨-, h, h'⟩
  · unfold withDefault
    rw [show lookup keys o = lookup keys o' from h]
  · rw [withDefault_of_missing hv h, withDefault_of_missing hv h']

theorem optional_congr {v : Validator α} {keys : List String} {o o' : Obj}
    (h : Row.Alike ⟨.nullable, keys⟩ o o') :
    withDefault (optional v) none keys o = withDefault (optional v) none keys o' :=
  nullable_congr rfl h

/-! ### Looking up behind a change -/

theorem lookup_congr {keys : List String} {o o' : Obj}
    (h : ∀ k ∈ keys, getItem? (lit k) o = getItem? (lit k) o') :
    lookup keys o = lookup keys o' := by
  induction keys with
  | nil => rfl
  | cons k keys ih =>
    unfold lookup
    rw [List.findSome?_cons, List.findSome?_cons, h k (by simp)]
    cases getItem? (lit k) o' with
    | some x => rfl
    | none => exact ih fun k hk => h k (by simp [hk])

theorem lookup_append (keys keys' : List String) (o : Obj) :
    lookup (keys ++ keys') o = (lookup keys o).or (lookup keys' o) := by
  unfold lookup
  rw [List.findSome?_append]

theorem lookup_cons (k : String) (keys : List String) (o : Obj) :
    lookup (k :: keys) o = (getItem? (lit k) o).or (lookup keys o) := by
  rw [← List.singleton_append, lookup_append]
  simp [lookup]

theorem present_iff {keys : List String} {o : Obj} :
    Present keys o ↔ ∃ x, lookup keys o = some x := by
  rw [← Option.isSome_iff_exists, ← Option.ne_none_iff_isSome, ne_eq, lookup_eq_none_iff]
  simp [Present]

variable {k : String} {keys : List String}

theorem lookup_setItem_of_not_mem (h : k ∉ keys) (x : Value) (o : Obj) :
    lookup keys (setItem (lit k) x o) = lookup keys o := by
  refine lookup_congr fun k' hk' => getItem?_setItem_of_ne (fun he => h ?_) x o
  rwa [← lit_inj.mp he]

theorem lookup_delItem_of_not_mem (h : k ∉ keys) (o : Obj) :
    lookup keys (delItem (lit k) o) = lookup keys o := by
  refine lookup_congr fun k' hk' => getItem?_delItem_of_ne (fun he => h ?_) o
  rwa [← lit_inj.mp he]

/-- The keys of a row, split at one of them, which is there once. -/
theorem not_mem_of_nodup {rows : List Row} (hn : (rows.flatMap Row.keys).Nodup) {r : Row}
    (hr : r ∈ rows) {before after : List String} (hk : r.keys = before ++ k :: after) :
    k ∉ before ∧ k ∉ after ∧ ∀ r' ∈ rows, r' ≠ r → k ∉ r'.keys := by
  rw [List.nodup_flatMap] at hn
  have hkeys := hn.1 r hr
  rw [hk, List.nodup_append, List.nodup_cons] at hkeys
  refine ⟨fun h => hkeys.2.2 k h k (by simp) rfl, hkeys.2.1.1, ?_⟩
  intro r' hr' hne h
  have hmem : k ∈ r.keys := by rw [hk]; simp
  have : Std.Symm (Function.onFun List.Disjoint Row.keys) := ⟨fun _ _ h _ h1 h2 => h h2 h1⟩
  exact hn.2.forall hr' hr hne h hmem

/-- **The rules of `null`** hold of every model that reads its rows. -/
theorem nullRules_of_reads {m : Model α} {rows : List Row} (h : m.Reads rows) :
    m.NullRules rows := by
  have split {r : Row} (hr : r ∈ rows) {before after : List String} {k : String}
      (hk : r.keys = before ++ k :: after) (o : Obj) :
      lookup r.keys (setItem (lit k) .null o) = (lookup before o).or (some .null) ∧
        lookup r.keys (delItem (lit k) o) = (lookup before o).or (lookup after o) := by
    obtain ⟨hb, ha, -⟩ := not_mem_of_nodup h.nodup hr hk
    rw [hk, lookup_append, lookup_append, lookup_cons, lookup_cons, getItem?_setItem_self,
      getItem?_delItem_self, lookup_setItem_of_not_mem hb, lookup_delItem_of_not_mem hb,
      lookup_delItem_of_not_mem ha]
    exact ⟨rfl, rfl⟩
  have same {r : Row} (hr : r ∈ rows) {before after : List String} {k : String}
      (hk : r.keys = before ++ k :: after) (o : Obj)
      (hrow : r.Alike (setItem (lit k) .null o) (delItem (lit k) o)) :
      m.validate (.dict (setItem (lit k) .null o)) = m.validate (.dict (delItem (lit k) o)) := by
    apply h.congr _ _
    intro r' hr'
    by_cases he : r' = r
    · rwa [he]
    · have hnot := (not_mem_of_nodup h.nodup hr hk).2.2 r' hr' he
      exact Or.inl ((lookup_setItem_of_not_mem hnot _ _).trans
        (lookup_delItem_of_not_mem hnot _).symm)
  refine ⟨fun r hr before k after hk o hp => ?_, fun r hr hkind before k after hk o hm => ?_,
    fun r hr hkind before k after hk o hp => ?_⟩
  · obtain ⟨x, hx⟩ := present_iff.mp hp
    obtain ⟨hset, hdel⟩ := split hr hk o
    exact same hr hk o (Or.inl (by rw [hset, hdel, hx]; rfl))
  · obtain ⟨hset, hdel⟩ := split hr hk o
    refine same hr hk o ?_
    cases hb : lookup before o with
    | some x => exact Or.inl (by rw [hset, hdel, hb]; rfl)
    | none =>
      rw [hb] at hset hdel
      refine Or.inr ⟨hkind, Or.inr hset, ?_⟩
      rw [Missing, hdel]
      exact hm
  · obtain ⟨hset, -⟩ := split hr hk o
    have hb : lookup before o = none := by
      cases hb : lookup before o with
      | none => rfl
      | some x => exact absurd (present_iff.mpr ⟨x, hb⟩) hp
    rw [hb] at hset
    exact h.rejects r hr hkind _ hset

end Schema
