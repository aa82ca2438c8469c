import Mathlib.Data.List.Dedup
import Mathlib.Data.List.Induction
import Mathlib.Data.List.Perm.Basic

/-!
# A ledger that ignores repeated keys

Events arrive in any order and any number of times.  A ledger keeps the keys it
has seen: an event whose key is among them is ignored, any other one is recorded
and takes effect if `effect` says so.

The state after a run is a function of the events alone (`Inv`): the keys seen are
the keys delivered, and the events that took effect are, key by key, the first
event of that key, when it has an effect.  So `countP_emitted` counts effects by
counting keys.
-/

namespace Dedup

variable {ε κ : Type} [DecidableEq κ]

/-- The keys seen, and the events that took effect, in order. -/
structure Ledger (ε κ : Type) where
  seen : List κ
  emitted : List ε

def Ledger.empty : Ledger ε κ := ⟨[], []⟩

/-- One delivery. -/
def step (key : ε → κ) (effect : ε → Bool) (s : Ledger ε κ) (e : ε) : Ledger ε κ :=
  if key e ∈ s.seen then s
  else ⟨key e :: s.seen, if effect e then s.emitted ++ [e] else s.emitted⟩

/-- A sequence of deliveries. -/
def run (key : ε → κ) (effect : ε → Bool) (es : List ε) : Ledger ε κ :=
  es.foldl (step key effect) .empty

/-- The first event with a given key. -/
def first (key : ε → κ) (es : List ε) (k : κ) : Option ε := es.find? (fun e => decide (key e = k))

/-- Does the first event of this key have an effect? -/
def firstTakesEffect (key : ε → κ) (effect : ε → Bool) (es : List ε) (k : κ) : Bool :=
  (first key es k).any effect

variable {key : ε → κ} {effect : ε → Bool}

/-- What the ledger knows after the events `es`. -/
structure Inv (key : ε → κ) (effect : ε → Bool) (es : List ε) (s : Ledger ε κ) : Prop where
  seen : ∀ k, k ∈ s.seen ↔ k ∈ es.map key
  emitted : ∀ k, k ∈ s.emitted.map key ↔ firstTakesEffect key effect es k = true
  nodup : (s.emitted.map key).Nodup

theorem first_concat (es : List ε) (e : ε) (k : κ) :
    first key (es ++ [e]) k = (first key es k).or (if key e = k then some e else none) := by
  by_cases h : key e = k <;> simp [first, List.find?_append, h]

theorem first_eq_none {es : List ε} {k : κ} (h : k ∉ es.map key) : first key es k = none := by
  rw [first, List.find?_eq_none]
  intro e he hk
  exact h (List.mem_map.mpr ⟨e, he, by simpa using hk⟩)

theorem mem_keys_of_first {es : List ε} {k : κ} {e : ε} (h : first key es k = some e) :
    k ∈ es.map key := by
  by_contra hk
  rw [first_eq_none hk] at h
  cases h

theorem key_first {es : List ε} {k : κ} {e : ε} (h : first key es k = some e) :
    e ∈ es ∧ key e = k := by
  rw [first, List.find?_eq_some_iff_append] at h
  obtain ⟨hk, as, bs, rfl, -⟩ := h
  exact ⟨by simp, by simpa using hk⟩

theorem exists_first {es : List ε} {k : κ} (h : k ∈ es.map key) : ∃ e, first key es k = some e := by
  obtain ⟨e, he, hk⟩ := List.mem_map.mp h
  cases hf : first key es k with
  | some e' => exact ⟨e', rfl⟩
  | none => exact absurd (List.find?_eq_none.mp hf e he) (by simp [hk])

theorem mem_keys_of_firstTakesEffect {es : List ε} {k : κ}
    (h : firstTakesEffect key effect es k = true) : k ∈ es.map key := by
  rw [firstTakesEffect, Option.any_eq_true] at h
  obtain ⟨e, he, -⟩ := h
  exact mem_keys_of_first he

/-- An event whose key was seen before changes no first event. -/
theorem firstTakesEffect_concat_of_mem {es : List ε} {e : ε} (he : key e ∈ es.map key) (k : κ) :
    firstTakesEffect key effect (es ++ [e]) k = firstTakesEffect key effect es k := by
  rw [firstTakesEffect, firstTakesEffect, first_concat]
  by_cases hk : key e = k
  · subst hk
    obtain ⟨e', he'⟩ := exists_first he
    rw [he']; rfl
  · rw [if_neg hk, Option.or_none]

/-- An event with a new key is the first of it. -/
theorem firstTakesEffect_concat_of_not_mem {es : List ε} {e : ε} (he : key e ∉ es.map key) (k : κ) :
    firstTakesEffect key effect (es ++ [e]) k =
      if key e = k then effect e else firstTakesEffect key effect es k := by
  rw [firstTakesEffect, firstTakesEffect, first_concat]
  by_cases hk : key e = k
  · subst hk
    rw [first_eq_none he]; simp
  · rw [if_neg hk, if_neg hk, Option.or_none]

/-- **One delivery keeps the invariant.** -/
theorem Inv.step {es : List ε} {s : Ledger ε κ} (h : Inv key effect es s) (e : ε) :
    Inv key effect (es ++ [e]) (step key effect s e) := by
  unfold Dedup.step
  by_cases he : key e ∈ s.seen
  · have hmem := (h.seen _).mp he
    rw [if_pos he]
    refine ⟨?_, ?_, h.nodup⟩
    · intro k
      rw [h.seen, List.map_append, List.mem_append]
      refine ⟨Or.inl, fun hk => hk.elim id ?_⟩
      intro hk
      rwa [List.map_singleton, List.mem_singleton.mp hk] at *
    · intro k
      rw [firstTakesEffect_concat_of_mem hmem, h.emitted]
  · have hmem : key e ∉ es.map key := fun hk => he ((h.seen _).mpr hk)
    have hnew : key e ∉ s.emitted.map key := fun hk =>
      hmem (mem_keys_of_firstTakesEffect ((h.emitted _).mp hk))
    rw [if_neg he]
    refine ⟨?_, ?_, ?_⟩
    · intro k
      rw [List.mem_cons, h.seen, List.map_append, List.mem_append, List.map_singleton,
        List.mem_singleton, or_comm]
    · intro k
      rw [firstTakesEffect_concat_of_not_mem hmem]
      by_cases hk : key e = k
      · subst hk
        cases hf : effect e <;> simp [hnew]
      · have hk' : k ≠ key e := fun h => hk h.symm
        rw [if_neg hk, ← h.emitted]
        split
        · simp [hk']
        · rfl
    · split
      · rw [List.map_append, List.nodup_append']
        exact ⟨h.nodup, by simp, by simpa using hnew⟩
      · exact h.nodup

/-- **Every run keeps it.** -/
theorem inv_run (key : ε → κ) (effect : ε → Bool) (es : List ε) :
    Inv key effect es (run key effect es) := by
  induction es using List.reverseRecOn with
  | nil => exact ⟨by simp [run, Ledger.empty], by simp [run, Ledger.empty, firstTakesEffect, first],
      by simp [run, Ledger.empty]⟩
  | append_singleton es e ih =>
    rw [run, List.foldl_append]
    exact ih.step e

/-- **Effects are counted by keys**: as many events of a kind took effect as there
are keys of that kind whose first event has an effect. -/
theorem countP_emitted (key : ε → κ) (effect : ε → Bool) (es : List ε) (q : κ → Bool) :
    (run key effect es).emitted.countP (fun e => q (key e)) =
      (es.map key).dedup.countP (fun k => q k && firstTakesEffect key effect es k) := by
  have h := inv_run key effect es
  have hperm : ((run key effect es).emitted.map key).Perm
      ((es.map key).dedup.filter (firstTakesEffect key effect es)) := by
    rw [List.perm_ext_iff_of_nodup h.nodup ((List.nodup_dedup _).filter _)]
    intro k
    rw [h.emitted, List.mem_filter, List.mem_dedup]
    exact ⟨fun hk => ⟨mem_keys_of_firstTakesEffect hk, hk⟩, fun hk => hk.2⟩
  calc (run key effect es).emitted.countP (fun e => q (key e))
      = ((run key effect es).emitted.map key).countP q := by rw [List.countP_map]; rfl
    _ = ((es.map key).dedup.filter (firstTakesEffect key effect es)).countP q := hperm.countP_eq q
    _ = _ := by rw [List.countP_filter]

/-- **The effects of one key**: its first event, once, if that has an effect. -/
theorem filter_emitted (key : ε → κ) (effect : ε → Bool) (es : List ε) (k : κ) :
    (run key effect es).emitted.filter (fun e => decide (key e = k)) =
      ((first key es k).filter effect).toList := by
  induction es using List.reverseRecOn with
  | nil => rfl
  | append_singleton es e ih =>
    have hrun : run key effect (es ++ [e]) = step key effect (run key effect es) e := by
      rw [run, List.foldl_append]
      rfl
    rw [hrun, first_concat, step]
    by_cases he : key e ∈ (run key effect es).seen
    · rw [if_pos he, ih]
      by_cases hk : key e = k
      · obtain ⟨e', he'⟩ := exists_first (((inv_run key effect es).seen _).mp he)
        rw [← hk, he']
        rfl
      · rw [if_neg hk, Option.or_none]
    · have hnone : first key es (key e) = none :=
        first_eq_none (fun hm => he (((inv_run key effect es).seen _).mpr hm))
      rw [if_neg he]
      by_cases hk : key e = k
      · subst hk
        rw [hnone] at ih ⊢
        by_cases hf : effect e = true
        · simp [hf, ih, Option.filter]
        · simp [hf, ih, Option.filter]
      · rw [if_neg hk, Option.or_none]
        by_cases hf : effect e = true
        · simp [hf, ih, hk]
        · simp [hf, ih]

theorem mem_emitted {es : List ε} {e : ε} :
    e ∈ (run key effect es).emitted ↔ first key es (key e) = some e ∧ effect e = true := by
  have h := congrArg (e ∈ ·) (filter_emitted key effect es (key e))
  simpa [Option.mem_toList, Option.filter_eq_some_iff] using h

/-- A key stands for one event only. -/
def KeyDetermines (key : ε → κ) (es : List ε) : Prop :=
  ∀ e ∈ es, ∀ e' ∈ es, key e = key e' → e = e'

theorem first_eq_some_iff {es : List ε} (h : KeyDetermines key es) {e : ε} :
    first key es (key e) = some e ↔ e ∈ es := by
  refine ⟨fun hf => (key_first hf).1, ?_⟩
  intro he
  have hmap : key e ∈ es.map key := List.mem_map_of_mem he
  obtain ⟨e', he'⟩ := exists_first hmap
  obtain ⟨hmem, hk⟩ := key_first he'
  rw [he', h e' hmem e he hk]

/-- **Membership alone decides the effects**: two runs that were delivered the same
events, in any order and any number of times, have the same effects up to order. -/
theorem emitted_perm {es es' : List ε} (h : KeyDetermines key es)
    (hmem : ∀ e, e ∈ es ↔ e ∈ es') :
    (run key effect es).emitted.Perm (run key effect es').emitted := by
  have h' : KeyDetermines key es' := fun e he e' he' =>
    h e ((hmem e).mpr he) e' ((hmem e').mpr he')
  rw [List.perm_ext_iff_of_nodup (inv_run key effect es).nodup.of_map
    (inv_run key effect es').nodup.of_map]
  intro e
  rw [mem_emitted, mem_emitted, first_eq_some_iff h, first_eq_some_iff h', hmem]

end Dedup
