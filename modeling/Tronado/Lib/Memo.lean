import Tronado.Lib.Value

/-!
# Memo tables

`if key not in table: table[key] = build(key)` and then `return table[key]`: an
object is built when its key is first asked for, and handed out from then on.  A
`Ref` is an object with its identity, so that handing out the same object can be
told from building an equal one.

`fetch` runs the statements without interruption.  In a `Pool` any number of callers
run them against one table, one statement at a time and in any order.

* `fetch_val`: the table is transparent.
* `fetchAll_consistent`: in a sequence of fetches one key gives one object.
* `Pool.run_safe`: under any interleaving a caller ends after four turns, with what
  building its key gives; no caller finds its key missing.
-/

namespace Memo

open Py

variable {κ ε α : Type} [DecidableEq κ]

/-- An object: which one it is, and what it is. -/
structure Ref (α : Type) where
  id : ℕ
  val : α

/-- The table, and how many objects have been built. -/
structure Table (κ α : Type) where
  entries : List (κ × Ref α)
  made : ℕ

namespace Table

def empty : Table κ α := ⟨[], 0⟩

/-- `table.get(key)`. -/
def get? (t : Table κ α) (k : κ) : Option (Ref α) := getItem? k t.entries

/-- `table[key] = object`. -/
def put (t : Table κ α) (k : κ) (r : Ref α) : Table κ α :=
  { t with entries := setItem k r t.entries }

/-- A new object. -/
def alloc (t : Table κ α) (a : α) : Ref α × Table κ α :=
  (⟨t.made, a⟩, { t with made := t.made + 1 })

@[simp] theorem get?_put_self (t : Table κ α) (k : κ) (r : Ref α) : (t.put k r).get? k = some r :=
  getItem?_setItem_self k r t.entries

theorem get?_put_of_ne (t : Table κ α) {k k' : κ} (h : k' ≠ k) (r : Ref α) :
    (t.put k r).get? k' = t.get? k' :=
  getItem?_setItem_of_ne h r t.entries

@[simp] theorem get?_alloc (t : Table κ α) (a : α) (k : κ) : (t.alloc a).2.get? k = t.get? k := rfl

/-- Every entry is what building its key gives. -/
def Sound (build : κ → Except ε α) (t : Table κ α) : Prop :=
  ∀ k r, t.get? k = some r → build k = .ok r.val

theorem sound_empty (build : κ → Except ε α) : (empty : Table κ α).Sound build := by
  intro k r h
  cases h

theorem Sound.put {build : κ → Except ε α} {t : Table κ α} (h : t.Sound build) {k : κ} {r : Ref α}
    (hr : build k = .ok r.val) : (t.put k r).Sound build := by
  intro k' r' hk
  by_cases he : k' = k
  · subst he
    rw [get?_put_self, Option.some_inj] at hk
    rw [← hk, hr]
  · rw [get?_put_of_ne t he] at hk
    exact h k' r' hk

theorem Sound.alloc {build : κ → Except ε α} {t : Table κ α} (h : t.Sound build) (a : α) :
    (t.alloc a).2.Sound build :=
  fun k r hk => h k r hk

end Table

/-! ## One caller -/

variable (build : κ → Except ε α)

/-- The statements, without interruption. -/
def fetch (t : Table κ α) (k : κ) : Except ε (Ref α) × Table κ α :=
  match t.get? k with
  | some r => (.ok r, t)
  | none =>
    match build k with
    | .error e => (.error e, t)
    | .ok a =>
      let (r, t) := t.alloc a
      (.ok r, t.put k r)

/-- Any sequence of fetches: the keys with what was handed out. -/
def fetchAll (t : Table κ α) : List κ → List (κ × Except ε (Ref α)) × Table κ α
  | [] => ([], t)
  | k :: ks =>
    let (r, t) := fetch build t k
    let (rs, t) := fetchAll t ks
    ((k, r) :: rs, t)

variable {build} {t : Table κ α}

theorem sound_fetch (h : t.Sound build) (k : κ) : (fetch build t k).2.Sound build := by
  unfold fetch
  cases hk : t.get? k with
  | some r => exact h
  | none =>
    dsimp only
    cases hb : build k with
    | error e => exact h
    | ok a => exact (h.alloc a).put hb

/-- **The table is transparent**: a fetch returns or raises what building does. -/
theorem fetch_val (h : t.Sound build) (k : κ) : (fetch build t k).1.map Ref.val = build k := by
  unfold fetch
  cases hk : t.get? k with
  | some r => exact (h k r hk).symm
  | none =>
    dsimp only
    cases build k <;> rfl

/-- What is in the table stays there. -/
theorem get?_fetch {k : κ} {r : Ref α} (h : t.get? k = some r) (k' : κ) :
    (fetch build t k').2.get? k = some r := by
  unfold fetch
  cases hk : t.get? k' with
  | some r' => exact h
  | none =>
    dsimp only
    cases build k' with
    | error e => exact h
    | ok a =>
      have hne : k ≠ k' := by
        rintro rfl
        rw [h] at hk
        cases hk
      exact (Table.get?_put_of_ne _ hne _).trans h

theorem get?_of_fetch {k : κ} {r : Ref α} (h : (fetch build t k).1 = .ok r) :
    (fetch build t k).2.get? k = some r := by
  unfold fetch at h ⊢
  cases hk : t.get? k with
  | some r' =>
    rw [hk] at h
    rw [← Except.ok.inj h]
    exact hk
  | none =>
    rw [hk] at h
    dsimp only at h ⊢
    cases hb : build k with
    | error e => rw [hb] at h; cases h
    | ok a =>
      rw [hb] at h
      rw [← Except.ok.inj h]
      exact Table.get?_put_self _ _ _

theorem get?_fetchAll {k : κ} {r : Ref α} (h : t.get? k = some r) (ks : List κ) :
    (fetchAll build t ks).2.get? k = some r := by
  induction ks generalizing t with
  | nil => exact h
  | cons k' ks ih => exact ih (get?_fetch h k')

theorem map_fst_fetchAll (t : Table κ α) (ks : List κ) :
    (fetchAll build t ks).1.map Prod.fst = ks := by
  induction ks generalizing t with
  | nil => rfl
  | cons k ks ih => exact congrArg (k :: ·) (ih _)

/-- What a sequence hands out is in the table at its end, or could not be built. -/
theorem mem_fetchAll (h : t.Sound build) {ks : List κ} {p : κ × Except ε (Ref α)}
    (hp : p ∈ (fetchAll build t ks).1) :
    p.2.map Ref.val = build p.1 ∧
      ∀ r, p.2 = .ok r → (fetchAll build t ks).2.get? p.1 = some r := by
  induction ks generalizing t with
  | nil => cases hp
  | cons k ks ih =>
    rcases List.mem_cons.mp hp with rfl | hp
    · refine ⟨fetch_val h k, ?_⟩
      intro r hr
      exact get?_fetchAll (get?_of_fetch hr) ks
    · exact ih (sound_fetch h k) hp

/-- **One key gives one object**, or one error, in a whole sequence of fetches. -/
theorem fetchAll_consistent (h : t.Sound build) {ks : List κ} {p q : κ × Except ε (Ref α)}
    (hp : p ∈ (fetchAll build t ks).1) (hq : q ∈ (fetchAll build t ks).1) (hk : p.1 = q.1) :
    p.2 = q.2 := by
  obtain ⟨hpv, hpt⟩ := mem_fetchAll h hp
  obtain ⟨hqv, hqt⟩ := mem_fetchAll h hq
  obtain ⟨k, rp⟩ := p
  obtain ⟨k', rq⟩ := q
  dsimp only at *
  subst hk
  have hv : rp.map Ref.val = rq.map Ref.val := hpv.trans hqv.symm
  cases rp with
  | error e =>
    cases rq with
    | error e' => exact congrArg Except.error (Except.error.inj hv)
    | ok r' => cases hv
  | ok r =>
    cases rq with
    | error e' => cases hv
    | ok r' => rw [Option.some_inj.mp ((hpt r rfl).symm.trans (hqt r' rfl))]

/-! ## Many callers -/

/-- Where a caller stands. -/
inductive Stage (ε α : Type)
  /-- `if key not in table` -/
  | test
  /-- `build(key)` -/
  | build
  /-- `table[key] = object` -/
  | store (r : Ref α)
  /-- `return table[key]` -/
  | read
  | done (r : Except ε (Ref α))
  /-- The subscript did not find the key. -/
  | keyError

/-- The next statement of a caller that asks for `k`. -/
def Stage.step (build : κ → Except ε α) (k : κ) : Stage ε α → Table κ α → Stage ε α × Table κ α
  | .test, t => (if (t.get? k).isSome then .read else .build, t)
  | .build, t =>
    match build k with
    | .error e => (.done (.error e), t)
    | .ok a =>
      let (r, t) := t.alloc a
      (.store r, t)
  | .store r, t => (.read, t.put k r)
  | .read, t =>
    match t.get? k with
    | some r => (.done (.ok r), t)
    | none => (.keyError, t)
  | .done r, t => (.done r, t)
  | .keyError, t => (.keyError, t)

/-- A caller that is not interrupted fetches. -/
theorem step_alone (t : Table κ α) (k : κ) :
    ∃ n, n ≤ 4 ∧ (fun p => Stage.step build k p.1 p.2)^[n] (.test, t) =
      (.done (fetch build t k).1, (fetch build t k).2) := by
  unfold fetch
  cases hk : t.get? k with
  | some r =>
    refine ⟨2, by omega, ?_⟩
    simp [Stage.step, hk]
  | none =>
    cases hb : build k with
    | error e =>
      refine ⟨2, by omega, ?_⟩
      simp [Stage.step, hk, hb]
    | ok a =>
      refine ⟨4, le_rfl, ?_⟩
      simp [Stage.step, hk, hb]

/-- What a caller that asks for `k` relies on where it stands. -/
def Stage.Fine (build : κ → Except ε α) (k : κ) (t : Table κ α) : Stage ε α → Prop
  | .test => True
  | .build => True
  | .store r => build k = .ok r.val
  | .read => (t.get? k).isSome = true
  | .done r => r.map Ref.val = build k
  | .keyError => False

/-- How far a caller is. -/
def Stage.rank : Stage ε α → ℕ
  | .test => 0
  | .build => 1
  | .store _ => 2
  | .read => 3
  | .done _ => 4
  | .keyError => 4

/-- **One statement keeps the table sound and its caller fine**, and brings it on. -/
theorem step_fine {k : κ} {s : Stage ε α} (h : t.Sound build) (hs : s.Fine build k t) :
    (s.step build k t).2.Sound build ∧
      (s.step build k t).1.Fine build k (s.step build k t).2 ∧
      min 4 (s.rank + 1) ≤ (s.step build k t).1.rank := by
  cases s with
  | test =>
    refine ⟨h, ?_, ?_⟩
    · by_cases hk : (t.get? k).isSome = true
      · simp [Stage.step, hk, Stage.Fine]
      · simp [Stage.step, hk, Stage.Fine]
    · by_cases hk : (t.get? k).isSome = true
      · simp [Stage.step, hk, Stage.rank]
      · simp [Stage.step, hk, Stage.rank]
  | build =>
    cases hb : build k with
    | error e =>
      simp only [Stage.step, hb]
      exact ⟨h, hb.symm, min_le_left _ _⟩
    | ok a =>
      simp only [Stage.step, hb]
      exact ⟨h.alloc a, hb, min_le_right _ _⟩
  | store r =>
    refine ⟨h.put hs, ?_, min_le_right _ _⟩
    show ((t.put k r).get? k).isSome = true
    rw [Table.get?_put_self]
    rfl
  | read =>
    obtain ⟨r, hr⟩ := Option.isSome_iff_exists.mp hs
    simp only [Stage.step, hr]
    exact ⟨h, (h k r hr).symm, min_le_right _ _⟩
  | done r => exact ⟨h, hs, by simp [Stage.step, Stage.rank]⟩
  | keyError => exact hs.elim

/-- **No statement takes an entry away**, whoever runs it. -/
theorem isSome_step {k k' : κ} {s : Stage ε α} (h : (t.get? k').isSome = true) :
    ((s.step build k t).2.get? k').isSome = true := by
  cases s with
  | build =>
    cases hb : build k with
    | error e => simpa only [Stage.step, hb] using h
    | ok a => simpa only [Stage.step, hb, Table.get?_alloc] using h
  | store r =>
    show ((t.put k r).get? k').isSome = true
    by_cases hk : k' = k
    · subst hk
      rw [Table.get?_put_self]
      rfl
    · rw [Table.get?_put_of_ne t hk]
      exact h
  | read =>
    cases hr : t.get? k with
    | some r => simpa only [Stage.step, hr] using h
    | none => simpa only [Stage.step, hr] using h
  | test => exact h
  | done r => exact h
  | keyError => exact h

theorem Stage.Fine.of_step {k k' : κ} {s s' : Stage ε α} (h : s'.Fine build k' t) :
    s'.Fine build k' (s.step build k t).2 := by
  cases s' with
  | read => exact isSome_step h
  | test => exact h
  | build => exact h
  | store r => exact h
  | done r => exact h
  | keyError => exact h

/-- The table, and where each caller stands. -/
structure Pool (ι κ ε α : Type) where
  table : Table κ α
  stage : ι → Stage ε α

namespace Pool

variable {ι : Type} [DecidableEq ι] (build : κ → Except ε α) (key : ι → κ)

/-- Every caller before its first statement. -/
def start (t : Table κ α) : Pool ι κ ε α := ⟨t, fun _ => .test⟩

/-- Caller `i` runs its next statement. -/
def step (p : Pool ι κ ε α) (i : ι) : Pool ι κ ε α :=
  let (s, t) := (p.stage i).step build (key i) p.table
  ⟨t, Function.update p.stage i s⟩

/-- Any schedule. -/
def run (t : Table κ α) (schedule : List ι) : Pool ι κ ε α :=
  schedule.foldl (step build key) (start t)

/-- What holds after a schedule. -/
structure Inv (schedule : List ι) (p : Pool ι κ ε α) : Prop where
  sound : p.table.Sound build
  fine : ∀ i, (p.stage i).Fine build (key i) p.table
  rank : ∀ i, min 4 (schedule.count i) ≤ (p.stage i).rank

variable {build key}

/-- **One turn keeps the invariant.** -/
theorem Inv.step {schedule : List ι} {p : Pool ι κ ε α} (h : Inv build key schedule p) (i : ι) :
    Inv build key (schedule ++ [i]) (step build key p i) := by
  obtain ⟨hsound, hfine, hrank⟩ := step_fine h.sound (h.fine i)
  refine ⟨hsound, ?_, ?_⟩
  · intro j
    by_cases hj : j = i
    · subst hj
      simpa [Pool.step] using hfine
    · simpa [Pool.step, hj] using (h.fine j).of_step
  · intro j
    rw [List.count_append, List.count_singleton]
    by_cases hj : j = i
    · subst hj
      have := h.rank j
      simp only [Pool.step, Function.update_self, beq_self_eq_true, if_true]
      omega
    · have hne : (i == j) = false := by simpa using fun he => hj he.symm
      simpa [Pool.step, hj, hne] using h.rank j

/-- **Every schedule keeps it.** -/
theorem inv_run (h : t.Sound build) (schedule : List ι) :
    Inv build key schedule (run build key t schedule) := by
  induction schedule using List.reverseRecOn with
  | nil => exact ⟨h, fun _ => trivial, fun _ => Nat.zero_le _⟩
  | append_singleton schedule i ih =>
    rw [run, List.foldl_append]
    exact ih.step i

/-- **Under any interleaving**, a caller that has had four turns has ended, and with
what building its key gives. -/
theorem run_safe (ht : t.Sound build) (schedule : List ι) (i : ι) (h : 4 ≤ schedule.count i) :
    ∃ r, (run build key t schedule).stage i = .done r ∧ r.map Ref.val = build (key i) := by
  have hinv : Inv build key schedule (run build key t schedule) := inv_run ht schedule
  have hrank := hinv.rank i
  have hfine := hinv.fine i
  cases hs : (run build key t schedule).stage i with
  | done r =>
    rw [hs] at hfine
    exact ⟨r, rfl, hfine⟩
  | keyError =>
    rw [hs] at hfine
    exact hfine.elim
  | test => rw [hs, Stage.rank] at hrank; omega
  | build => rw [hs, Stage.rank] at hrank; omega
  | store r => rw [hs, Stage.rank] at hrank; omega
  | read => rw [hs, Stage.rank] at hrank; omega

end Pool

end Memo
