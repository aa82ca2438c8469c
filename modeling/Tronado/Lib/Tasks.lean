import Mathlib.Logic.Function.Basic
import Tronado.Lib.Run

/-!
# Tasks of an event loop

A task is a coroutine that an event loop resumes, one `await` at a time, with what it
has been waiting for.  `Tasks.run` resumes any number of tasks in any order and with any
answers.  A task that is not resumed any more has been cancelled.

* `Coroutine.run_feed`: a coroutine that has been resumed some times is on its way
  through an uninterrupted run.
* `Tasks.run_own`: a task among others does what it does alone.
* `Tasks.run_alone`: so it is on its way through an uninterrupted run.
-/

namespace Run

open Py

variable {Req Ans Err : Type}

/-- What a task is resumed with: the answer it waits for, or the jitter it draws. -/
structure Input (Ans : Type) where
  answer : Ans
  jitter : Jitter

/-- Where a coroutine is after it has been resumed, what it has been seen to do, and which
answers it was given. -/
structure Turn (Req Ans Err α : Type) where
  code : Coroutine Req Ans Err α
  events : List (Event Req) := []
  heard : List Ans := []

namespace Coroutine

variable {α : Type} (pause : Double → Except Err Unit)

/-- Resume a coroutine once. -/
def resume : Coroutine Req Ans Err α → Input Ans → Turn Req Ans Err α
  | ret r, _ => { code := ret r }
  | request r k, i => { code := k i.answer, events := [.request r], heard := [i.answer] }
  | sleep d k, _ =>
    match pause d with
    | .ok u => { code := k u, events := [.sleep d] }
    | .error e => { code := ret (.error e), events := [.sleep d] }
  | random k, i => { code := k i.jitter }
  | warn t k, _ => { code := k (), events := [.warning t] }

/-- Resume a coroutine with one input after the other. -/
def feed (c : Coroutine Req Ans Err α) : List (Input Ans) → Turn Req Ans Err α
  | [] => { code := c }
  | i :: is => {
      code := ((c.resume pause i).code.feed is).code
      events := (c.resume pause i).events ++ ((c.resume pause i).code.feed is).events
      heard := (c.resume pause i).heard ++ ((c.resume pause i).code.feed is).heard }

theorem feed_append (c : Coroutine Req Ans Err α) (is js : List (Input Ans)) :
    c.feed pause (is ++ js) = {
      code := ((c.feed pause is).code.feed pause js).code
      events := (c.feed pause is).events ++ ((c.feed pause is).code.feed pause js).events
      heard := (c.feed pause is).heard ++ ((c.feed pause is).code.feed pause js).heard } := by
  induction is generalizing c with
  | nil => rfl
  | cons i is ih =>
    rw [List.cons_append, feed, ih, feed]
    simp only [List.append_assoc]

theorem feed_singleton (c : Coroutine Req Ans Err α) (i : Input Ans) :
    c.feed pause [i] = c.resume pause i := by
  rw [feed, feed, List.append_nil, List.append_nil]

/-- What has been seen stays. -/
theorem events_prefix_run (c : Coroutine Req Ans Err α) (env : Env Ans Err) (w : World Req) :
    w.events <+: (c.run env w).2.events := by
  induction c generalizing w with
  | ret r => exact List.prefix_rfl
  | request r k ih => exact (List.prefix_append _ _).trans (ih _ (w.request r))
  | sleep d k ih =>
    have hsleep : w.events <+: (w.sleep d).events := List.prefix_append _ _
    rw [run]
    split
    · exact hsleep.trans (ih _ _)
    · exact hsleep
  | random k ih => exact ih _ w.draw
  | warn t k ih => exact (List.prefix_append _ _).trans (ih _ (w.warn t))

/-- Two environments that agree on what a run has used up. -/
structure AgreeUpTo (w : World Req) (env env' : Env Ans Err) : Prop where
  answer : ∀ i < w.sent, env.answer i = env'.answer i
  jitter : ∀ i < w.drawn, env.jitter i = env'.jitter i
  sleep : env.sleep = env'.sleep

theorem AgreeUpTo.trans {w w' : World Req} {env env' env'' : Env Ans Err}
    (h : AgreeUpTo w' env env') (hsent : w.sent ≤ w'.sent) (hdrawn : w.drawn ≤ w'.drawn)
    (h' : AgreeUpTo w env' env'') : AgreeUpTo w env env'' := by
  refine ⟨?_, ?_, h.sleep.trans h'.sleep⟩
  · intro i hi
    rw [h.answer i (hi.trans_le hsent), h'.answer i hi]
  · intro i hi
    rw [h.jitter i (hi.trans_le hdrawn), h'.jitter i hi]

/-- The answers on the way from one world to another. -/
structure Hears (env : Env Ans Err) (w w' : World Req) (heard : List Ans) : Prop where
  sent : w'.sent = w.sent + heard.length
  answers : heard = (List.range' w.sent heard.length).map env.answer

theorem Hears.nil {env : Env Ans Err} {w w' : World Req} (h : w'.sent = w.sent) :
    Hears env w w' [] := ⟨h, rfl⟩

theorem Hears.trans {env : Env Ans Err} {w w' w'' : World Req} {as bs : List Ans}
    (h : Hears env w w' as) (h' : Hears env w' w'' bs) : Hears env w w'' (as ++ bs) := by
  constructor
  · rw [h'.sent, h.sent, List.length_append, add_assoc]
  · rw [List.length_append, ← List.range'_append_1, List.map_append, ← h.answers, ← h.sent,
      ← h'.answers]

/-- The environment `base` answers the next step of `c` with `i`, and leads from `w` to
`w'`. -/
structure Leads (c : Coroutine Req Ans Err α) (i : Input Ans) (w w' : World Req)
    (base : Env Ans Err) : Prop where
  events : w'.events = w.events ++ (c.resume base.sleep i).events
  drawn : w.drawn ≤ w'.drawn
  run : ∀ env, AgreeUpTo w' env base → c.run env w = (c.resume base.sleep i).code.run env w'
  hears : ∀ env, AgreeUpTo w' env base → Hears env w w' (c.resume base.sleep i).heard

/-- **One step of a coroutine**, under an environment that answers as it is resumed. -/
theorem exists_leads (c : Coroutine Req Ans Err α) (i : Input Ans) (w : World Req)
    (base : Env Ans Err) : ∃ base' w', AgreeUpTo w base' base ∧ Leads c i w w' base' := by
  cases c with
  | ret r =>
    refine ⟨base, w, ⟨fun _ _ => rfl, fun _ _ => rfl, rfl⟩, ?_⟩
    exact ⟨(List.append_nil _).symm, le_rfl, fun _ _ => rfl, fun _ _ => .nil rfl⟩
  | request r k =>
    have hanswer (env : Env Ans Err) (henv : AgreeUpTo (w.request r) env
        { base with answer := Function.update base.answer w.sent i.answer }) :
        env.answer w.sent = i.answer :=
      (henv.answer _ (Nat.lt_succ_self _)).trans (Function.update_self _ _ _)
    refine ⟨{ base with answer := Function.update base.answer w.sent i.answer }, w.request r,
      ⟨?_, fun _ _ => rfl, rfl⟩, rfl, le_rfl, ?_, ?_⟩
    · intro j hj
      exact Function.update_of_ne hj.ne _ _
    · intro env henv
      rw [Coroutine.run, hanswer env henv]
      rfl
    · intro env henv
      exact ⟨rfl, congrArg (· :: []) (hanswer env henv).symm⟩
  | sleep d k =>
    refine ⟨base, w.sleep d, ⟨fun _ _ => rfl, fun _ _ => rfl, rfl⟩, ?_, le_rfl, ?_, ?_⟩
    · cases hd : base.sleep d with
      | ok u => simp only [resume, hd, World.sleep]
      | error e => simp only [resume, hd, World.sleep]
    · intro env henv
      rw [Coroutine.run, henv.sleep]
      cases hd : base.sleep d with
      | ok u => simp only [resume, hd]
      | error e => simp only [resume, hd, Coroutine.run]
    · intro env henv
      have hheard : ((sleep d k).resume base.sleep i).heard = [] := by
        cases hd : base.sleep d with
        | ok u => simp only [resume, hd]
        | error e => simp only [resume, hd]
      rw [hheard]
      exact .nil rfl
  | random k =>
    refine ⟨{ base with jitter := Function.update base.jitter w.drawn i.jitter }, w.draw,
      ⟨fun _ _ => rfl, ?_, rfl⟩, (List.append_nil _).symm, Nat.le_succ _, ?_, fun _ _ => .nil rfl⟩
    · intro j hj
      exact Function.update_of_ne hj.ne _ _
    · intro env henv
      have hjitter : env.jitter w.drawn = i.jitter :=
        (henv.jitter _ (Nat.lt_succ_self _)).trans (Function.update_self _ _ _)
      rw [Coroutine.run, hjitter]
      rfl
  | warn t k =>
    refine ⟨base, w.warn t, ⟨fun _ _ => rfl, fun _ _ => rfl, rfl⟩, ?_⟩
    exact ⟨rfl, le_rfl, fun _ _ => rfl, fun _ _ => .nil rfl⟩

/-- **A coroutine that has been resumed some times is on its way through an
uninterrupted run**, in an environment that answers as it was resumed. -/
theorem run_feed (is : List (Input Ans)) (c : Coroutine Req Ans Err α) (w : World Req)
    (base : Env Ans Err) :
    ∃ env w', AgreeUpTo w env base ∧ w'.events = w.events ++ (c.feed base.sleep is).events ∧
      Hears env w w' (c.feed base.sleep is).heard ∧
      c.run env w = (c.feed base.sleep is).code.run env w' := by
  induction is generalizing c w base with
  | nil =>
    exact ⟨base, w, ⟨fun _ _ => rfl, fun _ _ => rfl, rfl⟩, (List.append_nil _).symm, .nil rfl,
      rfl⟩
  | cons i is ih =>
    obtain ⟨base', w₁, hbase, hstep⟩ := exists_leads c i w base
    obtain ⟨env, w', henv, hevents, hhears, hrun⟩ := ih (c.resume base'.sleep i).code w₁ base'
    have hfirst := hstep.hears env henv
    refine ⟨env, w', henv.trans (hfirst.sent ▸ Nat.le_add_right _ _) hstep.drawn hbase, ?_, ?_, ?_⟩
    · rw [hevents, hstep.events, ← hbase.sleep, feed, List.append_assoc]
    · rw [← hbase.sleep]
      exact hfirst.trans hhears
    · rw [hstep.run env henv, hrun, ← hbase.sleep, feed]

end Coroutine

/-! ## Many tasks -/

/-- Tasks, what they have been seen to do, and which answers they were given. -/
structure Tasks (ι : Type) (α : ι → Type) (Req Ans Err : Type) where
  code : (i : ι) → Coroutine Req Ans Err (α i)
  trace : List (ι × Event Req)
  heard : List (ι × Ans)

/-- What belongs to one task. -/
def own {ι β : Type} [DecidableEq ι] (i : ι) (xs : List (ι × β)) : List β :=
  (xs.filter fun x => x.1 = i).map Prod.snd

section

variable {ι β : Type} [DecidableEq ι] {i : ι}

theorem own_append (xs ys : List (ι × β)) : own i (xs ++ ys) = own i xs ++ own i ys := by
  rw [own, List.filter_append, List.map_append]
  rfl

theorem own_self (ys : List β) : own i (ys.map (Prod.mk i)) = ys := by
  induction ys with
  | nil => rfl
  | cons y ys ih =>
    rw [List.map_cons, own, List.filter_cons_of_pos (by simp), List.map_cons]
    exact congrArg (y :: ·) ih

theorem own_of_ne {j : ι} (h : j ≠ i) (ys : List β) : own i (ys.map (Prod.mk j)) = [] := by
  rw [own, List.map_eq_nil_iff, List.filter_eq_nil_iff]
  intro x hx
  obtain ⟨y, -, rfl⟩ := List.mem_map.mp hx
  simpa using h

theorem count_filter_own (q : β → Bool) (xs : List (ι × β)) :
    ((xs.filter fun x => q x.2).map Prod.fst).count i = ((own i xs).filter q).length := by
  rw [own, List.count, List.countP_map, List.countP_filter, List.filter_map, List.length_map,
    List.filter_filter, ← List.countP_eq_length_filter]
  apply List.countP_congr
  intro x _
  simp [and_comm]

theorem mem_own {x : β} {xs : List (ι × β)} : x ∈ own i xs ↔ (i, x) ∈ xs := by
  simp [own]

end

namespace Tasks

variable {ι : Type} [DecidableEq ι] {α : ι → Type} (pause : Double → Except Err Unit)

def start (code : (i : ι) → Coroutine Req Ans Err (α i)) : Tasks ι α Req Ans Err := ⟨code, [], []⟩

/-- The event loop resumes a task. -/
def step (t : Tasks ι α Req Ans Err) (turn : ι × Input Ans) : Tasks ι α Req Ans Err where
  code := Function.update t.code turn.1 ((t.code turn.1).resume pause turn.2).code
  trace := t.trace ++ ((t.code turn.1).resume pause turn.2).events.map (Prod.mk turn.1)
  heard := t.heard ++ ((t.code turn.1).resume pause turn.2).heard.map (Prod.mk turn.1)

/-- The event loop resumes one task after the other. -/
def run (code : (i : ι) → Coroutine Req Ans Err (α i)) (schedule : List (ι × Input Ans)) :
    Tasks ι α Req Ans Err :=
  schedule.foldl (step pause) (start code)

variable (code : (i : ι) → Coroutine Req Ans Err (α i)) (schedule : List (ι × Input Ans)) (i : ι)

theorem run_concat (turn : ι × Input Ans) :
    run pause code (schedule ++ [turn]) = step pause (run pause code schedule) turn := by
  rw [run, List.foldl_append]
  rfl

/-- **A task among others does what it does alone.** -/
theorem run_own :
    (⟨(run pause code schedule).code i, own i (run pause code schedule).trace,
        own i (run pause code schedule).heard⟩ : Turn Req Ans Err (α i)) =
      (code i).feed pause (own i schedule) := by
  induction schedule using List.reverseRecOn with
  | nil => rfl
  | append_singleton schedule turn ih =>
    obtain ⟨j, input⟩ := turn
    rw [run_concat, own_append, step]
    dsimp only
    rw [own_append, own_append]
    by_cases h : j = i
    · subst h
      have hturn : own j [(j, input)] = [input] := own_self [input]
      rw [hturn, Function.update_self, own_self, own_self, Coroutine.feed_append,
        Coroutine.feed_singleton, ← ih]
    · have hturn : own i [(j, input)] = [] := own_of_ne h [input]
      rw [hturn, Function.update_of_ne (Ne.symm h), own_of_ne h, own_of_ne h, List.append_nil,
        List.append_nil, List.append_nil]
      exact ih

/-- **A task among others is on its way through an uninterrupted run**, with the answers
it was given. -/
theorem run_alone (base : Env Ans Err) :
    ∃ env w, w.events = own i (run base.sleep code schedule).trace ∧
      Coroutine.Hears env World.start w (own i (run base.sleep code schedule).heard) ∧
      (code i).run env World.start = ((run base.sleep code schedule).code i).run env w := by
  have hown := run_own base.sleep code schedule i
  obtain ⟨env, w, -, hevents, hhears, hrun⟩ :=
    Coroutine.run_feed (own i schedule) (code i) World.start base
  rw [← hown] at hevents hhears hrun
  exact ⟨env, w, hevents, hhears, hrun⟩

end Tasks

end Run
