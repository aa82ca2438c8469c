import Mathlib.Algebra.Order.Group.Nat
import Mathlib.Order.Bounds.Basic
import Tronado.Lib.Run

/-!
# Bounded retry

A retry policy has a budget, a test that says which answers are worth another
attempt, the pause an answer may ask for, a backoff for the others, and a verdict
on the last answer.  `Policy.loop` is the loop that sends the same request until
the test fails or the budget is used up.

What the loop does is read off the environment:

* `eq_loop_of_step`: a loop written in any other way that takes the same steps is
  `loop`.
* `stop env` is the index of the last attempt: the least `i` that is the budget or
  whose answer is not worth another attempt (`isLeast_stop`).
* `delay env i` is the pause after attempt `i`.  It depends on the earlier answers
  only through the number of jitters they used up, `drawnBefore`.
* `run_of_pauses`: if every pause before the last attempt returns, the trace is
  `schedule`, that is request, pause, request, ..., request, and the result is the
  verdict on the last answer.
* `run_of_bad_pause`: otherwise the run ends with the error of the first pause
  that does not return.
* `requests_run_le`: either way it sends no more than the budget allows.

`loop_eq_of_sleeps` compares two environments that differ in what a pause does: as
long as the pauses requested return in both, the runs are the same.
-/

namespace Run

open Py

/-- A retry policy. -/
structure Policy (Ans Err β : Type) where
  budget : ℕ
  /-- Is this answer worth another attempt? -/
  again : Ans → Bool
  /-- The pause an answer asks for. -/
  told : Ans → Option Double
  /-- The pause after an attempt whose answer asks for none. -/
  backoff : ℕ → Jitter → Except Err Double
  /-- The verdict on the last answer. -/
  finish : Ans → Except Err β

namespace Policy

variable {Req Ans Err β : Type} (P : Policy Ans Err β)

/-- The pause after an attempt, and the world once it is known. -/
def pause (env : Env Ans Err) (attempt : ℕ) (a : Ans) (w : World Req) :
    Except Err Double × World Req :=
  match P.told a with
  | some d => (.ok d, w)
  | none => (P.backoff attempt (env.jitter w.drawn), w.draw)

/-- The retry loop, with `n` retries left. -/
def loop (req : Req) (env : Env Ans Err) : ℕ → ℕ → World Req → Except Err β × World Req
  | 0, _, w => (P.finish (env.answer w.sent), w.request req)
  | n + 1, attempt, w =>
    if P.again (env.answer w.sent) then
      match P.pause env attempt (env.answer w.sent) (w.request req) with
      | (.error e, w) => (.error e, w)
      | (.ok d, w) =>
        match env.sleep d with
        | .error e => (.error e, w.sleep d)
        | .ok _ => loop req env n (attempt + 1) (w.sleep d)
    else (P.finish (env.answer w.sent), w.request req)

/-- A whole run. -/
def run (req : Req) (env : Env Ans Err) : Except Err β × World Req :=
  P.loop req env P.budget 0 World.start

/-- One attempt: it is the last one, or a pause follows and then `next`. -/
def attemptThen (req : Req) (env : Env Ans Err) (attempt : ℕ) (w : World Req)
    (next : World Req → Except Err β × World Req) : Except Err β × World Req :=
  if P.again (env.answer w.sent) = true ∧ attempt < P.budget then
    match P.pause env attempt (env.answer w.sent) (w.request req) with
    | (.error e, w) => (.error e, w)
    | (.ok d, w) =>
      match env.sleep d with
      | .error e => (.error e, w.sleep d)
      | .ok _ => next (w.sleep d)
  else (P.finish (env.answer w.sent), w.request req)

/-- **A loop that takes the steps of the policy is the loop of the policy**,
whatever it is written in.  `attempt` counts up to the budget, where `loop` counts
the retries that are left. -/
theorem eq_loop_of_step (req : Req) (env : Env Ans Err)
    (f : ℕ → World Req → Except Err β × World Req)
    (hf : ∀ attempt w, f attempt w = P.attemptThen req env attempt w (f (attempt + 1))) :
    ∀ attempt w, f attempt w = P.loop req env (P.budget - attempt) attempt w := by
  intro attempt w
  induction hn : P.budget - attempt generalizing attempt w with
  | zero => rw [hf, attemptThen, if_neg (fun h => absurd h.2 (by omega)), loop]
  | succ n ih =>
    rw [hf, attemptThen, loop]
    by_cases hag : P.again (env.answer w.sent) = true
    · rw [if_pos ⟨hag, by omega⟩, if_pos hag]
      rcases P.pause env attempt (env.answer w.sent) (w.request req) with ⟨e | d, w'⟩
      · rfl
      · simp only
        cases env.sleep d with
        | error e => rfl
        | ok u => exact ih (attempt + 1) _ (by omega)
    · rw [if_neg (fun h => hag h.1), if_neg hag]

/-! ## The schedule of a run -/

variable (env : Env Ans Err)

theorem exists_stop : ∃ i, i = P.budget ∨ P.again (env.answer i) = false := ⟨_, Or.inl rfl⟩

/-- The index of the last attempt. -/
def stop : ℕ := Nat.find (P.exists_stop env)

theorem isLeast_stop : IsLeast {i | i = P.budget ∨ P.again (env.answer i) = false} (P.stop env) :=
  ⟨Nat.find_spec (P.exists_stop env), fun _ h => Nat.find_min' (P.exists_stop env) h⟩

theorem stop_le : P.stop env ≤ P.budget := Nat.find_min' _ (Or.inl rfl)

theorem again_of_lt_stop {i : ℕ} (h : i < P.stop env) : P.again (env.answer i) = true := by
  have := Nat.find_min (P.exists_stop env) h
  simpa using (not_or.mp this).2

theorem stop_spec : P.stop env = P.budget ∨ P.again (env.answer (P.stop env)) = false :=
  Nat.find_spec (P.exists_stop env)

theorem stop_eq_zero (h : P.budget = 0) : P.stop env = 0 := by
  have := P.stop_le env; omega

/-- How many jitters the first `i` pauses use up. -/
def drawnBefore : ℕ → ℕ
  | 0 => 0
  | i + 1 => drawnBefore i + if (P.told (env.answer i)).isSome then 0 else 1

/-- The pause after attempt `i`. -/
def delay (i : ℕ) : Except Err Double :=
  match P.told (env.answer i) with
  | some d => .ok d
  | none => P.backoff i (env.jitter (P.drawnBefore env i))

/-- The pause after attempt `i` is computed, and returns. -/
def PauseReturns (i : ℕ) : Prop := ∃ d, P.delay env i = .ok d ∧ env.sleep d = .ok ()

/-- The first `k` pauses, once they are known to be computed. -/
def delays (k : ℕ) : List Double :=
  (List.range k).map fun i => match P.delay env i with
    | .ok d => d
    | .error _ => .nan

/-- Request, pause, request, pause, ... -/
def schedule (req : Req) (ds : List Double) : List (Event Req) :=
  ds.flatMap fun d => [.request req, .sleep d]

/-- The world when attempt `i` starts. -/
def worldAt (req : Req) (i : ℕ) : World Req :=
  ⟨schedule req (P.delays env i), i, P.drawnBefore env i⟩

variable {P env}

@[simp] theorem length_delays (k : ℕ) : (P.delays env k).length = k := by simp [delays]

theorem delays_succ {i : ℕ} {d : Double} (h : P.delay env i = .ok d) :
    P.delays env (i + 1) = P.delays env i ++ [d] := by
  simp [delays, List.range_succ, h]

theorem schedule_append (req : Req) (ds : List Double) (d : Double) :
    schedule req (ds ++ [d]) = schedule req ds ++ [.request req, .sleep d] := by
  simp [schedule]

theorem requests_schedule (req : Req) (ds : List Double) :
    requests (schedule req ds) = List.replicate ds.length req := by
  induction ds with
  | nil => rfl
  | cons d ds ih => exact congrArg (req :: ·) ih

theorem sleeps_schedule (req : Req) (ds : List Double) : sleeps (schedule req ds) = ds := by
  induction ds with
  | nil => rfl
  | cons d ds ih => exact congrArg (d :: ·) ih

theorem requests_lastSchedule (req : Req) (ds : List Double) :
    requests (schedule req ds ++ [.request req]) = List.replicate (ds.length + 1) req := by
  rw [requests_append, requests_schedule, List.replicate_succ']
  rfl

theorem sleeps_lastSchedule (req : Req) (ds : List Double) :
    sleeps (schedule req ds ++ [.request req]) = ds := by
  rw [sleeps_append, sleeps_schedule]
  exact List.append_nil ds

/-- What an attempt that is retried does to the world, as far as its pause. -/
theorem pause_worldAt (req : Req) (i : ℕ) :
    P.pause env i (env.answer i) ((P.worldAt env req i).request req) =
      (P.delay env i, ⟨schedule req (P.delays env i) ++ [.request req], i + 1,
        P.drawnBefore env (i + 1)⟩) := by
  unfold pause delay worldAt
  rw [drawnBefore]
  cases P.told (env.answer i) <;> rfl

/-- **One retry**: an attempt worth another one, whose pause returns, leads to the
next attempt. -/
theorem loop_retry (req : Req) {i n : ℕ} (ha : P.again (env.answer i) = true)
    (hp : P.PauseReturns env i) :
    P.loop req env (n + 1) i (P.worldAt env req i) =
      P.loop req env n (i + 1) (P.worldAt env req (i + 1)) := by
  obtain ⟨d, hd, hs⟩ := hp
  have hw : (⟨schedule req (P.delays env i) ++ [.request req], i + 1,
      P.drawnBefore env (i + 1)⟩ : World Req).sleep d = P.worldAt env req (i + 1) := by
    rw [worldAt, delays_succ hd, schedule_append, World.sleep]
    simp
  rw [loop, show env.answer (P.worldAt env req i).sent = env.answer i from rfl, if_pos ha,
    pause_worldAt, hd]
  simp only [hs]
  rw [hw]

/-- **The loop reaches every attempt up to the last**, as long as the pauses
before it return. -/
theorem loop_reach (req : Req) :
    ∀ {i : ℕ}, i ≤ P.stop env → (∀ j < i, P.PauseReturns env j) →
      P.run req env = P.loop req env (P.budget - i) i (P.worldAt env req i) := by
  intro i
  induction i with
  | zero => intro _ _; rfl
  | succ i ih =>
    intro hi hp
    have hle := P.stop_le env
    rw [ih (by omega) (fun j hj => hp j (by omega)),
      show P.budget - i = (P.budget - (i + 1)) + 1 by omega]
    exact loop_retry req (P.again_of_lt_stop env (by omega)) (hp i (by omega))

/-- **When every pause returns**, the requests and pauses alternate up to the
last attempt, and its answer decides. -/
theorem run_of_pauses (req : Req) (hp : ∀ j < P.stop env, P.PauseReturns env j) :
    P.run req env = (P.finish (env.answer (P.stop env)),
      ⟨schedule req (P.delays env (P.stop env)) ++ [.request req], P.stop env + 1,
        P.drawnBefore env (P.stop env)⟩) := by
  rw [loop_reach req le_rfl hp]
  rcases P.stop_spec env with h | h
  · rw [h, Nat.sub_self]; rfl
  · cases P.budget - P.stop env with
    | zero => rfl
    | succ n =>
      rw [loop, show env.answer (P.worldAt env req (P.stop env)).sent
        = env.answer (P.stop env) from rfl, if_neg (by simp [h])]
      rfl

/-- **A pause that does not return ends the run**, with its error. -/
theorem run_of_bad_pause (req : Req) {j : ℕ} (hj : j < P.stop env)
    (hp : ∀ i < j, P.PauseReturns env i) (hbad : ¬ P.PauseReturns env j) :
    ∃ e, (P.run req env).1 = .error e ∧
      requests (P.run req env).2.events = List.replicate (j + 1) req ∧
      (P.delay env j = .error e ∨ ∃ d, P.delay env j = .ok d ∧ env.sleep d = .error e) := by
  have hle := P.stop_le env
  rw [loop_reach req hj.le hp, show P.budget - j = (P.budget - (j + 1)) + 1 by omega, loop,
    show env.answer (P.worldAt env req j).sent = env.answer j from rfl,
    if_pos (P.again_of_lt_stop env hj), pause_worldAt]
  have hreq : requests (schedule req (P.delays env j) ++ [.request req])
      = List.replicate (j + 1) req := by
    rw [requests_lastSchedule, length_delays]
  cases hd : P.delay env j with
  | error e => exact ⟨e, rfl, hreq, Or.inl rfl⟩
  | ok d =>
    cases hs : env.sleep d with
    | ok u => exact absurd ⟨d, hd, hs⟩ hbad
    | error e =>
      refine ⟨e, by simp [hs], ?_, Or.inr ⟨d, rfl, hs⟩⟩
      simp only [hs, World.sleep]
      rw [requests_append, hreq]
      simp [requests]

/-- Either every pause before the last attempt returns, or there is a first one
that does not. -/
theorem pauses_or_first_bad (P : Policy Ans Err β) (env : Env Ans Err) :
    (∀ j < P.stop env, P.PauseReturns env j) ∨
      ∃ j < P.stop env, (∀ i < j, P.PauseReturns env i) ∧ ¬ P.PauseReturns env j := by
  by_contra h
  rw [not_or] at h
  obtain ⟨h1, h2⟩ := h
  apply h1
  intro j
  induction j using Nat.strong_induction_on with
  | _ j ih =>
    intro hj
    by_contra hbad
    exact h2 ⟨j, hj, fun i hi => ih i hi (lt_trans hi hj), hbad⟩

/-- **No run sends more than the budget allows**, whatever its pauses do. -/
theorem requests_run_le (P : Policy Ans Err β) (req : Req) (env : Env Ans Err) :
    (requests (P.run req env).2.events).length ≤ P.budget + 1 := by
  have hle := P.stop_le env
  rcases pauses_or_first_bad P env with hp | ⟨j, hj, hp, hbad⟩
  · rw [run_of_pauses req hp, requests_lastSchedule, length_delays, List.length_replicate]
    omega
  · obtain ⟨e, -, hreq, -⟩ := run_of_bad_pause req hj hp hbad
    rw [hreq, List.length_replicate]
    omega

/-! ## Two environments with different pauses -/

/-- The pauses seen so far stay in the trace. -/
theorem events_prefix_loop (P : Policy Ans Err β) (req : Req) (env : Env Ans Err) :
    ∀ (n attempt : ℕ) (w : World Req), w.events <+: (P.loop req env n attempt w).2.events := by
  intro n
  induction n with
  | zero => intro attempt w; exact List.prefix_append _ _
  | succ n ih =>
    intro attempt w
    have hreq : w.events <+: (w.request req).events := List.prefix_append _ _
    have hpause : ∀ r, r = P.pause env attempt (env.answer w.sent) (w.request req) →
        w.events <+: r.2.events := by
      rintro r rfl
      unfold pause
      split
      · exact hreq
      · exact hreq
    rw [loop]
    split
    · split
      · next heq => exact hpause _ heq.symm
      · next d w' heq =>
        have hw' : w.events <+: (w'.sleep d).events :=
          (hpause _ heq.symm).trans (List.prefix_append _ _)
        split
        · exact hw'
        · exact hw'.trans (ih _ _)
    · exact hreq

/-- **Only the pauses matter**: two environments with the same answers and
jitters, in both of which the pauses requested in the first return, give the same
run. -/
theorem loop_eq_of_sleeps (req : Req) {env env' : Env Ans Err} (ha : env.answer = env'.answer)
    (hj : env.jitter = env'.jitter) :
    ∀ (n attempt : ℕ) (w : World Req),
      (∀ d ∈ sleeps (P.loop req env n attempt w).2.events,
        env.sleep d = .ok () ∧ env'.sleep d = .ok ()) →
      P.loop req env n attempt w = P.loop req env' n attempt w := by
  intro n
  induction n with
  | zero => intro attempt w _; simp only [loop, ha]
  | succ n ih =>
    intro attempt w hs
    have hpause : P.pause env attempt (env.answer w.sent) (w.request req)
        = P.pause env' attempt (env'.answer w.sent) (w.request req) := by
      simp only [pause, ha, hj]
    rw [loop, hpause, ha] at hs
    rw [loop, loop, hpause, ha]
    split
    · next hag =>
      rw [if_pos hag] at hs
      cases hp : P.pause env' attempt (env'.answer w.sent) (w.request req) with
      | mk r w' =>
        rw [hp] at hs
        cases r with
        | error e => rfl
        | ok d =>
          have hd : env.sleep d = .ok () ∧ env'.sleep d = .ok () := by
            refine hs d ?_
            have hmem : d ∈ sleeps (w'.sleep d).events := by
              simp [World.sleep, sleeps]
            cases hsd : env.sleep d with
            | error e => simpa [hsd] using hmem
            | ok u =>
              simp only [hsd]
              obtain ⟨t, ht⟩ := events_prefix_loop P req env n (attempt + 1) (w'.sleep d)
              rw [← ht, sleeps_append]
              exact List.mem_append_left _ hmem
          simp only [hd.1, hd.2] at hs ⊢
          exact ih _ _ hs
    · rfl

end Policy

end Run
