import Tronado.Lib.Number

/-!
# Programs that talk to an environment

A client sends requests, pauses between them, draws jitter and may warn.  The
environment, `Env`, fixes everything it meets: the answer to each request, each
jitter value, and what a pause does.  A `World` records what has been seen so far
(`events`) and how many answers and jitters have been used up.

Two kinds of program run in it.

* `Prog` is blocking code: a function from the world to a result, or an
  exception, and the next world.
* `Coroutine` is `async` code: a tree that stops at each `await` and is resumed
  by the event loop, `Coroutine.run`, with the answer.

`Prog.run_bind` and `Coroutine.run_bind` say that both run a sequence of
statements one after the other, and stop at the first exception.
-/

namespace Run

open Py

/-- A value of `random.random()`. -/
def Jitter := {u : ℚ // 0 ≤ u ∧ u < 1}

/-- The least of them. -/
def Jitter.zero : Jitter := ⟨0, le_rfl, zero_lt_one⟩

/-- What can be seen of a program. -/
inductive Event (Req : Type)
  | request (r : Req)
  | sleep (d : Double)
  | warning (text : String)

/-- The requests of a trace. -/
def requests {Req : Type} : List (Event Req) → List Req
  | [] => []
  | .request r :: es => r :: requests es
  | _ :: es => requests es

/-- The pauses of a trace. -/
def sleeps {Req : Type} : List (Event Req) → List Double
  | [] => []
  | .sleep d :: es => d :: sleeps es
  | _ :: es => sleeps es

/-- The environment of a run. -/
structure Env (Ans Err : Type) where
  answer : ℕ → Ans
  jitter : ℕ → Jitter
  /-- What a pause does: it returns, or raises. -/
  sleep : Double → Except Err Unit

/-- What has happened so far, and how far into the environment the run is. -/
structure World (Req : Type) where
  events : List (Event Req)
  sent : ℕ
  drawn : ℕ

variable {Req Ans Err α β : Type}

namespace World

def start : World Req := ⟨[], 0, 0⟩

def request (w : World Req) (r : Req) : World Req :=
  ⟨w.events ++ [.request r], w.sent + 1, w.drawn⟩

def sleep (w : World Req) (d : Double) : World Req := ⟨w.events ++ [.sleep d], w.sent, w.drawn⟩

def draw (w : World Req) : World Req := ⟨w.events, w.sent, w.drawn + 1⟩

def warn (w : World Req) (text : String) : World Req :=
  ⟨w.events ++ [.warning text], w.sent, w.drawn⟩

@[simp] theorem request_sent (w : World Req) (r : Req) : (w.request r).sent = w.sent + 1 := rfl
@[simp] theorem request_drawn (w : World Req) (r : Req) : (w.request r).drawn = w.drawn := rfl
@[simp] theorem sleep_sent (w : World Req) (d : Double) : (w.sleep d).sent = w.sent := rfl
@[simp] theorem draw_sent (w : World Req) : w.draw.sent = w.sent := rfl

end World

@[simp] theorem requests_append (es fs : List (Event Req)) :
    requests (es ++ fs) = requests es ++ requests fs := by
  induction es with
  | nil => rfl
  | cons e es ih => cases e <;> simp [requests, ih]

@[simp] theorem sleeps_append (es fs : List (Event Req)) :
    sleeps (es ++ fs) = sleeps es ++ sleeps fs := by
  induction es with
  | nil => rfl
  | cons e es ih => cases e <;> simp [sleeps, ih]

/-! ## Blocking programs -/

/-- A blocking program. -/
def Prog (Req Ans Err α : Type) := Env Ans Err → World Req → Except Err α × World Req

namespace Prog

/-- Run a program. -/
def run (p : Prog Req Ans Err α) (env : Env Ans Err) (w : World Req) :
    Except Err α × World Req := p env w

def ret (a : α) : Prog Req Ans Err α := fun _ w => (.ok a, w)

def bind (p : Prog Req Ans Err α) (f : α → Prog Req Ans Err β) : Prog Req Ans Err β :=
  fun env w =>
    match p env w with
    | (.ok a, w) => f a env w
    | (.error e, w) => (.error e, w)

instance : Monad (Prog Req Ans Err) where
  pure := ret
  bind := bind

def raise (e : Err) : Prog Req Ans Err α := fun _ w => (.error e, w)

/-- Go on with the result of a pure computation that may have raised. -/
def lift (r : Except Err α) : Prog Req Ans Err α := fun _ w => (r, w)

def request (r : Req) : Prog Req Ans Err Ans := fun env w => (.ok (env.answer w.sent), w.request r)

def sleep (d : Double) : Prog Req Ans Err Unit := fun env w => (env.sleep d, w.sleep d)

def random : Prog Req Ans Err Jitter := fun env w => (.ok (env.jitter w.drawn), w.draw)

def warn (text : String) : Prog Req Ans Err Unit := fun _ w => (.ok (), w.warn text)

variable (env : Env Ans Err) (w : World Req)

theorem run_bind (p : Prog Req Ans Err α) (f : α → Prog Req Ans Err β) :
    (p >>= f).run env w =
      match p.run env w with
      | (.ok a, w) => (f a).run env w
      | (.error e, w) => (.error e, w) := rfl

@[simp] theorem run_pure (a : α) : (pure a : Prog Req Ans Err α).run env w = (.ok a, w) := rfl
@[simp] theorem run_raise (e : Err) :
    (raise e : Prog Req Ans Err α).run env w = (.error e, w) := rfl
@[simp] theorem run_lift (r : Except Err α) :
    (lift r : Prog Req Ans Err α).run env w = (r, w) := rfl
@[simp] theorem run_request (r : Req) :
    (request r : Prog Req Ans Err Ans).run env w = (.ok (env.answer w.sent), w.request r) := rfl
@[simp] theorem run_sleep (d : Double) :
    (sleep d : Prog Req Ans Err Unit).run env w = (env.sleep d, w.sleep d) := rfl
@[simp] theorem run_random :
    (random : Prog Req Ans Err Jitter).run env w = (.ok (env.jitter w.drawn), w.draw) := rfl
@[simp] theorem run_warn (t : String) :
    (warn t : Prog Req Ans Err Unit).run env w = (.ok (), w.warn t) := rfl

/-- Find out how long to pause, pause, and go on. -/
theorem run_pause (p : Prog Req Ans Err Double) (q : Prog Req Ans Err α) :
    (do let d ← p; sleep d; q : Prog Req Ans Err α).run env w =
      match p.run env w with
      | (.error e, w) => (.error e, w)
      | (.ok d, w) =>
        match env.sleep d with
        | .error e => (.error e, w.sleep d)
        | .ok _ => q.run env (w.sleep d) := by
  rw [run_bind]
  rcases p.run env w with ⟨e | d, w'⟩
  · rfl
  · simp only [run_bind, run_sleep]
    cases env.sleep d <;> rfl

end Prog

/-! ## Coroutines -/

/-- A coroutine: what it does next, and how it goes on when it is resumed. -/
inductive Coroutine (Req Ans Err α : Type)
  | ret (r : Except Err α)
  | request (r : Req) (resume : Ans → Coroutine Req Ans Err α)
  | sleep (d : Double) (resume : Unit → Coroutine Req Ans Err α)
  | random (resume : Jitter → Coroutine Req Ans Err α)
  | warn (text : String) (resume : Unit → Coroutine Req Ans Err α)

namespace Coroutine

/-- `await` a coroutine, then go on. -/
def bind (f : α → Coroutine Req Ans Err β) :
    Coroutine Req Ans Err α → Coroutine Req Ans Err β
  | ret (.ok a) => f a
  | ret (.error e) => ret (.error e)
  | request r k => request r (fun a => (k a).bind f)
  | sleep d k => sleep d (fun u => (k u).bind f)
  | random k => random (fun j => (k j).bind f)
  | warn t k => warn t (fun u => (k u).bind f)

instance : Monad (Coroutine Req Ans Err) where
  pure a := ret (.ok a)
  bind c f := c.bind f

/-- `await` a single action of the event loop. -/
def awaitRequest (r : Req) : Coroutine Req Ans Err Ans := request r (fun a => ret (.ok a))

def awaitSleep (d : Double) : Coroutine Req Ans Err Unit := sleep d (fun _ => ret (.ok ()))

def drawJitter : Coroutine Req Ans Err Jitter := random (fun j => ret (.ok j))

def emitWarning (t : String) : Coroutine Req Ans Err Unit := warn t (fun _ => ret (.ok ()))

def raise (e : Err) : Coroutine Req Ans Err α := ret (.error e)

/-- The event loop: perform what the coroutine waits for and resume it.  A pause
that raises does so inside the coroutine, which nothing there catches. -/
def run : Coroutine Req Ans Err α → Env Ans Err → World Req → Except Err α × World Req
  | ret r, _, w => (r, w)
  | request r k, env, w => (k (env.answer w.sent)).run env (w.request r)
  | sleep d k, env, w =>
    match env.sleep d with
    | .ok u => (k u).run env (w.sleep d)
    | .error e => (.error e, w.sleep d)
  | random k, env, w => (k (env.jitter w.drawn)).run env w.draw
  | warn t k, env, w => (k ()).run env (w.warn t)

theorem run_bind (c : Coroutine Req Ans Err α) (f : α → Coroutine Req Ans Err β)
    (env : Env Ans Err) (w : World Req) :
    (c >>= f).run env w =
      match c.run env w with
      | (.ok a, w) => (f a).run env w
      | (.error e, w) => (.error e, w) := by
  show (c.bind f).run env w = _
  induction c generalizing w with
  | ret r => cases r <;> rfl
  | request r k ih => exact ih _ _
  | sleep d k ih =>
    simp only [bind, run]
    cases env.sleep d with
    | ok u => exact ih u _
    | error e => rfl
  | random k ih => exact ih _ _
  | warn t k ih => exact ih _ _

variable (env : Env Ans Err) (w : World Req)

@[simp] theorem run_pure (a : α) : (pure a : Coroutine Req Ans Err α).run env w = (.ok a, w) := rfl
@[simp] theorem run_raise (e : Err) :
    (raise e : Coroutine Req Ans Err α).run env w = (.error e, w) := rfl
@[simp] theorem run_ret (r : Except Err α) :
    (ret r : Coroutine Req Ans Err α).run env w = (r, w) := rfl
@[simp] theorem run_awaitRequest (r : Req) :
    (awaitRequest r : Coroutine Req Ans Err Ans).run env w =
      (.ok (env.answer w.sent), w.request r) := rfl
@[simp] theorem run_awaitSleep (d : Double) :
    (awaitSleep d : Coroutine Req Ans Err Unit).run env w = (env.sleep d, w.sleep d) := by
  simp only [awaitSleep, run]; cases env.sleep d <;> rfl
@[simp] theorem run_drawJitter :
    (drawJitter : Coroutine Req Ans Err Jitter).run env w = (.ok (env.jitter w.drawn), w.draw) :=
  rfl
@[simp] theorem run_emitWarning (t : String) :
    (emitWarning t : Coroutine Req Ans Err Unit).run env w = (.ok (), w.warn t) := rfl

/-- Find out how long to pause, pause, and go on. -/
theorem run_pause (p : Coroutine Req Ans Err Double) (q : Coroutine Req Ans Err α) :
    (do let d ← p; awaitSleep d; q : Coroutine Req Ans Err α).run env w =
      match p.run env w with
      | (.error e, w) => (.error e, w)
      | (.ok d, w) =>
        match env.sleep d with
        | .error e => (.error e, w.sleep d)
        | .ok _ => q.run env (w.sleep d) := by
  rw [run_bind]
  rcases p.run env w with ⟨e | d, w'⟩
  · rfl
  · simp only [run_bind, run_awaitSleep]
    cases env.sleep d <;> rfl

end Coroutine

end Run
