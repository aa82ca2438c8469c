import Tronado.Lib.Alike
import Tronado.Lib.Exchange

/-!
# Programs over an interface

A `Script` is a program that reaches the environment only through the operations of an
interface `Op` and through pauses.  It sees what each of them returns or raises, so that
it may catch exceptions and choose what it does next by what came back.

`Script.exec` runs a script over an implementation `I` of the interface.

* `Script.exec_congr`: implementations that run alike run every script alike.
* `Script.alike_exec`: and what an observer cannot tell apart of the operations, it
  cannot tell apart of a script.
* `Script.exchanges_exec`: the exchanges of a script are those of the operations it
  calls, one after the other.
-/

namespace Run

open Py

/-- A program over the interface `Op`. -/
inductive Script (Op : Type → Type) (Err α : Type) : Type 1
  | ret (r : Except Err α)
  | call {ρ : Type} (op : Op ρ) (resume : Except Err ρ → Script Op Err α)
  | sleep (d : Double) (resume : Except Err Unit → Script Op Err α)

/-- An operation that was called, with its exchanges and its result. -/
structure Segment (Op : Type → Type) (Req Ans Err : Type) : Type 1 where
  {Result : Type}
  op : Op Result
  exchanges : List (Exchange Req Ans)
  result : Except Err Result

namespace Script

variable {Op : Type → Type} {Req View Ans Err α : Type}

/-- Run a script over an implementation of its interface. -/
def exec (I : ∀ {ρ : Type}, Op ρ → Prog Req Ans Err ρ) : Script Op Err α → Prog Req Ans Err α
  | ret r => Prog.lift r
  | call op resume => fun env w =>
    (exec I (resume ((I op).run env w).1)) env ((I op).run env w).2
  | sleep d resume => fun env w => (exec I (resume (env.sleep d))) env (w.sleep d)

variable {I I' : ∀ {ρ : Type}, Op ρ → Prog Req Ans Err ρ}

theorem run_exec_call {ρ : Type} (op : Op ρ) (resume : Except Err ρ → Script Op Err α)
    (env : Env Ans Err) (w : World Req) :
    ((call op resume).exec I).run env w =
      ((resume ((I op).run env w).1).exec I).run env ((I op).run env w).2 := rfl

theorem run_exec_sleep (d : Double) (resume : Except Err Unit → Script Op Err α)
    (env : Env Ans Err) (w : World Req) :
    ((sleep d resume).exec I).run env w =
      ((resume (env.sleep d)).exec I).run env (w.sleep d) := rfl

/-- **Implementations that run alike run every script alike.** -/
theorem exec_congr {env : Env Ans Err}
    (h : ∀ {ρ : Type} (op : Op ρ) (w : World Req), (I op).run env w = (I' op).run env w)
    (s : Script Op Err α) (w : World Req) : (s.exec I).run env w = (s.exec I').run env w := by
  induction s generalizing w with
  | ret r => rfl
  | call op resume ih => rw [run_exec_call, run_exec_call, h op w, ih]
  | sleep d resume ih => rw [run_exec_sleep, run_exec_sleep, ih]

/-- **Operations that look the same make scripts that look the same.** -/
theorem alike_exec {f : Req → View} (h : ∀ {ρ : Type} (op : Op ρ), Alike f (I op) (I' op))
    (s : Script Op Err α) : Alike f (s.exec I) (s.exec I') := by
  induction s with
  | ret r => exact .lift r
  | call op resume ih =>
    intro env w w' hw
    obtain ⟨hr, hv⟩ := Prod.mk.inj (h op env w w' hw)
    rw [run_exec_call, run_exec_call, hr]
    exact ih _ env _ _ hv
  | sleep d resume ih =>
    intro env w w' hw
    rw [run_exec_sleep, run_exec_sleep]
    apply ih
    rw [World.map_sleep, World.map_sleep, hw]

/-- The control flow of a script: the operations it calls, with their results, and what
it ends with. -/
inductive Follows : Script Op Err α → List (Segment Op Req Ans Err) → Except Err α → Prop
  | ret {r : Except Err α} : Follows (ret r) [] r
  | call {ρ : Type} {op : Op ρ} {resume : Except Err ρ → Script Op Err α}
      {xs : List (Exchange Req Ans)} {result : Except Err ρ}
      {segments : List (Segment Op Req Ans Err)} {r : Except Err α}
      (h : Follows (resume result) segments r) :
      Follows (call op resume) (⟨op, xs, result⟩ :: segments) r
  | sleep {d : Double} {resume : Except Err Unit → Script Op Err α} {result : Except Err Unit}
      {segments : List (Segment Op Req Ans Err)} {r : Except Err α}
      (h : Follows (resume result) segments r) : Follows (sleep d resume) segments r

/-- A script that ends with `r` after these segments, each of which satisfies `Φ`. -/
structure Splits (Φ : Segment Op Req Ans Err → Prop) (s : Script Op Err α)
    (segments : List (Segment Op Req Ans Err)) (xs : List (Exchange Req Ans)) (r : Except Err α) :
    Prop where
  exchanges : xs = segments.flatMap Segment.exchanges
  follows : Follows s segments r
  each : ∀ segment ∈ segments, Φ segment

/-- **A script exchanges what its operations exchange**, one after the other. -/
theorem exchanges_exec {Φ : Segment Op Req Ans Err → Prop}
    (h : ∀ {ρ : Type} (op : Op ρ), Exchanges (I op) (fun xs r => Φ ⟨op, xs, r⟩))
    (s : Script Op Err α) :
    Exchanges (s.exec I) (fun xs r => ∃ segments, Splits Φ s segments xs r) := by
  induction s with
  | ret r => exact .lift r ⟨[], rfl, .ret, by simp⟩
  | call op resume ih =>
    intro env w
    obtain ⟨xs, hb, hx⟩ := h op env w
    obtain ⟨ys, hb', segments, hsplit⟩ := ih ((I op).run env w).1 env ((I op).run env w).2
    refine ⟨xs ++ ys, hb.trans hb', ⟨op, xs, ((I op).run env w).1⟩ :: segments, ?_, ?_, ?_⟩
    · rw [List.flatMap_cons, hsplit.exchanges]
    · exact .call hsplit.follows
    · intro segment hmem
      rcases List.mem_cons.mp hmem with rfl | hmem
      · exact hx
      · exact hsplit.each segment hmem
  | sleep d resume ih =>
    intro env w
    obtain ⟨xs, hb, segments, hsplit⟩ := ih (env.sleep d) env (w.sleep d)
    exact ⟨xs, (Between.sleep d w).trans hb, segments, hsplit.exchanges, .sleep hsplit.follows,
      hsplit.each⟩

end Script

end Run
