import Mathlib.Data.List.Range
import Tronado.Lib.Retry

/-!
# What a program exchanges with the server

An exchange is a request with its answer.  `Exchanges p Φ` says of a blocking program
that in every environment, and whatever was sent before, the exchanges of its run and
its result satisfy `Φ`.

`Between` follows the events of a run one after the other (`Between.trans`), and
`Policy.exchanges_loop` is the rule of the retry loop.
-/

namespace Run

open Py

variable {Req Ans Err α β : Type}

/-- A request, and what came back. -/
structure Exchange (Req Ans : Type) where
  request : Req
  answer : Ans

/-- The exchanges that lead from one world to another. -/
structure Between (env : Env Ans Err) (w w' : World Req) (xs : List (Exchange Req Ans)) : Prop where
  requests : requests w'.events = requests w.events ++ xs.map Exchange.request
  sent : w'.sent = w.sent + xs.length
  answers : xs.map Exchange.answer = (List.range' w.sent xs.length).map env.answer

namespace Between

variable {env : Env Ans Err} {w w' w'' : World Req} {xs ys : List (Exchange Req Ans)}

/-- Nothing is sent. -/
theorem nil (h : Run.requests w'.events = Run.requests w.events) (hs : w'.sent = w.sent) :
    Between env w w' [] :=
  ⟨by rw [h, List.map_nil, List.append_nil], by rw [hs, List.length_nil, add_zero], rfl⟩

theorem refl (w : World Req) : Between env w w [] := nil rfl rfl

theorem trans (h : Between env w w' xs) (h' : Between env w' w'' ys) :
    Between env w w'' (xs ++ ys) := by
  refine ⟨?_, ?_, ?_⟩
  · rw [h'.requests, h.requests, List.map_append, List.append_assoc]
  · rw [h'.sent, h.sent, List.length_append, add_assoc]
  · rw [List.map_append, h.answers, h'.answers, h.sent, List.length_append, ← List.map_append,
      ← List.range'_append_1]

/-- One request. -/
theorem single (r : Req) (w : World Req) :
    Between env w (w.request r) [⟨r, env.answer w.sent⟩] :=
  ⟨requests_append _ _, rfl, rfl⟩

theorem sleep (d : Double) (w : World Req) : Between env w (w.sleep d) [] :=
  nil (by simp [World.sleep, Run.requests]) rfl

theorem draw (w : World Req) : Between env w w.draw [] := nil rfl rfl

theorem warn (t : String) (w : World Req) : Between env w (w.warn t) [] :=
  nil (by simp [World.warn, Run.requests]) rfl

end Between

/-- The exchanges and the result of every run satisfy `Φ`. -/
def Exchanges (p : Prog Req Ans Err α) (Φ : List (Exchange Req Ans) → Except Err α → Prop) :
    Prop :=
  ∀ env w, ∃ xs, Between env w (p.run env w).2 xs ∧ Φ xs (p.run env w).1

namespace Exchanges

variable {p : Prog Req Ans Err α} {Φ Φ' : List (Exchange Req Ans) → Except Err α → Prop}

theorem mono (h : Exchanges p Φ) (himp : ∀ xs r, Φ xs r → Φ' xs r) : Exchanges p Φ' := by
  intro env w
  obtain ⟨xs, hb, hx⟩ := h env w
  exact ⟨xs, hb, himp _ _ hx⟩

/-- A pure computation exchanges nothing. -/
theorem lift (r : Except Err α) (h : Φ [] r) : Exchanges (Prog.lift r) Φ := by
  intro env w
  exact ⟨[], .refl w, h⟩

end Exchanges

/-! ## The retry loop -/

namespace Policy

variable (P : Policy Ans Err β)

/-- The exchanges of the retry loop with `n` retries left. -/
structure Attempts (req : Req) (n : ℕ) (xs : List (Exchange Req Ans)) (r : Except Err β) :
    Prop where
  ne : xs ≠ []
  length_le : xs.length ≤ n + 1
  same : ∀ x ∈ xs, x.request = req
  /-- What is returned is the verdict on the last answer. -/
  decided : ∀ b, r = .ok b → ∃ x, xs.getLast? = some x ∧ P.finish x.answer = .ok b
  /-- The loop ends with the verdict on any answer that is not worth another attempt. -/
  settled : ∀ x ∈ xs, P.again x.answer = false → r = P.finish x.answer

variable {P}

theorem Attempts.single {req : Req} {n : ℕ} {a : Ans} :
    P.Attempts req n [⟨req, a⟩] (P.finish a) := by
  refine ⟨List.cons_ne_nil _ _, ?_, ?_, ?_, ?_⟩
  · simp
  · simp
  · intro b hb
    exact ⟨_, rfl, hb⟩
  · intro x hx _
    rw [List.mem_singleton.mp hx]

/-- A pause that does not return. -/
theorem Attempts.raised {req : Req} {n : ℕ} {a : Ans} {e : Err} (hagain : P.again a = true) :
    P.Attempts req n [⟨req, a⟩] (.error e) := by
  refine ⟨List.cons_ne_nil _ _, ?_, ?_, ?_, ?_⟩
  · simp
  · simp
  · intro b hb
    cases hb
  · intro x hx hnot
    rw [List.mem_singleton.mp hx, hagain] at hnot
    cases hnot

theorem Attempts.cons {req : Req} {n : ℕ} {a : Ans} {xs : List (Exchange Req Ans)}
    {r : Except Err β} (hagain : P.again a = true) (h : P.Attempts req n xs r) :
    P.Attempts req (n + 1) (⟨req, a⟩ :: xs) r := by
  refine ⟨List.cons_ne_nil _ _, ?_, ?_, ?_, ?_⟩
  · have := h.length_le
    simpa using this
  · intro x hx
    rcases List.mem_cons.mp hx with rfl | hx
    · rfl
    · exact h.same x hx
  · intro b hb
    obtain ⟨x, hx, hf⟩ := h.decided b hb
    refine ⟨x, ?_, hf⟩
    rw [List.getLast?_cons, hx]
    rfl
  · intro x hx hnot
    rcases List.mem_cons.mp hx with rfl | hx
    · rw [hagain] at hnot
      cases hnot
    · exact h.settled x hx hnot

/-- **The retry loop exchanges one request**, at most once more than it has retries
left, returns the verdict on the last answer, and passes over no answer that is not worth
another attempt. -/
theorem exchanges_loop (req : Req) (n attempt : ℕ) :
    Exchanges (fun env w => P.loop req env n attempt w) (P.Attempts req n) := by
  intro env w
  show ∃ xs, Between env w (P.loop req env n attempt w).2 xs ∧
    P.Attempts req n xs (P.loop req env n attempt w).1
  induction n generalizing attempt w with
  | zero => exact ⟨_, .single req w, .single⟩
  | succ n ih =>
    have hpause : Between env w (P.pause env attempt (env.answer w.sent) (w.request req)).2
        [⟨req, env.answer w.sent⟩] := by
      unfold pause
      split
      · exact .single req w
      · exact (Between.single req w).trans (.draw _)
    rw [loop]
    by_cases hagain : P.again (env.answer w.sent) = true
    · rw [if_pos hagain]
      split
      · next heq =>
        rw [heq] at hpause
        exact ⟨_, hpause, .raised hagain⟩
      · next d w' heq =>
        rw [heq] at hpause
        have hsleep : Between env w (w'.sleep d) [⟨req, env.answer w.sent⟩] :=
          hpause.trans (.sleep d w')
        split
        · exact ⟨_, hsleep, .raised hagain⟩
        · obtain ⟨xs, hb, hx⟩ := ih (attempt + 1) (w'.sleep d)
          exact ⟨_, hsleep.trans hb, hx.cons hagain⟩
    · rw [if_neg hagain]
      exact ⟨_, .single req w, .single⟩

end Policy

end Run
