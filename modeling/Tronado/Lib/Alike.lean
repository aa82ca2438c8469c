import Tronado.Lib.Retry

/-!
# Two runs that look the same

An observer sees `f r` of a request `r`, and all of the rest of a trace.  `Alike f p p'`:
in no environment can the observer tell the blocking programs `p` and `p'` apart, by
what they do or by what they return.

The relation goes through the statements of a program (`Alike.lift`, `Alike.warn`,
`Alike.bind`), and through the retry loop for two requests that look the same
(`Policy.alike_loop`).  What the loop returns does not depend on the trace before it
(`Policy.fst_loop_congr`).
-/

namespace Run

open Py

variable {Req View Ans Err α β : Type}

/-- What is seen of an event. -/
def Event.map (f : Req → View) : Event Req → Event View
  | .request r => .request (f r)
  | .sleep d => .sleep d
  | .warning text => .warning text

/-- What is seen of a world. -/
def World.map (f : Req → View) (w : World Req) : World View :=
  ⟨w.events.map (Event.map f), w.sent, w.drawn⟩

/-- What is seen of the end of a run. -/
def seen (f : Req → View) (r : Except Err α × World Req) : Except Err α × World View :=
  (r.1, r.2.map f)

section

variable (f : Req → View) (w : World Req)

@[simp] theorem World.map_request (r : Req) : (w.request r).map f = (w.map f).request (f r) := by
  simp [World.map, World.request, Event.map]

@[simp] theorem World.map_sleep (d : Double) : (w.sleep d).map f = (w.map f).sleep d := by
  simp [World.map, World.sleep, Event.map]

@[simp] theorem World.map_draw : w.draw.map f = (w.map f).draw := rfl

@[simp] theorem World.map_warn (text : String) : (w.warn text).map f = (w.map f).warn text := by
  simp [World.map, World.warn, Event.map]

theorem World.sent_eq {w w' : World Req} (h : w.map f = w'.map f) : w.sent = w'.sent := by
  have hsent := congrArg World.sent h
  exact hsent

theorem World.drawn_eq {w w' : World Req} (h : w.map f = w'.map f) : w.drawn = w'.drawn := by
  have hdrawn := congrArg World.drawn h
  exact hdrawn

theorem seen_mk (r : Except Err α) : seen f (r, w) = (r, w.map f) := rfl

end

variable {f : Req → View}

/-- The observer cannot tell the two programs apart. -/
def Alike (f : Req → View) (p p' : Prog Req Ans Err α) : Prop :=
  ∀ env w w', w.map f = w'.map f → seen f (p.run env w) = seen f (p'.run env w')

namespace Alike

variable {p p' : Prog Req Ans Err α} {k k' : α → Prog Req Ans Err β}

theorem lift (r : Except Err α) : Alike f (Prog.lift r : Prog Req Ans Err α) (Prog.lift r) := by
  intro env w w' hw
  rw [Prog.run_lift, Prog.run_lift, seen_mk, seen_mk, hw]

theorem warn (text : String) :
    Alike f (Prog.warn text : Prog Req Ans Err Unit) (Prog.warn text) := by
  intro env w w' hw
  rw [Prog.run_warn, Prog.run_warn, seen_mk, seen_mk, World.map_warn, World.map_warn, hw]

/-- **One statement after the other.** -/
theorem bind (hp : Alike f p p') (hk : ∀ a, Alike f (k a) (k' a)) :
    Alike f (p >>= k) (p' >>= k') := by
  intro env w w' hw
  have h := hp env w w' hw
  rw [Prog.run_bind, Prog.run_bind]
  revert h
  rcases p.run env w with ⟨r, v⟩
  rcases p'.run env w' with ⟨r', v'⟩
  intro h
  obtain ⟨hr, hv⟩ := Prod.mk.inj h
  dsimp only at hr hv
  subst hr
  cases r with
  | error e => exact congrArg (Prod.mk (Except.error e)) hv
  | ok a => exact hk a env v v' hv

end Alike

/-! ## The retry loop -/

namespace Policy

variable (P : Policy Ans Err β)

theorem seen_pause (env : Env Ans Err) (attempt : ℕ) (a : Ans) {w w' : World Req}
    (hw : w.map f = w'.map f) :
    seen f (P.pause env attempt a w) = seen f (P.pause env attempt a w') := by
  have hdrawn := World.drawn_eq f hw
  unfold pause
  cases P.told a with
  | some d => rw [seen_mk, seen_mk, hw]
  | none => rw [seen_mk, seen_mk, World.map_draw, World.map_draw, hw, hdrawn]

/-- **Two requests that look the same are retried alike.** -/
theorem alike_loop {req req' : Req} (hreq : f req = f req') (n attempt : ℕ) :
    Alike f (fun env w => P.loop req env n attempt w)
      (fun env w => P.loop req' env n attempt w) := by
  intro env w w' hw
  show seen f (P.loop req env n attempt w) = seen f (P.loop req' env n attempt w')
  induction n generalizing attempt w w' with
  | zero =>
    have hsent := World.sent_eq f hw
    rw [loop, loop, seen_mk, seen_mk, World.map_request, World.map_request, hw, hreq, hsent]
  | succ n ih =>
    have hsent := World.sent_eq f hw
    have hnext : (w.request req).map f = (w'.request req').map f := by
      rw [World.map_request, World.map_request, hw, hreq]
    rw [loop, loop, hsent]
    split
    · have hpause := P.seen_pause env attempt (env.answer w'.sent) hnext
      revert hpause
      rcases P.pause env attempt (env.answer w'.sent) (w.request req) with ⟨d, v⟩
      rcases P.pause env attempt (env.answer w'.sent) (w'.request req') with ⟨d', v'⟩
      intro hpause
      obtain ⟨hd, hv⟩ := Prod.mk.inj hpause
      dsimp only at hd hv
      subst hd
      cases d with
      | error e => exact congrArg (Prod.mk (Except.error e)) hv
      | ok d =>
        have hslept : (v.sleep d).map f = (v'.sleep d).map f := by
          rw [World.map_sleep, World.map_sleep, hv]
        dsimp only
        cases env.sleep d with
        | error e => rw [seen_mk, seen_mk, hslept]
        | ok u => exact ih (attempt + 1) _ _ hslept
    · rw [seen_mk, seen_mk, hnext]

/-- **What the loop returns does not depend on the trace before it**, only on how far
into the environment it starts. -/
theorem fst_loop_congr {req : Req} {env : Env Ans Err} (n attempt : ℕ) {w w' : World Req}
    (hsent : w.sent = w'.sent) (hdrawn : w.drawn = w'.drawn) :
    (P.loop req env n attempt w).1 = (P.loop req env n attempt w').1 := by
  induction n generalizing attempt w w' with
  | zero => rw [loop, loop, hsent]
  | succ n ih =>
    rw [loop, loop, hsent]
    split
    · unfold pause
      cases P.told (env.answer w'.sent) with
      | some d =>
        dsimp only
        cases env.sleep d with
        | error e => rfl
        | ok u => exact ih (attempt + 1) (congrArg (· + 1) hsent) hdrawn
      | none =>
        rw [World.request_drawn, World.request_drawn, hdrawn]
        cases P.backoff attempt (env.jitter w'.drawn) with
        | error e => rfl
        | ok d =>
          dsimp only
          cases env.sleep d with
          | error e => rfl
          | ok u =>
            exact ih (attempt + 1) (congrArg (· + 1) hsent) (congrArg (· + 1) hdrawn)
    · rfl

end Policy

end Run
