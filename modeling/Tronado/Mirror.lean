import Tronado.Http.Run
import Tronado.Resources

/-!
# The two stacks are the same client

`Mirrors p c`: the blocking program `p` and the coroutine `c` do the same in two
environments with the same answers and jitters, as long as the pauses that `p`
requests return in both.  Both transports run the same policy
(`mirrors_invoke`), and the relation goes through the statements that a resource
method puts in front of `invoke`.

* `Call.sync_eq_async`: every public method does the same over both stacks.
-/

namespace Tronado

open Py Run

section

variable {α β : Type}

/-- Two environments that differ at most in what a pause does. -/
structure SameServer (env env' : Env Outcome PyErr) : Prop where
  answer : env.answer = env'.answer
  jitter : env.jitter = env'.jitter

/-- The pauses of a run return in both environments. -/
def PausesReturn (env env' : Env Outcome PyErr) (w : World PreparedRequest) : Prop :=
  ∀ d ∈ sleeps w.events, env.sleep d = .ok () ∧ env'.sleep d = .ok ()

/-- The blocking program and the coroutine run alike. -/
def Mirrors (env env' : Env Outcome PyErr) (p : Blocking α) (c : Awaitable α) : Prop :=
  ∀ w, PausesReturn env env' (p.run env w).2 → p.run env w = c.run env' w

variable {env env' : Env Outcome PyErr}

/-- A pure statement in front, which may raise. -/
theorem mirrors_lift_bind (r : Except PyErr α) {f : α → Blocking β} {g : α → Awaitable β}
    (h : ∀ a, Mirrors env env' (f a) (g a)) :
    Mirrors env env' (Prog.lift r >>= f) (Coroutine.ret r >>= g) := by
  intro w hw
  rw [Prog.run_bind, Prog.run_lift] at hw ⊢
  rw [Coroutine.run_bind, Coroutine.run_ret]
  cases r with
  | error e => rfl
  | ok a => exact h a w hw

/-- A warning in front. -/
theorem mirrors_warn_bind (text : String) {p : Blocking β} {c : Awaitable β}
    (h : Mirrors env env' p c) :
    Mirrors env env' (Prog.warn text >>= fun _ => p)
      (Coroutine.emitWarning text >>= fun _ => c) := by
  intro w hw
  rw [Prog.run_bind, Prog.run_warn] at hw ⊢
  rw [Coroutine.run_bind, Coroutine.run_emitWarning]
  exact h _ hw

end

section

variable [Runtime] {ρ : Type} {env env' : Env Outcome PyErr}

/-- **The two transports mirror each other**, because both run the same policy. -/
theorem mirrors_invoke (h : SameServer env env') (config : TronadoConfig) (operation : Operation ρ)
    (requestModel : Option RequestModel) (version : Str) (query : Option (List (Str × Value))) :
    Mirrors env env' ((SyncTransport.mk config).invoke operation requestModel version query)
      ((AsyncTransport.mk config).invoke operation requestModel version query) := by
  intro w hw
  rw [SyncTransport.run_invoke] at hw ⊢
  rw [AsyncTransport.run_invoke]
  unfold runCall at hw ⊢
  cases hp : prepareRequest config operation requestModel version query with
  | error e => rfl
  | ok prepared =>
    rw [hp] at hw
    exact Policy.loop_eq_of_sleeps prepared h.answer h.jitter _ _ w hw

/-- Each public method puts the same statements in front of the same call. -/
theorem Call.mirrors (h : SameServer env env') (config : TronadoConfig) (version : Str)
    (call : Call ρ) :
    Mirrors env env' (call.sync ⟨config⟩ version) (call.async ⟨config⟩ version) := by
  cases call with
  | getOrderToken paymentId walletAddress tronAmount callbackUrl wage =>
    apply mirrors_lift_bind
    intro amount
    apply mirrors_lift_bind
    intro request
    apply mirrors_lift_bind
    intro wage
    exact mirrors_invoke h _ _ _ _ _
  | getStatus id => exact mirrors_lift_bind _ (fun request => mirrors_invoke h _ _ _ _ _)
  | getStatusByPaymentId id =>
    exact mirrors_lift_bind _ (fun request => mirrors_invoke h _ _ _ _ _)
  | tronGetPriceToToman => exact mirrors_invoke h _ _ _ _ _
  | tronGetPriceWithWageToToman requestCode walletAddress tronAmount =>
    apply mirrors_lift_bind
    intro amount
    exact mirrors_lift_bind _ (fun request => mirrors_invoke h _ _ _ _ _)
  | tomanConvertToTron toman wallet =>
    exact mirrors_lift_bind _ (fun request => mirrors_invoke h _ _ _ _ _)
  | tomanGetPriceToToman => exact mirrors_warn_bind _ (mirrors_invoke h _ _ _ _ _)
  | dollarConvertToTron dollar wallet =>
    apply mirrors_lift_bind
    intro amount
    exact mirrors_lift_bind _ (fun request => mirrors_invoke h _ _ _ _ _)
  | dollarGetPriceToToman => exact mirrors_invoke h _ _ _ _ _

/-- **Every public method does the same over both stacks**: the same requests,
pauses and warnings in the same order, and the same model or exception, as long as
the pauses it requests return. -/
theorem Call.sync_eq_async (config : TronadoConfig) (version : Str) (call : Call ρ)
    (answer : ℕ → Outcome) (jitter : ℕ → Jitter)
    (timeSleep asyncioSleep : Double → Except PyErr Unit)
    (hpauses : ∀ d ∈ sleeps ((call.sync ⟨config⟩ version).run ⟨answer, jitter, timeSleep⟩
      World.start).2.events, timeSleep d = .ok () ∧ asyncioSleep d = .ok ()) :
    (call.sync ⟨config⟩ version).run ⟨answer, jitter, timeSleep⟩ World.start =
      (call.async ⟨config⟩ version).run ⟨answer, jitter, asyncioSleep⟩ World.start := by
  have h : SameServer ⟨answer, jitter, timeSleep⟩ ⟨answer, jitter, asyncioSleep⟩ := ⟨rfl, rfl⟩
  exact call.mirrors h config version World.start hpauses

end

/-- A price lookup whose requests all time out. -/
theorem Call.sync_eq_async_timeout :
    let _ := Runtime.sample
    let call := Call.tronGetPriceToToman
    (call.sync ⟨.standard⟩ (lit "v5")).run
        ⟨fun _ => .timeout, fun _ => ⟨0, le_rfl, zero_lt_one⟩, fun _ => .ok ()⟩ World.start =
      (call.async ⟨.standard⟩ (lit "v5")).run
        ⟨fun _ => .timeout, fun _ => ⟨0, le_rfl, zero_lt_one⟩, fun _ => .ok ()⟩ World.start :=
  let _ := Runtime.sample
  Call.sync_eq_async .standard (lit "v5") .tronGetPriceToToman (fun _ => .timeout)
    (fun _ => ⟨0, le_rfl, zero_lt_one⟩) (fun _ => .ok ()) (fun _ => .ok ())
    (fun _ _ => ⟨rfl, rfl⟩)

end Tronado
