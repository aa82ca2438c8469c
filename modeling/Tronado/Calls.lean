import Tronado.Http.Run
import Tronado.Resources

/-!
# What a call sends

* `requests_runCall_le`: never more requests than the budget allows, so an order is
  created with at most one (`OrderResource.requests_getOrderToken`).
* `SyncTransport.invoke_spec`: the requests and pauses of a call, and the outcome
  that decides it.
-/

namespace Tronado

open Py Run

/-- A pure statement in front of a call sends nothing, whether it raises or not. -/
theorem requests_lift_bind {α β : Type} (r : Except PyErr α) {f : α → Blocking β}
    {env : Env Outcome PyErr} {n : ℕ}
    (h : ∀ a, (requests ((f a).run env World.start).2.events).length ≤ n) :
    (requests ((Prog.lift r >>= f).run env World.start).2.events).length ≤ n := by
  rw [Prog.run_bind, Prog.run_lift]
  cases r with
  | error e => exact Nat.zero_le n
  | ok a => exact h a

variable [Runtime] {ρ : Type}

/-! ## The last attempt -/

section

variable (config : TronadoConfig) (operation : Operation ρ) (prepared : PreparedRequest)
  (env : Env Outcome PyErr)

theorem policy_budget (h : operation.idempotent = true) :
    (policy config operation prepared).budget = config.maxRetries := by
  simp [policy, h]

theorem policy_stop_of_not_idempotent (h : operation.idempotent = false) :
    (policy config operation prepared).stop env = 0 :=
  Policy.stop_eq_zero _ _ (by simp [policy, h])

theorem policy_isLeast_stop (h : operation.idempotent = true) :
    IsLeast {i | i = config.maxRetries ∨ worthRetry (env.answer i) = false}
      ((policy config operation prepared).stop env) := by
  rw [← policy_budget config operation prepared h]
  exact Policy.isLeast_stop _ _

end

/-- **A call never sends more than its budget allows**, whatever the pauses do. -/
theorem requests_runCall_le (config : TronadoConfig) (operation : Operation ρ)
    (requestModel : Option RequestModel) (version : Str) (query : Option (List (Str × Value)))
    (env : Env Outcome PyErr) :
    (requests (runCall config operation requestModel version query env World.start).2.events).length
      ≤ (if operation.idempotent then config.maxRetries else 0) + 1 := by
  unfold runCall
  cases prepareRequest config operation requestModel version query with
  | error e => exact Nat.zero_le _
  | ok prepared => exact Policy.requests_run_le (policy config operation prepared) prepared env

theorem OrderResource.requests_getOrderToken (self : OrderResource) (paymentId walletAddress : Str)
    (tronAmount : AmountInput) (callbackUrl : Str) (wage : ℤ) (env : Env Outcome PyErr) :
    (requests ((self.getOrderToken paymentId walletAddress tronAmount callbackUrl wage).run env
      World.start).2.events).length ≤ 1 := by
  apply requests_lift_bind
  intro amount
  apply requests_lift_bind
  intro request
  apply requests_lift_bind
  intro wage
  rw [SyncTransport.run_invoke]
  -- the budget of an order is zero, because it is not idempotent
  exact requests_runCall_le self.transport.config Ops.getOrderToken _ _ _ env

/-! ## The retry loop -/

/-- **What a blocking call does.**  If the request cannot be prepared, nothing is
sent.  Otherwise let `k` be zero for an operation that is not idempotent, and else
the first attempt that is the last one allowed or whose outcome is not worth a
retry: as long as the pauses before it return, the prepared request is sent
`k + 1` times with one pause between two of them, and outcome `k` decides. -/
theorem SyncTransport.invoke_spec (t : SyncTransport) (operation : Operation ρ)
    (requestModel : Option RequestModel) (version : Str) (query : Option (List (Str × Value)))
    (env : Env Outcome PyErr) :
    (∀ e, prepareRequest t.config operation requestModel version query = .error e →
      (t.invoke operation requestModel version query).run env World.start
        = (.error e, World.start)) ∧
    (∀ prepared, prepareRequest t.config operation requestModel version query = .ok prepared →
      ∃ k, (operation.idempotent = false → k = 0) ∧
        (operation.idempotent = true →
          IsLeast {i | i = t.config.maxRetries ∨ worthRetry (env.answer i) = false} k) ∧
        ((∀ i < k, (policy t.config operation prepared).PauseReturns env i) →
          let r := (t.invoke operation requestModel version query).run env World.start
          requests r.2.events = List.replicate (k + 1) prepared ∧
          (sleeps r.2.events).length = k ∧
          r.2.events = Policy.schedule prepared (sleeps r.2.events) ++ [.request prepared] ∧
          r.1 = verdict t.config operation prepared (env.answer k))) ∧
    (∀ (self : OrderResource) (paymentId walletAddress : Str) (tronAmount : AmountInput)
      (callbackUrl : Str) (wage : ℤ),
      (requests ((self.getOrderToken paymentId walletAddress tronAmount callbackUrl wage).run env
        World.start).2.events).length ≤ 1) := by
  refine ⟨fun e he => ?_, fun prepared hp => ?_, fun self p a d c wage =>
    self.requests_getOrderToken p a d c wage env⟩
  · rw [run_invoke, runCall, he]
  · refine ⟨(policy t.config operation prepared).stop env,
      policy_stop_of_not_idempotent _ _ _ _, policy_isLeast_stop _ _ _ _, fun hpause => ?_⟩
    intro r
    have hr : r = (policy t.config operation prepared).run prepared env := by
      show (t.invoke operation requestModel version query).run env World.start = _
      rw [run_invoke, runCall, hp]; rfl
    rw [hr, Policy.run_of_pauses prepared hpause]
    refine ⟨?_, ?_, ?_, rfl⟩
    · rw [Policy.requests_lastSchedule, Policy.length_delays]
    · rw [Policy.sleeps_lastSchedule, Policy.length_delays]
    · rw [Policy.sleeps_lastSchedule]

end Tronado
