import Tronado.Client
import Tronado.Lib.Script
import Tronado.Wire

/-!
# Programs over a client

A `Program` calls the methods of a client, pauses, and does what it likes with what
comes back, exceptions included.  The same program runs over either client, where the
asynchronous one awaits its calls one after the other.

* `TronadoClient.sends`: what one call of a client sends.
* `TronadoClient.exec_spec`: what any program sends; no order is created twice by one
  call, and the two clients run every program alike.
-/

namespace Tronado

open Py Run

/-- A program over the methods of a client. -/
abbrev Program (α : Type) := Script Call PyErr α

/-- Is this the method that creates an order? -/
def Call.createsOrder {ρ : Type} : Call ρ → Bool
  | getOrderToken .. => true
  | _ => false

/-- The URL of `GetOrderToken`. -/
def orderUrl (config : TronadoConfig) : Str :=
  config.baseUrl ++ (lit "/api/" ++ versionTag ++ lit "/GetOrderToken")

/-- Is this the request for a new order? -/
def asksForOrder (config : TronadoConfig) (x : Exchange PreparedRequest Outcome) : Bool :=
  x.request.url == orderUrl config

variable [Runtime] {α ρ : Type}

/-- Run a program over a client. -/
def TronadoClient.exec (self : TronadoClient) (program : Program α) : Blocking α :=
  program.exec (fun call => self.call call)

/-- Run a program in a task. -/
def AsyncTronadoClient.exec (self : AsyncTronadoClient) (program : Program α) : Blocking α :=
  program.exec (fun call env w => (self.call call).run env w)

/-- **A call of a client sends what its row says**, and nothing if the default version
of the client is not supported. -/
theorem TronadoClient.sends (self : TronadoClient) (call : Call ρ) :
    Exchanges (self.call call) (Sends self.config call.operation (call.endpoint versionTag)) := by
  rw [TronadoClient.call_eq]
  split
  · exact call.exchanges self.config versionTag
  · exact .lift _ (.nil (Or.inl rfl))

/-- **Both clients make a call alike.** -/
theorem run_call_eq {client : TronadoClient} {client' : AsyncTronadoClient}
    (h : client'.config = client.config) (call : Call ρ) (env : Env Outcome PyErr)
    (w : World PreparedRequest) : (client'.call call).run env w = (client.call call).run env w := by
  rw [TronadoClient.call_eq, AsyncTronadoClient.call_eq, h]
  split
  · exact (call.run_sync_eq_run_async client.config versionTag env w).symm
  · rfl

omit [Runtime] in
/-- The URL of an order belongs to one row of the matrix. -/
theorem path_eq_iff (call : Call ρ) :
    (call.endpoint versionTag).path = lit "/api/" ++ versionTag ++ lit "/GetOrderToken" ↔
      call.createsOrder = true := by
  cases call with
  | getOrderToken => exact iff_of_true rfl rfl
  | _ => exact iff_of_false (by show lit _ ≠ _; decide) Bool.false_ne_true

theorem asksForOrder_iff {config : TronadoConfig} {call : Call ρ}
    {x : Exchange PreparedRequest Outcome}
    (h : Meets config (call.endpoint versionTag) x.request) :
    asksForOrder config x = call.createsOrder := by
  rw [Bool.eq_iff_iff, asksForOrder, beq_iff_eq, h.url, orderUrl, List.append_cancel_left_eq,
    path_eq_iff]

omit [Runtime] in
theorem retried_of_createsOrder {call : Call ρ} (h : call.createsOrder = true) :
    (call.endpoint versionTag).retried = false := by
  cases call with
  | getOrderToken => rfl
  | _ => cases h

/-- What a program was seen to do, call by call. -/
abbrev Step := Segment Call PreparedRequest Outcome PyErr

/-- The call of a step was sent as its row says. -/
def Step.Sends (config : TronadoConfig) (step : Step) : Prop :=
  Tronado.Sends config step.op.operation (step.op.endpoint versionTag) step.exchanges step.result

/-- **One call asks for one order at most.** -/
theorem orders_of_step {config : TronadoConfig} {step : Step} (h : step.Sends config) :
    (step.exchanges.filter (asksForOrder config)).length ≤
      ([step].filter fun step => step.op.createsOrder).length := by
  by_cases hop : step.op.createsOrder = true
  · rw [List.filter_cons_of_pos (p := fun step : Step => step.op.createsOrder) hop]
    have hle := h.length_le
    rw [retried_of_createsOrder hop] at hle
    exact le_trans (List.length_filter_le _ _) hle
  · have hnone : step.exchanges.filter (asksForOrder config) = [] := by
      rw [List.filter_eq_nil_iff]
      intro x hx
      rwa [asksForOrder_iff (h.meets x hx)]
    rw [hnone]
    exact Nat.zero_le _

/-- **A program asks for an order at most as often as it calls for one.** -/
theorem orders_le {config : TronadoConfig} {steps : List Step}
    (h : ∀ step ∈ steps, step.Sends config) :
    ((steps.flatMap Segment.exchanges).filter (asksForOrder config)).length ≤
      (steps.filter fun step => step.op.createsOrder).length := by
  induction steps with
  | nil => exact le_rfl
  | cons step steps ih =>
    have hstep := orders_of_step (h step (by simp))
    have hsteps := ih fun s hs => h s (List.mem_cons_of_mem _ hs)
    rw [List.flatMap_cons, List.filter_append, List.length_append, ← List.singleton_append,
      List.filter_append, List.length_append]
    exact Nat.add_le_add hstep hsteps

/-- What a program exchanges with the server. -/
structure Performs (config : TronadoConfig) (program : Program α) (steps : List Step)
    (xs : List (Exchange PreparedRequest Outcome)) (r : Except PyErr α) : Prop where
  /-- The program goes through these calls, each of which sends what its row says. -/
  splits : Script.Splits (Step.Sends config) program steps xs r
  /-- No order is asked for twice by one call. -/
  orders : (xs.filter (asksForOrder config)).length ≤
    (steps.filter fun step => step.op.createsOrder).length

theorem TronadoClient.exchanges_exec (self : TronadoClient) (program : Program α) :
    Exchanges (self.exec program)
      (fun xs r => ∃ steps, Performs self.config program steps xs r) := by
  have h : ∀ {ρ : Type} (call : Call ρ), Exchanges (self.call call)
      (fun xs r => Step.Sends self.config ⟨call, xs, r⟩) := fun call => self.sends call
  refine (Script.exchanges_exec h program).mono ?_
  rintro xs r ⟨steps, hsplit⟩
  refine ⟨steps, hsplit, ?_⟩
  rw [hsplit.exchanges]
  exact orders_le hsplit.each

/-- **What any program sends.**  In any environment, a program over a client exchanges
with the server what its calls exchange, one after the other; each call sends what its
row of the matrix says, as often as the row allows; and an order is asked for at most
once by a call that creates one, and by no other call.  Over an asynchronous client with
the same config the program does the same. -/
theorem TronadoClient.exec_spec (self : TronadoClient) (program : Program α)
    (env : Env Outcome PyErr) (w : World PreparedRequest) :
    (∃ xs steps, Between env w ((self.exec program).run env w).2 xs ∧
      Performs self.config program steps xs ((self.exec program).run env w).1) ∧
    ∀ client : AsyncTronadoClient, client.config = self.config →
      (client.exec program).run env w = (self.exec program).run env w := by
  constructor
  · obtain ⟨xs, hb, steps, hx⟩ := self.exchanges_exec program env w
    exact ⟨xs, steps, hb, hx⟩
  · intro client h
    exact Script.exec_congr (fun call w => run_call_eq h call env w) program w

end Tronado
