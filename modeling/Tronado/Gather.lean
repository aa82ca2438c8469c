import Mathlib.Data.List.Count
import Tronado.Lib.Tasks
import Tronado.Programs

/-!
# Calls in tasks

Calls of one asynchronous client that run side by side, each in a task of its own: the
event loop resumes them in any order, with any answers, and cancels those it does not
resume any more.

* `AsyncTronadoClient.sends`: what a call sends.
* `TaskSpec`: what a task has sent so far.
* `AsyncTronadoClient.gather_spec`: under any schedule, each task sends what its call
  may send, and no two requests for an order come from one call.
-/

namespace Tronado

open Py Run

section

variable [Runtime] {ρ : Type}

/-- **A call of an asynchronous client sends what its row says.** -/
theorem AsyncTronadoClient.sends (self : AsyncTronadoClient) (call : Call ρ)
    (env : Env Outcome PyErr) (w : World PreparedRequest) :
    ∃ xs, Between env w ((self.call call).run env w).2 xs ∧
      Sends self.config call.operation (call.endpoint versionTag) xs
        ((self.call call).run env w).1 := by
  rw [AsyncTronadoClient.call_eq]
  split
  · rw [← call.run_sync_eq_run_async self.config versionTag env w]
    exact call.exchanges self.config versionTag env w
  · exact ⟨[], .refl w, .nil (Or.inl rfl)⟩

/-- What a task has sent, which answers it was given, and what it ends with. -/
structure TaskSpec (config : TronadoConfig) (call : Call ρ) (code : Awaitable ρ)
    (events : List (Event PreparedRequest)) (heard : List Outcome) : Prop where
  length_le : (requests events).length ≤
    (if (call.endpoint versionTag).retried then config.maxRetries else 0) + 1
  same : ∀ r ∈ requests events, ∀ r' ∈ requests events, r = r'
  meets : ∀ r ∈ requests events, Meets config (call.endpoint versionTag) r
  /-- A result is what the answer that the task was given last is read as. -/
  done : ∀ a, code = .ret (.ok a) → ∃ xs, requests events = xs.map Exchange.request ∧
    heard = xs.map Exchange.answer ∧ ReadFrom call.operation xs a

/-- **A call that is on its way through a run** has sent no more than the run sends. -/
theorem taskSpec_of_run {self : AsyncTronadoClient} {call : Call ρ} {code : Awaitable ρ}
    {env : Env Outcome PyErr} {w : World PreparedRequest} {heard : List Outcome}
    (hheard : Coroutine.Hears env World.start w heard)
    (h : (self.call call).run env World.start = code.run env w) :
    TaskSpec self.config call code w.events heard := by
  obtain ⟨xs, hb, hx⟩ := self.sends call env World.start
  rw [h] at hb hx
  have hall : requests (code.run env w).2.events = xs.map Exchange.request := hb.requests
  have hbegin : requests w.events <+: xs.map Exchange.request := by
    obtain ⟨rest, hrest⟩ := Coroutine.events_prefix_run code env w
    rw [← hall, ← hrest, requests_append]
    exact List.prefix_append _ _
  have hmem : ∀ r ∈ requests w.events, ∃ x ∈ xs, x.request = r := fun r hr =>
    List.mem_map.mp (hbegin.subset hr)
  refine ⟨?_, ?_, ?_, ?_⟩
  · have hle := hbegin.length_le
    rw [List.length_map] at hle
    exact hle.trans hx.length_le
  · intro r hr r' hr'
    obtain ⟨x, hxs, rfl⟩ := hmem r hr
    obtain ⟨x', hxs', rfl⟩ := hmem r' hr'
    exact hx.same x hxs x' hxs'
  · intro r hr
    obtain ⟨x, hxs, rfl⟩ := hmem r hr
    exact hx.meets x hxs
  · rintro a rfl
    have hlength : heard.length = xs.length := by
      have hsent : w.sent = 0 + xs.length := hb.sent
      rw [hheard.sent] at hsent
      exact Nat.add_left_cancel hsent
    refine ⟨xs, hall, ?_, hx.answered a rfl⟩
    rw [hheard.answers, hlength, hb.answers]

end

/-- Is this a request for a new order? -/
def isOrderRequest (config : TronadoConfig) : Event PreparedRequest → Bool
  | .request r => r.url == orderUrl config
  | _ => false

theorem mem_requests {r : PreparedRequest} {events : List (Event PreparedRequest)} :
    r ∈ requests events ↔ .request r ∈ events := by
  induction events with
  | nil => simp [requests]
  | cons e events ih => cases e <;> simp [requests, ih]

/-- Requests for an order are requests. -/
theorem length_orders_le (config : TronadoConfig) (events : List (Event PreparedRequest)) :
    (events.filter (isOrderRequest config)).length ≤ (requests events).length := by
  induction events with
  | nil => exact le_rfl
  | cons e events ih =>
    cases e with
    | request r =>
      rw [List.filter_cons]
      split
      · exact Nat.succ_le_succ ih
      · exact ih.trans (Nat.le_succ _)
    | sleep d => exact ih
    | warning t => exact ih

variable [Runtime] {ι : Type} [DecidableEq ι] {ρ : ι → Type}

/-- The calls of a client, each in a task of its own. -/
def AsyncTronadoClient.gather (self : AsyncTronadoClient) (calls : (i : ι) → Call (ρ i))
    (asyncioSleep : Double → Except PyErr Unit) (schedule : List (ι × Input Outcome)) :
    Tasks ι ρ PreparedRequest Outcome PyErr :=
  Tasks.run asyncioSleep (fun i => self.call (calls i)) schedule

theorem taskSpec_gather (self : AsyncTronadoClient) (calls : (i : ι) → Call (ρ i))
    (asyncioSleep : Double → Except PyErr Unit) (schedule : List (ι × Input Outcome)) (i : ι) :
    TaskSpec self.config (calls i) ((self.gather calls asyncioSleep schedule).code i)
      (own i (self.gather calls asyncioSleep schedule).trace)
      (own i (self.gather calls asyncioSleep schedule).heard) := by
  obtain ⟨env, w, hevents, hheard, hrun⟩ :=
    Tasks.run_alone (fun i => self.call (calls i)) schedule i
      ⟨fun _ => .timeout, fun _ => .zero, asyncioSleep⟩
  rw [show own i (self.gather calls asyncioSleep schedule).trace = w.events from hevents.symm]
  exact taskSpec_of_run hheard hrun

/-- A task whose call creates no order asks for none. -/
theorem createsOrder_of_request {config : TronadoConfig} {ρ : Type} {call : Call ρ}
    {code : Awaitable ρ} {events : List (Event PreparedRequest)} {heard : List Outcome}
    (h : TaskSpec config call code events heard) {e : Event PreparedRequest} (he : e ∈ events)
    (horder : isOrderRequest config e = true) : call.createsOrder = true := by
  cases e with
  | request r =>
    have hmeets := h.meets r (mem_requests.mpr he)
    rw [← asksForOrder_iff (x := ⟨r, .timeout⟩) hmeets]
    exact horder
  | sleep d => cases horder
  | warning t => cases horder

/-- A task asks for one order at most. -/
theorem length_orders_le_one {config : TronadoConfig} {ρ : Type} {call : Call ρ}
    {code : Awaitable ρ} {events : List (Event PreparedRequest)} {heard : List Outcome}
    (h : TaskSpec config call code events heard) :
    (events.filter (isOrderRequest config)).length ≤ 1 := by
  by_cases hnone : events.filter (isOrderRequest config) = []
  · rw [hnone]
    exact Nat.zero_le 1
  · obtain ⟨e, he⟩ := List.exists_mem_of_ne_nil _ hnone
    obtain ⟨hmem, horder⟩ := List.mem_filter.mp he
    have hretried := retried_of_createsOrder (createsOrder_of_request h hmem horder)
    have hle := h.length_le
    rw [hretried] at hle
    exact (length_orders_le config events).trans hle

/-- **Calls side by side.**  Under any schedule of the event loop, with any answers and
any cancellations, each task has sent no more than its call may send, and what it returns
is what the answer it was given last is read as.  All requests for an order come from calls
that create one, and no two of them from the same call. -/
theorem AsyncTronadoClient.gather_spec (self : AsyncTronadoClient) (calls : (i : ι) → Call (ρ i))
    (asyncioSleep : Double → Except PyErr Unit) (schedule : List (ι × Input Outcome)) :
    let tasks := self.gather calls asyncioSleep schedule
    let orders := tasks.trace.filter fun x => isOrderRequest self.config x.2
    (∀ i, TaskSpec self.config (calls i) (tasks.code i) (own i tasks.trace)
        (own i tasks.heard)) ∧
      (orders.map Prod.fst).Nodup ∧ ∀ x ∈ orders, (calls x.1).createsOrder = true := by
  intro tasks orders
  have hspec : ∀ i, TaskSpec self.config (calls i) (tasks.code i) (own i tasks.trace)
      (own i tasks.heard) :=
    taskSpec_gather self calls asyncioSleep schedule
  refine ⟨hspec, ?_, ?_⟩
  · rw [List.nodup_iff_count_le_one]
    intro i
    rw [count_filter_own]
    exact length_orders_le_one (hspec i)
  · intro x hx
    obtain ⟨hmem, horder⟩ := List.mem_filter.mp hx
    exact createsOrder_of_request (hspec x.1) (mem_own.mpr hmem) horder

end Tronado
