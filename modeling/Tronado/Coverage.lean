import Tronado.Calls
import Tronado.Taxonomy

/-!
# Which server errors use up the retries

The documentation says that 429 and every 5xx is retried, so that a call of an
idempotent operation that ends in `TronadoServerError` or `TronadoRateLimitError`
has sent `1 + max_retries` requests (`SpendsBudget`).  The retry set holds 500,
502, 503 and 504 only.

* `invoke_spendsBudget_iff`: a call keeps this exactly when it meets no other status
  from 500 on before its last attempt.
-/

namespace Tronado

open Py Run

section

variable [Runtime] {ρ : Type}

/-- The call ended in `TronadoServerError` or `TronadoRateLimitError`. -/
def EndsInServerError (result : Except PyErr ρ) : Prop :=
  ∃ e, result = .error e ∧ (e.apiClass = some .server ∨ e.apiClass = some .rateLimit)

/-- Such a call has used up its budget. -/
def SpendsBudget (config : TronadoConfig) (run : Except PyErr ρ × World PreparedRequest) : Prop :=
  EndsInServerError run.1 → (requests run.2.events).length = 1 + config.maxRetries

/-- A status from 500 on that is not in the retry set, on a body that decodes. -/
def UnretriedServerError : Outcome → Prop
  | .response r =>
    500 ≤ r.statusCode ∧ isRetryableStatus r.statusCode = false ∧
      ∃ data, safeJson r.text = .ok data
  | _ => False

/-- The call gets as far as attempt `i`. -/
def Reaches (config : TronadoConfig) (operation : Operation ρ) (prepared : PreparedRequest)
    (env : Env Outcome PyErr) (i : ℕ) : Prop :=
  ∀ j < i, worthRetry (env.answer j) = true ∧
    (policy config operation prepared).PauseReturns env j

theorem processResponse_server {operation : Operation ρ} {statusCode : ℕ} {text : Str}
    {data : Value} (hs : 500 ≤ statusCode) (hj : safeJson text = .ok data) :
    EndsInServerError (processResponse operation statusCode text) := by
  have hc : errorClass operation statusCode data = some .server := by
    rw [errorClass, if_neg (by omega), if_neg (by omega), if_pos hs]
  have hagree := agreesWith_errorClass operation statusCode data
  rw [hc] at hagree
  obtain ⟨e, he, hcls⟩ := hagree
  refine ⟨.tronado (.api e), ?_, Or.inl (congrArg some hcls)⟩
  rw [processResponse, hj, ok_bind, he]

theorem status_of_endsInServerError {operation : Operation ρ} {statusCode : ℕ} {text : Str}
    (h : EndsInServerError (processResponse operation statusCode text)) :
    (statusCode = 429 ∨ 500 ≤ statusCode) ∧ ∃ data, safeJson text = .ok data := by
  obtain ⟨e, he, hcls⟩ := h
  unfold processResponse at he
  cases hj : safeJson text with
  | error e' =>
    rw [hj, error_bind] at he
    cases he
    rw [error_of_safeJson hj] at hcls
    simp [PyErr.apiClass] at hcls
  | ok data =>
    rw [hj, ok_bind] at he
    refine ⟨?_, data, rfl⟩
    obtain ⟨a, rfl, hc⟩ := errorClass_of_error he
    unfold errorClass envelopedClass flatClass at hc
    simp only [PyErr.apiClass, Option.some.injEq] at hcls
    grind

/-- An attempt that is reached before the budget and not retried is the last one. -/
theorem stop_of_reaches {config : TronadoConfig} {operation : Operation ρ}
    {prepared : PreparedRequest} {env : Env Outcome PyErr} {i : ℕ}
    (hidem : operation.idempotent = true) (hi : i < config.maxRetries)
    (hr : Reaches config operation prepared env i) (hn : worthRetry (env.answer i) = false) :
    (policy config operation prepared).stop env = i := by
  have hb := policy_budget config operation prepared hidem
  refine le_antisymm ((Policy.isLeast_stop _ env).2 (Or.inr hn)) ?_
  by_contra hlt
  rcases (policy config operation prepared).stop_spec env with h | h
  · omega
  · exact absurd ((hr _ (by omega)).1.symm.trans h) (by simp)

/-- A server error that the call reaches and does not retry ends it too early. -/
theorem not_spendsBudget_of_unretried {config : TronadoConfig} {operation : Operation ρ}
    (prepared : PreparedRequest) {env : Env Outcome PyErr} {i : ℕ}
    (hidem : operation.idempotent = true) (hi : i < config.maxRetries)
    (hr : Reaches config operation prepared env i) (hu : UnretriedServerError (env.answer i)) :
    ¬ SpendsBudget config ((policy config operation prepared).run prepared env) := by
  cases ho : env.answer i with
  | timeout => rw [ho] at hu; exact hu.elim
  | requestError exc => rw [ho] at hu; exact hu.elim
  | response r =>
    rw [ho] at hu
    obtain ⟨hs, hn, data, hj⟩ := hu
    have hstop := stop_of_reaches hidem hi hr (by rw [ho]; exact hn)
    have hpause : ∀ j < (policy config operation prepared).stop env,
        (policy config operation prepared).PauseReturns env j :=
      fun j hj => (hr j (hstop ▸ hj)).2
    have hrun := Policy.run_of_pauses prepared hpause
    rw [hstop, ho] at hrun
    intro h
    rw [hrun] at h
    have hlen := h (processResponse_server hs hj)
    rw [Policy.requests_lastSchedule, Policy.length_delays, List.length_replicate] at hlen
    omega

/-- **A call whose pauses return** and that meets no such server error ends in one
only when the budget is used up. -/
theorem spendsBudget_of_pauses {config : TronadoConfig} {operation : Operation ρ}
    (prepared : PreparedRequest) {env : Env Outcome PyErr} (hidem : operation.idempotent = true)
    (hp : ∀ j < (policy config operation prepared).stop env,
      (policy config operation prepared).PauseReturns env j)
    (hc : ∀ i < config.maxRetries, Reaches config operation prepared env i →
      ¬ UnretriedServerError (env.answer i)) :
    SpendsBudget config ((policy config operation prepared).run prepared env) := by
  have hb := policy_budget config operation prepared hidem
  intro hend
  rw [Policy.run_of_pauses prepared hp] at hend ⊢
  rw [Policy.requests_lastSchedule, Policy.length_delays, List.length_replicate]
  have hle := (policy config operation prepared).stop_le env
  rcases (policy config operation prepared).stop_spec env with h | h
  · omega
  · -- the last answer was not worth a retry, so the call stopped early
    by_contra hne
    have hnot := hc _ (by omega) (fun j hj =>
      ⟨(policy config operation prepared).again_of_lt_stop env hj, hp j hj⟩)
    cases ho : env.answer ((policy config operation prepared).stop env) with
    | timeout => rw [ho] at h; cases h
    | requestError exc => rw [ho] at h; cases h
    | response r =>
      rw [ho] at h hnot hend
      obtain ⟨hstatus, hdata⟩ := status_of_endsInServerError hend
      have hn : isRetryableStatus r.statusCode = false := h
      rcases hstatus with hs | hs
      · rw [hs] at hn; cases hn
      · exact hnot ⟨hs, hn, hdata⟩

theorem spendsBudget_run_iff {config : TronadoConfig} {operation : Operation ρ}
    (prepared : PreparedRequest) {env : Env Outcome PyErr} (hidem : operation.idempotent = true)
    (hsleep : ∀ d e, env.sleep d = .error e → e.isTronado = false) :
    SpendsBudget config ((policy config operation prepared).run prepared env) ↔
      ∀ i < config.maxRetries, Reaches config operation prepared env i →
        ¬ UnretriedServerError (env.answer i) := by
  constructor
  · intro h i hi hr hu
    exact not_spendsBudget_of_unretried prepared hidem hi hr hu h
  · intro hc
    rcases (policy config operation prepared).pauses_or_first_bad env with hp | ⟨j, hj, hp, hbad⟩
    · exact spendsBudget_of_pauses prepared hidem hp hc
    · -- a pause that raises ends the call with another exception
      obtain ⟨e, he, hnot⟩ := error_of_bad_pause hsleep hj hp hbad
      rintro ⟨e', he', hcls⟩
      rw [he] at he'
      cases he'
      rw [apiClass_eq_none hnot] at hcls
      simp at hcls

theorem spendsBudget_runCall_iff {config : TronadoConfig} {operation : Operation ρ}
    {requestModel : Option RequestModel} {version : Str} {query : Option (List (Str × Value))}
    {env : Env Outcome PyErr} (hidem : operation.idempotent = true)
    (hsleep : ∀ d e, env.sleep d = .error e → e.isTronado = false) :
    SpendsBudget config (runCall config operation requestModel version query env World.start) ↔
      ∀ prepared, prepareRequest config operation requestModel version query = .ok prepared →
        ∀ i < config.maxRetries, Reaches config operation prepared env i →
          ¬ UnretriedServerError (env.answer i) := by
  unfold runCall
  cases hp : prepareRequest config operation requestModel version query with
  | error e =>
    refine ⟨fun _ _ h => (nomatch h), ?_⟩
    intro _ hend
    obtain ⟨e', he, hcls⟩ := hend
    cases he
    rcases error_of_prepareRequest hp with ⟨a, rfl, ha⟩ | ⟨m, rfl⟩
    · simp [PyErr.apiClass, ha] at hcls
    · simp [PyErr.apiClass] at hcls
  | ok prepared =>
    simp only [Except.ok.injEq, forall_eq']
    exact spendsBudget_run_iff prepared hidem hsleep

/-- **Which calls retry as documented.**  Over either transport, a call of an
idempotent operation that ends in a server or rate limit error has used up its
budget, exactly when no attempt before the last one allowed, that it reaches, is
answered with a status from 500 on outside the retry set. -/
theorem invoke_spendsBudget_iff (config : TronadoConfig) (operation : Operation ρ)
    (requestModel : Option RequestModel) (version : Str) (query : Option (List (Str × Value)))
    (env : Env Outcome PyErr) (hidem : operation.idempotent = true)
    (hsleep : ∀ d e, env.sleep d = .error e → e.isTronado = false) :
    let holds := ∀ prepared,
      prepareRequest config operation requestModel version query = .ok prepared →
        ∀ i < config.maxRetries, Reaches config operation prepared env i →
          ¬ UnretriedServerError (env.answer i)
    (SpendsBudget config (((SyncTransport.mk config).invoke operation requestModel version
      query).run env World.start) ↔ holds) ∧
    (SpendsBudget config (((AsyncTransport.mk config).invoke operation requestModel version
      query).run env World.start) ↔ holds) := by
  intro holds
  rw [SyncTransport.run_invoke, AsyncTransport.run_invoke]
  exact ⟨spendsBudget_runCall_iff hidem hsleep, spendsBudget_runCall_iff hidem hsleep⟩

end

/-- An environment that answers every request alike and sleeps as it is told. -/
def steadyEnv (o : Outcome) : Env Outcome PyErr where
  answer _ := o
  jitter _ := .zero
  sleep _ := .ok ()

/-- A call whose requests are all answered with status 503. -/
theorem invoke_spendsBudget_iff_unavailable :
    let _ := Runtime.sample
    let env := steadyEnv (.response ⟨503, [], []⟩)
    let holds := ∀ prepared,
      prepareRequest .standard Ops.tronGetPriceToToman none (lit "v5") none = .ok prepared →
        ∀ i < TronadoConfig.standard.maxRetries,
          Reaches .standard Ops.tronGetPriceToToman prepared env i →
            ¬ UnretriedServerError (env.answer i)
    (SpendsBudget .standard (((SyncTransport.mk .standard).invoke Ops.tronGetPriceToToman none
      (lit "v5") none).run env World.start) ↔ holds) ∧
    (SpendsBudget .standard (((AsyncTransport.mk .standard).invoke Ops.tronGetPriceToToman none
      (lit "v5") none).run env World.start) ↔ holds) :=
  let _ := Runtime.sample
  invoke_spendsBudget_iff .standard Ops.tronGetPriceToToman none (lit "v5") none
    (steadyEnv (.response ⟨503, [], []⟩)) rfl (fun _ _ h => nomatch h)

/-- A price request answered with status 501 is not tried again. -/
theorem not_retried_501 :
    ¬ ∀ (_ : Runtime) (config : TronadoConfig) (ρ : Type) (operation : Operation ρ)
      (requestModel : Option RequestModel) (version : Str) (query : Option (List (Str × Value)))
      (env : Env Outcome PyErr), operation.idempotent = true →
        SpendsBudget config (((SyncTransport.mk config).invoke operation requestModel version
          query).run env World.start) := by
  intro h
  let _ := Runtime.sample
  have hs := h Runtime.sample .standard _ Ops.tronGetPriceToToman none (lit "v5") none
    (steadyEnv (.response ⟨501, [], []⟩)) rfl
  rw [SyncTransport.run_invoke] at hs
  have hlen := hs ⟨_, rfl, Or.inl rfl⟩
  exact absurd hlen (by decide)

end Tronado
