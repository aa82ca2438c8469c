import Tronado.Closure
import Tronado.Coverage

/-!
# What a call does with the API key

Two configs that differ only in the key make the same calls to public operations:
the key is read in `build_headers` alone, and only for an operation that requires
authentication.

* `prepareRequest_public`, `policy_public`: neither the request nor the policy of a
  public operation depends on the key.
* `invoke_public`: so the whole run does not, over either transport; and a
  protected operation without a key sends nothing.
-/

namespace Tronado

open Py Run

section

variable [Runtime] {ρ : Type} {c c' : TronadoConfig}

theorem prepareRequest_public (h : AgreeExceptKey c c') {operation : Operation ρ}
    (hop : operation.requiresAuth = false) (requestModel : Option RequestModel) (version : Str)
    (query : Option (List (Str × Value))) :
    prepareRequest c operation requestModel version query =
      prepareRequest c' operation requestModel version query := by
  simp only [prepareRequest, hop, buildHeaders_unauthenticated h, h.baseUrl]

theorem policy_public (h : AgreeExceptKey c c') (operation : Operation ρ)
    (prepared : PreparedRequest) : policy c operation prepared = policy c' operation prepared := by
  have hv : verdict c operation prepared = verdict c' operation prepared := by
    funext o
    cases o <;> simp only [verdict, h.timeout]
  have hb : backoffWith c = backoffWith c' := by
    funext attempt jitter
    simp only [backoffWith, h.backoffFactor, h.maxBackoff]
  simp only [policy, h.maxRetries, hv, hb]

theorem runCall_public (h : AgreeExceptKey c c') {operation : Operation ρ}
    (hop : operation.requiresAuth = false) (requestModel : Option RequestModel) (version : Str)
    (query : Option (List (Str × Value))) (env : Env Outcome PyErr) (w : World PreparedRequest) :
    runCall c operation requestModel version query env w =
      runCall c' operation requestModel version query env w := by
  simp only [runCall, prepareRequest_public h hop, policy_public h]

/-- A protected operation cannot be prepared without a key. -/
theorem prepareRequest_without_key {config : TronadoConfig} (hkey : config.apiKey = none)
    {operation : Operation ρ} (hop : operation.requiresAuth = true)
    {requestModel : Option RequestModel}
    (hbody : operation.requestModel.isSome = true → requestModel.isSome = true) (version : Str)
    (query : Option (List (Str × Value))) :
    ∃ m, prepareRequest config operation requestModel version query
      = .error (.tronado (.config m)) := by
  obtain ⟨b, hb⟩ := encodeBody_ok hbody
  obtain ⟨m, hm⟩ := buildHeaders_without_key hkey
  refine ⟨m, ?_⟩
  simp only [prepareRequest, hb, hop, hm, ok_bind, error_bind]

/-- **The key does not reach public endpoints.**  With configs that differ only in
the key, a call of a public operation makes the same run over either transport,
whatever the environment.  A protected operation that is called with its request
model under a config without a key ends in `TronadoConfigError` and sends
nothing.  All price operations are public. -/
theorem invoke_public (operation : Operation ρ) (requestModel : Option RequestModel)
    (version : Str) (query : Option (List (Str × Value))) (env : Env Outcome PyErr) :
    (operation.requiresAuth = false → ∀ c c', AgreeExceptKey c c' →
      ((SyncTransport.mk c).invoke operation requestModel version query).run env World.start =
        ((SyncTransport.mk c').invoke operation requestModel version query).run env World.start ∧
      ((AsyncTransport.mk c).invoke operation requestModel version query).run env World.start =
        ((AsyncTransport.mk c').invoke operation requestModel version query).run env World.start) ∧
    (operation.requiresAuth = true →
      (operation.requestModel.isSome = true → requestModel.isSome = true) →
      ∀ config : TronadoConfig, config.apiKey = none →
        ∃ m, ((SyncTransport.mk config).invoke operation requestModel version query).run env
            World.start = (.error (.tronado (.config m)), World.start) ∧
          ((AsyncTransport.mk config).invoke operation requestModel version query).run env
            World.start = (.error (.tronado (.config m)), World.start)) ∧
    Ops.tronGetPriceToToman.requiresAuth = false ∧
    Ops.tronGetPriceWithWageToToman.requiresAuth = false ∧
    Ops.tomanConvertToTron.requiresAuth = false ∧ Ops.tomanGetPriceToToman.requiresAuth = false ∧
    Ops.dollarConvertToTron.requiresAuth = false ∧
    Ops.dollarGetPriceToToman.requiresAuth = false := by
  simp only [SyncTransport.run_invoke, AsyncTransport.run_invoke]
  refine ⟨?_, ?_, rfl, rfl, rfl, rfl, rfl, rfl⟩
  · intro hop c c' h
    have := runCall_public h hop requestModel version query env World.start
    exact ⟨this, this⟩
  · intro hop hbody config hkey
    obtain ⟨m, hm⟩ := prepareRequest_without_key hkey hop hbody version query
    refine ⟨m, ?_, ?_⟩
    · simp only [runCall, hm]
    · simp only [runCall, hm]

end

end Tronado
