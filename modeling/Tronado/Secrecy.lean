import Tronado.KeyIndependence
import Tronado.Programs

/-!
# Where the API key goes

`redacted` blanks the value of the key header of a request and leaves the rest.  To an
observer of redacted requests the key does not exist: two clients whose configs differ
in the key alone do the same for every program, return the same, and print the same.

* `Call.alike`: one call.
* `key_secret`: any program over either client, and the `repr` of the config.
-/

namespace Py.Dict

variable {κ ν : Type} [DecidableEq κ]

/-- Replace the value under `k`, if there is one. -/
def mask (d : Dict κ ν) (k : κ) (v : ν) : Dict κ ν where
  items := d.items.map fun p => if p.1 = k then (p.1, v) else p
  nodup := by
    have hkeys : (d.items.map fun p => if p.1 = k then (p.1, v) else p).map Prod.fst =
        d.items.map Prod.fst := by
      rw [List.map_map]
      apply List.map_congr_left
      intro p _
      show (if p.1 = k then (p.1, v) else p).1 = p.1
      split <;> rfl
    rw [hkeys]
    exact d.nodup

theorem items_mask_set (items : List (κ × ν)) (k : κ) (v v' u : ν) :
    (setItem k v items).map (fun p => if p.1 = k then (p.1, u) else p) =
      (setItem k v' items).map (fun p => if p.1 = k then (p.1, u) else p) := by
  induction items with
  | nil => simp [setItem]
  | cons p items ih =>
    rw [setItem, setItem]
    split
    · next h => simp [h]
    · rw [List.map_cons, List.map_cons, ih]

/-- A value that is replaced may have been anything. -/
theorem mask_set (d : Dict κ ν) (k : κ) (v v' u : ν) :
    (d.set k v).mask k u = (d.set k v').mask k u := by
  unfold mask set
  congr 1
  exact items_mask_set d.items k v v' u

end Py.Dict

namespace Tronado

open Py Run

/-- The request with the value of the key header blanked. -/
def redacted (name : Str) (r : PreparedRequest) : PreparedRequest :=
  { r with headers := r.headers.mask name (lit "***") }

/-- `__repr__`. -/
def TronadoConfig.repr (config : TronadoConfig) : Message :=
  let redacted := match config.apiKey with
    | some _ => Part.repr (lit "***")
    | none => Part.text "None"
  [.text "TronadoConfig(api_key=", redacted, .text ", base_url=", .repr config.baseUrl,
    .text ", timeout=", .float config.timeout, .text ", max_retries=", .int config.maxRetries,
    .text ", default_version=", .repr config.defaultVersion, .text ")"]

/-- Two results that become one under `f`. -/
theorem map_eq_map {ε α β : Type} {f : α → β} {x y : Except ε α} (h : x.map f = y.map f) :
    (∃ e, x = .error e ∧ y = .error e) ∨ ∃ a b, x = .ok a ∧ y = .ok b ∧ f a = f b := by
  cases x with
  | error e =>
    cases y with
    | error e' => exact Or.inl ⟨e, rfl, congrArg Except.error (Except.error.inj h).symm⟩
    | ok b => cases h
  | ok a =>
    cases y with
    | error e' => cases h
    | ok b => exact Or.inr ⟨a, b, rfl, rfl, Except.ok.inj h⟩

/-- Two configs that differ at most in what the key is. -/
structure SameButKey (c c' : TronadoConfig) : Prop where
  rest : AgreeExceptKey c c'
  key : c.apiKey.isSome = c'.apiKey.isSome

theorem SameButKey.repr_eq {c c' : TronadoConfig} (h : SameButKey c c') : c.repr = c'.repr := by
  have hkey := h.key
  unfold TronadoConfig.repr
  rw [h.rest.baseUrl, h.rest.timeout, h.rest.maxRetries, h.rest.defaultVersion]
  cases hk : c.apiKey with
  | none =>
    rw [hk] at hkey
    rw [Option.isSome_eq_false_iff.mp hkey.symm |> Option.isNone_iff_eq_none.mp]
  | some key =>
    rw [hk] at hkey
    obtain ⟨key', hk'⟩ := Option.isSome_iff_exists.mp hkey.symm
    rw [hk']

/-- The headers are the same once the key is blanked. -/
theorem mask_buildHeaders {c c' : TronadoConfig} (h : SameButKey c c') (authenticated : Bool)
    (u : Str) :
    (c.buildHeaders authenticated).map (fun headers => headers.mask c.apiKeyHeader u) =
      (c'.buildHeaders authenticated).map (fun headers => headers.mask c.apiKeyHeader u) := by
  cases authenticated with
  | false => rw [buildHeaders_unauthenticated h.rest]
  | true =>
    have hkey := h.key
    cases hk : c.apiKey with
    | none =>
      rw [hk] at hkey
      have hk' : c'.apiKey = none := Option.isNone_iff_eq_none.mp
        (Option.isSome_eq_false_iff.mp hkey.symm)
      simp only [TronadoConfig.buildHeaders, hk, hk', if_true]
    | some key =>
      rw [hk] at hkey
      obtain ⟨key', hk'⟩ := Option.isSome_iff_exists.mp hkey.symm
      simp only [TronadoConfig.buildHeaders, hk, hk', if_true, h.rest.userAgent,
        h.rest.defaultHeaders, h.rest.apiKeyHeader]
      exact congrArg Except.ok (Dict.mask_set _ _ key key' u)

section

variable [Runtime] {α ρ : Type} {c c' : TronadoConfig}

theorem redacted_prepareRequest (h : SameButKey c c') (operation : Operation ρ)
    (requestModel : Option RequestModel) (version : Str) (query : Option (List (Str × Value))) :
    (prepareRequest c operation requestModel version query).map (redacted c.apiKeyHeader) =
      (prepareRequest c' operation requestModel version query).map (redacted c.apiKeyHeader) := by
  have hheaders := mask_buildHeaders h operation.requiresAuth (lit "***")
  unfold prepareRequest
  rw [h.rest.baseUrl]
  cases encodeBody operation requestModel with
  | error e => rfl
  | ok content =>
    rw [ok_bind, ok_bind]
    rcases map_eq_map hheaders with ⟨e, he, he'⟩ | ⟨headers, headers', hh, hh', hmask⟩
    · rw [he, he']
    · rw [hh, hh']
      simp only [ok_bind, Except.map, pure, Except.pure, redacted, hmask]

/-- Of a request the policy reads the URL alone. -/
theorem policy_of_url (config : TronadoConfig) (operation : Operation ρ)
    {prepared prepared' : PreparedRequest} (h : prepared.url = prepared'.url) :
    policy config operation prepared = policy config operation prepared' := by
  have hv : verdict config operation prepared = verdict config operation prepared' := by
    funext o
    cases o <;> simp only [verdict, h]
  simp only [policy, hv]

/-- **`invoke` looks the same with another key.** -/
theorem SyncTransport.alike_invoke (h : SameButKey c c') {operation : Operation ρ}
    {requestModel : Option RequestModel} {version : Str} {query : Option (List (Str × Value))} :
    Alike (redacted c.apiKeyHeader)
      ((SyncTransport.mk c).invoke operation requestModel version query)
      ((SyncTransport.mk c').invoke operation requestModel version query) := by
  intro env w w' hw
  have hprepared := redacted_prepareRequest h operation requestModel version query
  rw [SyncTransport.run_invoke, SyncTransport.run_invoke]
  unfold runCall
  rcases map_eq_map hprepared with ⟨e, he, he'⟩ | ⟨prepared, prepared', hp, hp', hredacted⟩
  · rw [he, he']
    exact congrArg (Prod.mk _) hw
  · have hurl : (redacted c.apiKeyHeader prepared).url = (redacted c.apiKeyHeader prepared').url :=
      by rw [hredacted]
    have hpolicy : policy c operation prepared = policy c' operation prepared' :=
      (policy_public h.rest operation prepared).trans (policy_of_url c' operation hurl)
    rw [hp, hp']
    dsimp only
    rw [hpolicy]
    exact Policy.alike_loop _ hredacted _ _ env w w' hw

/-- **A call looks the same with another key.** -/
theorem Call.alike (h : SameButKey c c') (version : Str) (call : Call ρ) :
    Alike (redacted c.apiKeyHeader) (call.sync ⟨c⟩ version) (call.sync ⟨c'⟩ version) := by
  rw [sync_eq, sync_eq]
  refine .bind ?_ fun _ => .bind (.lift _) fun handed => SyncTransport.alike_invoke h
  cases call.deprecation with
  | none => exact .lift _
  | some text => exact .warn text

theorem TronadoClient.alike_call {client client' : TronadoClient}
    (h : SameButKey client.config client'.config) (call : Call ρ) :
    Alike (redacted client.config.apiKeyHeader) (client.call call) (client'.call call) := by
  rw [TronadoClient.call_eq, TronadoClient.call_eq, h.rest.defaultVersion]
  split
  · exact call.alike h versionTag
  · exact .lift _

/-- **The key is nowhere but in its header.**  Take two clients whose configs differ at
most in what their keys are.  In any environment and for any program, once the value of
the key header is blanked they send the same requests with the same pauses and warnings
between them, and return the same or raise the same, messages included.  The same holds
of two asynchronous clients with these configs, and both configs are printed alike. -/
theorem key_secret {client client' : TronadoClient}
    (h : SameButKey client.config client'.config) (program : Program α)
    (env : Env Outcome PyErr) (w : World PreparedRequest) :
    seen (redacted client.config.apiKeyHeader) ((client.exec program).run env w) =
        seen (redacted client.config.apiKeyHeader) ((client'.exec program).run env w) ∧
      (∀ task task' : AsyncTronadoClient, task.config = client.config →
        task'.config = client'.config →
          seen (redacted client.config.apiKeyHeader) ((task.exec program).run env w) =
            seen (redacted client.config.apiKeyHeader) ((task'.exec program).run env w)) ∧
      client.config.repr = client'.config.repr := by
  have halike : Alike (redacted client.config.apiKeyHeader) (client.exec program)
      (client'.exec program) :=
    Script.alike_exec (fun call => TronadoClient.alike_call h call) program
  refine ⟨halike env w w rfl, ?_, h.repr_eq⟩
  intro task task' ht ht'
  have hrun := (TronadoClient.exec_spec client program env w).2 task ht
  have hrun' := (TronadoClient.exec_spec client' program env w).2 task' ht'
  rw [hrun, hrun']
  exact halike env w w rfl

end

/-- A client with a key. -/
def keyedClient [Runtime] (key : Str) (h : key ≠ []) : TronadoClient where
  config := { TronadoConfig.standard with
    apiKey := some key
    apiKey_ne := by simpa using h }
  http := ⟨true, false⟩
  versionCache := .empty
  sound := Memo.Table.sound_empty _

/-- An order is created under two keys, and each time the server is out of reach. -/
theorem key_secret_timeout :
    let _ := Runtime.sample
    let client := keyedClient (lit "k") (by decide)
    let client' := keyedClient (lit "l") (by decide)
    let program : Program OrderTokenData :=
      .call (.getOrderToken (lit "p") (lit "w") (.int 1) (lit "https://a.b") 0) .ret
    seen (redacted client.config.apiKeyHeader)
        ((client.exec program).run (steadyEnv .timeout) World.start) =
      seen (redacted client.config.apiKeyHeader)
        ((client'.exec program).run (steadyEnv .timeout) World.start) := by
  intro _ client client' program
  have h : SameButKey client.config client'.config :=
    ⟨⟨rfl, rfl, rfl, rfl, rfl, rfl, rfl, rfl, rfl⟩, rfl⟩
  exact (key_secret h program (steadyEnv .timeout) World.start).1

end Tronado
