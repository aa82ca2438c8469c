import Tronado.Client
import Tronado.Closure
import Tronado.Lib.Alike
import Tronado.Wire

/-!
# What `except TronadoError` catches of a call

All errors are documented to derive from `TronadoError`.  `Caught` is when that is so of
a whole call of a client: its arguments are not refused, each pause can be computed and
slept, and the last response decodes.  `time.sleep` may be any function that raises no
`TronadoError`; for the one of CPython, `pauseReturns_iff` says which pauses return.

Some things are taken for granted, as everywhere in the model.  `client.request` raises
nothing but `httpx.RequestError`: no `UnicodeEncodeError` for a header outside ASCII and no
`httpx.InvalidURL`.  No integer has more than the 4300 digits that CPython writes.  And a
warning stays a warning.

* `closed_policy_iff`: the attempts of a call.
* `TronadoClient.call_closed_iff`: the whole call, and what becomes of refused arguments.
-/

namespace Tronado

open Py Run

section

variable [Runtime] {ρ : Type}

/-- Every pause of the attempts can be computed and returns, and their last answer, if it is
a response, does not nest too deeply. -/
structure AttemptsFit (config : TronadoConfig) (operation : Operation ρ)
    (prepared : PreparedRequest) (env : Env Outcome PyErr) : Prop where
  pauses : ∀ i < (policy config operation prepared).stop env,
    (policy config operation prepared).PauseReturns env i
  decodes : ∀ r, env.answer ((policy config operation prepared).stop env) = .response r →
    ∃ data, safeJson r.text = .ok data

/-- Only a `TronadoError` comes of the call. -/
structure Caught (config : TronadoConfig) (call : Call ρ) (env : Env Outcome PyErr) : Prop where
  accepted : ∃ handed, call.arguments = .ok handed
  fits : ∀ handed prepared, call.arguments = .ok handed →
    prepareRequest config call.operation handed.1 versionTag handed.2 = .ok prepared →
      AttemptsFit config call.operation prepared env

/-- **The attempts are closed exactly when they fit.** -/
theorem closed_policy_iff {config : TronadoConfig} {operation : Operation ρ}
    {prepared : PreparedRequest} {env : Env Outcome PyErr}
    (hsleep : ∀ d e, env.sleep d = .error e → e.isTronado = false) :
    Closed ((policy config operation prepared).run prepared env).1 ↔
      AttemptsFit config operation prepared env := by
  rcases (policy config operation prepared).pauses_or_first_bad env with
    hpause | ⟨j, hj, hpause, hbad⟩
  · rw [Policy.run_of_pauses prepared hpause]
    show Closed (verdict config operation prepared _) ↔ _
    rw [verdict_closed_iff]
    exact ⟨fun h => ⟨hpause, h⟩, fun h => h.decodes⟩
  · refine iff_of_false ?_ ?_
    · intro h
      obtain ⟨e, he, hnot⟩ := error_of_bad_pause hsleep hj hpause hbad
      have hcaught := h e he
      rw [hnot] at hcaught
      cases hcaught
    · intro h
      exact hbad (h.pauses j hj)

/-- A call that has gone through its arguments. -/
theorem closed_runCall_iff {config : TronadoConfig} {operation : Operation ρ}
    {requestModel : Option RequestModel} {query : Option (List (Str × Value))}
    {env : Env Outcome PyErr} (hsleep : ∀ d e, env.sleep d = .error e → e.isTronado = false)
    {w : World PreparedRequest}
    (hsent : w.sent = 0) (hdrawn : w.drawn = 0) :
    Closed (runCall config operation requestModel versionTag query env w).1 ↔
      ∀ prepared, prepareRequest config operation requestModel versionTag query = .ok prepared →
        AttemptsFit config operation prepared env := by
  unfold runCall
  cases hp : prepareRequest config operation requestModel versionTag query with
  | error e =>
    refine iff_of_true ?_ ?_
    · intro e' he
      cases he
      rcases error_of_prepareRequest hp with ⟨a, rfl, -⟩ | ⟨m, rfl⟩
      · rfl
      · rfl
    · intro prepared h
      cases h
  | ok prepared =>
    have hstart : ((policy config operation prepared).loop prepared env
        (policy config operation prepared).budget 0 w).1 =
          ((policy config operation prepared).run prepared env).1 :=
      Policy.fst_loop_congr _ _ _ hsent hdrawn
    dsimp only
    rw [hstart, closed_policy_iff hsleep]
    refine ⟨?_, fun h => h prepared rfl⟩
    intro h prepared' hp'
    cases hp'
    exact h

/-- **A call is closed exactly when it is caught.** -/
theorem Call.closed_iff {config : TronadoConfig} {call : Call ρ} {env : Env Outcome PyErr}
    (hsleep : ∀ d e, env.sleep d = .error e → e.isTronado = false) :
    Closed (runMethod config versionTag call env World.start).1 ↔ Caught config call env := by
  unfold runMethod
  cases ha : call.arguments with
  | error e =>
    refine iff_of_false ?_ ?_
    · intro h
      have hcaught := h e rfl
      rw [error_of_arguments ha] at hcaught
      cases hcaught
    · intro h
      obtain ⟨handed, hok⟩ := h.accepted
      rw [ha] at hok
      cases hok
  | ok handed =>
    have hentered : (call.entered World.start).sent = 0 ∧ (call.entered World.start).drawn = 0 := by
      unfold entered
      cases call.deprecation with
      | none => exact ⟨rfl, rfl⟩
      | some text => exact ⟨rfl, rfl⟩
    dsimp only
    rw [closed_runCall_iff hsleep hentered.1 hentered.2]
    constructor
    · intro h
      refine ⟨⟨handed, ha⟩, ?_⟩
      intro handed' prepared ha' hp
      rw [ha] at ha'
      cases ha'
      exact h prepared hp
    · intro h prepared hp
      exact h.fits handed prepared ha hp

/-- **What `except TronadoError` catches of a call of a client**: all that it raises,
exactly when the default version is not supported or the call is `Caught`, as far as
`client.request` raises only `httpx.RequestError` and integers have at most 4300 digits.
Arguments that are refused raise what they are refused with, which is no `TronadoError`, in
any environment and without a request. -/
theorem TronadoClient.call_closed_iff (self : TronadoClient) (call : Call ρ)
    (env : Env Outcome PyErr) (hsleep : ∀ d e, env.sleep d = .error e → e.isTronado = false) :
    (Closed ((self.call call).run env World.start).1 ↔
      self.config.defaultVersion ≠ versionTag ∨ Caught self.config call env) ∧
    ∀ e, self.config.defaultVersion = versionTag → call.arguments = .error e →
      e.isTronado = false ∧
        ∀ env' w, (self.call call).run env' w = (.error e, call.entered w) := by
  rw [TronadoClient.call_eq]
  by_cases hversion : self.config.defaultVersion = versionTag
  · rw [if_pos hversion, Call.run_sync, Call.closed_iff hsleep]
    refine ⟨?_, ?_⟩
    · exact ⟨Or.inr, fun h => h.resolve_left fun hne => hne hversion⟩
    · intro e _ ha
      refine ⟨Call.error_of_arguments ha, ?_⟩
      intro env' w
      rw [Call.run_sync, runMethod, ha]
  · rw [if_neg hversion]
    refine ⟨iff_of_true ?_ (Or.inl hversion), fun e h => absurd h hversion⟩
    intro e he
    cases he
    rfl

end

/-- A price lookup that the server answers with status 503 and `Retry-After: inf`. -/
theorem TronadoClient.call_closed_iff_inf :
    let _ := Runtime.sample
    let client : TronadoClient := ⟨.standard, ⟨true, false⟩, .empty, Memo.Table.sound_empty _⟩
    let call := Call.tronGetPriceToToman
    let env : Env Outcome PyErr :=
      ⟨fun _ => .response ⟨503, [(lit "Retry-After", lit "inf")], []⟩, fun _ => .zero, timeSleep⟩
    (Closed ((client.call call).run env World.start).1 ↔
      client.config.defaultVersion ≠ versionTag ∨ Caught client.config call env) ∧
    ∀ e, client.config.defaultVersion = versionTag → call.arguments = .error e →
      e.isTronado = false ∧
        ∀ env' w, (client.call call).run env' w = (.error e, call.entered w) :=
  let _ := Runtime.sample
  TronadoClient.call_closed_iff _ .tronGetPriceToToman
    ⟨fun _ => .response ⟨503, [(lit "Retry-After", lit "inf")], []⟩, fun _ => .zero, timeSleep⟩
    (fun _ _ => timeSleep_error)

end Tronado
