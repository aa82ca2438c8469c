import Tronado.Lib.Memo
import Tronado.Mirror
import Tronado.Versions

/-!
# The clients

`TronadoClient` and `AsyncTronadoClient` are one class but for the bundles they
build: a config, an HTTP client that may be the caller's, and the bundles built so
far.  `Client` is that class, over `build`.  An `Access` is what a program can do with
a client short of a call, and a session is any sequence of them.

* `Client.session_spec`: what a session hands out, and when the HTTP client is closed.
* `clients_mirror`: built from the same arguments, and used in any way before, the two
  clients make the same calls, as long as the pauses return (`PausesReturn`).
* `TronadoClient.version_concurrent`: `version` from any number of threads.
-/

namespace Tronado

open Py Run Memo

/-- The arguments of a client. -/
structure ClientArgs where
  apiKey : Option Str := none
  baseUrl : Str := defaultBaseUrl
  timeout : Double := defaultTimeout
  maxRetries : ℤ := defaultMaxRetries
  backoffFactor : Double := defaultBackoffFactor
  defaultVersion : Str := defaultApiVersion
  defaultHeaders : Option (Dict Str Str) := none
  userAgent : Option Str := none
  config : Option TronadoConfig := none
  /-- Is there an `http_client`? -/
  httpClient : Bool := false

/-- `_build_config`. -/
def buildConfig [Runtime] (getenv : String → Option Str) (a : ClientArgs) :
    Except PyErr TronadoConfig :=
  ConfigArgs.postInit getenv {
    apiKey := a.apiKey
    baseUrl := a.baseUrl
    timeout := a.timeout
    maxRetries := a.maxRetries
    backoffFactor := a.backoffFactor
    defaultVersion := a.defaultVersion
    defaultHeaders := a.defaultHeaders.getD .empty
    userAgent := a.userAgent.getD defaultUserAgent }

/-- `config or _build_config(...)`. -/
def ClientArgs.activeConfig [Runtime] (getenv : String → Option Str) (a : ClientArgs) :
    Except PyErr TronadoConfig :=
  match a.config with
  | some config => .ok config
  | none => buildConfig getenv a

/-- The HTTP client behind a transport. -/
structure HttpClient where
  /-- `_owns_client` -/
  owned : Bool
  closed : Bool

/-- `close()` of a transport. -/
def HttpClient.close (http : HttpClient) : HttpClient :=
  if http.owned then { http with closed := true } else http

/-- A client whose bundles are built by `build`. -/
structure Client {B : Type} (build : TronadoConfig → Str → Except PyErr B) where
  config : TronadoConfig
  http : HttpClient
  versionCache : Table Str B
  sound : versionCache.Sound (build config)

/-- What a program can do with a client besides calling its methods. -/
inductive Access
  | version (tag : Option Str)
  | v5
  | order
  | price
  | close
  /-- The end of a `with` block. -/
  | exit

/-- The argument with which an access calls `version`, if it does. -/
def Access.tag? : Access → Option (Option Str)
  | version tag => some tag
  | v5 => some (some (lit "v5"))
  | order => some none
  | price => some none
  | close => none
  | exit => none

namespace Client

variable {B : Type} {build : TronadoConfig → Str → Except PyErr B}

/-- `__init__`. -/
def init [Runtime] (getenv : String → Option Str) (a : ClientArgs) :
    Except PyErr (Client build) := do
  let config ← a.activeConfig getenv
  return {
    config
    http := ⟨!a.httpClient, false⟩
    versionCache := .empty
    sound := Table.sound_empty (build config) }

/-- `tag or self._config.default_version`. -/
def tagOr (self : Client build) (tag : Option Str) : Str :=
  (nonEmpty tag).getD self.config.defaultVersion

/-- `version(tag)`. -/
def version (self : Client build) (tag : Option Str) : Except PyErr (Ref B) × Client build :=
  let tag := self.tagOr tag
  ((fetch (build self.config) self.versionCache tag).1,
    { self with
      versionCache := (fetch (build self.config) self.versionCache tag).2
      sound := sound_fetch self.sound tag })

/-- `close()`. -/
def close (self : Client build) : Client build := { self with http := self.http.close }

/-- One access: the tag with the bundle it asks for, if it asks for one. -/
def access (self : Client build) (a : Access) :
    Option (Str × Except PyErr (Ref B)) × Client build :=
  match a.tag? with
  | some tag => (some (self.tagOr tag, (self.version tag).1), (self.version tag).2)
  | none => (none, self.close)

/-- Any sequence of accesses. -/
def session (self : Client build) : List Access → List (Str × Except PyErr (Ref B)) × Client build
  | [] => ([], self)
  | a :: as =>
    let (r, self) := self.access a
    let (rs, self) := session self as
    (r.toList ++ rs, self)

theorem session_cons (self : Client build) (a : Access) (as : List Access) :
    self.session (a :: as) =
      ((self.access a).1.toList ++ ((self.access a).2.session as).1,
        ((self.access a).2.session as).2) := rfl

@[simp] theorem config_access (self : Client build) (a : Access) :
    (self.access a).2.config = self.config := by
  unfold access
  cases a.tag? <;> rfl

@[simp] theorem config_session (self : Client build) (accesses : List Access) :
    (self.session accesses).2.config = self.config := by
  induction accesses generalizing self with
  | nil => rfl
  | cons a as ih => rw [session_cons, ih, config_access]

/-! ## The HTTP client -/

theorem http_access (self : Client build) (a : Access) :
    (self.access a).2.http =
      ⟨self.http.owned, self.http.closed || (self.http.owned && a.tag?.isNone)⟩ := by
  unfold access
  cases a.tag? with
  | some tag => simp [version]
  | none =>
    show self.http.close = _
    rcases self.http with ⟨owned, closed⟩
    cases owned <;> simp [HttpClient.close]

theorem http_session (self : Client build) (accesses : List Access) :
    (self.session accesses).2.http =
      ⟨self.http.owned,
        self.http.closed || (self.http.owned && accesses.any (fun a => a.tag?.isNone))⟩ := by
  induction accesses generalizing self with
  | nil => simp [session]
  | cons a as ih =>
    rw [session_cons, ih, http_access, List.any_cons]
    simp only [Bool.and_or_distrib_left, Bool.or_assoc]

/-! ## The bundles -/

/-- **A session is a sequence of fetches** from the version cache. -/
theorem session_eq (self : Client build) (accesses : List Access) :
    (self.session accesses).1 =
      (fetchAll (build self.config) self.versionCache
        ((accesses.filterMap Access.tag?).map self.tagOr)).1 := by
  induction accesses generalizing self with
  | nil => rfl
  | cons a as ih =>
    rw [session_cons, ih, List.filterMap_cons]
    have htag : (self.access a).2.tagOr = self.tagOr := by
      funext tag
      rw [tagOr, tagOr, config_access]
    rw [htag]
    unfold access
    cases a.tag? with
    | some tag => rfl
    | none => rfl

/-- What a session hands out and leaves behind. -/
structure SessionSpec (self : Client build) (accesses : List Access) : Prop where
  config : (self.session accesses).2.config = self.config
  tags : (self.session accesses).1.map Prod.fst =
    (accesses.filterMap Access.tag?).map self.tagOr
  bundles : ∀ p ∈ (self.session accesses).1, p.2.map Ref.val = build self.config p.1
  same : ∀ p ∈ (self.session accesses).1, ∀ q ∈ (self.session accesses).1,
    p.1 = q.1 → p.2 = q.2
  closed : (self.session accesses).2.http.closed = true ↔
    self.http.closed = true ∨ self.http.owned = true ∧ ∃ a ∈ accesses, a.tag? = none

/-- **Any session of a client**: the config never changes; every access is given what
its tag is resolved to, wired to the client's own transport; one tag is one object in
the whole session; and the HTTP client is closed if the client owns it and is asked to,
and never if it is the caller's. -/
theorem session_spec (self : Client build) (accesses : List Access) :
    SessionSpec self accesses := by
  refine ⟨config_session self accesses, ?_, ?_, ?_, ?_⟩
  · rw [session_eq, map_fst_fetchAll]
  · intro p hp
    rw [session_eq] at hp
    exact (mem_fetchAll self.sound hp).1
  · intro p hp q hq hk
    rw [session_eq] at hp hq
    exact fetchAll_consistent self.sound hp hq hk
  · simp [http_session]

end Client

/-! ## The two clients -/

abbrev TronadoClient := Client (fun config tag => buildSyncVersion tag ⟨config⟩)

abbrev AsyncTronadoClient := Client (fun config tag => buildAsyncVersion tag ⟨config⟩)

section

variable [Runtime] {ρ : Type}

/-- `client.order.get_status(...)` and the like: the bundle of the default version is
looked up, and then its method is called.  The HTTP client is open: what one that has
been closed raises is not an `Outcome`. -/
def TronadoClient.call (self : TronadoClient) (call : Call ρ) : Blocking ρ := do
  let bundle ← Prog.lift (self.version none).1
  bundle.val.call call

/-- The same for the asynchronous client. -/
def AsyncTronadoClient.call (self : AsyncTronadoClient) (call : Call ρ) : Awaitable ρ := do
  let bundle ← Coroutine.ret (self.version none).1
  bundle.val.call call

/-- **A call of a client is a call over its transport**, whatever the client has been
used for before; unless its default version is not supported. -/
theorem TronadoClient.call_eq (self : TronadoClient) (call : Call ρ) :
    self.call call =
      if self.config.defaultVersion = versionTag then call.sync ⟨self.config⟩ versionTag
      else Prog.raise (unsupportedVersion self.config.defaultVersion) := by
  have hval : (self.version none).1.map Ref.val =
      buildSyncVersion self.config.defaultVersion ⟨self.config⟩ := fetch_val self.sound _
  rw [buildSyncVersion_eq] at hval
  unfold TronadoClient.call
  split_ifs at hval ⊢
  · cases hv : (self.version none).1 with
    | error e => rw [hv] at hval; cases hval
    | ok bundle =>
      rw [hv] at hval
      rw [← V5SyncVersion.call_init, ← Except.ok.inj hval]
      rfl
  · cases hv : (self.version none).1 with
    | error e =>
      rw [hv] at hval
      rw [Except.error.inj hval]
      rfl
    | ok bundle => rw [hv] at hval; cases hval

theorem AsyncTronadoClient.call_eq (self : AsyncTronadoClient) (call : Call ρ) :
    self.call call =
      if self.config.defaultVersion = versionTag then call.async ⟨self.config⟩ versionTag
      else Coroutine.raise (unsupportedVersion self.config.defaultVersion) := by
  have hval : (self.version none).1.map Ref.val =
      buildAsyncVersion self.config.defaultVersion ⟨self.config⟩ := fetch_val self.sound _
  rw [buildAsyncVersion_eq] at hval
  unfold AsyncTronadoClient.call
  split_ifs at hval ⊢
  · cases hv : (self.version none).1 with
    | error e => rw [hv] at hval; cases hval
    | ok bundle =>
      rw [hv] at hval
      rw [← V5AsyncVersion.call_init, ← Except.ok.inj hval]
      rfl
  · cases hv : (self.version none).1 with
    | error e =>
      rw [hv] at hval
      rw [Except.error.inj hval]
      rfl
    | ok bundle => rw [hv] at hval; cases hval

/-- Two clients that, as long as they are open, make the same calls, in environments
with the same answers and jitters, when the pauses that the blocking one requests return
in both (`PausesReturn`).  They need not: `time.sleep` raises on the pause of
`Retry-After: inf`, which `asyncio.sleep` just waits for. -/
def SameCalls (client : TronadoClient) (client' : AsyncTronadoClient) : Prop :=
  client.http.closed = false → client'.http.closed = false →
    ∀ {ρ : Type} (call : Call ρ) (env env' : Env Outcome PyErr), SameServer env env' →
      Mirrors env env' (client.call call) (client'.call call)

theorem sameCalls {client : TronadoClient} {client' : AsyncTronadoClient}
    (h : client.config = client'.config) : SameCalls client client' := by
  intro _ _ ρ call env env' hs
  rw [TronadoClient.call_eq, AsyncTronadoClient.call_eq, h]
  split_ifs
  · exact call.mirrors hs client'.config versionTag
  · intro w _
    rfl

/-- **The two clients are one client**: the same arguments in the same process
environment are refused by both with the same error, or give two clients that make the
same calls as long as the pauses return (`PausesReturn`), whatever sessions either of them
has been through without being closed. -/
theorem clients_mirror (getenv : String → Option Str) (a : ClientArgs) :
    (∃ e, (Client.init getenv a : Except PyErr TronadoClient) = .error e ∧
        (Client.init getenv a : Except PyErr AsyncTronadoClient) = .error e) ∨
      ∃ (client : TronadoClient) (client' : AsyncTronadoClient),
        Client.init getenv a = .ok client ∧ Client.init getenv a = .ok client' ∧
          client.config = client'.config ∧
          ∀ accesses accesses',
            SameCalls (client.session accesses).2 (client'.session accesses').2 := by
  unfold Client.init
  cases a.activeConfig getenv with
  | error e => exact Or.inl ⟨e, rfl, rfl⟩
  | ok config =>
    refine Or.inr ⟨_, _, rfl, rfl, rfl, ?_⟩
    intro accesses accesses'
    apply sameCalls
    rw [Client.config_session, Client.config_session]

end

/-! ## Threads -/

namespace TronadoClient

variable {ι : Type} [DecidableEq ι]

/-- Any number of threads that call `version`, each with its own tag. -/
def threads (self : TronadoClient) (tag : ι → Option Str) (schedule : List ι) :
    Pool ι Str PyErr V5SyncVersion :=
  Pool.run (fun tag => buildSyncVersion tag ⟨self.config⟩) (fun i => self.tagOr (tag i))
    self.versionCache schedule

/-- A thread that is not interrupted does what `version` does. -/
theorem version_alone (self : TronadoClient) (tag : Option Str) :
    ∃ n, n ≤ 4 ∧
      (fun p => Stage.step (fun tag => buildSyncVersion tag ⟨self.config⟩) (self.tagOr tag)
          p.1 p.2)^[n] (.test, self.versionCache) =
        (.done (self.version tag).1, (self.version tag).2.versionCache) :=
  step_alone self.versionCache (self.tagOr tag)

/-- **`version` is safe for threads**: in every interleaving of its statements, a
thread that has had four turns has returned, with the bundle of v5 over the transport
of the client if its tag stands for v5, and else with `TronadoConfigError`.  It never
misses the entry it has just made. -/
theorem version_concurrent (self : TronadoClient) (tag : ι → Option Str) (schedule : List ι)
    (i : ι) (h : 4 ≤ schedule.count i) :
    ∃ r, (self.threads tag schedule).stage i = .done r ∧
      r.map Ref.val =
        if self.tagOr (tag i) = versionTag then .ok (V5SyncVersion.init ⟨self.config⟩)
        else .error (unsupportedVersion (self.tagOr (tag i))) := by
  rw [← buildSyncVersion_eq]
  exact Pool.run_safe self.sound schedule i h

/-- Two threads take turns, one with the default version and one with another tag. -/
theorem version_concurrent_turns :
    let client : TronadoClient :=
      ⟨.standard, ⟨true, false⟩, .empty, Table.sound_empty _⟩
    let tag : Bool → Option Str := fun b => if b then some (lit "v6") else none
    ∃ r, (client.threads tag [true, false, false, true, true, false, true, false]).stage false =
        .done r ∧
      r.map Ref.val = .ok (V5SyncVersion.init ⟨client.config⟩) := by
  intro client tag
  exact client.version_concurrent tag _ false (by decide)

end TronadoClient

end Tronado
