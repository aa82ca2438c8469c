import Tronado.Exceptions
import Tronado.Runtime

/-!
# Client configuration

`TronadoConfig` is the frozen dataclass after `__post_init__`: what that method
checks and normalises are fields of the structure, so a config with an empty key,
a trailing slash, a negative budget or a timeout of zero cannot be built.
`ConfigArgs` are the arguments it is built from, `postInit` builds it.

* `buildHeaders_unauthenticated`: without authentication the headers do not
  mention the key.
* `buildHeaders_without_key`, `buildHeaders_with_key`: with it, a missing key is an
  error, and nothing else is.
-/

namespace Tronado

open Py

def sdkVersion : String := "0.2.0"
def defaultUserAgent : Str := lit ("tronado-python/" ++ sdkVersion)
def defaultBaseUrl : Str := lit "https://bot.tronado.cloud"
def defaultApiVersion : Str := lit "v5"
def defaultTimeout : Double := .finite 30
def defaultMaxRetries : ℤ := 3
def defaultBackoffFactor : Double := .finite (1 / 2)
def defaultMaxBackoff : Double := .finite 30
def apiKeyHeader : Str := lit "x-api-key"
def apiKeyEnvVar : String := "TRONADO_API_KEY"
def baseUrlEnvVar : String := "TRONADO_BASE_URL"

/-- `s.rstrip("/")`. -/
def rstripSlash (s : Str) : Str := s.rdropWhile (· == 0x2F)

/-- The arguments of `TronadoConfig`. -/
structure ConfigArgs where
  apiKey : Option Str := none
  baseUrl : Str := defaultBaseUrl
  timeout : Double := defaultTimeout
  maxRetries : ℤ := defaultMaxRetries
  backoffFactor : Double := defaultBackoffFactor
  maxBackoff : Double := defaultMaxBackoff
  defaultVersion : Str := defaultApiVersion
  defaultHeaders : Dict Str Str := .empty
  userAgent : Str := defaultUserAgent
  apiKeyHeader : Str := Tronado.apiKeyHeader

/-- A client configuration. -/
structure TronadoConfig where
  apiKey : Option Str
  baseUrl : Str
  timeout : Double
  maxRetries : ℕ
  backoffFactor : Double
  maxBackoff : Double
  defaultVersion : Str
  defaultHeaders : Dict Str Str
  userAgent : Str
  apiKeyHeader : Str
  apiKey_ne : apiKey ≠ some []
  baseUrl_stripped : rstripSlash baseUrl = baseUrl
  timeout_pos : timeout.le (.finite 0) = false
  backoffFactor_nonneg : backoffFactor.lt (.finite 0) = false

theorem rstripSlash_rstripSlash (s : Str) : rstripSlash (rstripSlash s) = rstripSlash s :=
  List.rdropWhile_idempotent _ s

def configError {α : Type} (message : Message) : Except PyErr α :=
  .error (.tronado (.config message))

/-- `self.base_url.lower().startswith(("http://", "https://"))`. -/
def isHttpUrl [Runtime] (url : Str) : Bool :=
  (lit "http://").isPrefixOf (lower url) || (lit "https://").isPrefixOf (lower url)

/-- `__post_init__`. -/
def ConfigArgs.postInit [Runtime] (getenv : String → Option Str) (a : ConfigArgs) :
    Except PyErr TronadoConfig :=
  -- `api_key or None`: a blank key is no key
  let apiKey := (a.apiKey.or (getenv apiKeyEnvVar)).filter (· ≠ [])
  let baseUrl :=
    match getenv baseUrlEnvVar with
    | some envBase => if envBase ≠ [] ∧ a.baseUrl = defaultBaseUrl then envBase else a.baseUrl
    | none => a.baseUrl
  if isHttpUrl baseUrl = false then
    configError [.text "base_url must be an http(s) URL, got ", .repr baseUrl, .text "."]
  else if ht : a.timeout.le (.finite 0) = true then
    configError [.text "timeout must be a positive number of seconds."]
  else if a.maxRetries < 0 then
    configError [.text "max_retries must be >= 0."]
  else if hb : a.backoffFactor.lt (.finite 0) = true then
    configError [.text "backoff_factor must be >= 0."]
  else
    .ok {
      apiKey
      baseUrl := rstripSlash baseUrl
      timeout := a.timeout
      maxRetries := a.maxRetries.toNat
      backoffFactor := a.backoffFactor
      maxBackoff := a.maxBackoff
      defaultVersion := a.defaultVersion
      defaultHeaders := a.defaultHeaders
      userAgent := a.userAgent
      apiKeyHeader := a.apiKeyHeader
      apiKey_ne := by simp [apiKey, Option.filter_eq_some_iff]
      baseUrl_stripped := rstripSlash_rstripSlash _
      timeout_pos := by simpa using ht
      backoffFactor_nonneg := by simpa using hb }

/-- The key `__post_init__` settles on. -/
def chosenKey (getenv : String → Option Str) (apiKey : Option Str) : Option Str :=
  (apiKey.or (getenv apiKeyEnvVar)).filter (· ≠ [])

/-- The URL it settles on, before the slash is stripped. -/
def chosenUrl (getenv : String → Option Str) (baseUrl : Str) : Str :=
  match getenv baseUrlEnvVar with
  | some envBase => if envBase ≠ [] ∧ baseUrl = defaultBaseUrl then envBase else baseUrl
  | none => baseUrl

/-- The checks of `__post_init__`. -/
structure ConfigArgs.Checked [Runtime] (getenv : String → Option Str) (a : ConfigArgs) : Prop where
  baseUrl : isHttpUrl (chosenUrl getenv a.baseUrl) = true
  timeout : a.timeout.le (.finite 0) = false
  maxRetries : 0 ≤ a.maxRetries
  backoffFactor : a.backoffFactor.lt (.finite 0) = false

/-- The config that `__post_init__` makes of its arguments. -/
structure ConfigArgs.Makes (getenv : String → Option Str) (a : ConfigArgs) (c : TronadoConfig) :
    Prop where
  apiKey : c.apiKey = chosenKey getenv a.apiKey
  baseUrl : c.baseUrl = rstripSlash (chosenUrl getenv a.baseUrl)
  timeout : c.timeout = a.timeout
  maxRetries : c.maxRetries = a.maxRetries.toNat
  backoffFactor : c.backoffFactor = a.backoffFactor
  maxBackoff : c.maxBackoff = a.maxBackoff
  defaultVersion : c.defaultVersion = a.defaultVersion
  defaultHeaders : c.defaultHeaders = a.defaultHeaders
  userAgent : c.userAgent = a.userAgent
  apiKeyHeader : c.apiKeyHeader = a.apiKeyHeader

theorem checked_of_postInit [Runtime] {getenv : String → Option Str} {a : ConfigArgs}
    {c : TronadoConfig} (h : a.postInit getenv = .ok c) : a.Checked getenv := by
  unfold ConfigArgs.postInit at h
  simp only [configError] at h
  split_ifs at h with hurl ht hm hb
  exact ⟨Bool.eq_true_of_not_eq_false hurl, Bool.eq_false_iff.mpr ht, not_lt.mp hm,
    Bool.eq_false_iff.mpr hb⟩

theorem makes_of_postInit [Runtime] {getenv : String → Option Str} {a : ConfigArgs}
    {c : TronadoConfig} (h : a.postInit getenv = .ok c) : a.Makes getenv c := by
  unfold ConfigArgs.postInit at h
  simp only [configError] at h
  split_ifs at h
  cases h
  constructor <;> rfl

/-- **`__post_init__` succeeds on checked arguments.** -/
theorem postInit_ok [Runtime] {getenv : String → Option Str} {a : ConfigArgs}
    (h : a.Checked getenv) : ∃ c, a.postInit getenv = .ok c := by
  cases hp : a.postInit getenv with
  | ok c => exact ⟨c, rfl⟩
  | error e =>
    unfold ConfigArgs.postInit at hp
    simp only [configError] at hp
    split_ifs at hp with hurl ht hm hb
    · exact absurd (hurl.symm.trans h.baseUrl) (by simp)
    · exact absurd (ht.symm.trans h.timeout) (by simp)
    · exact absurd h.maxRetries (not_le.mpr hm)
    · exact absurd (hb.symm.trans h.backoffFactor) (by simp)

/-- `build_headers(authenticated=...)`. -/
def TronadoConfig.buildHeaders (config : TronadoConfig) (authenticated : Bool) :
    Except PyErr (Dict Str Str) :=
  let headers := Dict.ofList [
    (lit "Accept", lit "application/json"),
    (lit "Content-Type", lit "application/json"),
    (lit "User-Agent", config.userAgent)]
  let headers := headers.update config.defaultHeaders.items
  if authenticated then
    match config.apiKey with
    | none =>
      configError [
        .text "A Tronado API key is required for this endpoint. Pass api_key=... or set the ",
        .text apiKeyEnvVar,
        .text " environment variable. Request a key from https://t.me/TronadoSupp."]
    | some key => .ok (headers.set config.apiKeyHeader key)
  else .ok headers

/-- `TronadoConfig()`, without environment variables. -/
def TronadoConfig.standard : TronadoConfig where
  apiKey := none
  baseUrl := defaultBaseUrl
  timeout := defaultTimeout
  maxRetries := 3
  backoffFactor := defaultBackoffFactor
  maxBackoff := defaultMaxBackoff
  defaultVersion := defaultApiVersion
  defaultHeaders := .empty
  userAgent := defaultUserAgent
  apiKeyHeader := Tronado.apiKeyHeader
  apiKey_ne := by simp
  baseUrl_stripped := by decide
  timeout_pos := by decide
  backoffFactor_nonneg := by simp [defaultBackoffFactor]

theorem lower_defaultBaseUrl [Runtime] : lower defaultBaseUrl = defaultBaseUrl := by
  rw [lower, Py.lower, lowerFrom_of_ascii _ _ _ (by decide)]
  decide

/-- **The defaults pass their own checks.** -/
theorem postInit_default [Runtime] :
    ConfigArgs.postInit (fun _ => none) {} = .ok TronadoConfig.standard := by
  have hurl : isHttpUrl defaultBaseUrl = true := by
    rw [isHttpUrl, lower_defaultBaseUrl]; decide
  have ht : defaultTimeout.le (.finite 0) = false := by decide
  have hb : defaultBackoffFactor.lt (.finite 0) = false := by simp [defaultBackoffFactor]
  have hs : rstripSlash defaultBaseUrl = defaultBaseUrl := by decide
  simp [ConfigArgs.postInit, hurl, ht, hb, hs, TronadoConfig.standard, defaultMaxRetries]

/-- Two configs that differ only in the key. -/
structure AgreeExceptKey (c c' : TronadoConfig) : Prop where
  baseUrl : c.baseUrl = c'.baseUrl
  timeout : c.timeout = c'.timeout
  maxRetries : c.maxRetries = c'.maxRetries
  backoffFactor : c.backoffFactor = c'.backoffFactor
  maxBackoff : c.maxBackoff = c'.maxBackoff
  defaultVersion : c.defaultVersion = c'.defaultVersion
  defaultHeaders : c.defaultHeaders = c'.defaultHeaders
  userAgent : c.userAgent = c'.userAgent
  apiKeyHeader : c.apiKeyHeader = c'.apiKeyHeader

/-- **Headers of a public endpoint do not depend on the key.** -/
theorem buildHeaders_unauthenticated {c c' : TronadoConfig} (h : AgreeExceptKey c c') :
    c.buildHeaders false = c'.buildHeaders false := by
  simp only [TronadoConfig.buildHeaders, h.userAgent, h.defaultHeaders, Bool.false_eq_true,
    if_false]

/-- **Headers of a protected endpoint need a key.** -/
theorem buildHeaders_without_key {c : TronadoConfig} (h : c.apiKey = none) :
    ∃ m, c.buildHeaders true = .error (.tronado (.config m)) := by
  simp only [TronadoConfig.buildHeaders, h, if_true]
  exact ⟨_, rfl⟩

/-- **With a key there are always headers.** -/
theorem buildHeaders_with_key {c : TronadoConfig} {key : Str} (h : c.apiKey = some key)
    (authenticated : Bool) : ∃ headers, c.buildHeaders authenticated = .ok headers := by
  cases authenticated with
  | true =>
    simp only [TronadoConfig.buildHeaders, h, if_true]
    exact ⟨_, rfl⟩
  | false => exact ⟨_, rfl⟩

end Tronado
