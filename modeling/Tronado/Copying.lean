import Tronado.Config

/-!
# Copying a config

`dataclasses.replace` builds a config again from the stored fields and the updates,
so `__post_init__` normalises a second time what it has normalised before.

* `AgreesOutside`: what a copy promises, that only the updated fields change.
* `replace_iff`: it is kept exactly when a stored blank key meets no key in the
  environment (`KeyCopies`), and a stored URL is still one and not taken for the
  default (`UrlCopies`), each unless that field is updated.
-/

namespace Tronado

open Py

/-- The updates of `dataclasses.replace`. -/
structure ConfigUpdates where
  apiKey : Option (Option Str) := none
  baseUrl : Option Str := none
  timeout : Option Double := none
  maxRetries : Option ℤ := none
  backoffFactor : Option Double := none
  maxBackoff : Option Double := none
  defaultVersion : Option Str := none
  defaultHeaders : Option (Dict Str Str) := none
  userAgent : Option Str := none
  apiKeyHeader : Option Str := none

/-- The arguments that `dataclasses.replace` hands to the constructor. -/
def ConfigUpdates.args (u : ConfigUpdates) (c : TronadoConfig) : ConfigArgs where
  apiKey := u.apiKey.getD c.apiKey
  baseUrl := u.baseUrl.getD c.baseUrl
  timeout := u.timeout.getD c.timeout
  maxRetries := u.maxRetries.getD c.maxRetries
  backoffFactor := u.backoffFactor.getD c.backoffFactor
  maxBackoff := u.maxBackoff.getD c.maxBackoff
  defaultVersion := u.defaultVersion.getD c.defaultVersion
  defaultHeaders := u.defaultHeaders.getD c.defaultHeaders
  userAgent := u.userAgent.getD c.userAgent
  apiKeyHeader := u.apiKeyHeader.getD c.apiKeyHeader

/-- `dataclasses.replace(c, **u)`. -/
def replace [Runtime] (getenv : String → Option Str) (c : TronadoConfig) (u : ConfigUpdates) :
    Except PyErr TronadoConfig :=
  (u.args c).postInit getenv

/-- The updated values are ones that `__post_init__` accepts. -/
structure ConfigUpdates.Accepted [Runtime] (getenv : String → Option Str) (u : ConfigUpdates) :
    Prop where
  baseUrl : ∀ v, u.baseUrl = some v → isHttpUrl (chosenUrl getenv v) = true
  timeout : ∀ v, u.timeout = some v → v.le (.finite 0) = false
  maxRetries : ∀ v, u.maxRetries = some v → 0 ≤ v
  backoffFactor : ∀ v, u.backoffFactor = some v → v.lt (.finite 0) = false

/-- A copy agrees with the config on every field that is not updated. -/
structure AgreesOutside (u : ConfigUpdates) (c c' : TronadoConfig) : Prop where
  apiKey : u.apiKey = none → c'.apiKey = c.apiKey
  baseUrl : u.baseUrl = none → c'.baseUrl = c.baseUrl
  timeout : u.timeout = none → c'.timeout = c.timeout
  maxRetries : u.maxRetries = none → c'.maxRetries = c.maxRetries
  backoffFactor : u.backoffFactor = none → c'.backoffFactor = c.backoffFactor
  maxBackoff : u.maxBackoff = none → c'.maxBackoff = c.maxBackoff
  defaultVersion : u.defaultVersion = none → c'.defaultVersion = c.defaultVersion
  defaultHeaders : u.defaultHeaders = none → c'.defaultHeaders = c.defaultHeaders
  userAgent : u.userAgent = none → c'.userAgent = c.userAgent
  apiKeyHeader : u.apiKeyHeader = none → c'.apiKeyHeader = c.apiKeyHeader

/-- A config without a key stays without one: the environment has none to offer. -/
def KeyCopies (getenv : String → Option Str) (c : TronadoConfig) : Prop :=
  c.apiKey = none → ∀ k, getenv apiKeyEnvVar = some k → k = []

/-- The stored URL passes the check again, and if it is the default one, then the
environment offers no other. -/
def UrlCopies [Runtime] (getenv : String → Option Str) (c : TronadoConfig) : Prop :=
  isHttpUrl c.baseUrl = true ∧
    (c.baseUrl = defaultBaseUrl →
      ∀ b, getenv baseUrlEnvVar = some b → b = [] ∨ rstripSlash b = defaultBaseUrl)

/-! ## The key and the URL, a second time -/

/-- **A stored key is chosen again** unless it is missing and the environment has one. -/
theorem chosenKey_eq_iff (getenv : String → Option Str) (c : TronadoConfig) :
    chosenKey getenv c.apiKey = c.apiKey ↔ KeyCopies getenv c := by
  unfold chosenKey KeyCopies
  cases hk : c.apiKey with
  | some k =>
    have hne : k ≠ [] := fun he => c.apiKey_ne (by rw [hk, he])
    simp [hne]
  | none =>
    rw [Option.none_or, Option.filter_eq_none_iff]
    simp

/-- What is left of a URL by `rstrip("/")` is a prefix of it. -/
theorem isHttpUrl_of_rstripSlash [Runtime] {b : Str} (h : rstripSlash b = defaultBaseUrl) :
    isHttpUrl b = true := by
  have hpre : defaultBaseUrl <+: b := by
    rw [← h]
    exact List.rdropWhile_prefix _ b
  obtain ⟨r, rfl⟩ := hpre
  have hl : (lit "https://").isPrefixOf (lower (defaultBaseUrl ++ r)) = true := by
    rw [lower, Py.lower, lowerFrom_append_of_ascii _ _ _ _ (by decide), List.isPrefixOf_iff_prefix]
    refine List.IsPrefix.trans ?_ (List.prefix_append _ _)
    rw [← List.isPrefixOf_iff_prefix]
    decide
  rw [isHttpUrl, hl, Bool.or_true]

/-- **A stored URL is chosen again**, and passes, exactly when it copies. -/
theorem chosenUrl_iff [Runtime] (getenv : String → Option Str) (c : TronadoConfig) :
    (isHttpUrl (chosenUrl getenv c.baseUrl) = true ∧
      rstripSlash (chosenUrl getenv c.baseUrl) = c.baseUrl) ↔ UrlCopies getenv c := by
  unfold chosenUrl UrlCopies
  cases he : getenv baseUrlEnvVar with
  | none => simp [c.baseUrl_stripped]
  | some b =>
    by_cases hb : b ≠ [] ∧ c.baseUrl = defaultBaseUrl
    · obtain ⟨hne, hd⟩ := hb
      have hdefault : isHttpUrl defaultBaseUrl = true := by
        rw [isHttpUrl, lower_defaultBaseUrl]; decide
      simp only [ne_eq, hne, not_false_eq_true, hd, and_self, if_true, hdefault, true_and,
        Option.some.injEq, forall_eq', forall_const, false_or]
      exact ⟨fun h => h.2, fun h => ⟨isHttpUrl_of_rstripSlash h, h⟩⟩
    · simp only [hb, if_false, c.baseUrl_stripped, and_true, Option.some.injEq, forall_eq']
      refine ⟨fun h => ⟨h, fun hd => Or.inl ?_⟩, fun h => h.1⟩
      by_contra hne
      exact hb ⟨hne, hd⟩

/-! ## The copy -/

section

variable {getenv : String → Option Str} {c : TronadoConfig} {u : ConfigUpdates}

/-- Apart from the key and the URL, a copy keeps what is not updated. -/
theorem agreesOutside_iff {c' : TronadoConfig} (h : (u.args c).Makes getenv c') :
    AgreesOutside u c c' ↔
      (u.apiKey = none → c'.apiKey = c.apiKey) ∧ (u.baseUrl = none → c'.baseUrl = c.baseUrl) := by
  refine ⟨fun ha => ⟨ha.apiKey, ha.baseUrl⟩, fun ⟨hkey, hurl⟩ => ⟨hkey, hurl, ?_, ?_, ?_, ?_, ?_,
    ?_, ?_, ?_⟩⟩
  · intro hn; rw [h.timeout, ConfigUpdates.args, hn]; rfl
  · intro hn; rw [h.maxRetries, ConfigUpdates.args, hn]; rfl
  · intro hn; rw [h.backoffFactor, ConfigUpdates.args, hn]; rfl
  · intro hn; rw [h.maxBackoff, ConfigUpdates.args, hn]; rfl
  · intro hn; rw [h.defaultVersion, ConfigUpdates.args, hn]; rfl
  · intro hn; rw [h.defaultHeaders, ConfigUpdates.args, hn]; rfl
  · intro hn; rw [h.userAgent, ConfigUpdates.args, hn]; rfl
  · intro hn; rw [h.apiKeyHeader, ConfigUpdates.args, hn]; rfl

/-- What a copy makes of a key and a URL that are not updated. -/
theorem copy_key {c' : TronadoConfig} (h : (u.args c).Makes getenv c') (hn : u.apiKey = none) :
    c'.apiKey = chosenKey getenv c.apiKey := by
  rw [h.apiKey, ConfigUpdates.args, hn]; rfl

theorem copy_url {c' : TronadoConfig} (h : (u.args c).Makes getenv c') (hn : u.baseUrl = none) :
    c'.baseUrl = rstripSlash (chosenUrl getenv c.baseUrl) := by
  rw [h.baseUrl, ConfigUpdates.args, hn]; rfl

/-- A copy without updates that agrees is the config itself. -/
theorem eq_of_agrees {c' : TronadoConfig} (h : AgreesOutside {} c c') : c' = c := by
  obtain ⟨h1, h2, h3, h4, h5, h6, h7, h8, h9, h10⟩ := h
  cases c
  cases c'
  simp_all

variable [Runtime]

/-- Stored numbers pass their checks again. -/
theorem checked_args (hu : u.Accepted getenv)
    (hurl : u.baseUrl = none → isHttpUrl (chosenUrl getenv c.baseUrl) = true) :
    (u.args c).Checked getenv := by
  constructor
  · show isHttpUrl (chosenUrl getenv (u.baseUrl.getD c.baseUrl)) = true
    cases h : u.baseUrl with
    | none => exact hurl h
    | some v => exact hu.baseUrl v h
  · show (u.timeout.getD c.timeout).le (.finite 0) = false
    cases h : u.timeout with
    | none => exact c.timeout_pos
    | some v => exact hu.timeout v h
  · show 0 ≤ u.maxRetries.getD (c.maxRetries : ℤ)
    cases h : u.maxRetries with
    | none => exact Int.natCast_nonneg _
    | some v => exact hu.maxRetries v h
  · show (u.backoffFactor.getD c.backoffFactor).lt (.finite 0) = false
    cases h : u.backoffFactor with
    | none => exact c.backoffFactor_nonneg
    | some v => exact hu.backoffFactor v h

/-- No updates are always accepted. -/
theorem accepted_empty (getenv : String → Option Str) : ConfigUpdates.Accepted getenv {} := by
  constructor <;> exact fun v h => nomatch h

theorem copies_of_replace {c' : TronadoConfig} (h : replace getenv c u = .ok c')
    (ha : AgreesOutside u c c') :
    (u.apiKey = none → KeyCopies getenv c) ∧ (u.baseUrl = none → UrlCopies getenv c) := by
  have hmakes := makes_of_postInit h
  refine ⟨?_, ?_⟩
  · intro hn
    rw [← chosenKey_eq_iff, ← copy_key hmakes hn]
    exact ha.apiKey hn
  · intro hn
    have hchecked := (checked_of_postInit h).baseUrl
    rw [ConfigUpdates.args, hn] at hchecked
    rw [← chosenUrl_iff]
    exact ⟨hchecked, (copy_url hmakes hn).symm.trans (ha.baseUrl hn)⟩

theorem replace_of_copies (hu : u.Accepted getenv) (hkey : u.apiKey = none → KeyCopies getenv c)
    (hurl : u.baseUrl = none → UrlCopies getenv c) :
    ∃ c', replace getenv c u = .ok c' ∧ AgreesOutside u c c' := by
  obtain ⟨c', hc'⟩ :=
    postInit_ok (checked_args hu (fun hn => ((chosenUrl_iff _ _).mpr (hurl hn)).1))
  have hmakes := makes_of_postInit hc'
  refine ⟨c', hc', (agreesOutside_iff hmakes).mpr ⟨?_, ?_⟩⟩
  · intro hn
    rw [copy_key hmakes hn]
    exact (chosenKey_eq_iff _ _).mpr (hkey hn)
  · intro hn
    rw [copy_url hmakes hn]
    exact ((chosenUrl_iff _ _).mpr (hurl hn)).2

end

/-- **When a copy changes only what was asked.**  Of a config and updates that
`__post_init__` accepts: the copy succeeds and agrees on the other fields exactly
when a missing key that is not updated meets no key in the environment, and a URL
that is not updated passes the check again and, if it is the default one, meets no
other in the environment.  Without updates, the copy is then the config itself. -/
theorem replace_iff [Runtime] (getenv : String → Option Str) (c : TronadoConfig) :
    (∀ u : ConfigUpdates, u.Accepted getenv →
      ((∃ c', replace getenv c u = .ok c' ∧ AgreesOutside u c c') ↔
        (u.apiKey = none → KeyCopies getenv c) ∧ (u.baseUrl = none → UrlCopies getenv c))) ∧
    (replace getenv c {} = .ok c ↔ KeyCopies getenv c ∧ UrlCopies getenv c) := by
  refine ⟨fun u hu => ⟨fun ⟨c', hc', ha⟩ => copies_of_replace hc' ha,
    fun ⟨hkey, hurl⟩ => replace_of_copies hu hkey hurl⟩, fun h => ?_, fun ⟨hkey, hurl⟩ => ?_⟩
  · have ha : AgreesOutside {} c c := by constructor <;> exact fun _ => rfl
    obtain ⟨hkey, hurl⟩ := copies_of_replace h ha
    exact ⟨hkey rfl, hurl rfl⟩
  · obtain ⟨c', hc', ha⟩ :=
      replace_of_copies (accepted_empty getenv) (fun _ => hkey) (fun _ => hurl)
    rwa [eq_of_agrees ha] at hc'

/-- An environment with a key. -/
def keyEnv (name : String) : Option Str := if name = apiKeyEnvVar then some (lit "env") else none

/-- A config whose blank key was chosen explicitly takes the key of the environment
when it is copied. -/
theorem not_copied_blank_key :
    ¬ ∀ (_ : Runtime) (getenv : String → Option Str) (a : ConfigArgs) (c : TronadoConfig),
      a.postInit getenv = .ok c → ∀ u : ConfigUpdates, u.Accepted getenv →
        ∃ c', replace getenv c u = .ok c' ∧ AgreesOutside u c c' := by
  intro h
  let _ := Runtime.sample
  have hbuilt : ConfigArgs.postInit keyEnv { apiKey := some [] } = .ok TronadoConfig.standard := by
    have hurl : isHttpUrl defaultBaseUrl = true := by decide
    have ht : defaultTimeout.le (.finite 0) = false := by decide
    have hb : defaultBackoffFactor.lt (.finite 0) = false := by simp [defaultBackoffFactor]
    have hs : rstripSlash defaultBaseUrl = defaultBaseUrl := by decide
    have he : keyEnv baseUrlEnvVar = none := by decide
    simp [ConfigArgs.postInit, hurl, ht, hb, hs, he, TronadoConfig.standard, defaultMaxRetries]
  obtain ⟨c', hc', ha⟩ := h _ keyEnv _ _ hbuilt {} (accepted_empty keyEnv)
  exact absurd ((copies_of_replace hc' ha).1 rfl rfl (lit "env") rfl) (by decide)

end Tronado
