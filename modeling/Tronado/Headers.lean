import Mathlib.Data.List.Pairwise
import Tronado.Http.Processing

/-!
# The headers of a request

What `build_headers` puts under each name is `TronadoConfig.header`, written without
looking at it.

HTTP compares header names without case, while the dict of `build_headers` keeps
every spelling apart.  `Authoritative` is what the documentation promises of the
map that is sent: one entry for the key, with the key, and no name twice.

* `get?_buildHeaders`: what the map has under each name.
* `mem_keys_buildHeaders`: the names of the map (`headerNames`).
* `headers_authoritative_iff`: the promise is kept exactly when no two of these
  names are spellings of one.
-/

namespace Tronado

open Py

/-! ## The map -/

/-- What every request has. -/
def standardHeaders (config : TronadoConfig) : List (Str × Str) := [
  (lit "Accept", lit "application/json"),
  (lit "Content-Type", lit "application/json"),
  (lit "User-Agent", config.userAgent)]

/-- The header that is meant to be under a name: the key, where it belongs; or else what
the default headers say of the name; or else what every request has. -/
def TronadoConfig.header (config : TronadoConfig) (authenticated : Bool) (name : Str) :
    Option Str :=
  if authenticated = true ∧ name = config.apiKeyHeader then config.apiKey
  else (config.defaultHeaders.get? name).or (getItem? name (standardHeaders config))

/-- **What the map has under each name.** -/
theorem get?_buildHeaders {config : TronadoConfig} {authenticated : Bool} {headers : Dict Str Str}
    (h : config.buildHeaders authenticated = .ok headers) (name : Str) :
    headers.get? name = config.header authenticated name := by
  have hplain : ((Dict.ofList (standardHeaders config)).update config.defaultHeaders.items).get?
      name = (config.defaultHeaders.get? name).or (getItem? name (standardHeaders config)) := by
    have hn : ((standardHeaders config).map Prod.fst).Nodup := by
      simp [standardHeaders, lit_inj]
    rw [Dict.get?_update _ config.defaultHeaders.nodup, Dict.get?_ofList hn]
    rfl
  cases authenticated with
  | false =>
    obtain rfl := Except.ok.inj h
    rw [TronadoConfig.header, if_neg (fun hauth => Bool.false_ne_true hauth.1)]
    exact hplain
  | true =>
    unfold TronadoConfig.buildHeaders at h
    cases hkey : config.apiKey with
    | none => rw [hkey] at h; cases h
    | some key =>
      rw [hkey] at h
      obtain rfl := Except.ok.inj h
      rw [Dict.get?_set, TronadoConfig.header, hkey]
      by_cases hname : name = config.apiKeyHeader
      · rw [if_pos hname, if_pos ⟨rfl, hname⟩]
      · rw [if_neg hname, if_neg (fun hauth => hname hauth.2)]
        exact hplain

/-- No headers are made for a protected endpoint without the key. -/
theorem isSome_apiKey_of_buildHeaders {config : TronadoConfig} {headers : Dict Str Str}
    (h : config.buildHeaders true = .ok headers) : config.apiKey.isSome = true := by
  cases hkey : config.apiKey with
  | none =>
    obtain ⟨m, hm⟩ := buildHeaders_without_key hkey
    rw [hm] at h
    cases h
  | some key => rfl

/-! ## One entry for the key -/

/-- Header names as HTTP compares them. -/
def sameName (a b : Str) : Bool := a.map asciiLower == b.map asciiLower

/-- What is promised of a map of headers with a key. -/
structure Authoritative (config : TronadoConfig) (key : Str) (headers : Dict Str Str) : Prop where
  keyEntry : ∃ name, headers.items.filter (fun p => sameName p.1 config.apiKeyHeader)
    = [(name, key)]
  distinct : headers.keys.Pairwise (fun a b => sameName a b = false)

/-- The names that the three sources of headers use. -/
def headerNames (config : TronadoConfig) : List Str :=
  [lit "Accept", lit "Content-Type", lit "User-Agent"] ++ config.defaultHeaders.keys ++
    [config.apiKeyHeader]

/-- No name has two spellings. -/
def OneSpelling (names : List Str) : Prop :=
  ∀ a ∈ names, ∀ b ∈ names, sameName a b = true → a = b

theorem sameName_comm (a b : Str) : sameName a b = sameName b a := by
  rw [Bool.eq_iff_iff, sameName, sameName, beq_iff_eq, beq_iff_eq, eq_comm]

instance : Std.Symm (fun a b : Str => sameName a b = false) :=
  ⟨fun a b h => (sameName_comm b a).trans h⟩

theorem sameName_self (a : Str) : sameName a a = true := by
  rw [sameName, beq_iff_eq]

/-- **Distinct names are the same as one spelling of each**, in a dict. -/
theorem distinct_iff_oneSpelling (headers : Dict Str Str) :
    headers.keys.Pairwise (fun a b => sameName a b = false) ↔ OneSpelling headers.keys := by
  constructor
  · intro h a ha b hb hab
    by_contra hne
    have hpair := h.forall ha hb hne
    rw [hab] at hpair
    cases hpair
  · intro h
    apply headers.nodup.imp_of_mem
    intro a b ha hb hne
    rw [Bool.eq_false_iff]
    exact fun ht => hne (h a ha b hb ht)

/-- The entry of a name that is spelled in one way only. -/
theorem filter_sameName {headers : Dict Str Str} (h : OneSpelling headers.keys) {name value : Str}
    (hmem : (name, value) ∈ headers.items) :
    headers.items.filter (fun p => sameName p.1 name) = [(name, value)] := by
  have hname : name ∈ headers.keys := List.mem_map_of_mem hmem
  rw [← filter_key_eq headers.nodup hmem]
  apply List.filter_congr
  intro p hp
  rw [Bool.eq_iff_iff, decide_eq_true_iff]
  exact ⟨h p.1 (List.mem_map_of_mem hp) name hname, fun he => he ▸ sameName_self p.1⟩

/-- **The names of the map that is sent with the key.** -/
theorem mem_keys_buildHeaders {config : TronadoConfig} {headers : Dict Str Str}
    (h : config.buildHeaders true = .ok headers) (name : Str) :
    name ∈ headers.keys ↔ name ∈ headerNames config := by
  unfold TronadoConfig.buildHeaders at h
  cases hk : config.apiKey with
  | none => rw [hk] at h; cases h
  | some key =>
    simp only [hk, if_true, Except.ok.injEq] at h
    subst h
    have hdefault : config.defaultHeaders.items.map Prod.fst = config.defaultHeaders.keys := rfl
    simp only [Dict.mem_keys_set, Dict.mem_keys_update, Dict.ofList, Dict.keys_empty, hdefault,
      headerNames, List.mem_append, List.mem_singleton, List.map_cons, List.map_nil]
    tauto

/-- The entry of the key is there, with the key. -/
theorem key_mem_buildHeaders {config : TronadoConfig} {key : Str} {headers : Dict Str Str}
    (hkey : config.apiKey = some key) (h : config.buildHeaders true = .ok headers) :
    (config.apiKeyHeader, key) ∈ headers.items := by
  simp only [TronadoConfig.buildHeaders, hkey, if_true, Except.ok.injEq] at h
  subst h
  exact Dict.mem_items_set _ _ _

/-- **When the map keeps the promise.** -/
theorem authoritative_iff {config : TronadoConfig} {key : Str} {headers : Dict Str Str}
    (hkey : config.apiKey = some key) (h : config.buildHeaders true = .ok headers) :
    Authoritative config key headers ↔ OneSpelling (headerNames config) := by
  have hnames : OneSpelling headers.keys ↔ OneSpelling (headerNames config) := by
    simp only [OneSpelling, mem_keys_buildHeaders h]
  rw [← hnames]
  constructor
  · intro ha
    exact (distinct_iff_oneSpelling headers).mp ha.distinct
  · intro ho
    exact ⟨⟨_, filter_sameName ho (key_mem_buildHeaders hkey h)⟩,
      (distinct_iff_oneSpelling headers).mpr ho⟩

/-- The headers of a prepared request are those of the config. -/
theorem headers_of_prepareRequest [Runtime] {ρ : Type} {config : TronadoConfig}
    {operation : Operation ρ} {requestModel : Option RequestModel} {version : Str}
    {query : Option (List (Str × Value))} {prepared : PreparedRequest}
    (h : prepareRequest config operation requestModel version query = .ok prepared) :
    config.buildHeaders operation.requiresAuth = .ok prepared.headers := by
  unfold prepareRequest at h
  cases hb : encodeBody operation requestModel with
  | error e => rw [hb, error_bind] at h; cases h
  | ok content =>
    rw [hb, ok_bind] at h
    cases hh : config.buildHeaders operation.requiresAuth with
    | error e => rw [hh, error_bind] at h; cases h
    | ok headers => rw [hh, ok_bind] at h; cases h; rfl

/-- **When the key header is authoritative.**  With a key, the map of headers can
always be built; it has one entry for the key header, with the key, and no name
twice, exactly when no two of the names it is made of differ in case only.  The
same holds of the headers of any prepared request that is sent with the key. -/
theorem headers_authoritative_iff (config : TronadoConfig) (key : Str)
    (hkey : config.apiKey = some key) :
    (∃ headers, config.buildHeaders true = .ok headers ∧
      (Authoritative config key headers ↔ OneSpelling (headerNames config))) ∧
    ∀ (_ : Runtime) (ρ : Type) (operation : Operation ρ) (requestModel : Option RequestModel)
      (version : Str) (query : Option (List (Str × Value))) (prepared : PreparedRequest),
      operation.requiresAuth = true →
      prepareRequest config operation requestModel version query = .ok prepared →
        (Authoritative config key prepared.headers ↔ OneSpelling (headerNames config)) := by
  constructor
  · obtain ⟨headers, h⟩ := buildHeaders_with_key hkey true
    exact ⟨headers, h, authoritative_iff hkey h⟩
  · intro _ ρ operation requestModel version query prepared hauth hp
    have h := headers_of_prepareRequest hp
    rw [hauth] at h
    exact authoritative_iff hkey h

/-- A config with a key whose default headers spell the key header differently. -/
def spelledConfig : TronadoConfig :=
  { TronadoConfig.standard with
    apiKey := some (lit "real")
    apiKey_ne := by decide
    defaultHeaders := Dict.ofList [(lit "X-Api-Key", lit "fake")] }

theorem headers_authoritative_iff_spelled :
    (∃ headers, spelledConfig.buildHeaders true = .ok headers ∧
      (Authoritative spelledConfig (lit "real") headers ↔
        OneSpelling (headerNames spelledConfig))) ∧
    ∀ (_ : Runtime) (ρ : Type) (operation : Operation ρ) (requestModel : Option RequestModel)
      (version : Str) (query : Option (List (Str × Value))) (prepared : PreparedRequest),
      operation.requiresAuth = true →
      prepareRequest spelledConfig operation requestModel version query = .ok prepared →
        (Authoritative spelledConfig (lit "real") prepared.headers ↔
          OneSpelling (headerNames spelledConfig)) :=
  headers_authoritative_iff spelledConfig (lit "real") rfl

/-- It sends both `X-Api-Key: fake` and `x-api-key: real`. -/
theorem not_authoritative_spelled :
    ¬ ∀ (config : TronadoConfig) (key : Str) (headers : Dict Str Str),
      config.apiKey = some key → config.buildHeaders true = .ok headers →
        Authoritative config key headers := by
  intro h
  exact absurd (h spelledConfig (lit "real") _ rfl rfl).distinct (by decide)

end Tronado
