import Tronado.Http.Run
import Tronado.Lib.Delay
import Tronado.Lib.Numerals
import Tronado.Lib.Rounding

/-!
# When `Retry-After` is honoured

`documentedDelay` is the pause the header asks for in its documented form, a whole
number of seconds, and the backoff otherwise.  `SleepsNext` reads the pause after an
attempt off the trace of a run.

* `attempts_sleepsNext`: the pause of both transports after a retryable response.
* `sleepsNext_iff`: a run tells its pause.
* `retryAfter_honoured_iff`: when that pause is the documented one, which depends on
  the text of the header and, for texts that `float` reads, on the backoff.
-/

namespace Tronado

open Py Run

/-- A whole number of seconds: a row of ASCII digits, whitespace around it aside. -/
def deltaSeconds? (raw : Str) : Option ℕ :=
  let s := strip raw
  if s ≠ [] ∧ s.all isDigit then some (natOf s) else none

/-- The pause after a retryable response, as documented. -/
def documentedDelay (config : TronadoConfig) (attempt : ℕ) (jitter : Jitter) (headers : Headers) :
    Except PyErr Double :=
  match (headers.get "Retry-After").bind deltaSeconds? with
  | some n => .ok (.finite n)
  | none => backoffWith config attempt jitter

/-- The pause after a retryable response. -/
def actualDelay (config : TronadoConfig) (attempt : ℕ) (jitter : Jitter) (headers : Headers) :
    Except PyErr Double :=
  match retryAfter headers with
  | some d => .ok d
  | none => backoffWith config attempt jitter

/-- A run that starts in `w` sends the request and then pauses for `delay`, or ends
with the error of computing the pause. -/
def SleepsNext {ρ : Type} (prepared : PreparedRequest) (w : World PreparedRequest)
    (delay : Except PyErr Double) (out : Except PyErr ρ × World PreparedRequest) : Prop :=
  match delay with
  | .ok d => w.events ++ [.request prepared, .sleep d] <+: out.2.events
  | .error e => out.1 = .error e ∧ out.2.events = w.events ++ [.request prepared]

/-- When the pause is the documented one: the header is missing; or it is in its
documented form, with a number that is a double and not zero (or the backoff is
zero, too); or it is not, and `float` does not read a positive number (or reads the
backoff). -/
def Honoured (config : TronadoConfig) (attempt : ℕ) (jitter : Jitter) (headers : Headers) : Prop :=
  match headers.get "Retry-After" with
  | none => True
  | some raw =>
    match deltaSeconds? raw with
    | some n =>
      (0 < n ∧ Double.ofRat n = .finite n) ∨
        (n = 0 ∧ backoffWith config attempt jitter = .ok (.finite 0))
    | none => ∀ x, Double.parse (strip raw) = some x → Double.lt (.finite 0) x = true →
        backoffWith config attempt jitter = .ok x

/-! ## The pause in the trace -/

section

variable {ρ : Type} {prepared : PreparedRequest} {w : World PreparedRequest}
  {out : Except PyErr ρ × World PreparedRequest}

/-- **A run tells its pause.** -/
theorem sleepsNext_inj {delay delay' : Except PyErr Double} (h : SleepsNext prepared w delay out)
    (h' : SleepsNext prepared w delay' out) : delay = delay' := by
  have length_ok {d : Double} (hd : SleepsNext prepared w (.ok d) out) :
      w.events.length + 2 ≤ out.2.events.length := by
    simpa using List.IsPrefix.length_le hd
  have length_error {e : PyErr} (he : SleepsNext prepared w (.error e) out) :
      out.2.events.length = w.events.length + 1 := by
    rw [he.2]
    simp
  cases delay with
  | ok d =>
    have hlen := length_ok h
    cases delay' with
    | ok d' =>
      have heq := List.IsPrefix.eq_of_length
        (List.prefix_of_prefix_length_le h h' (by simp)) (by simp)
      have hlast := List.append_cancel_left heq
      simp only [List.cons.injEq, Event.sleep.injEq, true_and, and_true] at hlast
      rw [hlast]
    | error e => have := length_error h'; omega
  | error e =>
    have hlen := length_error h
    cases delay' with
    | ok d' => have := length_ok h'; omega
    | error e' => rw [← h.1.symm.trans h'.1 |> Except.error.inj]

theorem sleepsNext_iff {delay delay' : Except PyErr Double} (h : SleepsNext prepared w delay out) :
    SleepsNext prepared w delay' out ↔ delay' = delay :=
  ⟨fun h' => sleepsNext_inj h' h, fun he => he ▸ h⟩

end

section

variable [Runtime] {ρ : Type} {config : TronadoConfig} {operation : Operation ρ}
  {prepared : PreparedRequest} {env : Env Outcome PyErr} {attempt : ℕ}
  {w : World PreparedRequest} {r : Response}

/-- One attempt of the policy on a retryable response, whatever follows it. -/
theorem attemptThen_sleepsNext (hr : env.answer w.sent = .response r)
    (hretry : statusIsRetryable config r.statusCode attempt operation.idempotent = true)
    {next : World PreparedRequest → Except PyErr ρ × World PreparedRequest}
    (hnext : ∀ w, w.events <+: (next w).2.events) :
    SleepsNext prepared w (actualDelay config attempt (env.jitter w.drawn) r.headers)
      ((policy config operation prepared).attemptThen prepared env attempt w next) := by
  rw [Policy.attemptThen, hr, if_pos (statusIsRetryable_iff_budget.mp hretry), pause_response]
  have slept (d : Double) (w' : World PreparedRequest)
      (hw : w'.events = w.events ++ [.request prepared]) :
      w.events ++ [.request prepared, .sleep d] = (w'.sleep d).events := by
    rw [World.sleep, hw]
    simp
  unfold actualDelay
  cases retryAfter r.headers with
  | some d =>
    simp only [SleepsNext]
    rw [slept d (w.request prepared) rfl]
    cases env.sleep d with
    | error e => exact List.prefix_rfl
    | ok u => exact hnext _
  | none =>
    simp only [World.request_drawn]
    cases backoffWith config attempt (env.jitter w.drawn) with
    | error e => exact ⟨rfl, rfl⟩
    | ok d =>
      simp only [SleepsNext]
      rw [slept d (w.request prepared).draw rfl]
      cases env.sleep d with
      | error e => exact List.prefix_rfl
      | ok u => exact hnext _

/-- **The pause of both transports after a retryable response.** -/
theorem attempts_sleepsNext (prepared : PreparedRequest) (hr : env.answer w.sent = .response r)
    (hretry : statusIsRetryable config r.statusCode attempt operation.idempotent = true) :
    SleepsNext prepared w (actualDelay config attempt (env.jitter w.drawn) r.headers)
        (((SyncTransport.mk config).attempts operation prepared attempt).run env w) ∧
      SleepsNext prepared w (actualDelay config attempt (env.jitter w.drawn) r.headers)
        (((AsyncTransport.mk config).attempts operation prepared attempt).run env w) := by
  constructor
  · rw [SyncTransport.run_attempts_step]
    apply attemptThen_sleepsNext hr hretry
    intro w
    have hloop := Policy.eq_loop_of_step _ prepared env
      (fun attempt w => ((SyncTransport.mk config).attempts operation prepared attempt).run env w)
      ((SyncTransport.mk config).run_attempts_step operation prepared env) (attempt + 1) w
    rw [hloop]
    exact Policy.events_prefix_loop _ _ _ _ _ _
  · rw [AsyncTransport.run_attempts_step]
    apply attemptThen_sleepsNext hr hretry
    intro w
    have hloop := Policy.eq_loop_of_step _ prepared env
      (fun attempt w => ((AsyncTransport.mk config).attempts operation prepared attempt).run env w)
      ((AsyncTransport.mk config).run_attempts_step operation prepared env) (attempt + 1) w
    rw [hloop]
    exact Policy.events_prefix_loop _ _ _ _ _ _

end

/-! ## What the header says -/

theorem deltaSeconds?_eq_some {raw : Str} {n : ℕ} (h : deltaSeconds? raw = some n) :
    Double.parse (strip raw) = some (.ofRat n) := by
  unfold deltaSeconds? at h
  dsimp only at h
  split at h
  · next hs =>
    cases h
    exact parse_digits hs.1 (List.all_eq_true.mp hs.2)
  · cases h

/-- A whole positive number is read as a positive double. -/
theorem ofRat_natCast_pos {n : ℕ} (hn : 0 < n) :
    Double.ofRat n = .inf ∨ ∃ q : ℚ, 0 < q ∧ Double.ofRat n = .finite q := by
  have hpos : (0 : ℚ) < n := by exact_mod_cast hn
  have hnormal : (2 : ℚ) ^ (-1022 : ℤ) ≤ n := by
    have hle : (2 : ℚ) ^ (-1022 : ℤ) ≤ 1 := zpow_le_one_of_nonpos₀ (by norm_num) (by norm_num)
    exact hle.trans (by exact_mod_cast hn)
  rw [ofRat_pos hpos]
  split
  · exact Or.inl rfl
  · exact Or.inr ⟨_, roundPos_pos_of_normal hpos hnormal, rfl⟩

theorem le_and_truthy (x : Double) :
    (Double.le (.finite 0) x && x.truthy) = Double.lt (.finite 0) x := by
  cases x with
  | finite q =>
    rw [Double.lt_finite, Double.le_finite, Bool.eq_iff_iff]
    simp only [Double.truthy, Bool.and_eq_true, decide_eq_true_eq, bne_iff_ne, ne_eq,
      Double.finite.injEq]
    exact ⟨fun h => lt_of_le_of_ne h.1 (Ne.symm h.2), fun h => ⟨h.le, h.ne'⟩⟩
  | _ => rfl

/-- **The header that the transports follow**: `float` reads a positive number. -/
theorem retryAfter_eq (headers : Headers) :
    retryAfter headers = (headers.get "Retry-After").bind fun raw =>
      (Double.parse (strip raw)).filter fun x => Double.lt (.finite 0) x := by
  have hcase : headers.get "retry-after" = headers.get "Retry-After" := by
    unfold Headers.get
    rw [show (lit "retry-after").map asciiLower = (lit "Retry-After").map asciiLower by decide]
  unfold retryAfter retryAfterSeconds
  rw [hcase, Option.or_self]
  cases headers.get "Retry-After" with
  | none => rfl
  | some raw =>
    cases raw with
    | nil => rfl
    | cons c r =>
      have hne : nonEmpty (some (c :: r)) = some (c :: r) := rfl
      rw [hne]
      dsimp only [Option.bind_some]
      cases Double.parse (strip (c :: r)) with
      | none => rfl
      | some x =>
        have h := le_and_truthy x
        dsimp only
        by_cases hle : Double.le (.finite 0) x = true
        · rw [hle, Bool.true_and] at h
          rw [if_pos hle]
          simp only [Option.filter_some, h]
        · rw [if_neg hle]
          rw [Bool.not_eq_true] at hle
          rw [hle, Bool.false_and] at h
          simp [Option.filter_some, ← h]

theorem documentedDelay_eq_iff (config : TronadoConfig) (attempt : ℕ) (jitter : Jitter)
    (headers : Headers) :
    documentedDelay config attempt jitter headers = actualDelay config attempt jitter headers ↔
      Honoured config attempt jitter headers := by
  unfold documentedDelay actualDelay Honoured
  rw [retryAfter_eq]
  cases headers.get "Retry-After" with
  | none => simp
  | some raw =>
    dsimp only [Option.bind_some]
    cases hn : deltaSeconds? raw with
    | some n =>
      rw [deltaSeconds?_eq_some hn]
      rcases Nat.eq_zero_or_pos n with rfl | hpos
      · have hzero : (some (Double.ofRat ((0 : ℕ) : ℚ))).filter
            (fun x => Double.lt (.finite 0) x) = none := by
          rw [Nat.cast_zero, ofRat_zero]
          rfl
        rw [hzero]
        simp [eq_comm]
      · have hsome : (some (Double.ofRat n)).filter (fun x => Double.lt (.finite 0) x) =
            some (Double.ofRat n) := by
          rcases ofRat_natCast_pos hpos with h | ⟨q, hq, h⟩ <;> rw [h]
          · rfl
          · simp [Option.filter_some, hq]
        rw [hsome]
        simp [hpos, hpos.ne', eq_comm]
    | none =>
      cases Double.parse (strip raw) with
      | none => simp
      | some x =>
        by_cases hx : Double.lt (.finite 0) x = true
        · simp [Option.filter_some, hx]
        · simp [Option.filter_some, hx]

/-- **When `Retry-After` is honoured.**  After any retryable response, in either
transport, at any attempt: the run pauses as documented exactly when the header is
missing, or is a row of digits whose number is a double and not zero, or is none and
`float` reads no positive number in it; the other headers are those for which the
backoff happens to agree. -/
theorem retryAfter_honoured_iff [Runtime] {ρ : Type} (config : TronadoConfig)
    (operation : Operation ρ) (prepared : PreparedRequest) (env : Env Outcome PyErr)
    (attempt : ℕ) (w : World PreparedRequest) (r : Response)
    (hr : env.answer w.sent = .response r)
    (hretry : statusIsRetryable config r.statusCode attempt operation.idempotent = true) :
    (SleepsNext prepared w (documentedDelay config attempt (env.jitter w.drawn) r.headers)
        (((SyncTransport.mk config).attempts operation prepared attempt).run env w) ↔
      Honoured config attempt (env.jitter w.drawn) r.headers) ∧
    (SleepsNext prepared w (documentedDelay config attempt (env.jitter w.drawn) r.headers)
        (((AsyncTransport.mk config).attempts operation prepared attempt).run env w) ↔
      Honoured config attempt (env.jitter w.drawn) r.headers) := by
  obtain ⟨hsync, hasync⟩ := attempts_sleepsNext prepared hr hretry
  exact ⟨(sleepsNext_iff hsync).trans (documentedDelay_eq_iff _ _ _ _),
    (sleepsNext_iff hasync).trans (documentedDelay_eq_iff _ _ _ _)⟩

/-- A response that asks for a pause. -/
def slowDown (seconds : String) : Response := ⟨429, [(lit "Retry-After", lit seconds)], []⟩

/-- An environment that asks for a pause after every attempt. -/
def slowEnv (seconds : String) : Env Outcome PyErr :=
  ⟨fun _ => .response (slowDown seconds), fun _ => .zero, fun _ => .ok ()⟩

/-- A request to send. -/
def sampleRequest : PreparedRequest := ⟨"POST", lit "/", .empty, [], none⟩

/-- A `Retry-After` of twelve seconds. -/
theorem retryAfter_honoured_iff_twelve :
    let _ := Runtime.sample
    let config := TronadoConfig.standard
    (SleepsNext sampleRequest World.start
        (documentedDelay config 0 .zero (slowDown "12").headers)
        (((SyncTransport.mk config).attempts Ops.tronGetPriceToToman sampleRequest 0).run
          (slowEnv "12") World.start) ↔
      Honoured config 0 .zero (slowDown "12").headers) ∧
    (SleepsNext sampleRequest World.start
        (documentedDelay config 0 .zero (slowDown "12").headers)
        (((AsyncTransport.mk config).attempts Ops.tronGetPriceToToman sampleRequest 0).run
          (slowEnv "12") World.start) ↔
      Honoured config 0 .zero (slowDown "12").headers) :=
  let _ := Runtime.sample
  retryAfter_honoured_iff .standard Ops.tronGetPriceToToman sampleRequest (slowEnv "12") 0
    World.start (slowDown "12") rfl rfl

/-- A `Retry-After` of zero seconds is taken for none. -/
theorem not_honoured_zero :
    ¬ ∀ (_ : Runtime) (ρ : Type) (config : TronadoConfig) (operation : Operation ρ)
      (prepared : PreparedRequest) (env : Env Outcome PyErr) (attempt : ℕ)
      (w : World PreparedRequest) (r : Response), env.answer w.sent = .response r →
      statusIsRetryable config r.statusCode attempt operation.idempotent = true →
        SleepsNext prepared w (documentedDelay config attempt (env.jitter w.drawn) r.headers)
          (((SyncTransport.mk config).attempts operation prepared attempt).run env w) := by
  intro h
  let _ := Runtime.sample
  have hsleep := h Runtime.sample _ .standard Ops.tronGetPriceToToman sampleRequest (slowEnv "0") 0
    World.start (slowDown "0") rfl rfl
  have hpause := (@attempts_sleepsNext _ _ TronadoConfig.standard Ops.tronGetPriceToToman
    (slowEnv "0") 0 World.start (slowDown "0") sampleRequest rfl rfl).1
  have heq := (documentedDelay_eq_iff _ _ _ _).mp ((sleepsNext_iff hpause).mp hsleep)
  have hget : (slowDown "0").headers.get "Retry-After" = some (lit "0") := by decide
  have hdelta : deltaSeconds? (lit "0") = some 0 := by decide
  unfold Honoured at heq
  rw [hget] at heq
  dsimp only at heq
  rw [hdelta] at heq
  rcases heq with ⟨hlt, -⟩ | ⟨-, hback⟩
  · exact absurd hlt (lt_irrefl 0)
  · have hquarter : backoffWith TronadoConfig.standard 0 ((slowEnv "0").jitter 0) =
        .ok (.finite (1 / 4)) := by
      rw [backoffWith, computeBackoff_of_lt (by norm_num)]
      simp only [TronadoConfig.standard, defaultBackoffFactor, defaultMaxBackoff, slowEnv,
        Jitter.zero, backoffDelay, Double.mul, Double.min, Double.max, Double.lt_finite]
      norm_num
    rw [show (World.start : World PreparedRequest).drawn = 0 from rfl, hquarter] at hback
    simp at hback

end Tronado
