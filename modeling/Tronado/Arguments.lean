import Tronado.Http.Run
import Tronado.Resources

/-!
# A method is its arguments and one `invoke`

Whatever a public method does before it hands over to `invoke` is decided by its
arguments: `Call.arguments` is the request model and the query they come to, or what
they are refused with, and `Call.deprecation` the warning in front.

* `Call.sync_eq`, `Call.async_eq`: each method over each transport in these terms.
* `Call.run_sync`, `Call.run_async`: what a call does, over either.
* `Call.error_of_arguments`: arguments are never refused with a `TronadoError`.
-/

namespace Tronado

open Py Schema Run

section

variable {α β γ ρ : Type}

/-- A pure statement in front of a pure part and the rest. -/
theorem lift_bind_lift {r : Except PyErr α} {f : α → Blocking β} {g : α → Except PyErr γ}
    {k : γ → Blocking β} (h : ∀ a, f a = Prog.lift (g a) >>= k) :
    Prog.lift r >>= f = Prog.lift (r >>= g) >>= k := by
  cases r with
  | error e => rfl
  | ok a => exact h a

/-- The last pure statement, before what it is handed to. -/
theorem lift_bind_pure {r : Except PyErr α} {f : α → Blocking β} {g : α → γ} {k : γ → Blocking β}
    (h : ∀ a, f a = k (g a)) : Prog.lift r >>= f = Prog.lift (r >>= fun a => pure (g a)) >>= k := by
  cases r with
  | error e => rfl
  | ok a => exact h a

theorem ret_bind_ret {r : Except PyErr α} {f : α → Awaitable β} {g : α → Except PyErr γ}
    {k : γ → Awaitable β} (h : ∀ a, f a = Coroutine.ret (g a) >>= k) :
    Coroutine.ret r >>= f = Coroutine.ret (r >>= g) >>= k := by
  cases r with
  | error e => rfl
  | ok a => exact h a

theorem ret_bind_pure {r : Except PyErr α} {f : α → Awaitable β} {g : α → γ}
    {k : γ → Awaitable β} (h : ∀ a, f a = k (g a)) :
    Coroutine.ret r >>= f = Coroutine.ret (r >>= fun a => pure (g a)) >>= k := by
  cases r with
  | error e => rfl
  | ok a => exact h a

/-! ## What is done before `invoke` -/

theorem error_of_decimalOf {arg : AmountInput} {e : PyErr} (h : decimalOf arg = .error e) :
    e.isTronado = false := by
  unfold decimalOf at h
  cases arg with
  | str s =>
    dsimp only at h
    split at h
    · cases h
    · cases h
      rfl
  | _ => cases h

theorem error_of_construct {model : Model α} {kwargs : Obj} {e : PyErr}
    (h : construct model kwargs = .error e) : e.isTronado = false := by
  unfold construct at h
  split at h
  · cases h
  · cases h
    rfl

theorem error_of_checkWage {wage : ℤ} {e : PyErr} (h : checkWage wage = .error e) :
    e.isTronado = false := by
  unfold checkWage at h
  split at h
  · cases h
  · cases h
    rfl

/-- The text a method warns with before all else. -/
def Call.deprecation : Call ρ → Option String
  | tomanGetPriceToToman => some tomanPriceDeprecated
  | _ => none

/-- The world in which a call goes through its arguments. -/
def Call.entered (call : Call ρ) (w : World PreparedRequest) : World PreparedRequest :=
  call.deprecation.elim w w.warn

end

variable [Runtime] {ρ : Type}

/-- What is handed to `invoke` beside the operation: the request model and the query. -/
abbrev Handed := Option RequestModel × Option (List (Str × Value))

/-- The operation behind a method. -/
def Call.operation : Call ρ → Operation ρ
  | getOrderToken .. => Ops.getOrderToken
  | getStatus _ => Ops.getStatus
  | getStatusByPaymentId _ => Ops.getStatusByPaymentId
  | tronGetPriceToToman => Ops.tronGetPriceToToman
  | tronGetPriceWithWageToToman .. => Ops.tronGetPriceWithWageToToman
  | tomanConvertToTron .. => Ops.tomanConvertToTron
  | tomanGetPriceToToman => Ops.tomanGetPriceToToman
  | dollarConvertToTron .. => Ops.dollarConvertToTron
  | dollarGetPriceToToman => Ops.dollarGetPriceToToman

/-- What the arguments of a method come to. -/
def Call.arguments : Call ρ → Except PyErr Handed
  | getOrderToken paymentId walletAddress tronAmount callbackUrl wage => do
    let amount ← decimalOf tronAmount
    let request ← construct GetOrderTokenRequest.model [
      (lit "payment_id", .str paymentId),
      (lit "wallet_address", .str walletAddress),
      (lit "tron_amount", .decimal amount),
      (lit "callback_url", .str callbackUrl)]
    let wage ← checkWage wage
    return (some (.getOrderToken request), some [(lit "wageFromBusinessPercentage", .int wage)])
  | getStatus id => do
    let request ← construct GetStatusRequest.model [(lit "id", .str id)]
    return (some (.getStatus request), none)
  | getStatusByPaymentId id => do
    let request ← construct GetStatusRequest.model [(lit "id", .str id)]
    return (some (.getStatus request), none)
  | tronGetPriceToToman => return (none, none)
  | tronGetPriceWithWageToToman requestCode walletAddress tronAmount => do
    let amount ← decimalOf tronAmount
    let request ← construct GetPriceWithWageRequest.model [
      (lit "request_code", .str requestCode),
      (lit "wallet_address", .str walletAddress),
      (lit "tron_amount", .decimal amount)]
    return (some (.getPriceWithWage request), none)
  | tomanConvertToTron toman wallet => do
    let request ← construct TomanConvertRequest.model [
      (lit "toman", .int toman), (lit "wallet", .str wallet)]
    return (some (.tomanConvert request), none)
  | tomanGetPriceToToman => return (none, none)
  | dollarConvertToTron dollar wallet => do
    let amount ← decimalOf dollar
    let request ← construct DollarConvertRequest.model [
      (lit "dollar", .decimal amount), (lit "wallet", .str wallet)]
    return (some (.dollarConvert request), none)
  | dollarGetPriceToToman => return (none, none)

/-! ## The methods -/

/-- **A blocking method** warns, goes through its arguments, and invokes its operation. -/
theorem Call.sync_eq (t : SyncTransport) (version : Str) (call : Call ρ) :
    call.sync t version = (do
      call.deprecation.elim (pure ()) Prog.warn
      let handed ← Prog.lift call.arguments
      t.invoke call.operation handed.1 version handed.2) := by
  cases call with
  | getOrderToken paymentId walletAddress tronAmount callbackUrl wage =>
    apply lift_bind_lift
    intro amount
    apply lift_bind_lift
    intro request
    exact lift_bind_pure fun _ => rfl
  | getStatus id => exact lift_bind_pure fun _ => rfl
  | getStatusByPaymentId id => exact lift_bind_pure fun _ => rfl
  | tronGetPriceToToman => rfl
  | tronGetPriceWithWageToToman requestCode walletAddress tronAmount =>
    apply lift_bind_lift
    intro amount
    exact lift_bind_pure fun _ => rfl
  | tomanConvertToTron toman wallet => exact lift_bind_pure fun _ => rfl
  | tomanGetPriceToToman => rfl
  | dollarConvertToTron dollar wallet =>
    apply lift_bind_lift
    intro amount
    exact lift_bind_pure fun _ => rfl
  | dollarGetPriceToToman => rfl

/-- **An asynchronous method** does the same. -/
theorem Call.async_eq (t : AsyncTransport) (version : Str) (call : Call ρ) :
    call.async t version = (do
      call.deprecation.elim (pure ()) Coroutine.emitWarning
      let handed ← Coroutine.ret call.arguments
      t.invoke call.operation handed.1 version handed.2) := by
  cases call with
  | getOrderToken paymentId walletAddress tronAmount callbackUrl wage =>
    apply ret_bind_ret
    intro amount
    apply ret_bind_ret
    intro request
    exact ret_bind_pure fun _ => rfl
  | getStatus id => exact ret_bind_pure fun _ => rfl
  | getStatusByPaymentId id => exact ret_bind_pure fun _ => rfl
  | tronGetPriceToToman => rfl
  | tronGetPriceWithWageToToman requestCode walletAddress tronAmount =>
    apply ret_bind_ret
    intro amount
    exact ret_bind_pure fun _ => rfl
  | tomanConvertToTron toman wallet => exact ret_bind_pure fun _ => rfl
  | tomanGetPriceToToman => rfl
  | dollarConvertToTron dollar wallet =>
    apply ret_bind_ret
    intro amount
    exact ret_bind_pure fun _ => rfl
  | dollarGetPriceToToman => rfl

/-! ## Running a call -/

/-- A call: refused arguments, or a run of its operation. -/
def runMethod (config : TronadoConfig) (version : Str) (call : Call ρ) (env : Env Outcome PyErr)
    (w : World PreparedRequest) : Except PyErr ρ × World PreparedRequest :=
  match call.arguments with
  | .error e => (.error e, call.entered w)
  | .ok handed => runCall config call.operation handed.1 version handed.2 env (call.entered w)

theorem Call.run_sync (config : TronadoConfig) (version : Str) (call : Call ρ)
    (env : Env Outcome PyErr) (w : World PreparedRequest) :
    (call.sync ⟨config⟩ version).run env w = runMethod config version call env w := by
  have hentered : (call.deprecation.elim (pure ()) Prog.warn : Blocking Unit).run env w =
      (.ok (), call.entered w) := by
    rw [entered]
    cases call.deprecation <;> rfl
  rw [sync_eq, Prog.run_bind, hentered]
  dsimp only
  rw [Prog.run_bind, Prog.run_lift, runMethod]
  cases call.arguments with
  | error e => rfl
  | ok handed => exact SyncTransport.run_invoke ..

theorem Call.run_async (config : TronadoConfig) (version : Str) (call : Call ρ)
    (env : Env Outcome PyErr) (w : World PreparedRequest) :
    (call.async ⟨config⟩ version).run env w = runMethod config version call env w := by
  have hentered : (call.deprecation.elim (pure ()) Coroutine.emitWarning : Awaitable Unit).run
      env w = (.ok (), call.entered w) := by
    rw [entered]
    cases call.deprecation <;> rfl
  rw [async_eq, Coroutine.run_bind, hentered]
  dsimp only
  rw [Coroutine.run_bind, Coroutine.run_ret, runMethod]
  cases call.arguments with
  | error e => rfl
  | ok handed => exact AsyncTransport.run_invoke ..

/-! ## Refused arguments -/

/-- **Arguments are never refused with a `TronadoError`.** -/
theorem Call.error_of_arguments {call : Call ρ} {e : PyErr} (h : call.arguments = .error e) :
    e.isTronado = false := by
  have hconstruct {α : Type} {model : Model α} {kwargs : Obj} {f : α → Handed}
      (h : (construct model kwargs >>= fun a => pure (f a)) = .error e) :
      e.isTronado = false := by
    rcases bind_eq_error h with h | ⟨_, -, h⟩
    · exact error_of_construct h
    · cases h
  cases call with
  | getOrderToken paymentId walletAddress tronAmount callbackUrl wage =>
    rcases bind_eq_error h with h | ⟨amount, -, h⟩
    · exact error_of_decimalOf h
    rcases bind_eq_error h with h | ⟨request, -, h⟩
    · exact error_of_construct h
    rcases bind_eq_error h with h | ⟨wage, -, h⟩
    · exact error_of_checkWage h
    · cases h
  | getStatus id => exact hconstruct h
  | getStatusByPaymentId id => exact hconstruct h
  | tronGetPriceToToman => cases h
  | tronGetPriceWithWageToToman requestCode walletAddress tronAmount =>
    rcases bind_eq_error h with h | ⟨amount, -, h⟩
    · exact error_of_decimalOf h
    · exact hconstruct h
  | tomanConvertToTron toman wallet => exact hconstruct h
  | tomanGetPriceToToman => cases h
  | dollarConvertToTron dollar wallet =>
    rcases bind_eq_error h with h | ⟨amount, -, h⟩
    · exact error_of_decimalOf h
    · exact hconstruct h
  | dollarGetPriceToToman => cases h

end Tronado
