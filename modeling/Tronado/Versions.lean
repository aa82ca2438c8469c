import Mathlib.Data.List.Lex
import Tronado.Config
import Tronado.Resources

/-!
# The version registry

A version tag stands for two bundles of resources, one over each transport.
`V5SyncVersion` and `V5AsyncVersion` wire the resources of v5 to a transport, and
`registry` is the table the tags are looked up in.

* `buildSyncVersion_eq`, `buildAsyncVersion_eq`: what a tag is resolved to.
-/

namespace Tronado

open Py

/-- `VERSION_TAG`. -/
def versionTag : Str := lit "v5"

structure PriceNamespace where
  tron : TronPriceResource
  toman : TomanPriceResource
  dollar : DollarPriceResource

/-- `PriceNamespace.__init__`. -/
def PriceNamespace.init (transport : SyncTransport) (version : Str) : PriceNamespace where
  tron := ⟨transport, version⟩
  toman := ⟨transport, version⟩
  dollar := ⟨transport, version⟩

structure AsyncPriceNamespace where
  tron : AsyncTronPriceResource
  toman : AsyncTomanPriceResource
  dollar : AsyncDollarPriceResource

/-- `AsyncPriceNamespace.__init__`. -/
def AsyncPriceNamespace.init (transport : AsyncTransport) (version : Str) :
    AsyncPriceNamespace where
  tron := ⟨transport, version⟩
  toman := ⟨transport, version⟩
  dollar := ⟨transport, version⟩

structure V5SyncVersion where
  order : OrderResource
  price : PriceNamespace

/-- `V5SyncVersion.__init__`. -/
def V5SyncVersion.init (transport : SyncTransport) : V5SyncVersion where
  order := ⟨transport, versionTag⟩
  price := .init transport versionTag

structure V5AsyncVersion where
  order : AsyncOrderResource
  price : AsyncPriceNamespace

/-- `V5AsyncVersion.__init__`. -/
def V5AsyncVersion.init (transport : AsyncTransport) : V5AsyncVersion where
  order := ⟨transport, versionTag⟩
  price := .init transport versionTag

/-- The two factories of a tag. -/
abbrev VersionFactories := (SyncTransport → V5SyncVersion) × (AsyncTransport → V5AsyncVersion)

/-- `_REGISTRY`. -/
def registry : Dict Str VersionFactories :=
  .ofList [(lit "v5", (V5SyncVersion.init, V5AsyncVersion.init))]

/-- `available_versions()`. -/
def availableVersions : List Str := registry.keys.mergeSort (fun a b => decide (a ≤ b))

/-- The error of a tag that is not in the registry. -/
def unsupportedVersion (tag : Str) : PyErr :=
  .tronado (.config [.text "Unsupported API version ", .repr tag, .text ". Supported versions: ",
    .chars ((lit ", ").intercalate availableVersions), .text "."])

/-- `_resolve(tag)`. -/
def resolve (tag : Str) : Except PyErr VersionFactories :=
  match getItem? tag registry.items with
  | some factories => .ok factories
  | none => .error (unsupportedVersion tag)

/-- `build_sync_version(tag, transport)`. -/
def buildSyncVersion (tag : Str) (transport : SyncTransport) : Except PyErr V5SyncVersion := do
  let (syncFactory, _) ← resolve tag
  return syncFactory transport

/-- `build_async_version(tag, transport)`. -/
def buildAsyncVersion (tag : Str) (transport : AsyncTransport) : Except PyErr V5AsyncVersion := do
  let (_, asyncFactory) ← resolve tag
  return asyncFactory transport

theorem resolve_eq (tag : Str) :
    resolve tag = if tag = versionTag then .ok (V5SyncVersion.init, V5AsyncVersion.init)
      else .error (unsupportedVersion tag) := by
  have hitems : registry.items = [(versionTag, (V5SyncVersion.init, V5AsyncVersion.init))] := rfl
  rw [resolve, hitems, getItem?]
  by_cases h : tag = versionTag
  · rw [if_pos h.symm, if_pos h]
  · rw [if_neg (fun he => h he.symm), if_neg h]
    rfl

theorem buildSyncVersion_eq (tag : Str) (transport : SyncTransport) :
    buildSyncVersion tag transport =
      if tag = versionTag then .ok (V5SyncVersion.init transport)
      else .error (unsupportedVersion tag) := by
  rw [buildSyncVersion, resolve_eq]
  by_cases h : tag = versionTag
  · rw [if_pos h, if_pos h]
    rfl
  · rw [if_neg h, if_neg h]
    rfl

theorem buildAsyncVersion_eq (tag : Str) (transport : AsyncTransport) :
    buildAsyncVersion tag transport =
      if tag = versionTag then .ok (V5AsyncVersion.init transport)
      else .error (unsupportedVersion tag) := by
  rw [buildAsyncVersion, resolve_eq]
  by_cases h : tag = versionTag
  · rw [if_pos h, if_pos h]
    rfl
  · rw [if_neg h, if_neg h]
    rfl

variable [Runtime] {ρ : Type}

/-- A method of the bundle, called with its arguments. -/
def V5SyncVersion.call (self : V5SyncVersion) : Call ρ → Blocking ρ
  | .getOrderToken paymentId walletAddress tronAmount callbackUrl wage =>
    self.order.getOrderToken paymentId walletAddress tronAmount callbackUrl wage
  | .getStatus id => self.order.getStatus id
  | .getStatusByPaymentId id => self.order.getStatusByPaymentId id
  | .tronGetPriceToToman => self.price.tron.getPriceToToman
  | .tronGetPriceWithWageToToman requestCode walletAddress tronAmount =>
    self.price.tron.getPriceWithWageToToman requestCode walletAddress tronAmount
  | .tomanConvertToTron toman wallet => self.price.toman.convertToTronWageSubtracted toman wallet
  | .tomanGetPriceToToman => self.price.toman.getPriceToToman
  | .dollarConvertToTron dollar wallet =>
    self.price.dollar.convertToTronWageSubtracted dollar wallet
  | .dollarGetPriceToToman => self.price.dollar.getPriceToToman

/-- The same over the asynchronous bundle. -/
def V5AsyncVersion.call (self : V5AsyncVersion) : Call ρ → Awaitable ρ
  | .getOrderToken paymentId walletAddress tronAmount callbackUrl wage =>
    self.order.getOrderToken paymentId walletAddress tronAmount callbackUrl wage
  | .getStatus id => self.order.getStatus id
  | .getStatusByPaymentId id => self.order.getStatusByPaymentId id
  | .tronGetPriceToToman => self.price.tron.getPriceToToman
  | .tronGetPriceWithWageToToman requestCode walletAddress tronAmount =>
    self.price.tron.getPriceWithWageToToman requestCode walletAddress tronAmount
  | .tomanConvertToTron toman wallet => self.price.toman.convertToTronWageSubtracted toman wallet
  | .tomanGetPriceToToman => self.price.toman.getPriceToToman
  | .dollarConvertToTron dollar wallet =>
    self.price.dollar.convertToTronWageSubtracted dollar wallet
  | .dollarGetPriceToToman => self.price.dollar.getPriceToToman

theorem V5SyncVersion.call_init (transport : SyncTransport) (call : Call ρ) :
    (V5SyncVersion.init transport).call call = call.sync transport versionTag := by
  cases call <;> rfl

theorem V5AsyncVersion.call_init (transport : AsyncTransport) (call : Call ρ) :
    (V5AsyncVersion.init transport).call call = call.async transport versionTag := by
  cases call <;> rfl

end Tronado
