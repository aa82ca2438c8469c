import Mathlib.Data.Int.Notation
import Mathlib.Data.List.Basic
import Mathlib.Logic.Function.Defs

/-!
# Documented enumerations

An enumeration lists its members with their values, and no value twice.  A raw
value is mapped to the member that has it by `toKnownEnum`, which answers `none`
for every other value, so that a value the documentation does not define yet is
no error.

* `toKnownEnum_eq_some_iff`: the member found is the one with that value.
-/

namespace Tronado

/-- A subclass of `Enum`. -/
structure KnownEnum (E V : Type) where
  members : List E
  value : E → V
  mem_members : ∀ m, m ∈ members
  value_injective : Function.Injective value

/-- `to_known_enum(enum_cls, value)`. -/
def toKnownEnum {E V : Type} [DecidableEq V] (enumCls : KnownEnum E V) (value : Option V) :
    Option E :=
  value.bind fun v => enumCls.members.find? (fun m => decide (enumCls.value m = v))

theorem toKnownEnum_eq_some_iff {E V : Type} [DecidableEq V] {enumCls : KnownEnum E V}
    {value : Option V} {m : E} :
    toKnownEnum enumCls value = some m ↔ value = some (enumCls.value m) := by
  cases value with
  | none => simp [toKnownEnum]
  | some v =>
    rw [toKnownEnum, Option.bind_some, Option.some_inj]
    constructor
    · intro h
      have hm := List.find?_some h
      exact (of_decide_eq_true hm).symm
    · rintro rfl
      cases h : enumCls.members.find? (fun m' => decide (enumCls.value m' = enumCls.value m)) with
      | some m' =>
        have hm := List.find?_some h
        rw [enumCls.value_injective (of_decide_eq_true hm)]
      | none => exact absurd (List.find?_eq_none.mp h m (enumCls.mem_members m)) (by simp)

inductive OrderStatusCode
  | waitingForPayment
  | photoSentToAdmin
  | readyToTransfer
  | paymentAccepted
  | paymentRejected
  | cancelled
  deriving DecidableEq

def OrderStatusCode.value : OrderStatusCode → ℤ
  | waitingForPayment => 20
  | photoSentToAdmin => 25
  | readyToTransfer => 27
  | paymentAccepted => 30
  | paymentRejected => 40
  | cancelled => 200

def OrderStatusCode.enum : KnownEnum OrderStatusCode ℤ where
  members := [.waitingForPayment, .photoSentToAdmin, .readyToTransfer, .paymentAccepted,
    .paymentRejected, .cancelled]
  value := OrderStatusCode.value
  mem_members m := by cases m <;> decide
  value_injective m m' h := by cases m <;> cases m' <;> first | rfl | cases h

/-- The one member of `DisputeEvent`. -/
def disputeAccepted : String := "DisputeAccepted"

inductive DisputeTypeCode
  | noDeposit
  | amountIsInRial
  | amountIsMore
  | amountIsLess
  | receiptIsRepetitive
  deriving DecidableEq

def DisputeTypeCode.value : DisputeTypeCode → ℤ
  | noDeposit => 1
  | amountIsInRial => 11
  | amountIsMore => 31
  | amountIsLess => 41
  | receiptIsRepetitive => 61

def DisputeTypeCode.enum : KnownEnum DisputeTypeCode ℤ where
  members := [.noDeposit, .amountIsInRial, .amountIsMore, .amountIsLess, .receiptIsRepetitive]
  value := DisputeTypeCode.value
  mem_members m := by cases m <;> decide
  value_injective m m' h := by cases m <;> cases m' <;> first | rfl | cases h

inductive DisputeOutcome
  | annulled
  | amountAdjusted
  | noChange
  deriving DecidableEq

def DisputeOutcome.value : DisputeOutcome → String
  | annulled => "Annulled"
  | amountAdjusted => "AmountAdjusted"
  | noChange => "NoChange"

def DisputeOutcome.enum : KnownEnum DisputeOutcome String where
  members := [.annulled, .amountAdjusted, .noChange]
  value := DisputeOutcome.value
  mem_members m := by cases m <;> decide
  value_injective m m' h := by
    cases m <;> cases m' <;> first | rfl | exact absurd h (by decide)

end Tronado
