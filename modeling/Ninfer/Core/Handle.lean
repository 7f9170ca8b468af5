/-
  Generation-checked handles (`LogicalKVPageHandle`, `KVAddressSpaceHandle`, `StateImageHandle`,
  `HostKVExtentCapability`, `HostKVAllocationHandle`, `DeviceKVPageHandle`).

  The source has one class per store, all of the shape owner pointer, index, generation. Here
  they are one type with a phantom tag. A store is named by a number, its owner pointer.
-/
import Mathlib

namespace Ninfer

/-- `std::numeric_limits<std::uint32_t>::max()`. -/
def maxU32 : Nat := 2 ^ 32 - 1

/-- `--n` of a 32-bit unsigned counter. -/
def predU32 (n : Nat) : Nat := if n = 0 then maxU32 else n - 1

theorem predU32_of_ne {n : Nat} (h : n ≠ 0) : predU32 n = n - 1 := if_neg h

/-- A copyable capability for an entry of type `α` of the store `owner`; a
    default-constructed one has no owner. -/
structure Handle (α : Type) where
  owner : Option Nat := none
  index : Nat := 0
  generation : Nat := 0
  deriving DecidableEq

/-- `if (++generation == 0) ++generation`, 32 bits. -/
def nextGeneration (generation : Nat) : Nat :=
  if generation + 1 = 2 ^ 32 then 1 else generation + 1

/-- `if (++epoch == 0) ++epoch`, 64 bits. -/
def nextEpoch (epoch : Nat) : Nat :=
  if epoch + 1 = 2 ^ 64 then 1 else epoch + 1

theorem nextEpoch_ne_zero (epoch : Nat) : nextEpoch epoch ≠ 0 := by
  unfold nextEpoch
  split <;> omega

end Ninfer
