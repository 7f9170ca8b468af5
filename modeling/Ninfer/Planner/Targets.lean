/-
  What a planner sees of a Program's pressure targets: the parts of `runtime/contract/types.h` that
  the planners read, the priced cost of a target, and the ledger of `resource_search.h`.

  Machine work and recovery work are Program data that only the cost model reads, so their types
  are parameters, and the prices are arbitrary functions of them. The marks of the ledger are the
  bits of the source's byte.
-/
import Ninfer.Planner.PortfolioValue
import Ninfer.Resources.Contract

namespace Ninfer.Planner

open Lib
open Resources (CheckpointRef)

/-! ## Targets -/

structure PlanningCandidateId where
  value : UInt32
  deriving DecidableEq

abbrev PressureOwnerOutcome := Resources.PressureOwnerOutcome PlanningOwnerId UInt32

abbrev PressureCheckpointOutcome := Resources.PressureCheckpointOutcome PlanningOwnerId

structure PressureCheckpointRecoveryImpact (R : Type) extends
    Resources.PressureCheckpointOutcome PlanningOwnerId where
  targetRecoveryWork : List R

/-- The exact assessment of a target. -/
structure PressureTargetAssessment (W R : Type) extends Resources.TargetAssessment
    PlanningCandidateId PressureOwnerOutcome (PressureCheckpointRecoveryImpact R) where
  machineWork : W
  stableTargetOrdinal : UInt32 := 0
  degradationUnits : UInt32 := 0
  droppedCheckpoints : UInt32 := 0
  projectionWork : UInt64 := 0
  expandable : Bool := false
  rootMaximal : Bool := false

/-- The outcomes that a planner keeps of the impacts. -/
def PressureTargetAssessment.checkpointOutcomes {W R : Type} (a : PressureTargetAssessment W R) :
    List PressureCheckpointOutcome :=
  a.checkpointImpacts.map (·.toPressureCheckpointOutcome)

/-! ## Prices -/

structure PricedMaterializationMachineWork where
  optimisticRequestNs : UInt64 := 0
  immediateNs : UInt64 := 0
  transferredBytes : UInt64 := 0
  copyOperations : UInt32 := 0

/-- The prices of a cost model. -/
structure ContextMachineCostModel (W R : Type) where
  /-- `price_materialization_machine_work`. -/
  price : W → PricedMaterializationMachineWork
  /-- `price_checkpoint_recovery_work`. -/
  recoveryNs : List R → UInt64

/-! ## The ledger -/

inductive TargetMark where
  | discovered
  | assessed
  | expanded
  | feasible
  | expandable
  deriving DecidableEq

structure BoundedTargetLedger where
  capacity : Nat
  marked : Nat → TargetMark → Bool

namespace BoundedTargetLedger

/-- `reset(capacity)`. -/
def empty (capacity : Nat) : BoundedTargetLedger :=
  { capacity, marked := fun _ _ => false }

variable (l : BoundedTargetLedger)

def requireOrdinal (ordinal : UInt32) : Except Fault Unit :=
  refuse (l.capacity ≤ ordinal.toNat)
    (.logicError "Program target ordinal exceeds the bounded search ledger")

def contains (ordinal : UInt32) (mark : TargetMark) :
    Except Fault Bool := do
  l.requireOrdinal ordinal
  pure (l.marked ordinal.toNat mark)

/-- The ledger with some marks more. -/
def withMarks (ordinal : Nat) (marks : List TargetMark) :
    BoundedTargetLedger :=
  { l with marked := fun n m => l.marked n m || (n = ordinal ∧ m ∈ marks) }

def mark (ordinal : UInt32) (marks : List TargetMark) :
    Except Fault BoundedTargetLedger := do
  l.requireOrdinal ordinal
  pure (l.withMarks ordinal.toNat marks)

variable {l : BoundedTargetLedger} {ordinal : UInt32}

variable {m : TargetMark} {marks : List TargetMark}

theorem contains_ok {b : Bool} (h : l.contains ordinal m = .ok b) :
    ordinal.toNat < l.capacity ∧ b = l.marked ordinal.toNat m := by
  obtain ⟨u, hu, hb⟩ := bind_eq_ok h
  cases hb
  exact ⟨Nat.not_le.mp (refuse_ok hu), rfl⟩

theorem mark_ok {l' : BoundedTargetLedger} (h : l.mark ordinal marks = .ok l') :
    ordinal.toNat < l.capacity ∧ l' = l.withMarks ordinal.toNat marks := by
  obtain ⟨u, hu, hb⟩ := bind_eq_ok h
  cases hb
  exact ⟨Nat.not_le.mp (refuse_ok hu), rfl⟩

theorem withMarks_marked {n k : Nat} :
    (l.withMarks k marks).marked n m = true ↔ l.marked n m = true ∨ n = k ∧ m ∈ marks := by
  unfold withMarks
  rw [Bool.or_eq_true, decide_eq_true_iff]

theorem marked_mono {n k : Nat} (h : l.marked n m = true) :
    (l.withMarks k marks).marked n m = true :=
  withMarks_marked.mpr (.inl h)

end BoundedTargetLedger

end Ninfer.Planner
