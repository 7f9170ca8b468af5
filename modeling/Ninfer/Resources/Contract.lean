/-
  What the logical resource manager and a Program tell each other.

  The types of `runtime/contract/types.h` and the summaries of a target's `runtime.h`, as far as
  `ResourceManager` reads them, with the checks it makes on a summary before it believes it.

  Handles of sequences, continuations and shared prefixes are opaque: a number stands for the
  capability, and nothing here looks inside. Work, transfer and timing figures that only feed a
  cost or a statistic are left out, except the ones a check reads.
-/
import Ninfer.Lib.Eff

namespace Ninfer.Resources

open Lib

/-! ## Enumerations -/

inductive LogicalLaneState where
  | free
  | materializing
  | active
  | terminalPending
  deriving DecidableEq

inductive CheckpointKind where
  | sessionEndpoint
  | turnClosure
  | responseReplay
  | sharedStablePrefix
  | longAnchor
  deriving DecidableEq

inductive CheckpointScope where
  | privateScope
  | sharedScope
  deriving DecidableEq

inductive ReplicaResidency where
  | deviceOnly
  | hostOnly
  | both
  deriving DecidableEq

inductive RetentionClass where
  | sharedStable
  | liveSession
  | recentPrivate
  | disposable
  deriving DecidableEq

inductive LogicalOwnerKind where
  | privateContinuation
  | sharedPrefix
  deriving DecidableEq

inductive PrivateSourceMode where
  | retain
  | consumeToActive
  deriving DecidableEq

inductive VictimDisposition where
  | retained
  | evicted
  deriving DecidableEq

theorem VictimDisposition.retained_of_ne {d : VictimDisposition} (h : d ≠ .evicted) :
    d = .retained := by
  cases d with
  | retained => rfl
  | evicted => exact absurd rfl h

inductive FinishDisposition where
  | catalogued
  | released
  deriving DecidableEq

inductive ConsumeStatus where
  | consumed
  | invariantMismatch
  deriving DecidableEq

inductive CommitDisposition where
  | active
  | finishable
  | cancelledReleased

inductive ContextTransactionStatus where
  | inProgress
  | published
  | aborted
  deriving DecidableEq

inductive ContextTransactionReserveStatus where
  | reserved
  | aborted
  deriving DecidableEq

/-- The bits of `SharedCandidateEvidence`. -/
structure SharedCandidateEvidence where
  explicitBoundary : Bool := false
  requestedAutomatic : Bool := false
  defaultAutomatic : Bool := false
  engineStructural : Bool := false
  engineObserved : Bool := false
  deriving DecidableEq

/-! ## Owners and checkpoints -/

structure LogicalOwnerKey where
  kind : LogicalOwnerKind
  id : UInt64
  deriving DecidableEq

structure CatalogCapability where
  owner : LogicalOwnerKey
  slot : Nat
  generation : UInt64
  deriving DecidableEq

structure CheckpointRef where
  kind : CheckpointKind := .sessionEndpoint
  frontier : Nat := 0
  ordinal : Nat := 0
  deriving DecidableEq

structure PrefixShortlistKey where
  digests : UInt64 × UInt64 := (0, 0)
  frontier : Nat := 0
  identityTag : Nat := 0
  deriving DecidableEq

structure TargetKVRequirement where
  mainFrontier : Nat := 0
  backendFrontier : Nat := 0
  mainPages : Nat := 0
  backendPages : Nat := 0
  deriving DecidableEq

/-- The counts are words where a planner adds to them. -/
structure PrefillWork (Word : Type := Nat) [OfNat Word 0] where
  chunks : Word := 0
  tokens : Word := 0
  attentionPairs : Word := 0
  visionItems : Word := 0
  visionPatches : Word := 0
  deriving DecidableEq

inductive ContextResourceClass where
  | state
  | mainKv
  | backendKv
  deriving DecidableEq

inductive ContextTransferDirection where
  | deviceToHost
  | hostToDevice
  | deviceToDevice
  deriving DecidableEq

structure TransferWork (Bytes : Type := Nat) (Count : Type := Nat) [OfNat Bytes 0]
    [OfNat Count 0] where
  payloadBytes : Bytes := 0
  copyOperations : Count := 0

/-- `Work` is `Unit` where the work figures are left out. -/
structure ContextTransferRequirement (Work : Type := TransferWork) where
  resource : ContextResourceClass := .state
  direction : ContextTransferDirection := .deviceToHost
  pageCount : Nat := 0
  work : Work
  deriving DecidableEq

structure CheckpointSummary where
  ref : CheckpointRef := {}
  scope : CheckpointScope := .privateScope
  shortlistKey : PrefixShortlistKey := {}
  stateResidency : ReplicaResidency := .deviceOnly
  requiredKv : TargetKVRequirement := {}
  rebuildWork : PrefillWork := {}
  deriving DecidableEq

structure ContinuationSummary where
  endpoint : Option CheckpointSummary := none
  rewrite : Option CheckpointSummary := none
  longAnchors : List CheckpointSummary := []
  activeReferences : Nat := 0

structure SharedPrefixSummary where
  checkpoint : CheckpointSummary := {}
  activeReferences : Nat := 0
  deriving DecidableEq

variable (s : ContinuationSummary)

/-- The checkpoints of a continuation in the order the code visits them. -/
def ContinuationSummary.checkpoints : List CheckpointSummary :=
  s.endpoint.toList ++ s.rewrite.toList ++ s.longAnchors

/-! ## Checks on summaries -/

def validCheckpointSummary (c : CheckpointSummary) (scope : CheckpointScope) : Bool :=
  c.ref.frontier ≠ 0 ∧ c.ref.ordinal = 0 ∧ c.scope = scope ∧
    c.shortlistKey.frontier = c.ref.frontier ∧ c.requiredKv.mainPages ≠ 0 ∧
    c.rebuildWork.tokens ≠ 0

/-- One row of the loop over the long anchors. -/
def validLongAnchor (maxLongAnchors : Nat) (a : CheckpointSummary) : Bool :=
  a.ref.kind = .longAnchor ∧ a.ref.ordinal ≠ 0 ∧ a.ref.ordinal ≤ maxLongAnchors ∧
    a.ref.frontier ≠ 0 ∧ a.scope = .privateScope ∧ a.shortlistKey.frontier = a.ref.frontier ∧
    a.requiredKv.mainPages ≠ 0 ∧ a.rebuildWork.tokens ≠ 0

def validContinuationSummary (maxLongAnchors : Nat) (s : ContinuationSummary) : Bool :=
  s.checkpoints ≠ [] ∧ s.longAnchors.length ≤ maxLongAnchors ∧
    s.endpoint.all
      (fun c => c.ref.kind = .sessionEndpoint ∧ validCheckpointSummary c .privateScope) ∧
    s.rewrite.all (fun c => c.ref.kind ≠ .sessionEndpoint ∧ c.ref.kind ≠ .sharedStablePrefix ∧
      c.ref.kind ≠ .longAnchor ∧ validCheckpointSummary c .privateScope) ∧
    s.longAnchors.all (validLongAnchor maxLongAnchors) ∧
    (s.longAnchors.map (·.ref.ordinal)).Nodup

def validSharedPrefixSummary (s : SharedPrefixSummary) : Bool :=
  s.checkpoint.ref.kind = .sharedStablePrefix ∧ validCheckpointSummary s.checkpoint .sharedScope

theorem length_longAnchors_of_valid {m : Nat} {s : ContinuationSummary}
    (h : validContinuationSummary m s) : s.longAnchors.length ≤ m := by
  simp only [validContinuationSummary, decide_eq_true_eq] at h
  exact h.2.1

theorem length_checkpoints_le :
    s.checkpoints.length ≤ s.longAnchors.length + 2 := by
  unfold ContinuationSummary.checkpoints
  cases s.endpoint <;> cases s.rewrite <;> simp

def continuationContainsCheckpoint (r : CheckpointRef) : Bool :=
  s.checkpoints.any fun c => c.ref = r

def continuationCheckpointCount : Nat := s.checkpoints.length

/-- Whether `after` is what dropping `expectedDrops` from `before` leaves. -/
def continuationMatchesClaim (before : ContinuationSummary) (after : Option ContinuationSummary)
    (disposition : VictimDisposition) (expectedDrops : List CheckpointRef) : Bool :=
  match disposition, after with
  | .evicted, after => after = none ∧ expectedDrops.length = continuationCheckpointCount before
  | .retained, none => false
  | .retained, some after =>
    continuationCheckpointCount after + expectedDrops.length = continuationCheckpointCount before ∧
      before.checkpoints.all (fun c =>
        continuationContainsCheckpoint after c.ref ≠ expectedDrops.contains c.ref) ∧
      expectedDrops.all (continuationContainsCheckpoint before)

def droppedCheckpointCount (before : ContinuationSummary) (after : Option ContinuationSummary)
    (disposition : VictimDisposition) : Nat :=
  match disposition, after with
  | .evicted, _ => continuationCheckpointCount before
  | .retained, none => 0
  | .retained, some after =>
    before.checkpoints.countP fun c => ¬ continuationContainsCheckpoint after c.ref

/-! ## Pressure outcomes and owner claims -/

inductive MaterializationPhysicalStatus where
  | feasible
  | infeasible
  | structuralInvalid
  deriving DecidableEq

structure PressureOwnerOutcome (Id : Type := Nat) (Count : Type := Nat) [OfNat Count 0] where
  owner : Id
  disposition : VictimDisposition := .retained
  degradationUnits : Count := 0
  droppedCheckpoints : Count := 0
  deriving DecidableEq

structure PressureCheckpointOutcome (Id : Type := Nat) where
  owner : Id
  checkpoint : CheckpointRef
  survives : Bool := true
  deriving DecidableEq

/-- What the manager and a planner both read of a `PressureTargetAssessment`. -/
structure TargetAssessment (Candidate Outcome Impact : Type) where
  physicalStatus : MaterializationPhysicalStatus := .structuralInvalid
  sourceMode : PrivateSourceMode := .consumeToActive
  ownerOutcomes : List Outcome := []
  checkpointImpacts : List Impact := []
  candidate : Candidate

structure OwnerClaim where
  planningId : Nat
  capability : CatalogCapability
  disposition : VictimDisposition := .retained
  droppedCheckpoints : List CheckpointRef := []
  deriving DecidableEq

structure PlanningOwnerRecord where
  id : Nat
  capability : CatalogCapability
  deriving DecidableEq

/-- The checkpoints an outcome drops. It throws unless the rows of the owner name each of its
    `checkpointCount` checkpoints once and drop as many as the outcome says, all of them exactly
    for an eviction. -/
def selectedCheckpointDrops {σ : Type} (owner : Nat) (disposition : VictimDisposition)
    (expectedDropCount : Nat) (outcomes : List PressureCheckpointOutcome) (checkpointCount : Nat)
    (containsCheckpoint : CheckpointRef → Bool) : Eff σ (List CheckpointRef) := do
  let rows := outcomes.filter (·.owner = owner)
  let dropped := (rows.filter fun o => ¬ o.survives).map (·.checkpoint)
  Eff.when (¬ (rows.all (fun o => containsCheckpoint o.checkpoint) ∧
      (rows.map (·.checkpoint)).Nodup))
    (Eff.raise (.logicError "selected checkpoint outcome is unknown or duplicated"))
  Eff.when (rows.length ≠ checkpointCount ∨ dropped.length ≠ expectedDropCount ∨
      ¬ (disposition = .evicted ↔ dropped.length = checkpointCount))
    (Eff.raise (.logicError "selected checkpoint outcome is incomplete"))
  pure dropped

/-! ## Results of a Program -/

/-- What a Program reports of a victim with either kind of summary. -/
structure VictimResult (Summary : Type) where
  owner : Nat
  disposition : VictimDisposition := .retained
  pressureCommitted : Bool := false
  finalSummary : Option Summary := none

abbrev MaterializationVictimResult := VictimResult ContinuationSummary

abbrev MaterializationSharedVictimResult := VictimResult SharedPrefixSummary

structure MaterializationSourceResult where
  mode : PrivateSourceMode := .retain
  finalSummary : Option ContinuationSummary := none

structure MaterializationSharedSourceResult where
  finalSummary : Option SharedPrefixSummary := none

structure MaterializationResult where
  status : ContextTransactionStatus := .aborted
  /-- The sequence of the `StartResult`. -/
  published : Option Nat := none
  source : Option MaterializationSourceResult := none
  sharedSource : Option MaterializationSharedSourceResult := none
  victims : List MaterializationVictimResult := []
  sharedVictims : List MaterializationSharedVictimResult := []

structure SharedPrefixPublication where
  handle : Nat
  summary : SharedPrefixSummary

structure ActiveCaptureResult where
  status : ContextTransactionStatus := .aborted
  capacityPreparationCommitted : Bool := false
  activeSummary : ContinuationSummary := {}
  shared : Option SharedPrefixPublication := none
  victims : List MaterializationVictimResult := []
  sharedVictims : List MaterializationSharedVictimResult := []

inductive ContextTransactionProgress where
  | inProgress
  | materialization (result : MaterializationResult)
  | activeCapture (result : ActiveCaptureResult)

structure FinishResult where
  status : ConsumeStatus := .invariantMismatch
  disposition : FinishDisposition := .released
  summary : ContinuationSummary := {}
  continuation : Option Nat := none

/-- The rows of a `CommitResult` by their dispositions. -/
structure CommitResult where
  rows : List CommitDisposition

structure DiscardResult where
  status : ConsumeStatus
  rowCount : Nat

end Ninfer.Resources
