/-
  What a materialization costs: the records and the folds of `materialization_planner.h`, with the
  parts of `runtime/contract/types.h` that they read.

  The prices of a cost model are arbitrary functions. `std::tuple` compares lexicographically; here
  a tuple is the list of its components, and lists of one length compare the same way. Retention
  classes, digests and the diagnostics are left out: no decision reads them.
-/
import Ninfer.Planner.Targets

namespace Ninfer.Planner

open Lib
open Resources (CheckpointRef MaterializationPhysicalStatus PrefillWork PrivateSourceMode)

namespace Materialization

/-! ## Work -/

abbrev TransferWork := Resources.TransferWork UInt64 UInt32

/-- One entry for each direction of a transfer. -/
abbrev CoalescedTransferWork := Fin 3 → TransferWork

structure MaterializationMachineWork where
  pressureTransfers : CoalescedTransferWork := fun _ => {}
  candidateTransfers : CoalescedTransferWork := fun _ => {}
  optimisticCandidateTransfers : CoalescedTransferWork := fun _ => {}
  remainingPrefillWork : PrefillWork UInt64 := {}
  reusedPromptTokens : UInt32 := 0

structure CheckpointRecoveryAlternativeWork where
  transfers : CoalescedTransferWork := fun _ => {}
  prefill : PrefillWork UInt64 := {}

/-- The exact assessment of a pressure target. -/
abbrev Assessment :=
  PressureTargetAssessment MaterializationMachineWork CheckpointRecoveryAlternativeWork

/-- The prices of the cost model that this planner asks for. -/
structure MachineCost extends
    ContextMachineCostModel MaterializationMachineWork CheckpointRecoveryAlternativeWork where
  transferNs : Fin 3 → TransferWork → UInt64

/-! ## Candidates, policies and guidance -/

structure IdentityMaterializationAssessment where
  physicalStatus : MaterializationPhysicalStatus := .structuralInvalid
  sourceMode : PrivateSourceMode := .consumeToActive
  machineWork : MaterializationMachineWork := {}
  pressureMayChangeMachineWork : Bool := false
  expandable : Bool := false

/-- A candidate, with the identity assessment that its `AdmissionCandidate` holds. -/
structure Candidate where
  id : PlanningCandidateId
  stableOrdinal : UInt32 := 0
  currentSessionBinding : Bool := false
  identity : IdentityMaterializationAssessment

structure MaterializationCheckpointPolicy where
  owner : PlanningOwnerId
  checkpoint : CheckpointRef
  selectedHitCount : UInt64 := 0
  lastHitEpoch : UInt64 := 0
  demandMask : UInt32 := 0
  rebuildNs : UInt64 := 0
  baselineRecoveryNs : UInt64 := 0

structure MaterializationOwnerPolicy where
  owner : PlanningOwnerId
  selectedHitCount : UInt64 := 0
  lastHitEpoch : UInt64 := 0
  privateRetentionWeight : UInt32 := 0
  explicitSharedCredit : Bool := false

/-- Of the owner handles, which only the Program reads, the inputs keep their number. -/
structure PressureInputs where
  privateOwners : Nat := 0
  privateOwnerIds : List PlanningOwnerId := []
  sharedOwners : Nat := 0
  sharedOwnerIds : List PlanningOwnerId := []
  ownerPolicy : List MaterializationOwnerPolicy := []
  checkpointPolicy : List MaterializationCheckpointPolicy := []

structure PressurePhysicalGuidance where
  unsatisfiedConstraints : UInt32 := 0
  estimatedRemainingSteps : UInt32 := 0
  normalizedResidualQ20 : UInt64 := 0
  requiresExactFeedback : Bool := false

structure PressureOwnerRecoveryGuidance where
  owner : PlanningOwnerId
  additionalRestore : CoalescedTransferWork := fun _ => {}

structure PressureTargetGuidance where
  physical : PressurePhysicalGuidance := {}
  estimatedMachineWork : MaterializationMachineWork := {}
  ownerOutcomes : List PressureOwnerOutcome := []
  candidate : PlanningCandidateId
  stableTargetOrdinal : UInt32 := 0
  degradationUnits : UInt32 := 0
  droppedCheckpoints : UInt32 := 0
  sourceMode : PrivateSourceMode := .consumeToActive
  checkpointChanges : List PressureCheckpointOutcome := []
  recoveryEstimates : List PressureOwnerRecoveryGuidance := []
  recoveryEstimateComplete : Bool := false

/-! ## Costs -/

/-- `planning_saturating_add`. -/
def planningSaturatingAdd (value add : UInt64) : UInt64 :=
  if add > 18446744073709551615 - value then 18446744073709551615 else value + add

structure FoldedCost where
  nowNs : UInt64 := 0
  futureLossNs : UInt64 := 0
  totalNs : UInt64 := 0
  lowerBoundNs : UInt64 := 0
  affectedSelectedHits : UInt64 := 0
  newestAffectedHitEpoch : UInt64 := 0
  ownerEvictions : UInt32 := 0
  checkpointDrops : UInt32 := 0
  copyOperations : UInt32 := 0
  transferredBytes : UInt64 := 0
  remainingTextPrefill : UInt64 := 0
  remainingVisionPrefill : UInt64 := 0
  reusedPromptTokens : UInt32 := 0
  currentSessionBinding : Bool := false
  candidateOrdinal : UInt32 := 0
  targetOrdinal : UInt32 := 0

namespace FoldedCost

def key (c : FoldedCost) : List Nat :=
  [c.totalNs.toNat, c.affectedSelectedHits.toNat, c.newestAffectedHitEpoch.toNat,
    c.ownerEvictions.toNat, c.checkpointDrops.toNat, c.copyOperations.toNat,
    c.transferredBytes.toNat, c.remainingTextPrefill.toNat, c.remainingVisionPrefill.toNat,
    (4294967295 - c.reusedPromptTokens).toNat, if c.currentSessionBinding then 0 else 1,
    c.candidateOrdinal.toNat, c.targetOrdinal.toNat]

def less (c other : FoldedCost) : Bool := decide (c.key < other.key)

theorem less_iff {c other : FoldedCost} : c.less other = true ↔ c.key < other.key :=
  decide_eq_true_iff

end FoldedCost

structure GuidanceCost where
  estimatedTotalNs : UInt64 := 0
  recoveryComplete : Bool := false
  requiresExactFeedback : Bool := false
  logicalReady : Bool := false
  estimatedRemainingSteps : UInt32 := 0
  unsatisfiedConstraints : UInt32 := 0
  normalizedResidualQ20 : UInt64 := 0
  affectedSelectedHits : UInt64 := 0
  newestAffectedHitEpoch : UInt64 := 0
  retentionWeight : UInt64 := 0
  explicitSharedLosses : UInt32 := 0
  ownerEvictions : UInt32 := 0
  checkpointDrops : UInt32 := 0
  degradationUnits : UInt32 := 0
  estimatedImmediateNs : UInt64 := 0
  copyOperations : UInt32 := 0
  transferredBytes : UInt64 := 0
  remainingPrefill : UInt64 := 0
  remainingVisionPrefill : UInt64 := 0
  reusedPromptTokens : UInt32 := 0
  currentSessionBinding : Bool := false
  candidateOrdinal : UInt32 := 0
  stableTargetOrdinal : UInt32 := 0

namespace GuidanceCost

def key (c : GuidanceCost) : List Nat :=
  [c.estimatedTotalNs.toNat, c.affectedSelectedHits.toNat, c.explicitSharedLosses.toNat,
    c.ownerEvictions.toNat, c.checkpointDrops.toNat, c.newestAffectedHitEpoch.toNat,
    c.estimatedRemainingSteps.toNat, c.unsatisfiedConstraints.toNat,
    c.normalizedResidualQ20.toNat, c.retentionWeight.toNat, c.degradationUnits.toNat,
    c.estimatedImmediateNs.toNat, c.copyOperations.toNat, c.transferredBytes.toNat,
    c.remainingPrefill.toNat, c.remainingVisionPrefill.toNat,
    (4294967295 - c.reusedPromptTokens).toNat, if c.currentSessionBinding then 0 else 1,
    c.candidateOrdinal.toNat, c.stableTargetOrdinal.toNat]

end GuidanceCost

/-- The 128-bit product as its high and its low half. -/
def multiplyWide (a b : UInt64) : UInt64 × UInt64 :=
  let mask : UInt64 := 0xFFFFFFFF
  let aLo := a &&& mask
  let aHi := a >>> 32
  let bLo := b &&& mask
  let bHi := b >>> 32
  let ll := aLo * bLo
  let lh := aLo * bHi
  let hl := aHi * bLo
  let hh := aHi * bHi
  let mid := (ll >>> 32) + (lh &&& mask) + (hl &&& mask)
  let lo := (mid <<< 32) ||| (ll &&& mask)
  let hi := hh + (lh >>> 32) + (hl >>> 32) + (mid >>> 32)
  (hi, lo)

def constructionOptionBetter (parent : GuidanceCost) (best : Option GuidanceCost)
    (cost : GuidanceCost) (feasibilityFirst restore : Bool) : Bool :=
  match best with
  | none => true
  | some prior =>
    let complete := decide (cost.unsatisfiedConstraints = 0)
    let priorComplete := decide (prior.unsatisfiedConstraints = 0)
    if restore || (complete && priorComplete) then decide (cost.key < prior.key)
    else if feasibilityFirst then
      if complete ≠ priorComplete then complete
      else
        decide (cost.estimatedRemainingSteps.toNat :: cost.normalizedResidualQ20.toNat :: cost.key <
          prior.estimatedRemainingSteps.toNat :: prior.normalizedResidualQ20.toNat :: prior.key)
    else
      let relief (item : GuidanceCost) := monus parent.normalizedResidualQ20
        item.normalizedResidualQ20
      let a := relief cost
      let b := relief prior
      if decide (a ≠ 0) ≠ decide (b ≠ 0) then decide (a ≠ 0)
      else
        let delta (item : GuidanceCost) := monus item.estimatedTotalNs parent.estimatedTotalNs
        let left := multiplyWide (delta cost) b
        let right := multiplyWide (delta prior) a
        if (a ≠ 0 ∧ b ≠ 0) ∧ left ≠ right then
          decide ([left.1.toNat, left.2.toNat] < [right.1.toNat, right.2.toNat])
        else decide (cost.key < prior.key)

/-! ## Folding -/

variable (policies : List MaterializationOwnerPolicy)

def ownerPolicyFor (owner : PlanningOwnerId) :
    Option MaterializationOwnerPolicy :=
  policies.find? fun policy => policy.owner = owner

/-- What the portfolio value reads of an owner policy. -/
def MaterializationOwnerPolicy.portfolioPolicy (policy : MaterializationOwnerPolicy) :
    ContextPortfolioOwnerPolicy :=
  { owner := policy.owner
    privateRetentionWeight := policy.privateRetentionWeight
    explicitSharedCredit := policy.explicitSharedCredit }

def MaterializationCheckpointPolicy.portfolioValue (policy : MaterializationCheckpointPolicy)
    (targetRecoveryNs : UInt64) : ContextPortfolioCheckpointValue :=
  { owner := policy.owner
    demandMask := policy.demandMask
    rebuildNs := policy.rebuildNs
    baselineRecoveryNs := policy.baselineRecoveryNs
    targetRecoveryNs }

variable (machineCost : MachineCost)

def foldIdentity (candidate : Candidate) : FoldedCost :=
  let work := candidate.identity.machineWork
  let priced := machineCost.price work
  { nowNs := priced.immediateNs
    totalNs := priced.immediateNs
    lowerBoundNs := priced.optimisticRequestNs
    copyOperations := priced.copyOperations
    transferredBytes := priced.transferredBytes
    remainingTextPrefill := work.remainingPrefillWork.tokens
    remainingVisionPrefill := work.remainingPrefillWork.visionPatches
    reusedPromptTokens := work.reusedPromptTokens
    currentSessionBinding := candidate.currentSessionBinding
    candidateOrdinal := candidate.stableOrdinal
    targetOrdinal := candidate.stableOrdinal }

/-- One turn of the loop over the owner outcomes of a guidance. -/
def guidedOwner (cost : GuidanceCost)
    (outcome : PressureOwnerOutcome) : Except Fault GuidanceCost :=
  match ownerPolicyFor policies outcome.owner with
  | none => .error (.logicError "pressure guidance references an unknown logical owner")
  | some policy =>
    let cost := if outcome.disposition = .evicted then
        { cost with ownerEvictions := cost.ownerEvictions + 1 }
      else cost
    if outcome.disposition = .evicted ∨ outcome.droppedCheckpoints ≠ 0 ∨
        outcome.degradationUnits ≠ 0 then
      .ok { cost with
          affectedSelectedHits :=
            planningSaturatingAdd cost.affectedSelectedHits policy.selectedHitCount
          newestAffectedHitEpoch := max cost.newestAffectedHitEpoch policy.lastHitEpoch
          retentionWeight :=
            planningSaturatingAdd cost.retentionWeight policy.privateRetentionWeight.toUInt64
          explicitSharedLosses :=
            if policy.explicitSharedCredit then cost.explicitSharedLosses + 1
            else cost.explicitSharedLosses }
    else .ok cost

/-- The recovery time of a checkpoint that a guidance lets expect. -/
def guidedRecovery (guidance : PressureTargetGuidance)
    (policy : MaterializationCheckpointPolicy) : UInt64 :=
  let outcome := guidance.ownerOutcomes.find? fun item => item.owner = policy.owner
  let change := guidance.checkpointChanges.find? fun item =>
    item.owner = policy.owner ∧ item.checkpoint = policy.checkpoint
  if outcome.any (fun item => item.disposition = .evicted) ||
      change.any (fun item => !item.survives)
  then policy.rebuildNs
  else
    match guidance.recoveryEstimates.find? fun item => item.owner = policy.owner with
    | none => policy.baselineRecoveryNs
    | some estimate =>
      (List.finRange 3).foldl (fun recovery direction =>
          planningSaturatingAdd recovery
            (machineCost.transferNs direction (estimate.additionalRestore direction)))
        policy.baselineRecoveryNs

def foldGuidance (pressure : PressureInputs) (candidate : Candidate)
    (guidance : PressureTargetGuidance) : Except Fault GuidanceCost := do
  let work := guidance.estimatedMachineWork
  let priced := machineCost.price work
  let cost ← guidance.ownerOutcomes.foldlM (guidedOwner pressure.ownerPolicy)
    { estimatedRemainingSteps := guidance.physical.estimatedRemainingSteps
      unsatisfiedConstraints := guidance.physical.unsatisfiedConstraints
      normalizedResidualQ20 := guidance.physical.normalizedResidualQ20
      requiresExactFeedback := guidance.physical.requiresExactFeedback
      checkpointDrops := guidance.droppedCheckpoints
      degradationUnits := guidance.degradationUnits
      estimatedImmediateNs := priced.immediateNs
      copyOperations := priced.copyOperations
      transferredBytes := priced.transferredBytes
      remainingPrefill := work.remainingPrefillWork.tokens
      remainingVisionPrefill := work.remainingPrefillWork.visionPatches
      reusedPromptTokens := work.reusedPromptTokens
      currentSessionBinding := candidate.currentSessionBinding
      candidateOrdinal := candidate.stableOrdinal
      stableTargetOrdinal := guidance.stableTargetOrdinal }
  let value ← ContextPortfolioValue.fold (pressure.ownerPolicy.map (·.portfolioPolicy))
    (pressure.checkpointPolicy.map fun policy =>
      policy.portfolioValue (guidedRecovery machineCost guidance policy))
  pure { cost with
      estimatedTotalNs :=
        planningSaturatingAdd (planningSaturatingAdd priced.immediateNs
            (monus value.baselinePublicValue value.targetPublicValue))
          value.privateTransitionLoss
      recoveryComplete := guidance.recoveryEstimateComplete && !value.saturated }

structure CombinedImpact where
  owner : PlanningOwnerId
  checkpoint : CheckpointRef
  targetNs : UInt64

/-- The loop over the owner outcomes of an assessment, which counts the evictions. -/
def countEvictions (evictions : UInt32)
    (outcome : PressureOwnerOutcome) : Except Fault UInt32 := do
  refuse (ownerPolicyFor policies outcome.owner = none)
    (.logicError "pressure target references an unknown logical owner")
  pure (if outcome.disposition = .evicted then evictions + 1 else evictions)

/-- One turn of the loop over the impacts. -/
def combineImpact (scratch : List CombinedImpact)
    (impact : PressureCheckpointRecoveryImpact CheckpointRecoveryAlternativeWork) :
    Except Fault (List CombinedImpact) := do
  refuse (scratch.any fun item => item.owner = impact.owner ∧ item.checkpoint = impact.checkpoint)
    (.logicError "pressure recovery impact is duplicated")
  refuse (impact.targetRecoveryWork.length = 0)
    (.logicError "pressure recovery impact has no supported recipe")
  pure (scratch ++
    [{ owner := impact.owner
       checkpoint := impact.checkpoint
       targetNs := machineCost.recoveryNs impact.targetRecoveryWork }])

/-- The recovery time of a checkpoint after the impacts. -/
def targetRecovery (impacts : List CombinedImpact) (policy : MaterializationCheckpointPolicy) :
    UInt64 :=
  match impacts.find? fun value =>
      value.owner = policy.owner ∧ value.checkpoint = policy.checkpoint with
  | none => policy.baselineRecoveryNs
  | some impact => impact.targetNs

/-- The hits and the newest epoch of the checkpoints that recover later than before. -/
def affected (impacts : List CombinedImpact) (sum : UInt64 × UInt64)
    (policy : MaterializationCheckpointPolicy) : UInt64 × UInt64 :=
  if targetRecovery impacts policy > policy.baselineRecoveryNs then
    (planningSaturatingAdd sum.1 policy.selectedHitCount, max sum.2 policy.lastHitEpoch)
  else sum

def foldAssessment (pressure : PressureInputs) (candidate : Candidate)
    (assessment : Assessment) : Except Fault FoldedCost := do
  let work := assessment.machineWork
  let priced := machineCost.price work
  let evictions ← assessment.ownerOutcomes.foldlM (countEvictions pressure.ownerPolicy) 0
  let impacts ← assessment.checkpointImpacts.foldlM (combineImpact machineCost) []
  refuse (pressure.checkpointPolicy.any fun policy =>
      (ownerPolicyFor pressure.ownerPolicy policy.owner).isNone)
    (.logicError "checkpoint policy has no portfolio owner")
  let degraded := pressure.checkpointPolicy.any fun policy =>
    targetRecovery impacts policy > policy.baselineRecoveryNs
  let hits := pressure.checkpointPolicy.foldl (affected impacts) (0, 0)
  let portfolio ← ContextPortfolioValue.fold (pressure.ownerPolicy.map (·.portfolioPolicy))
    (pressure.checkpointPolicy.map fun policy =>
      policy.portfolioValue (targetRecovery impacts policy))
  let futureLoss :=
    if portfolio.saturated && degraded then 18446744073709551615
    else
      planningSaturatingAdd (monus portfolio.baselinePublicValue portfolio.targetPublicValue)
        portfolio.privateTransitionLoss
  pure
    { nowNs := priced.immediateNs
      futureLossNs := futureLoss
      totalNs := planningSaturatingAdd priced.immediateNs futureLoss
      lowerBoundNs := planningSaturatingAdd priced.optimisticRequestNs futureLoss
      affectedSelectedHits := hits.1
      newestAffectedHitEpoch := hits.2
      ownerEvictions := evictions
      checkpointDrops := assessment.droppedCheckpoints
      copyOperations := priced.copyOperations
      transferredBytes := priced.transferredBytes
      remainingTextPrefill := work.remainingPrefillWork.tokens
      remainingVisionPrefill := work.remainingPrefillWork.visionPatches
      reusedPromptTokens := work.reusedPromptTokens
      currentSessionBinding := candidate.currentSessionBinding
      candidateOrdinal := candidate.stableOrdinal
      targetOrdinal := assessment.stableTargetOrdinal }

end Materialization

end Ninfer.Planner
