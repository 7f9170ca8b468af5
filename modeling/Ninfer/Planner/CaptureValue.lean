/-
  What a shared capture is worth: the input and `fold_target` of `shared_capture_planner.h`.

  `Gains` is the same in exact numbers: a target's public value exceeds the baseline's, the losses
  of private owners and the work for everyone who waits. The source's 64-bit sums find a gain
  exactly where there is one and all numbers fit (`gains_iff`), so a saturated sum never looks
  profitable.
-/
import Ninfer.Planner.Targets

namespace Ninfer.Planner

open Lib Saturating
open Resources (CheckpointRef SharedCandidateEvidence)

namespace SharedCapture

variable {τ H W R P : Type}

/-! ## The input -/

structure OwnerPolicy where
  owner : PlanningOwnerId
  privateRetentionWeight : UInt32 := 0
  explicitSharedCredit : Bool := false

structure CheckpointPolicy where
  owner : PlanningOwnerId
  checkpoint : CheckpointRef
  demandMask : UInt32 := 0
  rebuildNs : UInt64 := 0
  baselineRecoveryNs : UInt64 := 0

structure CaptureAssessment (R : Type) where
  publishesShared : Bool
  sharedEvidence : SharedCandidateEvidence := {}
  projectedRecoveryWork : List R := []

def kTargetBudget : UInt32 := 4096

/-- Of the owner handles, which only the Program reads, the input keeps their number. -/
structure Input (R : Type) where
  capture : Option (CaptureAssessment R) := none
  privateOwners : Nat := 0
  privateOwnerIds : List PlanningOwnerId := []
  sharedOwners : Nat := 0
  sharedOwnerIds : List PlanningOwnerId := []
  ownerPolicies : List OwnerPolicy := []
  checkpointPolicies : List CheckpointPolicy := []
  directSharedVictim : Option PlanningOwnerId := none
  candidateDemandMask : UInt32 := 0
  candidateRebuildNs : UInt64 := 0
  privateBaselineImmediateNs : UInt64 := 0
  blockedRunnableRequests : UInt32 := 0
  stableScenarioOrdinal : UInt32 := 0
  targetBudget : UInt32 := kTargetBudget

variable (input : Input R)

/-- Returns what `*input.capture` is from there on. -/
def validate : Except Fault (CaptureAssessment R) :=
  match input.capture with
  | none => .error (.invalidArgument "shared capture planning input is malformed")
  | some capture =>
    if capture.publishesShared = false ∨ input.targetBudget = 0 ∨
        input.targetBudget > kTargetBudget ∨
        input.privateOwners ≠ input.privateOwnerIds.length ∨
        input.sharedOwners ≠ input.sharedOwnerIds.length then
      .error (.invalidArgument "shared capture planning input is malformed")
    else .ok capture

/-! ## The value of a target -/

structure CombinedImpact where
  owner : PlanningOwnerId
  checkpoint : CheckpointRef
  targetNs : UInt64

structure TransitionValue where
  baselinePublic : UInt64 := 0
  targetPublic : UInt64 := 0
  privateLoss : UInt64 := 0
  immediate : UInt64 := 0
  gain : UInt64 := 0
  positive : Bool := false
  saturated : Bool := false

def checkpointPolicyFor (policies : List CheckpointPolicy) (owner : PlanningOwnerId)
    (checkpoint : CheckpointRef) : Option CheckpointPolicy :=
  policies.find? fun policy => policy.owner = owner ∧ policy.checkpoint = checkpoint

def combinedImpact (cost : ContextMachineCostModel W R)
    (impact : PressureCheckpointRecoveryImpact R) : CombinedImpact :=
  { owner := impact.owner
    checkpoint := impact.checkpoint
    targetNs := cost.recoveryNs impact.targetRecoveryWork }

/-- The loop over the impacts. -/
def combineImpacts (cost : ContextMachineCostModel W R) (policies : List CheckpointPolicy) :
    List CombinedImpact → List (PressureCheckpointRecoveryImpact R) →
    Except Fault (List CombinedImpact)
  | scratch, [] => .ok scratch
  | scratch, impact :: impacts => do
    refuse (checkpointPolicyFor policies impact.owner impact.checkpoint = none)
      (.logicError "capture pressure impact has no portfolio checkpoint")
    refuse (scratch.any fun value =>
        value.owner = impact.owner ∧ value.checkpoint = impact.checkpoint)
      (.logicError "capture pressure impact is duplicated")
    refuse (impact.targetRecoveryWork.length = 0)
      (.logicError "capture pressure impact has no supported recipe")
    combineImpacts cost policies (scratch ++ [combinedImpact cost impact]) impacts

/-- The loop of `next_candidate_owner`, from `value` on. -/
def nextCandidateOwner : UInt32 → List OwnerPolicy → Except Fault PlanningOwnerId
  | value, [] => .ok { value }
  | value, policy :: policies =>
    if policy.owner.value = 4294967295 then
      .error (.overflowError "capture portfolio owner ID overflow")
    else nextCandidateOwner (max value (policy.owner.value + 1)) policies

/-- The owner IDs of a candidate are above those of the policies. -/
def candidateOwner (policies : List OwnerPolicy) : PlanningOwnerId :=
  { value := policies.foldl (fun value policy => max value (policy.owner.value + 1)) 0 }

def targetRecovery (impacts : List CombinedImpact) (policy : CheckpointPolicy) :
    UInt64 :=
  if input.directSharedVictim = some policy.owner then policy.rebuildNs
  else
    match impacts.find? fun value =>
        value.owner = policy.owner ∧ value.checkpoint = policy.checkpoint with
    | none => policy.baselineRecoveryNs
    | some impact => impact.targetNs

variable (capture : CaptureAssessment R)

/-- The portfolio after the capture, whose owner is `candidate`. -/
def portfolioWith (cost : ContextMachineCostModel W R) (impacts : List CombinedImpact)
    (candidate : PlanningOwnerId) : Portfolio :=
  { owners :=
      (input.ownerPolicies.map fun policy =>
        { owner := policy.owner
          privateRetentionWeight := policy.privateRetentionWeight
          explicitSharedCredit := policy.explicitSharedCredit }) ++
      [{ owner := candidate
         privateRetentionWeight := 0
         explicitSharedCredit := capture.sharedEvidence.explicitBoundary ||
           capture.sharedEvidence.requestedAutomatic }]
    checkpoints :=
      (input.checkpointPolicies.map fun policy =>
        { owner := policy.owner
          demandMask := policy.demandMask
          rebuildNs := policy.rebuildNs
          baselineRecoveryNs := policy.baselineRecoveryNs
          targetRecoveryNs := targetRecovery input impacts policy }) ++
      [{ owner := candidate
         demandMask := input.candidateDemandMask
         rebuildNs := input.candidateRebuildNs
         baselineRecoveryNs := input.candidateRebuildNs
         targetRecoveryNs := cost.recoveryNs capture.projectedRecoveryWork }] }

/-- The threshold of a target, with its `saturated`. -/
def addedThreshold (portfolio : ContextPortfolioValueResult)
    (targetImmediate baselineImmediate : UInt64) : UInt64 × Bool :=
  let saturated := portfolio.saturated || targetImmediate == top || baselineImmediate == top
  let withLoss :=
    add portfolio.baselinePublicValue portfolio.privateTransitionLoss saturated
  add withLoss.1 (monus targetImmediate baselineImmediate) withLoss.2

/-- The end of `fold_target`: a portfolio's value against the work that it takes now. -/
def transitionValue (portfolio : ContextPortfolioValueResult)
    (targetImmediate baselineImmediate : UInt64) : TransitionValue :=
  let threshold := addedThreshold portfolio targetImmediate baselineImmediate
  let positive := !threshold.2 && decide (portfolio.targetPublicValue > threshold.1)
  { baselinePublic := portfolio.baselinePublicValue
    targetPublic := portfolio.targetPublicValue
    privateLoss := portfolio.privateTransitionLoss
    immediate := monus targetImmediate baselineImmediate
    gain := if positive then portfolio.targetPublicValue - threshold.1 else 0
    positive
    saturated := threshold.2 }

def foldTarget (cost : ContextMachineCostModel W R) (assessment : PressureTargetAssessment W R) :
    Except Fault TransitionValue := do
  let impacts ← combineImpacts cost input.checkpointPolicies [] assessment.checkpointImpacts
  let candidate ← nextCandidateOwner 0 input.ownerPolicies
  let portfolio := portfolioWith input capture cost impacts candidate
  let value ← ContextPortfolioValue.fold portfolio.owners portfolio.checkpoints
  let multiplier := input.blockedRunnableRequests.toUInt64 + 1
  pure (transitionValue value (multiply (cost.price assessment.machineWork).immediateNs multiplier)
    (multiply input.privateBaselineImmediateNs multiplier))

/-! ## What a target is worth -/

/-- The portfolio of a target. -/
def portfolio
    (cost : ContextMachineCostModel W R) (assessment : PressureTargetAssessment W R) : Portfolio :=
  portfolioWith input capture cost (assessment.checkpointImpacts.map (combinedImpact cost))
    (candidateOwner input.ownerPolicies)

/-- The requests that wait for the work, this one included. -/
def Input.waiting : Nat := input.blockedRunnableRequests.toNat + 1

/-- What the public value of a target must exceed. -/
def threshold
    (cost : ContextMachineCostModel W R) (assessment : PressureTargetAssessment W R) : Nat :=
  let p := portfolio input capture cost assessment
  p.baselinePublic + p.transitionLoss + input.waiting *
    ((cost.price assessment.machineWork).immediateNs.toNat - input.privateBaselineImmediateNs.toNat)

/-- The target is worth `gain`, in numbers that all fit into 64 bits. -/
structure Gains (input : Input R) (capture : CaptureAssessment R)
    (cost : ContextMachineCostModel W R) (assessment : PressureTargetAssessment W R)
    (gain : Nat) : Prop where
  positive : 0 < gain
  value : (portfolio input capture cost assessment).targetPublic =
    threshold input capture cost assessment + gain
  fits : (portfolio input capture cost assessment).targetPublic ≤ 18446744073709551615
  targetFits : (cost.price assessment.machineWork).immediateNs.toNat * input.waiting <
    18446744073709551615
  baselineFits : input.privateBaselineImmediateNs.toNat * input.waiting < 18446744073709551615

theorem combineImpacts_eq {cost : ContextMachineCostModel W R} {policies : List CheckpointPolicy}
    {scratch impacts : List CombinedImpact} {work : List (PressureCheckpointRecoveryImpact R)}
    (h : combineImpacts cost policies scratch work = .ok impacts) :
    impacts = scratch ++ work.map (combinedImpact cost) := by
  induction work generalizing scratch with
  | nil =>
    cases h
    rw [List.map_nil, List.append_nil]
  | cons impact work ih =>
    obtain ⟨-, -, h⟩ := bind_eq_ok h
    obtain ⟨-, -, h⟩ := bind_eq_ok h
    obtain ⟨-, -, h⟩ := bind_eq_ok h
    rw [ih h, List.append_assoc, List.map_cons]
    rfl

theorem nextCandidateOwner_eq {policies : List OwnerPolicy} {value : UInt32}
    {owner : PlanningOwnerId} (h : nextCandidateOwner value policies = .ok owner) :
    owner.value =
      policies.foldl (fun value policy => max value (policy.owner.value + 1)) value := by
  induction policies generalizing value with
  | nil =>
    cases h
    rfl
  | cons policy policies ih =>
    rw [nextCandidateOwner] at h
    split_ifs at h
    exact ih h

theorem toNat_multiplier :
    (input.blockedRunnableRequests.toUInt64 + 1).toNat = input.waiting := by
  have hlt := input.blockedRunnableRequests.toNat_lt
  rw [UInt64.toNat_add, UInt32.toNat_toUInt64]
  exact Nat.mod_eq_of_lt (by show _ + 1 < _; omega)

theorem clamp_beq_top (n : Nat) : (clamp n == top) = true ↔ 18446744073709551615 ≤ n := by
  rw [beq_iff_eq, ← UInt64.toNat_inj, toNat_clamp, toNat_top]
  omega

/-- Sums of clamped numbers pass the bound exactly where those of the numbers do. -/
theorem clamped_sum_overflows {b t l x y m : Nat} :
    ((((m < b ∨ m < t ∨ m < l) ∨ m ≤ x) ∨ m ≤ y) ∨ m < b + min l m) ∨
        m < b + min l m + (min x m - min y m) ↔
      m < t ∨ m ≤ x ∨ m ≤ y ∨ m < b + l + (x - y) := by
  by_cases hx : m ≤ x
  · exact iff_of_true (.inl (.inl (.inl (.inr hx)))) (.inr (.inl hx))
  by_cases hy : m ≤ y
  · exact iff_of_true (.inl (.inl (.inr hy))) (.inr (.inr (.inl hy)))
  by_cases hl : m < l
  · refine iff_of_true (.inl (.inl (.inl (.inl (.inr (.inr hl)))))) (.inr (.inr (.inr ?_)))
    omega
  · rw [Nat.min_eq_left (Nat.not_lt.mp hl), Nat.min_eq_left (Nat.le_of_not_le hx),
      Nat.min_eq_left (Nat.le_of_not_le hy)]
    omega

/-- Two saturating additions to a clamped number. -/
theorem add_add_clamp {b : Nat} {saturated : Bool} (i j : UInt64)
    (h : 18446744073709551615 < b → saturated = true) :
    add (add (clamp b) i saturated).1 j (add (clamp b) i saturated).2 =
      (clamp (b + i.toNat + j.toNat), (saturated || decide (18446744073709551615 < b + i.toNat)) ||
          decide (18446744073709551615 < b + i.toNat + j.toNat)) := by
  rw [add_clamp b i saturated h]
  exact add_clamp _ _ _ fun h => by rw [decide_eq_true h, Bool.or_true]

theorem addedThreshold_ofExact (b t l : Nat) (target baseline : UInt64) :
    addedThreshold (.ofExact b t l) target baseline =
      (clamp (b + (clamp l).toNat + (monus target baseline).toNat),
        ((ContextPortfolioValueResult.ofExact b t l).saturated || target == top ||
          baseline == top || decide (18446744073709551615 < b + (clamp l).toNat)) ||
          decide (18446744073709551615 < b + (clamp l).toNat + (monus target baseline).toNat)) := by
  refine add_add_clamp (clamp l) (monus target baseline) fun h => ?_
  rw [ContextPortfolioValue.saturated_ofExact.mpr (.inl h), Bool.true_or, Bool.true_or]

/-- The threshold of exact numbers: its flag is set exactly where one of them does not fit. -/
theorem addedThreshold_exact (b t l target baseline : Nat) :
    (addedThreshold (.ofExact b t l) (clamp target) (clamp baseline)).1.toNat =
        min (b + min l 18446744073709551615 +
          (min target 18446744073709551615 - min baseline 18446744073709551615))
          18446744073709551615 ∧
      ((addedThreshold (.ofExact b t l) (clamp target) (clamp baseline)).2 = true ↔
        18446744073709551615 < t ∨ 18446744073709551615 ≤ target ∨
        18446744073709551615 ≤ baseline ∨
        18446744073709551615 < b + l + (target - baseline)) := by
  rw [addedThreshold_ofExact, toNat_monus]
  simp only [toNat_clamp]
  refine ⟨trivial, ?_⟩
  rw [Bool.or_eq_true, Bool.or_eq_true, Bool.or_eq_true, Bool.or_eq_true,
    ContextPortfolioValue.saturated_ofExact, clamp_beq_top, clamp_beq_top, decide_eq_true_iff,
    decide_eq_true_iff]
  exact clamped_sum_overflows

/-- The source finds a gain exactly where the exact numbers have one and all fit. -/
theorem transitionValue_exact (b t l target baseline g : Nat) :
    ((transitionValue (.ofExact b t l) (clamp target) (clamp baseline)).positive = true ∧
      (transitionValue (.ofExact b t l) (clamp target) (clamp baseline)).gain.toNat = g) ↔
      0 < g ∧ t = b + l + (target - baseline) + g ∧ t ≤ 18446744073709551615 ∧
        target < 18446744073709551615 ∧ baseline < 18446744073709551615 := by
  obtain ⟨hvalue, hflag⟩ := addedThreshold_exact b t l target baseline
  have htarget := toNat_clamp t
  have hpositive :
      (transitionValue (.ofExact b t l) (clamp target) (clamp baseline)).positive = true ↔
        (addedThreshold (.ofExact b t l) (clamp target) (clamp baseline)).2 = false ∧
          (addedThreshold (.ofExact b t l) (clamp target) (clamp baseline)).1 < clamp t := by
    unfold transitionValue
    rw [Bool.and_eq_true, Bool.not_eq_true', decide_eq_true_iff]
    rfl
  have hgain : (transitionValue (.ofExact b t l) (clamp target) (clamp baseline)).positive = true →
      (transitionValue (.ofExact b t l) (clamp target) (clamp baseline)).gain.toNat =
        (clamp t).toNat -
          (addedThreshold (.ofExact b t l) (clamp target) (clamp baseline)).1.toNat := by
    intro h
    have hle := UInt64.le_of_lt (hpositive.mp h).2
    rw [← UInt64.toNat_sub_of_le _ _ hle]
    exact congrArg UInt64.toNat (if_pos h)
  rw [← Bool.not_eq_true, hflag, UInt64.lt_iff_toNat_lt, hvalue, htarget] at hpositive
  constructor
  · rintro ⟨hp, rfl⟩
    rw [hgain hp]
    have := hpositive.mp hp
    omega
  · rintro ⟨hg, ht, hfits, htargetFits, hbaselineFits⟩
    have hp := hpositive.mpr (by omega)
    refine ⟨hp, ?_⟩
    rw [hgain hp]
    omega

/-- The value that the source folds for a target is what the target is worth. -/
theorem gains_iff {input : Input R} {capture : CaptureAssessment R}
    {cost : ContextMachineCostModel W R} {assessment : PressureTargetAssessment W R}
    {v : TransitionValue} (h : foldTarget input capture cost assessment = .ok v) (g : Nat) :
    Gains input capture cost assessment g ↔ v.positive = true ∧ v.gain.toNat = g := by
  obtain ⟨impacts, himpacts, h⟩ := bind_eq_ok h
  obtain ⟨candidate, hcandidate, h⟩ := bind_eq_ok h
  obtain ⟨value, hfold, h⟩ := bind_eq_ok h
  have hportfolio : portfolioWith input capture cost impacts candidate =
      portfolio input capture cost assessment := by
    rw [combineImpacts_eq himpacts, List.nil_append]
    congr 1
    cases candidate
    exact congrArg PlanningOwnerId.mk (nextCandidateOwner_eq hcandidate)
  rw [hportfolio] at hfold
  have hvalue := ContextPortfolioValue.fold_eq hfold
  cases h
  rw [hvalue, ContextPortfolioValue.exactValues, multiply_eq_clamp,
    multiply_eq_clamp, toNat_multiplier,
    transitionValue_exact]
  have hwork : (cost.price assessment.machineWork).immediateNs.toNat * input.waiting -
      input.privateBaselineImmediateNs.toNat * input.waiting = input.waiting *
        ((cost.price assessment.machineWork).immediateNs.toNat -
          input.privateBaselineImmediateNs.toNat) := by
    rw [← Nat.sub_mul, Nat.mul_comm]
  rw [hwork]
  constructor
  · rintro ⟨hg, hv, hfits, htarget, hbaseline⟩
    exact ⟨hg, hv, hfits, htarget, hbaseline⟩
  · rintro ⟨hg, hv, hfits, htarget, hbaseline⟩
    exact ⟨hg, hv, hfits, htarget, hbaseline⟩

end SharedCapture

end Ninfer.Planner
