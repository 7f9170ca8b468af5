/-
  Active captures: publishing checkpoints of a running lane.

  A capture may publish a private checkpoint into the reserved slot of the lane and a shared
  prefix into a slot of the shared catalogue, a vacant one or one whose owner it replaces. The
  capture planner's choice for one scenario is an answer of the view; which scenarios there are,
  which one wins and what the record claims is computed here.
-/
import Ninfer.Resources.Planning
import Ninfer.Resources.Lanes

namespace Ninfer.Resources

open Lib Function

/-! ## Reservation -/

inductive ActiveCaptureReserveResult where
  | reserved
  | skipped

structure CaptureAssessment where
  shortlistKey : PrefixShortlistKey := {}
  sharedEvidence : SharedCandidateEvidence := {}
  privateReplacementCandidates : List CheckpointRef := []
  publishesPrivate : Bool := false
  publishesShared : Bool := false
  physicallyFeasible : Bool := false

structure CaptureScenario where
  assessment : CaptureAssessment
  publicationSlot : Nat
  replacementId : UInt64 := 0
  replacementRevision : UInt64 := 0
  stableOrdinal : Nat := 0

/-- The result of the capture planner for one scenario. -/
structure CapturePlan where
  netGain : Nat
  stableScenarioOrdinal : Nat
  stableTargetOrdinal : Nat
  ownerOutcomes : List PressureOwnerOutcome := []
  checkpointOutcomes : List PressureCheckpointOutcome := []
  hasPressure : Bool := true

structure CaptureView where
  hasContextTransaction : Bool := false
  /-- By the handle of a replaced shared prefix, the replaced private checkpoint and whether a
      shared prefix may be published. -/
  inspectCapture : Option Nat → Option CheckpointRef → Bool → CaptureAssessment
  sharedCaptureMatches : Nat → Bool
  plan : CaptureScenario → List PlanningOwnerRecord → Option CapturePlan
  reserveStatus : Except Fault ContextTransactionReserveStatus

def CheckpointKind.rank : CheckpointKind → Nat
  | .sessionEndpoint => 0
  | .turnClosure => 1
  | .responseReplay => 2
  | .sharedStablePrefix => 3
  | .longAnchor => 4

/-- The order of `std::tuple{kind, frontier, ordinal}`. -/
def CheckpointRef.before (a b : CheckpointRef) : Bool :=
  a.kind.rank < b.kind.rank ∨ (a.kind = b.kind ∧ (a.frontier < b.frontier ∨
    (a.frontier = b.frontier ∧ a.ordinal < b.ordinal)))

/-- `std::min_element`: the first of the least. -/
def leastCheckpoint : List CheckpointRef → Option CheckpointRef
  | [] => none
  | c :: rest => some (rest.foldl (fun least d => if d.before least then d else least) c)

def sharedCredit (e : SharedCandidateEvidence) : Bool := e.explicitBoundary || e.requestedAutomatic

namespace ResourceManager

variable (s : ResourceManager)

/-- The owners a capture may name: the private ones under pressure and every shared one. -/
def captureRecords : List PlanningOwnerRecord :=
  ownerRecords (s.pressurePrivate.map s.privateCapability ++ s.sharedOwners.map s.sharedCapability)

/-- The scenario that publishes into the first vacant shared slot. -/
def vacantScenario (candidate : CaptureAssessment) : List CaptureScenario :=
  (((List.range s.sharedCatalogCount).find? fun j => (s.sharedCatalog j).state = .vacant).map
    fun j => { assessment := candidate, publicationSlot := j }).toList

/-- The scenarios that replace an idle shared owner. -/
def replacementScenarios (view : CaptureView)
    (privateReplacement : Option CheckpointRef) : List CaptureScenario :=
  ((s.sharedOwners.filter fun j => s.SharedIdle j).map fun j =>
    { assessment := view.inspectCapture (s.sharedCatalog j).handle privateReplacement true
      publicationSlot := j
      replacementId := (s.sharedCatalog j).id
      replacementRevision := (s.sharedCatalog j).revision
      stableOrdinal := 1 + j }).filter (·.assessment.publishesShared)

/-- Replacing or degrading other owners needs evidence that the prefix is wanted. -/
def pressureEvidence (candidate : CaptureAssessment) : Bool :=
  sharedCredit candidate.sharedEvidence || s.committedReuseDomains candidate.shortlistKey ≥ 2

end ResourceManager

/-- Whether a later plan replaces the selected one. -/
def CapturePlan.better (p q : CapturePlan) : Bool :=
  p.netGain > q.netGain ∨ (p.netGain = q.netGain ∧
    (p.stableScenarioOrdinal < q.stableScenarioOrdinal ∨
      (p.stableScenarioOrdinal = q.stableScenarioOrdinal ∧
        p.stableTargetOrdinal < q.stableTargetOrdinal)))

variable (view : CaptureView)

def selectCapture (records : List PlanningOwnerRecord)
    (scenarios : List CaptureScenario) : Option (CaptureScenario × CapturePlan) :=
  scenarios.foldl (fun selected scenario =>
    match view.plan scenario records with
    | none => selected
    | some plan =>
      if selected.all fun best => plan.better best.2 then some (scenario, plan) else selected) none

/-- The checks of the owner of one outcome of the selected plan. -/
def checkCaptureOwner (publicationSlot : Nat) (c : CatalogCapability) :
    Eff ResourceManager Unit := do
  let s ← Eff.get
  if c.owner.kind = .sharedPrefix then do
    Eff.require (c.slot < s.sharedCatalogCount ∧ c.slot ≠ publicationSlot)
      (.logicError "shared capture shared pressure owner is duplicated")
    Eff.require (s.SharedUnchanged c ∧ s.SharedIdle c.slot)
      (.logicError "shared capture shared pressure owner is stale")
  else do
    Eff.require (c.slot < s.catalogCount)
      (.logicError "shared capture private pressure owner is invalid")
    Eff.require (s.PrivateUnchanged c ∧ ¬ s.privateHasActiveEdge c.slot)
      (.logicError "shared capture private pressure owner is stale")

/-- The claim of one outcome of the selected plan. -/
def captureClaim (publicationSlot : Nat) (records : List PlanningOwnerRecord)
    (checkpointOutcomes : List PressureCheckpointOutcome) (outcome : PressureOwnerOutcome) :
    Eff ResourceManager OwnerClaim :=
  match records.find? (·.id = outcome.owner) with
  | none => Eff.raise (.logicError "shared capture pressure owner ID is invalid")
  | some record => do
    checkCaptureOwner publicationSlot record.capability
    ownerClaim record.capability checkpointOutcomes outcome

variable (record : ActiveCaptureRecord)

/-- The publication slot is still what the scenario saw. -/
def checkCapturePublication (slot : Nat) :
    Eff ResourceManager Unit := do
  let s ← Eff.get
  let entry := s.sharedCatalog slot
  Eff.require (slot < s.sharedCatalogCount)
    (.logicError "selected shared publication slot is invalid")
  if record.replacementId = 0 then
    Eff.require (entry.state = .vacant ∧ entry.id = 0 ∧ entry.handle = none ∧ s.SharedIdle slot)
      (.logicError "selected vacant shared publication slot changed")
  else
    Eff.require (entry.state = .catalogued ∧ entry.handle.isSome ∧
        entry.id = record.replacementId ∧ entry.revision = record.replacementRevision ∧
        s.SharedIdle slot)
      (.logicError "selected shared replacement changed before reservation")

namespace ResourceManager

def reserveLogicalActiveCapture (s : ResourceManager) (r : ActiveCaptureRecord) (slot : Nat) :
    ResourceManager :=
  ((s.setPrivateClaims r.privateClaims .claimed).setSharedClaims r.sharedClaims
    .claimed).setSharedState slot .reservedCapture

def rollbackLogicalActiveCapture (s : ResourceManager) (r : ActiveCaptureRecord) (slot : Nat) :
    ResourceManager :=
  ((s.setPrivateClaims r.privateClaims .catalogued).setSharedClaims r.sharedClaims
    .catalogued).setSharedState slot (if r.replacementId = 0 then .vacant else .catalogued)

end ResourceManager

/-- A record that publishes only the private checkpoint of the lane. -/
def reservePrivateCapture (lane : Nat) (baseline : CaptureAssessment) :
    Eff ResourceManager ActiveCaptureReserveResult := do
  if baseline.publishesPrivate = false ∨ baseline.physicallyFeasible = false then
    pure .skipped
  else do
    Eff.modify (·.setTransaction (.activeCapture { lane, publishesPrivate := true }))
    let status ← Eff.answer view.reserveStatus
    if status = .aborted then do
      Eff.modify (·.setTransaction .none)
      pure .skipped
    else pure .reserved

/-- A record for the selected scenario. -/
def reserveSelectedCapture (lane : Nat) (scenario : CaptureScenario)
    (plan : CapturePlan) : Eff ResourceManager ActiveCaptureReserveResult := do
  let s ← Eff.get
  let slot := scenario.publicationSlot
  let claims ← Eff.collect plan.ownerOutcomes
    (captureClaim slot s.captureRecords plan.checkpointOutcomes)
  let record : ActiveCaptureRecord :=
    { lane
      publishesPrivate := scenario.assessment.publishesPrivate
      publishesShared := true
      publicationSlot := some slot
      replacementId := scenario.replacementId
      replacementRevision := scenario.replacementRevision
      sharedEvidence := scenario.assessment.sharedEvidence
      privateClaims := claims.filter fun c => ¬ c.isShared
      sharedClaims := claims.filter (·.isShared) }
  Eff.require plan.hasPressure (.logicError "selected shared capture has no pressure plan")
  checkCapturePublication record slot
  Eff.modify (·.setTransaction (.activeCapture record))
  Eff.modify (·.reserveLogicalActiveCapture record slot)
  let status ← Eff.answer view.reserveStatus
  if status = .aborted then do
    Eff.modify (·.rollbackLogicalActiveCapture record slot)
    Eff.modify (·.setTransaction .none)
    pure .skipped
  else pure .reserved

def reserveActiveCapture (lane : Nat) :
    Eff ResourceManager ActiveCaptureReserveResult := do
  requireLane lane .active
  let s ← Eff.get
  Eff.require ((s.transaction ≠ .none) ↔ (view.hasContextTransaction = true))
    (.logicError "capture observes inconsistent transaction ownership")
  if view.hasContextTransaction then
    pure .skipped
  else do
    let index ← rebuildPrefixIndex
    let replacement := leastCheckpoint
      (view.inspectCapture none none false).privateReplacementCandidates
    let baseline := view.inspectCapture none replacement false
    let candidate := view.inspectCapture none replacement true
    let exactShared : Bool := candidate.publishesShared ∧ index.any fun i =>
      i.shared ∧ s.validPrefixIndexEntry i ∧ i.key = candidate.shortlistKey ∧
        (s.sharedCatalog i.slot).handle.any view.sharedCaptureMatches
    let scenarios := s.vacantScenario candidate ++
      (if s.pressureEvidence candidate then s.replacementScenarios view replacement else [])
    let selected := if candidate.publishesShared ∧ ¬ exactShared then
      selectCapture view s.captureRecords scenarios else none
    match selected with
    | none => reservePrivateCapture view lane baseline
    | some (scenario, plan) => reserveSelectedCapture view lane scenario plan

/-! ## Adoption -/

def openActiveCapture (hasContextTransaction : Bool) : Eff ResourceManager ActiveCaptureRecord := do
  let s ← Eff.get
  match s.transaction with
  | .activeCapture record =>
    if hasContextTransaction then pure record
    else Eff.raise (.logicError "active capture result has no logical transaction")
  | _ => Eff.raise (.logicError "active capture result has no logical transaction")

def capturePrivateId : String := "active capture private result ID is not unique"

def captureSharedId : String := "active capture shared result ID is not unique"

variable (result : ActiveCaptureResult)

/-- The shared slot of the record is still the reserved one, and the result fits it. -/
def checkCaptureReserved :
    Eff ResourceManager Unit := do
  let s ← Eff.get
  if record.publishesShared then
    match record.publicationSlot with
    | none => Eff.raise (.logicError "active capture shared publication slot is invalid")
    | some slot => do
      Eff.require (slot < s.sharedCatalogCount)
        (.logicError "active capture shared publication slot is invalid")
      let entry := s.sharedCatalog slot
      Eff.require (entry.state = .reservedCapture ∧ s.sharedActiveEdgeCount slot = 0 ∧
          (record.replacementId = 0 → entry.id = 0 ∧ entry.handle = none ∧
            result.capacityPreparationCommitted = false) ∧
          (record.replacementId ≠ 0 → entry.id = record.replacementId ∧
            entry.revision = record.replacementRevision ∧ entry.handle.isSome ∧
            (result.status = .published → result.capacityPreparationCommitted)))
        (.logicError "active capture publication changed before adoption")
  else
    Eff.require (record.publicationSlot = none ∧ record.replacementId = 0 ∧
        result.capacityPreparationCommitted = false)
      (.logicError "private capture has shared publication state")

/-- What a published result must bring for the private checkpoint. -/
def checkCapturePrivate :
    Eff ResourceManager Unit := do
  let s ← Eff.get
  if record.publishesPrivate then do
    Eff.require (validContinuationSummary s.maxLongAnchors result.activeSummary)
      (.logicError "active capture returned an invalid private summary")
    let slot ← catalogAt (s.active record.lane).publicationSlot
    Eff.require ((s.catalog slot).state = .reservedForActive ∧
        (s.catalog slot).id = (s.active record.lane).continuationId)
      (.logicError "active private publication changed during capture")
  else pure ()

/-- What a published result must bring for the shared prefix. -/
def checkCaptureShared :
    Eff ResourceManager Unit := do
  let s ← Eff.get
  if record.publishesShared then
    Eff.require ((s.active record.lane).sharedSources.length ≠ s.sharedCatalogCount ∧
        result.shared.any fun shared =>
          validSharedPrefixSummary shared.summary ∧ shared.summary.activeReferences = 1)
      (.logicError "active capture returned an invalid shared publication")
  else
    Eff.require (result.shared = none)
      (.logicError "private capture returned an unexpected shared publication")

/-- The part of `adopt_active_capture_progress` before its first change. -/
def checkActiveCapture :
    Eff ResourceManager Unit := do
  let s ← Eff.get
  Eff.require (result.status ≠ .inProgress)
    (.logicError "terminal capture result is marked in progress")
  Eff.require (result.victims.length = record.privateClaims.length ∧
      result.sharedVictims.length = record.sharedClaims.length)
    (.logicError "active capture result is not pressure-action aligned")
  let published : Bool := result.status = .published
  Eff.forEach record.privateClaims.zipIdx fun (claim, row) =>
    Eff.require (FirstOfManifest record.privateClaims row claim)
      (.logicError "active capture private claim manifest is not unique")
  Eff.forEach record.sharedClaims.zipIdx fun (claim, row) => do
    Eff.require (∀ prior ∈ record.privateClaims, prior.planningId ≠ claim.planningId)
      (.logicError "active capture owner ID changes kind")
    Eff.require (some claim.capability.slot ≠ record.publicationSlot ∧
        FirstOfManifest record.sharedClaims row claim)
      (.logicError "active capture shared claim manifest is not unique")
  Eff.forEach record.privateClaims fun claim => do
    let row ← privateResultFor capturePrivateId result.victims claim
    validatePrivateAction claim published row
  Eff.forEach record.sharedClaims fun claim => do
    let row ← sharedResultFor captureSharedId result.sharedVictims claim
    validateSharedAction claim published row
  Eff.require (record.lane < s.laneCount ∧ (s.active record.lane).occupied ∧
      s.lanes record.lane = .active)
    (.logicError "active capture owner left its lane")
  checkCaptureReserved record result
  if published then do
    checkCapturePrivate record result
    checkCaptureShared record result
  else
    Eff.require (result.shared = none)
      (.logicError "aborted active capture published a shared prefix")

namespace ResourceManager

variable (s : ResourceManager)

/-- The shared slot of an aborted capture. -/
def abandonCapture (record : ActiveCaptureRecord)
    (capacityPreparationCommitted : Bool) : ResourceManager :=
  match record.publicationSlot with
  | none => s
  | some slot =>
    if record.replacementId ≠ 0 ∧ capacityPreparationCommitted = false then
      s.setSharedState slot .catalogued
    else s.setSharedEntry slot (clearSharedEntry (s.sharedCatalog slot))

/-- The end of an explicit credit granted now. -/
def creditExpiry : Nat :=
  if s.demandEpoch > 2 ^ 64 - 1 - demandWindowCapacity then 2 ^ 64 - 1
  else s.demandEpoch + demandWindowCapacity

/-- The shared prefix of a published capture enters its slot. An id of 0 is skipped. -/
def publishShared (record : ActiveCaptureRecord) (slot : Nat)
    (shared : SharedPrefixPublication) : ResourceManager :=
  let skip : UInt64 := if s.nextSharedPrefixId = 0 then 1 else 0
  let credit := sharedCredit record.sharedEvidence
  { s.setSharedEntry slot
      { state := .catalogued
        id := s.nextSharedPrefixId + skip
        revision := advanceRevision (s.sharedCatalog slot).revision
        summary := { shared.summary with activeReferences := 0 }
        handle := some shared.handle
        explicitCredit := credit
        creditExpiryEpoch := if credit then s.creditExpiry else 0 } with
    nextSharedPrefixId := s.nextSharedPrefixId + skip + 1 }

/-- The lane holds an edge to the shared slot. -/
def addSharedSource (lane slot : Nat) : ResourceManager :=
  s.setActive lane { s.active lane with
    sharedSources := (s.active lane).sharedSources ++ [activeEdge (s.sharedCapability slot)] }

end ResourceManager

def applyCapturePrivate :
    Eff ResourceManager Unit := do
  let s ← Eff.get
  let active := s.active record.lane
  if record.publishesPrivate then do
    let slot ← Eff.deref active.publicationSlot
    let entry ← renewEntry s.maxLongAnchors (s.catalog slot) result.activeSummary active.retention
    Eff.modify fun s =>
      { s.setEntry slot { entry with publishedEpoch := s.publicationEpoch + 1 } with
        publicationEpoch := s.publicationEpoch + 1 }
  else pure ()

def applyCaptureShared :
    Eff ResourceManager Unit := do
  if record.publishesShared then do
    let slot ← Eff.deref record.publicationSlot
    let shared ← Eff.deref result.shared
    Eff.modify (·.publishShared record slot shared)
    Eff.modify (·.addSharedSource record.lane slot)
  else pure ()

/-- The changes to the owners a capture claimed. -/
def settleActiveCapture :
    Eff ResourceManager Unit := do
  Eff.forEach record.privateClaims fun claim => do
    let row ← privateResultFor capturePrivateId result.victims claim
    applyPrivateAction claim row
  Eff.forEach record.sharedClaims fun claim => do
    let row ← sharedResultFor captureSharedId result.sharedVictims claim
    applySharedAction claim row

/-- The part of `adopt_active_capture_progress` from its first change on. -/
def applyActiveCapture :
    Eff ResourceManager Unit := do
  settleActiveCapture record result
  if result.status = .aborted then do
    Eff.modify (·.abandonCapture record result.capacityPreparationCommitted)
    Eff.modify (·.setTransaction .none)
  else do
    applyCapturePrivate record result
    applyCaptureShared record result
    Eff.modify (·.setTransaction .none)

def adoptActiveCaptureProgress (hasContextTransaction : Bool) (result : ActiveCaptureResult) :
    Eff ResourceManager Unit := do
  let record ← openActiveCapture hasContextTransaction
  checkActiveCapture record result
  applyActiveCapture record result

/-! ## Progress of either kind -/

inductive ContextTransactionOutcome where
  | inProgress
  | materialization (outcome : MaterializationOutcome)
  | activeCapture

/-- The Program's progress while a transaction is open. Whether it has a transaction is asked
    before the progress and again before the result is adopted. -/
def progressContextTransaction (hasBefore hasAfter : Bool)
    (progress : Except Fault ContextTransactionProgress) :
    Eff ResourceManager ContextTransactionOutcome := do
  let s ← Eff.get
  Eff.require (s.transaction ≠ .none ∧ hasBefore)
    (.logicError "ResourceManager has no progressable resource transaction")
  match ← Eff.answer progress with
  | .inProgress => pure .inProgress
  | .materialization result => do
    let outcome ← adoptMaterializationProgress hasAfter result
    pure (.materialization outcome)
  | .activeCapture result => do
    adoptActiveCaptureProgress hasAfter result
    pure .activeCapture

end Ninfer.Resources
