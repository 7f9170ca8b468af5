/-
  Planning a materialization: `inspect`, `plan_materialization` and the planner's selection.

  The manager lists the candidate sources, asks the planner for the cheapest feasible target and
  turns it into a choice. The planner takes the cheapest candidate that is feasible as it stands;
  with none it starts from the target that releases every pressure owner for the root candidate,
  and then lets a search look for something cheaper.

  What a Program answers is a `PlanningView`. The planner is modelled as the manager sees it; its
  own loops, clock and budget are in `Planner.Materialization`. There which targets it assesses, and
  in what order, depends on clocks and guidance figures, and its result is a cheapest one. Here the
  assessed targets are the field `search`, an arbitrary list, so that what is proved of the manager
  holds for any of those searches. Costs are ranks: `FoldedCost::less` is a total order on the
  targets of a search. The frontiers that `select_materialization_shared_captures` picks among its
  candidates are a field as well.
-/
import Ninfer.Resources.Materialization

namespace Ninfer.Resources

open Lib Function

/-! ## The prefix index -/

structure PrefixIndexEntry where
  shared : Bool
  key : PrefixShortlistKey
  slot : Nat
  ownerId : UInt64
  revision : UInt64
  checkpoint : CheckpointRef

namespace ResourceManager

variable (s : ResourceManager)

def privateIndexEntry (slot : Nat) (c : CheckpointSummary) :
    PrefixIndexEntry :=
  { shared := false
    key := c.shortlistKey
    slot
    ownerId := (s.catalog slot).id
    revision := (s.catalog slot).revision
    checkpoint := c.ref }

def sharedIndexEntry (slot : Nat) : PrefixIndexEntry :=
  { shared := true
    key := (s.sharedCatalog slot).summary.checkpoint.shortlistKey
    slot
    ownerId := (s.sharedCatalog slot).id
    revision := (s.sharedCatalog slot).revision
    checkpoint := (s.sharedCatalog slot).summary.checkpoint.ref }

/-- The slots of the private catalogue that hold a catalogued owner. -/
def privateOwners : List Nat :=
  (List.range s.catalogCount).filter fun j =>
    (s.catalog j).state = .catalogued ∧ (s.catalog j).handle.isSome

def sharedOwners : List Nat :=
  (List.range s.sharedCatalogCount).filter fun j =>
    (s.sharedCatalog j).state = .catalogued ∧ (s.sharedCatalog j).handle.isSome

/-- The rows of the index after a rebuild. -/
def prefixIndex : List PrefixIndexEntry :=
  (s.privateOwners.flatMap fun j =>
    (s.catalog j).summary.checkpoints.map (s.privateIndexEntry j)) ++
  s.sharedOwners.map s.sharedIndexEntry

def prefixIndexCapacity : Nat :=
  s.catalogCount * (s.maxLongAnchors + 2) + s.sharedCatalogCount

def validPrefixIndexEntry (i : PrefixIndexEntry) : Bool :=
  if i.shared then
    i.slot < s.sharedCatalogCount ∧ (s.sharedCatalog i.slot).state = .catalogued ∧
      (s.sharedCatalog i.slot).handle.isSome ∧ (s.sharedCatalog i.slot).id = i.ownerId ∧
      (s.sharedCatalog i.slot).revision = i.revision
  else
    i.slot < s.catalogCount ∧ (s.catalog i.slot).state = .catalogued ∧
      (s.catalog i.slot).handle.isSome ∧ (s.catalog i.slot).id = i.ownerId ∧
      (s.catalog i.slot).revision = i.revision

end ResourceManager

def rebuildPrefixIndex : Eff ResourceManager (List PrefixIndexEntry) := do
  let s ← Eff.get
  Eff.require (s.prefixIndex.length ≤ s.prefixIndexCapacity)
    (.logicError "prefix index exceeded fixed capacity")
  pure s.prefixIndex

/-! ## Publication grace -/

def publicationGraceOwners : Nat := 6

def publicationGraceMinimumOwners : Nat := 8

namespace ResourceManager

variable (s : ResourceManager)

/-- The private owners no lane retains. -/
def eligibleOwners : List Nat :=
  s.privateOwners.filter fun j => ¬ s.privateHasActiveEdge j

/-- The slots `compute_publication_grace` marks: of eight eligible owners or more, the most
    recently published six, but never so many that fewer than two are left. -/
def publicationGrace : List Nat :=
  if s.eligibleOwners.length < publicationGraceMinimumOwners then []
  else
    (s.eligibleOwners.mergeSort fun a b =>
      (s.catalog a).publishedEpoch ≥ (s.catalog b).publishedEpoch).take
        (min publicationGraceOwners (s.eligibleOwners.length - 2))

def privateInPublicationGrace (slot : Nat) : Bool :=
  s.publicationGrace.contains slot

/-- The private owners a plan may put under pressure. -/
def pressurePrivate : List Nat :=
  s.eligibleOwners.filter fun j => ¬ s.privateInPublicationGrace j

/-- The shared owners a plan may put under pressure. -/
def pressureShared : List Nat :=
  s.sharedOwners.filter fun j => s.SharedIdle j

/-- The planning ids are the positions in the list. -/
def ownerRecords (capabilities : List CatalogCapability) : List PlanningOwnerRecord :=
  capabilities.zipIdx.map fun (c, id) => { id, capability := c }

/-- The owners `build_pressure_inputs` hands to the planner. -/
def pressureRecords : List PlanningOwnerRecord :=
  ownerRecords (s.pressurePrivate.map s.privateCapability ++
    s.pressureShared.map s.sharedCapability)

/-- Every checkpoint under pressure has the observation its policy is read from. -/
def pressureObserved : Bool :=
  s.pressurePrivate.all fun j => (s.catalog j).summary.checkpoints.all fun c =>
    (findObservation (s.catalog j).observations c.ref).isSome

end ResourceManager

/-! ## Requests, candidates and what a Program answers -/

inductive PromptCacheMarkerKind where
  | sharedStablePrefix
  | other
  deriving DecidableEq

structure Opportunity where
  kind : PromptCacheMarkerKind
  frontier : Nat
  evidence : SharedCandidateEvidence := {}

/-- A `RequestBasePlan` as the manager reads it. -/
structure RequestBasePlan where
  sessionKey : Option CacheSessionKey := none
  retention : RetentionClass := .recentPrivate
  updateSessionIndex : Bool := true
  opportunities : List Opportunity := []
  prefixShortlistKey : Nat → Option PrefixShortlistKey := fun _ => none
  /-- Whether `shared_candidate_rebuild_work` knows the frontier. -/
  hasRebuildWork : Nat → Bool := fun _ => true

/-- `cost` is the rank of the folded cost of the target. -/
structure IdentityMaterializationAssessment where
  physicalStatus : MaterializationPhysicalStatus := .structuralInvalid
  sourceMode : PrivateSourceMode := .consumeToActive
  cost : Nat := 0
  pressureMayChangeMachineWork : Bool := false
  expandable : Bool := false

structure AdmissionCandidate where
  reusablePromptTokens : Nat := 0
  identity : IdentityMaterializationAssessment

structure PressureTargetAssessment extends
    TargetAssessment Nat PressureOwnerOutcome PressureCheckpointOutcome where
  cost : Nat := 0
  /-- Every impact comes with a supported recovery recipe. -/
  recoveryKnown : Bool := true

/-- A sealed plan: the revision it was made at and whether it needs a transfer. -/
abbrev ResourcePlan := UInt64 × Bool

structure PlanningView where
  hasContextTransaction : Bool := false
  isolatedRequestFeasible : Bool
  /-- By lane, private handle, shared handle, checkpoint and whether the source is to stay. -/
  inspectAdmission : Nat → Option Nat → Option Nat → Option CheckpointRef → Bool →
    Option AdmissionCandidate
  /-- No planning time is left, or too little for a search to pay. -/
  noAllowance : Bool
  rootMaximalTarget : List PlanningOwnerRecord → PressureTargetAssessment
  /-- The targets the search assesses, in order. -/
  search : List PlanningOwnerRecord → List PressureTargetAssessment
  /-- The assessment of the unchanged target of a candidate in the session. -/
  assessIdentity : List PlanningOwnerRecord → Nat → PressureTargetAssessment
  /-- The frontiers picked among the shared candidates. -/
  selectFrontiers : List Nat → List Nat
  sealIdentity : Nat → List Nat → Option ResourcePlan
  sealTarget : Nat → List PressureOwnerOutcome → List Nat → Option ResourcePlan

structure Candidate where
  plan : AdmissionCandidate
  currentSessionBinding : Bool := false
  privateSource : Option CatalogCapability := none
  sharedSource : Option CatalogCapability := none
  selectedObservation : Option PolicyObservationKey := none
  sourceKey : Option PrefixShortlistKey := none

/-! ## Demand -/

def appendUnique (keys : List PrefixShortlistKey) (key : PrefixShortlistKey) :
    List PrefixShortlistKey :=
  if keys.contains key then keys else keys ++ [key]

def demandMatches (d : PrefixDemandRecord) (key : PrefixShortlistKey) : Bool :=
  d.candidateKeys.contains key ∨ d.exactResidentKeys.contains key ∨ d.selectedSourceKey = some key

def mixHigh (high : UInt64) (value : UInt8) : UInt64 :=
  let mixed : UInt64 := value.toUInt64 + 0x9E3779B97F4A7C15 + (high <<< (6 : UInt64)) +
    (high >>> (2 : UInt64))
  (high ^^^ mixed) * 0xD6E8FEB86659FD93

/-- Two 64-bit hashes of the session, or the publication order twice. -/
def reuseDomain (session : Option CacheSessionKey) (publicationOrder : Nat) : ReuseDomainId :=
  match session with
  | none =>
    { low := publicationOrder.toUInt64
      high := publicationOrder.toUInt64 ^^^ 0xD6E8FEB86659FD93 }
  | some key =>
    { low := sessionHash key
      high := key.foldl mixHigh (1099511628211 ^^^ 0x9E3779B97F4A7C15) }

/-- The number of distinct domains among the demands that match the key. -/
def distinctDomains (demands : List PrefixDemandRecord) (key : PrefixShortlistKey) : Nat :=
  ((demands.filter (demandMatches · key)).map (·.domain)).eraseDups.length

namespace ResourceManager

/-- `matching_reuse_domains` with the demand of the request itself; a full window gives up its
    oldest row to it. -/
def matchingReuseDomains (s : ResourceManager) (key : PrefixShortlistKey)
    (provisional : PrefixDemandRecord) : Nat :=
  let window := if s.demandWindow.length = demandWindowCapacity then s.demandWindow.tail
    else s.demandWindow
  distinctDomains (window ++ [provisional]) key

/-- `matching_reuse_domains` over the committed demands. -/
def committedReuseDomains (s : ResourceManager) (key : PrefixShortlistKey) : Nat :=
  distinctDomains s.demandWindow key

/-- The shared opportunities `select_materialization_shared_captures` weighs. -/
def sharedCaptureCandidates (s : ResourceManager) (base : RequestBasePlan) (candidate : Candidate)
    (demand : PrefixDemandRecord) : List Opportunity :=
  let vacant := (List.range s.sharedCatalogCount).countP fun j =>
    (s.sharedCatalog j).state = .vacant
  base.opportunities.filter fun o =>
    o.kind = .sharedStablePrefix ∧ ¬ o.frontier < candidate.plan.reusablePromptTokens ∧
      (base.prefixShortlistKey o.frontier).any fun key =>
        let selectedPrivateBase := o.frontier = candidate.plan.reusablePromptTokens ∧
          candidate.privateSource.isSome ∧ candidate.sourceKey = some key
        let exactSharedResident := s.prefixIndex.any fun i =>
          i.shared ∧ s.validPrefixIndexEntry i ∧ i.key = key
        let declared := o.evidence.explicitBoundary ∨ o.evidence.requestedAutomatic
        let surplus := vacant ≠ 0 ∧ (o.evidence.defaultAutomatic ∨ o.evidence.engineStructural)
        ¬ exactSharedResident ∧ ¬ (demand.exactResidentKeys.contains key ∧ ¬ selectedPrivateBase) ∧
          (declared ∨ s.matchingReuseDomains key demand ≥ 2 ∨ surplus)

end ResourceManager

/-- `final_schedule`. -/
def finalSchedule (view : PlanningView) (base : RequestBasePlan) (candidate : Candidate)
    (demand : PrefixDemandRecord) : Eff ResourceManager (List Nat) := do
  let s ← Eff.get
  let frontiers := (s.sharedCaptureCandidates base candidate demand).map (·.frontier)
  Eff.require (frontiers.all base.hasRebuildWork)
    (.logicError "prepared shared candidate has no canonical rebuild work")
  Eff.require (frontiers.length ≤ 7)
    (.logicError "prepared shared candidates exceeded the fixed subset bound")
  pure (view.selectFrontiers frontiers)

/-! ## The logical goal of a target -/

namespace ResourceManager

variable (s : ResourceManager)

def firstVacant : Option Nat :=
  (List.range s.catalogCount).find? fun j => (s.catalog j).state = .vacant

/-- The record an outcome names, when the owner is still what it was and no lane needs it. -/
def goalOwner (records : List PlanningOwnerRecord) (candidate : Candidate)
    (outcome : PressureOwnerOutcome) : Option PlanningOwnerRecord :=
  (records.find? (·.id = outcome.owner)).filter fun record =>
    let c := record.capability
    if c.owner.kind = .sharedPrefix then
      c.slot < s.sharedCatalogCount ∧ (∀ source ∈ candidate.sharedSource, c.slot ≠ source.slot) ∧
        s.SharedUnchanged c ∧ s.SharedIdle c.slot
    else
      c.slot < s.catalogCount ∧ (∀ source ∈ candidate.privateSource, c.slot ≠ source.slot) ∧
        s.PrivateUnchanged c ∧ ¬ s.privateHasActiveEdge c.slot

/-- The loop over the outcomes: each must name its own valid owner, and the first evicted
    private one gives its slot when none was found before. -/
def goalSlot (s : ResourceManager) (records : List PlanningOwnerRecord) (candidate : Candidate) :
    Option Nat → List PressureOwnerOutcome → Option Nat
  | slot, [] => slot
  | slot, outcome :: rest =>
    match s.goalOwner records candidate outcome with
    | none => none
    | some record =>
      if rest.any (·.owner = outcome.owner) then none
      else
        let gives := record.capability.owner.kind = .privateContinuation ∧
          outcome.disposition = .evicted
        goalSlot s records candidate
          (if slot = none ∧ gives then some record.capability.slot else slot) rest

/-- `logical_goal`: the publication slot of a target, none when the target is not usable. -/
def logicalGoal (records : List PlanningOwnerRecord) (candidate : Candidate)
    (sourceMode : PrivateSourceMode) (outcomes : List PressureOwnerOutcome) : Option Nat :=
  if candidate.sharedSource.isSome ∧ sourceMode ≠ .retain then none
  else if candidate.privateSource = none ∧ candidate.sharedSource = none ∧ sourceMode = .retain then
    none
  else
    let first :=
      match candidate.privateSource, sourceMode with
      | some source, .consumeToActive => some source.slot
      | _, _ => s.firstVacant
    s.goalSlot records candidate first outcomes

end ResourceManager

/-! ## The planner -/

structure Incumbent where
  candidate : Nat
  publicationSlot : Nat
  sourceMode : PrivateSourceMode
  cost : Nat
  ownerOutcomes : List PressureOwnerOutcome := []
  checkpointOutcomes : List PressureCheckpointOutcome := []
  /-- The target was assessed in the session; an identity target was not. -/
  assessed : Bool := false

structure Planned where
  plan : ResourcePlan
  candidate : Nat
  publicationSlot : Nat
  sourceMode : PrivateSourceMode
  ownerOutcomes : List PressureOwnerOutcome
  checkpointOutcomes : List PressureCheckpointOutcome

/-- The logical goal of a candidate as it stands. -/
def identityGoal (s : ResourceManager) (c : Candidate) : Option Nat :=
  if c.plan.identity.physicalStatus = .feasible then
    s.logicalGoal [] c c.plan.identity.sourceMode []
  else none

/-- One turn of the loop over the candidates. -/
def identityStep (s : ResourceManager) (best : Option Incumbent) (input : Candidate × Nat) :
    Option Incumbent :=
  match identityGoal s input.1 with
  | none => best
  | some slot =>
    if best.all (input.1.plan.identity.cost < ·.cost) then
      some
        { candidate := input.2
          publicationSlot := slot
          sourceMode := input.1.plan.identity.sourceMode
          cost := input.1.plan.identity.cost }
    else best

/-- The cheapest candidate that is feasible with no pressure. -/
def identityBest (s : ResourceManager) (candidates : List Candidate) : Option Incumbent :=
  candidates.zipIdx.foldl (identityStep s) none

/-- Pressure may make a candidate feasible, or cheaper. -/
def needsOptionalSearch (s : ResourceManager) (candidates : List Candidate) : Bool :=
  candidates.any fun c =>
    let identity := c.plan.identity
    match identityGoal s c with
    | none => identity.physicalStatus = .feasible ∨ identity.expandable
    | some _ => identity.physicalStatus = .feasible ∧ identity.pressureMayChangeMachineWork

/-- The checks of `fold_assessment` on the owners and checkpoints a target names. -/
def foldAssessment {σ : Type} (records : List PlanningOwnerRecord) (a : PressureTargetAssessment) :
    Eff σ Unit := do
  Eff.require (∀ o ∈ a.ownerOutcomes, records.any (·.id = o.owner))
    (.logicError "pressure target references an unknown logical owner")
  Eff.require a.recoveryKnown (.logicError "pressure recovery impact has no supported recipe")
  Eff.require (a.checkpointImpacts.map fun o => (o.owner, o.checkpoint)).Nodup
    (.logicError "pressure recovery impact is duplicated")

def assessmentGoal (s : ResourceManager) (records : List PlanningOwnerRecord)
    (candidates : List Candidate) (a : PressureTargetAssessment) : Option Nat :=
  if a.physicalStatus = .feasible then
    match candidates[a.candidate]? with
    | none => none
    | some c => s.logicalGoal records c a.sourceMode a.ownerOutcomes
  else none

def makeIncumbent (a : PressureTargetAssessment) (slot : Nat) : Incumbent :=
  { candidate := a.candidate
    publicationSlot := slot
    sourceMode := a.sourceMode
    cost := a.cost
    ownerOutcomes := a.ownerOutcomes
    checkpointOutcomes := a.checkpointImpacts
    assessed := true }

/-- The target a search starts from: the best candidate as it stands, else the root candidate
    with every pressure owner released. None when that is not feasible either. -/
def startIncumbent (view : PlanningView) (candidates : List Candidate)
    (records : List PlanningOwnerRecord) : Eff ResourceManager (Option Incumbent) := do
  let s ← Eff.get
  match identityBest s candidates with
  | some best => pure (some best)
  | none => do
    let a := view.rootMaximalTarget records
    Eff.require (a.candidate = 0)
      (.logicError "maximal pressure target changed admission candidate")
    match assessmentGoal s records candidates a with
    | none => pure none
    | some slot => do
      foldAssessment records a
      pure (some (makeIncumbent a slot))

/-- The targets of the search in turn; a cheaper one with a goal becomes the incumbent. -/
def searchTargets (candidates : List Candidate) (records : List PlanningOwnerRecord) :
    List PressureTargetAssessment → Incumbent → Eff ResourceManager Incumbent
  | [], incumbent => pure incumbent
  | a :: rest, incumbent => do
    let s ← Eff.get
    Eff.require (a.candidate < candidates.length)
      (.logicError "pressure target changed admission candidate")
    foldAssessment records a
    match assessmentGoal s records candidates a with
    | none => searchTargets candidates records rest incumbent
    | some slot =>
      searchTargets candidates records rest
        (if a.cost < incumbent.cost then makeIncumbent a slot else incumbent)

section Planner

variable (view : PlanningView) (base : RequestBasePlan) (candidates : List Candidate)
  (demand : PrefixDemandRecord)

/-- The incumbent as a sealed plan. -/
def sealIncumbent (records : List PlanningOwnerRecord) (incumbent : Incumbent) :
    Eff ResourceManager (Option Planned) := do
  let a := view.assessIdentity records incumbent.candidate
  Eff.require (incumbent.assessed ∨ (a.candidate = incumbent.candidate ∧
      a.physicalStatus = .feasible))
    (.logicError "selected identity target lost exact feasibility")
  let selected ← Eff.deref candidates[incumbent.candidate]?
  let frontiers ← finalSchedule view base selected demand
  match view.sealTarget incumbent.candidate incumbent.ownerOutcomes frontiers with
  | none => Eff.raise (.logicError "selected pressure target could not be sealed")
  | some plan => pure (some
      { plan
        candidate := incumbent.candidate
        publicationSlot := incumbent.publicationSlot
        sourceMode := incumbent.sourceMode
        ownerOutcomes := incumbent.ownerOutcomes
        checkpointOutcomes := incumbent.checkpointOutcomes })

/-- The branch without a search. -/
def sealIdentityBest (best : Incumbent) : Eff ResourceManager (Option Planned) := do
  let selected ← Eff.deref candidates[best.candidate]?
  let frontiers ← finalSchedule view base selected demand
  pure ((view.sealIdentity best.candidate frontiers).map fun plan =>
    { plan
      candidate := best.candidate
      publicationSlot := best.publicationSlot
      sourceMode := best.sourceMode
      ownerOutcomes := []
      checkpointOutcomes := [] })

/-- The branch with a search. -/
def planUnderPressure : Eff ResourceManager (Option Planned) := do
  let s ← Eff.get
  Eff.require s.pressureObserved (.logicError "catalogued checkpoint has no policy observation")
  match ← startIncumbent view candidates s.pressureRecords with
  | none => pure none
  | some start => do
    let incumbent ← searchTargets candidates s.pressureRecords (view.search s.pressureRecords) start
    sealIncumbent view base candidates demand s.pressureRecords incumbent

/-- `MaterializationPlanner::plan` with the root candidate first. -/
def planTarget : Eff ResourceManager (Option Planned) := do
  let s ← Eff.get
  match identityBest s candidates with
  | some best =>
    if ¬ needsOptionalSearch s candidates ∨ view.noAllowance then
      sealIdentityBest view base candidates demand best
    else planUnderPressure view base candidates demand
  | none => planUnderPressure view base candidates demand

end Planner

/-! ## Choices -/

/-- The checkpoints an outcome drops of the owner of the capability. -/
def ownerDrops (c : CatalogCapability) (checkpointOutcomes : List PressureCheckpointOutcome)
    (outcome : PressureOwnerOutcome) : Eff ResourceManager (List CheckpointRef) := do
  let s ← Eff.get
  if c.owner.kind = .sharedPrefix then
    selectedCheckpointDrops outcome.owner outcome.disposition outcome.droppedCheckpoints
      checkpointOutcomes 1 fun r => (s.sharedCatalog c.slot).summary.checkpoint.ref = r
  else
    selectedCheckpointDrops outcome.owner outcome.disposition outcome.droppedCheckpoints
      checkpointOutcomes (continuationCheckpointCount (s.catalog c.slot).summary)
      (continuationContainsCheckpoint (s.catalog c.slot).summary)

def ownerClaim (c : CatalogCapability) (checkpointOutcomes : List PressureCheckpointOutcome)
    (outcome : PressureOwnerOutcome) : Eff ResourceManager OwnerClaim := do
  let dropped ← ownerDrops c checkpointOutcomes outcome
  pure
    { planningId := outcome.owner
      capability := c
      disposition := outcome.disposition
      droppedCheckpoints := dropped }

/-- The claim of one outcome of the planned target. -/
def outcomeClaim (records : List PlanningOwnerRecord)
    (checkpointOutcomes : List PressureCheckpointOutcome) (outcome : PressureOwnerOutcome) :
    Eff ResourceManager OwnerClaim :=
  match records.find? (·.id = outcome.owner) with
  | none => Eff.raise (.logicError "selected pressure outcome has no logical owner record")
  | some record => ownerClaim record.capability checkpointOutcomes outcome

def OwnerClaim.isShared (c : OwnerClaim) : Bool := c.capability.owner.kind = .sharedPrefix

def planMaterialization (view : PlanningView) (base : RequestBasePlan) (destination : Nat)
    (candidates : List Candidate) (publicationOrder : Nat) (demand : PrefixDemandRecord) :
    Eff ResourceManager (Option Choice) := do
  let s ← Eff.get
  match ← planTarget view base candidates demand with
  | none => pure none
  | some planned => do
    let candidate ← Eff.deref candidates[planned.candidate]?
    let claims ← Eff.collect planned.ownerOutcomes
      (outcomeClaim s.pressureRecords planned.checkpointOutcomes)
    pure (some
      { destination
        plan := some planned.plan
        sourceMode := planned.sourceMode
        privateSource := candidate.privateSource
        sharedSource := candidate.sharedSource
        publicationSlot := planned.publicationSlot
        privateClaims := claims.filter fun c => ¬ c.isShared
        sharedClaims := claims.filter (·.isShared)
        selectedObservation := candidate.selectedObservation
        session := base.sessionKey
        retention := base.retention
        updateSessionIndex := base.updateSessionIndex
        publicationOrder
        demand := { demand with selectedSourceKey := candidate.sourceKey } })

/-! ## Inspection -/

inductive Readiness where
  | ready
  | needsTransfer
  | temporarilyBlocked
  | permanentlyInfeasible

structure Inspection where
  readiness : Readiness := .temporarilyBlocked
  choice : Option Choice := none

def inspectionOf : Option Choice → Inspection
  | none => {}
  | some choice =>
    { readiness := if choice.plan.any (·.2) then .needsTransfer else .ready
      choice := some choice }

def observationKey (i : PrefixIndexEntry) : PolicyObservationKey :=
  { shared := i.shared
    slot := i.slot
    ownerId := i.ownerId
    revision := i.revision
    checkpoint := i.checkpoint }

/-- The candidate of one index row, if the Program makes one of it. -/
def candidateOf (view : PlanningView) (base : RequestBasePlan) (destination : Nat)
    (sessionCell : Option Nat) (i : PrefixIndexEntry) :
    Eff ResourceManager (Option Candidate) := do
  let s ← Eff.get
  if ¬ s.validPrefixIndexEntry i ∨ base.prefixShortlistKey i.key.frontier ≠ some i.key then
    pure none
  else if i.shared then
    match view.inspectAdmission destination none (s.sharedCatalog i.slot).handle
      (some i.checkpoint) false with
    | none => pure none
    | some plan => do
      Eff.require (plan.reusablePromptTokens ≠ 0 ∧ plan.identity.sourceMode = .retain)
        (.logicError "Program returned an invalid shared candidate")
      pure (some
        { plan
          sharedSource := some (s.sharedCapability i.slot)
          selectedObservation := some (observationKey i)
          sourceKey := some i.key })
  else if s.privateHasActiveEdge i.slot then
    pure none
  else
    let entry := s.catalog i.slot
    let retain : Bool := entry.session.isSome ∧
      (entry.session ≠ base.sessionKey ∨ ¬ base.updateSessionIndex)
    match view.inspectAdmission destination entry.handle none (some i.checkpoint) retain with
    | none => pure none
    | some plan => do
      Eff.require (plan.reusablePromptTokens ≠ 0 ∧
          (retain → plan.identity.sourceMode = .retain))
        (.logicError "Program returned an invalid private candidate")
      pure (some
        { plan
          currentSessionBinding := sessionCell.any fun cell =>
            (s.sessionIndex cell).slot = some i.slot ∧
              (s.sessionIndex cell).ownerId = entry.id ∧
              (s.sessionIndex cell).revision = entry.revision
          privateSource := some (s.privateCapability i.slot)
          selectedObservation := some (observationKey i)
          sourceKey := some i.key })

/-- The keys of the shared opportunities of the request. -/
def demandKeys (s : ResourceManager) (base : RequestBasePlan) : List PrefixShortlistKey :=
  if s.cacheEnabled then
    ((base.opportunities.filter (·.kind = .sharedStablePrefix)).filterMap fun o =>
      base.prefixShortlistKey o.frontier).foldl appendUnique []
  else []

def inspect (view : PlanningView) (base : RequestBasePlan) (publicationOrder : Nat) :
    Eff ResourceManager Inspection := do
  let s ← Eff.get
  if s.transaction ≠ .none ∨ view.hasContextTransaction then
    pure {}
  else do
    Eff.require (publicationOrder ≠ 0) (.invalidArgument "request publication order is zero")
    if ¬ view.isolatedRequestFeasible then
      pure { readiness := .permanentlyInfeasible }
    else
      match (List.range s.laneCount).find? fun l => s.lanes l = .free with
      | none => pure {}
      | some destination => do
        let index ← rebuildPrefixIndex
        match view.inspectAdmission destination none none none false with
        -- An unfinished fork of the Program must settle first.
        | none => pure {}
        | some root => do
          let sessionCell :=
            if s.cacheEnabled ∧ base.updateSessionIndex then
              base.sessionKey.bind (findSessionCell s.catalogCount s.sessionIndex)
            else none
          let sources ← Eff.collect (if s.cacheEnabled then index else [])
            (candidateOf view base destination sessionCell)
          let sources := sources.reduceOption
          let demand : PrefixDemandRecord :=
            { domain := reuseDomain base.sessionKey publicationOrder
              candidateKeys := demandKeys s base
              exactResidentKeys := (sources.filterMap (·.sourceKey)).foldl appendUnique [] }
          let selected ← planMaterialization view base destination ({ plan := root } :: sources)
            publicationOrder demand
          pure (inspectionOf selected)

end Ninfer.Resources
