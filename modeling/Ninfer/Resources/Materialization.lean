/-
  Materialization transactions: reservation, adoption of the Program's result, activation.

  `reserve_materialization` opens a record and claims what it names; the Program then prepares
  the request. Its terminal result is adopted in two parts, first every check, then every
  change. A published result leaves the record open until `adopt` hands the lane over.

  A Program appears by what it answers: whether it has an open transaction, its resource
  revision, the status of a start, whether cancellation was requested.
-/
import Ninfer.Resources.Actions

namespace Ninfer.Resources

open Lib Function

/-! ## Reservation -/

inductive MaterializationReserveResult where
  | reserved
  | stale
  | aborted

def validatePrivateClaim (choice : Choice) (claim : OwnerClaim) : Eff ResourceManager Unit := do
  let s ← Eff.get
  let slot := claim.capability.slot
  Eff.require (slot < s.catalogCount ∧ ∀ source ∈ choice.privateSource, slot ≠ source.slot)
    (.logicError "private pressure owner is invalid")
  Eff.require (s.PrivateUnchanged claim.capability ∧
      claim.capability.owner.kind = .privateContinuation ∧ ¬ s.privateHasActiveEdge slot)
    (.logicError "private pressure owner changed after planning")

def validateSharedClaim (choice : Choice) (claim : OwnerClaim) : Eff ResourceManager Unit := do
  let s ← Eff.get
  let slot := claim.capability.slot
  Eff.require (slot < s.sharedCatalogCount ∧ ∀ source ∈ choice.sharedSource, slot ≠ source.slot)
    (.logicError "shared pressure owner is invalid")
  Eff.require (s.SharedUnchanged claim.capability ∧
      claim.capability.owner.kind = .sharedPrefix ∧ s.SharedIdle slot)
    (.logicError "shared pressure owner changed after planning")

variable (s : ResourceManager)

/-- The publication slot is vacant, the slot of the consumed source, or one of an evicted victim. -/
abbrev HasPublicationCell (choice : Choice) : Prop :=
  (s.catalog choice.publicationSlot).state = .vacant ∨ (choice.sourceMode = .consumeToActive ∧
      ∃ source ∈ choice.privateSource, choice.publicationSlot = source.slot) ∨
    (choice.privateClaims.find? (·.capability.slot = choice.publicationSlot)).any
      (·.disposition = .evicted)

def validateChoice (choice : Choice) (revision : UInt64) : Eff ResourceManager Unit := do
  let s ← Eff.get
  Eff.require (choice.plan.isSome ∧ choice.destination < s.laneCount ∧
      s.lanes choice.destination = .free ∧ revision ≠ 0 ∧
      choice.publicationSlot < s.catalogCount ∧ choice.publicationOrder ≠ 0)
    (.logicError "resource choice is stale or malformed")
  Eff.require (∀ source ∈ choice.privateSource,
      source.owner.kind = .privateContinuation ∧ source.slot < s.catalogCount)
    (.logicError "private source slot is invalid")
  Eff.require (∀ source ∈ choice.privateSource,
      s.PrivateUnchanged source ∧ ¬ s.privateHasActiveEdge source.slot)
    (.logicError "private source changed after planning")
  Eff.require (∀ source ∈ choice.sharedSource,
      source.owner.kind = .sharedPrefix ∧ source.slot < s.sharedCatalogCount)
    (.logicError "shared source slot is invalid")
  Eff.require (∀ source ∈ choice.sharedSource, s.SharedUnchanged source)
    (.logicError "shared source changed after planning")
  Eff.forEach choice.privateClaims (validatePrivateClaim choice)
  Eff.forEach choice.sharedClaims (validateSharedClaim choice)
  Eff.require (HasPublicationCell s choice) (.logicError "resource choice has no publication cell")

namespace ResourceManager

variable (s : ResourceManager)

def pinShared (slot : Nat) : ResourceManager :=
  s.setSharedEntry slot { s.sharedCatalog slot with
    transactionPins := (s.sharedCatalog slot).transactionPins + 1 }

/-- `if (pins != 0) { --pins; }`. -/
def unpinShared (slot : Nat) : ResourceManager :=
  s.setSharedEntry slot { s.sharedCatalog slot with
    transactionPins := (s.sharedCatalog slot).transactionPins - 1 }

def reserveLogicalMaterialization (r : MaterializationRecord) :
    ResourceManager :=
  let s := s.setLane r.destination .materializing
  let s := r.privateSource.elim s fun c => s.setCatalogState c.slot .claimed
  let s := r.sharedSource.elim s fun c => s.pinShared c.slot
  let s := s.setPrivateClaims r.privateClaims .claimed
  let s := s.setSharedClaims r.sharedClaims .claimed
  if (s.catalog r.publicationSlot).state = .vacant then
    s.setCatalogState r.publicationSlot .claimed
  else s

def rollbackLogicalMaterialization (r : MaterializationRecord) :
    ResourceManager :=
  let s := s.setLane r.destination .free
  let s := r.privateSource.elim s fun c => s.setCatalogState c.slot .catalogued
  let s := r.sharedSource.elim s fun c => s.unpinShared c.slot
  let s := s.setPrivateClaims r.privateClaims .catalogued
  let s := s.setSharedClaims r.sharedClaims .catalogued
  if (s.catalog r.publicationSlot).id = 0 ∧ (s.catalog r.publicationSlot).handle = none then
    s.setCatalogState r.publicationSlot .vacant
  else s

end ResourceManager

/-- What the Program answers while a choice is reserved. -/
structure ReserveView where
  hasContextTransaction : Bool
  resourceRevision : UInt64
  startStatus : Except Fault ContextTransactionReserveStatus
  cancellationRequested : Bool

/-- The choice comes back without its plan and its claims when the record took them. A start that
    throws leaves the record open. -/
def reserveMaterialization (view : ReserveView) (choice : Choice) :
    Eff ResourceManager (MaterializationReserveResult × Choice) := do
  let s ← Eff.get
  Eff.require (s.transaction = .none ∧ view.hasContextTransaction = false)
    (.logicError "ResourceManager already owns a resource transaction")
  Eff.require (choice.plan.isSome ∧ view.resourceRevision ≠ 0)
    (.logicError "resource choice is malformed")
  if choice.plan.any (·.1 ≠ view.resourceRevision) then
    pure (.stale, choice)
  else do
    validateChoice choice view.resourceRevision
    let record := takeMaterializationRecord choice
    let taken := { choice with
      plan := none
      privateClaims := []
      sharedClaims := []
      session := none }
    Eff.modify (·.setTransaction (.materialization record))
    Eff.modify (·.reserveLogicalMaterialization record)
    let status ← Eff.answer view.startStatus
    if status = .aborted then do
      Eff.modify (·.rollbackLogicalMaterialization record)
      Eff.modify (·.setTransaction .none)
      pure (if view.cancellationRequested then .aborted else .stale, taken)
    else pure (.reserved, taken)

/-! ## Checks of a result -/

/-- The open record a materialization result is for. -/
def openMaterialization (hasContextTransaction : Bool) :
    Eff ResourceManager MaterializationRecord := do
  let s ← Eff.get
  match s.transaction with
  | .materialization record =>
    if hasContextTransaction then pure record
    else Eff.raise (.logicError "materialization result has no logical transaction")
  | _ => Eff.raise (.logicError "materialization result has no logical transaction")

variable (record : MaterializationRecord)

/-- The private source of the record and the row reported for it agree. -/
abbrev PrivateSourceAgrees
    (published : Bool) (source : CatalogCapability) (row : MaterializationSourceResult) : Prop :=
  (s.catalog source.slot).state = .claimed ∧ (s.catalog source.slot).id = source.owner.id ∧
    (s.catalog source.slot).revision = source.generation ∧
    (¬ published → row.mode = .retain) ∧ (published → row.mode = record.sourceMode) ∧
    row.finalSummary.all (validContinuationSummary s.maxLongAnchors) ∧
    (row.mode = .consumeToActive → row.finalSummary = none) ∧
    (published ∧ row.mode = .retain → ¬ s.privateHasActiveEdge source.slot)

variable (result : MaterializationResult)

def checkPrivateSource (published : Bool) : Eff ResourceManager Unit := do
  let s ← Eff.get
  match record.privateSource with
  | none =>
    Eff.require (result.source = none)
      (.logicError "root materialization returned a private source result")
  | some source => do
    Eff.require (source.owner.kind = .privateContinuation ∧ source.slot < s.catalogCount)
      (.logicError "materialization private source capability is malformed")
    Eff.require (∃ row ∈ result.source, PrivateSourceAgrees s record published source row)
      (.logicError "materialization private source result is invalid")

/-- The summary a shared source may come back with: only its residency may differ, and its
    reference count is what the lanes hold. -/
def expectedSharedSource (before : SharedPrefixSummary) (references : Nat)
    (final : SharedPrefixSummary) : SharedPrefixSummary :=
  { checkpoint := { before.checkpoint with stateResidency := final.checkpoint.stateResidency }
    activeReferences := references }

def checkSharedSource (published : Bool) : Eff ResourceManager Unit := do
  let s ← Eff.get
  match record.sharedSource with
  | none =>
    Eff.require (result.sharedSource = none)
      (.logicError "materialization returned an unexpected shared source result")
  | some source => do
    Eff.require (source.owner.kind = .sharedPrefix ∧ source.slot < s.sharedCatalogCount)
      (.logicError "materialization shared source capability is malformed")
    let entry := s.sharedCatalog source.slot
    let references := s.sharedActiveEdgeCount source.slot
    Eff.require (result.sharedSource.isSome ∧ entry.transactionPins ≠ 0 ∧
        entry.id = source.owner.id ∧ entry.revision = source.generation ∧
        references ≠ 2 ^ 32 - 1)
      (.logicError "materialization shared source result is invalid")
    let expected := if published then references + 1 else references
    Eff.require (∀ row ∈ result.sharedSource, ∀ final ∈ row.finalSummary,
        validSharedPrefixSummary final ∧ final = expectedSharedSource entry.summary expected final)
      (.logicError "materialization shared source summary is invalid")

/-- The result gives the publication slot free. The rows were found unique before. -/
abbrev PublicationReleased (result : MaterializationResult) : Prop :=
  ((s.catalog record.publicationSlot).handle = none ∧ (s.catalog record.publicationSlot).id = 0) ∨
  ((∃ source ∈ record.privateSource, record.publicationSlot = source.slot) ∧
    result.source.any (·.mode = .consumeToActive)) ∨
  ∃ claim ∈ record.privateClaims, claim.capability.slot = record.publicationSlot ∧
    (result.victims.find? (·.owner = claim.planningId)).any fun row =>
      row.disposition = .evicted ∧ row.pressureCommitted

def materializationPrivateId : String := "materialization private result ID is not unique"

def materializationSharedId : String := "materialization shared result ID is not unique"

/-- The part of `adopt_materialization_progress` before its first change. -/
def checkMaterialization :
    Eff ResourceManager Unit := do
  let s ← Eff.get
  Eff.require (result.status ≠ .inProgress)
    (.logicError "terminal materialization result is marked in progress")
  Eff.require (result.victims.length = record.privateClaims.length ∧
      result.sharedVictims.length = record.sharedClaims.length)
    (.logicError "materialization result is not action aligned")
  let published : Bool := result.status = .published
  Eff.require (published = result.published.isSome)
    (.logicError "materialization terminal status is invalid")
  Eff.require (record.destination < s.laneCount ∧ s.lanes record.destination = .materializing ∧
      (s.active record.destination).occupied = false ∧
      (s.active record.destination).retainedPrivateSource = none ∧
      (s.active record.destination).sharedSources = [] ∧
      record.publicationSlot < s.catalogCount ∧
      (s.catalog record.publicationSlot).state = .claimed)
    (.logicError "materialization logical destination changed before adoption")
  Eff.forEach record.privateClaims.zipIdx fun (claim, row) =>
    Eff.require ((∀ source ∈ record.privateSource, claim.capability.slot ≠ source.slot) ∧
        FirstOfManifest record.privateClaims row claim)
      (.logicError "materialization private claim manifest is not unique")
  Eff.forEach record.sharedClaims.zipIdx fun (claim, row) => do
    Eff.require (∀ prior ∈ record.privateClaims, prior.planningId ≠ claim.planningId)
      (.logicError "materialization owner ID changes kind")
    Eff.require ((∀ source ∈ record.sharedSource, claim.capability.slot ≠ source.slot) ∧
        FirstOfManifest record.sharedClaims row claim)
      (.logicError "materialization shared claim manifest is not unique")
  Eff.forEach record.privateClaims fun claim => do
    let row ← privateResultFor materializationPrivateId result.victims claim
    validatePrivateAction claim published row
  Eff.forEach record.sharedClaims fun claim => do
    let row ← sharedResultFor materializationSharedId result.sharedVictims claim
    validateSharedAction claim published row
  checkPrivateSource record result published
  checkSharedSource record result published
  Eff.require (published → PublicationReleased s record result)
    (.logicError "materialization result cannot release its publication cell")

/-! ## Changes of a result -/

/-- `saturating_increment` of the hits of one observation, with its epoch. -/
def RetentionObservation.hit (o : RetentionObservation) (epoch : Nat) : RetentionObservation :=
  { o with selectedHitCount := saturatingIncrement o.selectedHitCount, lastHitEpoch := epoch }

/-- The first observation of the checkpoint is hit. -/
def hitObservation (checkpoint : CheckpointRef) (epoch : Nat) :
    List CheckpointObservation → List CheckpointObservation
  | [] => []
  | o :: rest =>
    if o.checkpoint = checkpoint then { o with observation := o.observation.hit epoch } :: rest
    else o :: hitObservation checkpoint epoch rest

namespace ResourceManager

variable (s : ResourceManager)

variable (r : MaterializationRecord)

/-- `resolve_observation` followed by the hit, for a key that still resolves. -/
def observeSelectedHit : ResourceManager :=
  match r.selectedObservation with
  | none => s
  | some key =>
    if key.shared then
      let entry := s.sharedCatalog key.slot
      if key.slot < s.sharedCatalogCount ∧ entry.id = key.ownerId ∧
          entry.revision = key.revision ∧ entry.summary.checkpoint.ref = key.checkpoint then
        { s.setSharedEntry key.slot { entry with
            observation := entry.observation.hit (s.retentionEpoch + 1) } with
          retentionEpoch := s.retentionEpoch + 1 }
      else s
    else
      let entry := s.catalog key.slot
      if key.slot < s.catalogCount ∧ entry.id = key.ownerId ∧ entry.revision = key.revision ∧
          (findObservation entry.observations key.checkpoint).isSome then
        { s.setEntry key.slot { entry with
            observations := hitObservation key.checkpoint (s.retentionEpoch + 1)
              entry.observations } with
          retentionEpoch := s.retentionEpoch + 1 }
      else s

/-- The consumed source gives up its handle and session; its observations stay when it
    republishes in its own slot. -/
def consumedEntry (e : CatalogEntry) (keepObservations : Bool) : CatalogEntry :=
  { e with
    handle := none
    summary := { activeReferences := e.summary.activeReferences }
    observations := if keepObservations then e.observations else []
    session := none }

/-- `restore_unreported_materialization` for one entry. -/
def restoredEntry (e : CatalogEntry) : CatalogEntry :=
  if e.state = .claimed then { e with state := .catalogued }
  else e

def restoredShared (e : SharedCatalogEntry) : SharedCatalogEntry :=
  if e.state = .claimed then { e with state := .catalogued }
  else e

def restoreUnreportedMaterialization :
    ResourceManager :=
  let s := r.privateSource.elim s fun c => s.setEntry c.slot (restoredEntry (s.catalog c.slot))
  let s := r.sharedSource.elim s fun c => s.unpinShared c.slot
  let s := r.privateClaims.foldl
    (fun s c => s.setEntry c.capability.slot (restoredEntry (s.catalog c.capability.slot))) s
  let s := r.sharedClaims.foldl (fun s c => s.setSharedEntry c.capability.slot
      (restoredShared (s.sharedCatalog c.capability.slot))) s
  let e := s.catalog r.publicationSlot
  if e.state = .claimed ∧ e.id = 0 ∧ e.handle = none then
    s.setCatalogState r.publicationSlot .vacant
  else s

/-- The explicit credit of a shared entry after a committed demand. -/
def creditAfter (demand : PrefixDemandRecord) (epoch : Nat) (e : SharedCatalogEntry) :
    SharedCatalogEntry :=
  if e.state = .catalogued ∧ e.handle.isSome ∧ e.explicitCredit ∧
      (demand.exactResidentKeys.contains e.summary.checkpoint.shortlistKey ∨
        epoch ≥ e.creditExpiryEpoch) then
    { e with explicitCredit := false, creditExpiryEpoch := 0 }
  else e

/-- `commit_demand`: the window keeps the last 32 demands. -/
def commitDemand (demand : PrefixDemandRecord) : ResourceManager :=
  let window := if s.demandWindow.length = demandWindowCapacity then s.demandWindow.tail
    else s.demandWindow
  let epoch := saturatingIncrement s.demandEpoch
  { s with
    demandWindow := window ++ [demand]
    demandEpoch := epoch
    sharedCatalog := fun j =>
      if j < s.sharedCatalogCount then creditAfter demand epoch (s.sharedCatalog j)
      else s.sharedCatalog j }

/-- The publication slot becomes the reserved cell of the lane. An id of 0 is skipped. -/
def reservePublication : ResourceManager :=
  let skip : UInt64 := if s.nextContinuationId = 0 then 1 else 0
  let e := s.catalog r.publicationSlot
  { s.setEntry r.publicationSlot { e with
      state := .reservedForActive
      id := s.nextContinuationId + skip
      session := r.session
      retention := r.retention
      revision := advanceRevision e.revision } with
    nextContinuationId := s.nextContinuationId + skip + 1 }

end ResourceManager

structure PublishedActivation where
  sequence : Nat
  destination : Nat

inductive MaterializationOutcome where
  | aborted
  | published (activation : PublishedActivation)

/-- The source stays, with the summary its row reports. -/
def retainPrivateSource (source : CatalogCapability) (final : Option ContinuationSummary) :
    Eff ResourceManager Unit := do
  let s ← Eff.get
  match final with
  | none => Eff.modify (·.setCatalogState source.slot .catalogued)
  | some summary => do
    let entry ← renewEntry s.maxLongAnchors (s.catalog source.slot) summary
      (s.catalog source.slot).retention
    Eff.modify fun s =>
      { s.setEntry source.slot { entry with publishedEpoch := s.publicationEpoch + 1 } with
        publicationEpoch := s.publicationEpoch + 1 }
    Eff.modify (·.refreshSession source.owner.id source.slot entry.revision)
    Eff.modify (·.setCatalogState source.slot .catalogued)

/-- The private source after its row; whether the lane retains it. -/
def applyPrivateSource :
    Eff ResourceManager Bool := do
  let s ← Eff.get
  match record.privateSource with
  | none => pure false
  | some source => do
    let row ← Eff.deref result.source
    match row.mode with
    | .retain => do
      retainPrivateSource source row.finalSummary
      pure (decide (result.status = .published))
    | .consumeToActive => do
      Eff.modify (·.eraseSessions (s.catalog source.slot).id)
      Eff.modify fun s => s.setEntry source.slot
        (ResourceManager.consumedEntry (s.catalog source.slot)
          (record.publicationSlot = source.slot))
      pure false

def applySharedSource :
    Eff ResourceManager Unit := do
  match record.sharedSource with
  | none => pure ()
  | some source => do
    Eff.modify (·.unpinShared source.slot)
    let row ← Eff.deref result.sharedSource
    match row.finalSummary with
    | none => pure ()
    | some final =>
      Eff.modify fun s =>
        let entry := s.sharedCatalog source.slot
        let updated := { final with activeReferences := 0 }
        if updated ≠ entry.summary then
          s.setSharedEntry source.slot { entry with
            summary := updated
            revision := advanceRevision entry.revision }
        else s

/-- The active entry a published materialization gives its lane. -/
def startedEntry (retained : Bool) :
    ActiveEntry :=
  { occupied := true
    publicationSlot := some record.publicationSlot
    continuationId := (s.catalog record.publicationSlot).id
    session := record.session
    retention := record.retention
    updateSessionIndex := record.updateSessionIndex
    publicationOrder := record.publicationOrder
    retainedPrivateSource :=
      if retained then record.privateSource.map fun c => activeEdge (s.privateCapability c.slot)
      else (s.active record.destination).retainedPrivateSource
    sharedSources := (s.active record.destination).sharedSources ++
      (record.sharedSource.map fun c => activeEdge (s.sharedCapability c.slot)).toList }

/-- The changes to the owners and sources of a record; whether the lane retains its source. -/
def settleMaterialization :
    Eff ResourceManager Bool := do
  Eff.when (result.status = .published) (Eff.modify (·.observeSelectedHit record))
  Eff.forEach record.privateClaims fun claim => do
    let row ← privateResultFor materializationPrivateId result.victims claim
    applyPrivateAction claim row
  Eff.forEach record.sharedClaims fun claim => do
    let row ← sharedResultFor materializationSharedId result.sharedVictims claim
    applySharedAction claim row
  let retained ← applyPrivateSource record result
  applySharedSource record result
  pure retained

/-- The part of `adopt_materialization_progress` from its first change on. -/
def applyMaterialization :
    Eff ResourceManager MaterializationOutcome := do
  let retained ← settleMaterialization record result
  if result.status = .aborted then do
    Eff.modify (·.restoreUnreportedMaterialization record)
    Eff.modify (·.setLane record.destination .free)
    Eff.modify (·.setTransaction .none)
    pure .aborted
  else do
    Eff.modify (·.reservePublication record)
    Eff.modify fun s => s.setActive record.destination (startedEntry s record retained)
    let start ← Eff.deref result.published
    Eff.modify (·.commitDemand record.demand)
    pure (.published { sequence := start, destination := record.destination })

def adoptMaterializationProgress (hasContextTransaction : Bool) (result : MaterializationResult) :
    Eff ResourceManager MaterializationOutcome := do
  let record ← openMaterialization hasContextTransaction
  checkMaterialization record result
  applyMaterialization record result

/-! ## Activation -/

/-- `adopt` is noexcept: a mismatch terminates. -/
def adopt (hasContextTransaction : Bool) (activation : PublishedActivation) :
    Eff ResourceManager Unit := do
  let s ← Eff.get
  match s.transaction with
  | .materialization _ =>
    if activation.destination < s.laneCount ∧ s.lanes activation.destination = .materializing ∧
        (s.active activation.destination).occupied ∧ hasContextTransaction then do
      Eff.modify (·.setLane activation.destination .active)
      Eff.modify (·.setTransaction .none)
    else Eff.die
  | _ => Eff.die

end Ninfer.Resources
