/-
  Lanes: how an active request ends.

  `finish` publishes the continuation of a lane in its reserved slot and binds its session;
  `abort`, a cancelled commit row and a discard give the slot back. All of them first release
  the sources the lane holds, which throws when an edge does not name a live owner.
-/
import Ninfer.Resources.Materialization

namespace Ninfer.Resources

open Lib Function

/-! ## Shared steps -/

variable (lane : Nat)

def requireLane (expected : LogicalLaneState) : Eff ResourceManager Unit := do
  let s ← Eff.get
  Eff.require (lane < s.laneCount ∧ s.lanes lane = expected ∧
      (expected = .active ∨ expected = .terminalPending → (s.active lane).occupied))
    (.logicError "logical lane is not in the required state")

/-- `catalog_.at(slot)`. -/
def catalogAt (slot : Option Nat) : Eff ResourceManager Nat := do
  let s ← Eff.get
  match slot with
  | some j => do
    Eff.require (j < s.catalogCount) (.outOfRange "vector::at")
    pure j
  | none => Eff.raise (.outOfRange "vector::at")

variable (s : ResourceManager)

/-- The retained edge of a lane names a catalogued owner. -/
abbrev RetainedLive (edge : ActiveOwnerEdge) : Prop :=
  (s.catalog edge.slot).state = .catalogued ∧ (s.catalog edge.slot).handle.isSome ∧
    (s.catalog edge.slot).id = edge.owner.id

abbrev SharedLive (edge : ActiveOwnerEdge) : Prop :=
  (s.sharedCatalog edge.slot).state = .catalogued ∧
    (s.sharedCatalog edge.slot).handle.isSome ∧ (s.sharedCatalog edge.slot).id = edge.owner.id

def releaseActiveReferences : Eff ResourceManager Unit := do
  let s ← Eff.get
  let active := s.active lane
  Eff.require (∀ edge ∈ active.retainedPrivateSource,
      edge.owner.kind = .privateContinuation ∧ edge.slot < s.catalogCount)
    (.logicError "retained private source edge is malformed")
  Eff.require (∀ edge ∈ active.retainedPrivateSource, RetainedLive s edge)
    (.logicError "retained private source edge is stale")
  Eff.forEach active.sharedSources.zipIdx fun (edge, index) => do
    Eff.require (edge.owner.kind = .sharedPrefix ∧ edge.slot < s.sharedCatalogCount ∧
        edge ∉ active.sharedSources.take index)
      (.logicError "shared source edge is malformed")
    Eff.require (SharedLive s edge) (.logicError "shared source edge is stale")
  Eff.modify (·.setActive lane { active with retainedPrivateSource := none, sharedSources := [] })

/-- The lane gives its reserved slot back and is free. -/
def ResourceManager.freeLane (lane slot : Nat) : ResourceManager :=
  ((s.setEntry slot (clearCatalogEntry (s.catalog slot))).setActive lane {}).setLane lane .free

/-- The tail of every path that ends a lane without a continuation. -/
def releaseLane : Eff ResourceManager Unit := do
  releaseActiveReferences lane
  let s ← Eff.get
  let slot ← catalogAt (s.active lane).publicationSlot
  Eff.modify (·.freeLane lane slot)

def releaseCancelledLane : Eff ResourceManager Unit := do
  let s ← Eff.get
  Eff.require (lane < s.laneCount ∧ (s.active lane).occupied ∧
      (s.lanes lane = .active ∨ s.lanes lane = .terminalPending))
    (.logicError "cancelled lane has no logical active owner")
  releaseLane lane

/-! ## Sessions -/

namespace ResourceManager

/-- `demote_replaced_session`: the owner the cell named before loses the session. -/
def demoteReplacedSession (s : ResourceManager) (previous : SessionIndexEntry)
    (replacementSlot : Nat) (replacementId : UInt64) : ResourceManager :=
  match previous.slot with
  | none => s
  | some j =>
    let prior := s.catalog j
    if j < s.catalogCount ∧ ¬ (j = replacementSlot ∧ previous.ownerId = replacementId) ∧
        prior.state = .catalogued ∧ prior.handle.isSome ∧ prior.id = previous.ownerId ∧
        prior.revision = previous.revision then
      s.setEntry j { prior with
        session := none
        retention := .recentPrivate
        observations := prior.observations.map fun o => { o with
          observation := { o.observation with retentionClass := .recentPrivate } } }
    else s

def setCell (s : ResourceManager) (cell : Nat) (c : SessionIndexEntry) : ResourceManager :=
  { s with sessionIndex := update s.sessionIndex cell c }

end ResourceManager

/-- The cell `publish_session` writes. -/
def boundCell (key : CacheSessionKey) (slot : Nat) (ownerId revision : UInt64) (order : Nat) :
    SessionIndexEntry :=
  { state := .occupied
    key
    slot := some slot
    ownerId
    revision
    publicationOrder := order }

/-- `publish_session`: false when a newer publication holds the key. -/
def publishSession (key : CacheSessionKey) (slot : Nat) (ownerId revision : UInt64) (order : Nat) :
    Eff ResourceManager Bool := do
  let s ← Eff.get
  Eff.require (s.catalogCount ≠ 0) (.logicError "session publication has no index capacity")
  match sessionInsertCell s.catalogCount s.sessionIndex key with
  | none => Eff.raise (.logicError "session index is full")
  | some cell =>
    let entry := s.sessionIndex cell
    let bound := boundCell key slot ownerId revision order
    if entry.state ≠ .occupied then do
      Eff.modify (·.setCell cell bound)
      pure true
    else if entry.publicationOrder > order then
      pure false
    else if entry.publicationOrder = order then do
      Eff.require (entry.slot = some slot ∧ entry.ownerId = ownerId)
        (.logicError "equal publication order names two continuations")
      Eff.modify (·.setCell cell { entry with revision })
      pure true
    else do
      Eff.modify (·.setCell cell bound)
      Eff.when (entry.slot ≠ some slot ∨ entry.ownerId ≠ ownerId)
        (Eff.modify (·.demoteReplacedSession entry slot ownerId))
      pure true

/-! ## Terminal steps -/

def markTerminalPending : Eff ResourceManager Unit := do
  requireLane lane .active
  Eff.modify (·.setLane lane .terminalPending)

/-- What the Program answers to a finish: its result, and the status of the abort that follows
    when the finish did not consume the sequence. -/
structure FinishView where
  hasContextTransaction : Bool := false
  finish : Except Fault FinishResult
  abort : Except Fault ConsumeStatus := .ok .consumed

/-- The continuation of the lane enters the catalogue in its reserved slot. -/
def publishContinuation (lane slot : Nat) (summary : ContinuationSummary) (handle : Nat) :
    Eff ResourceManager Unit := do
  let s ← Eff.get
  let active := s.active lane
  let entry ← renewEntry s.maxLongAnchors (s.catalog slot) summary active.retention
  Eff.modify fun s =>
    { s.setEntry slot { entry with
        state := .catalogued
        publishedEpoch := s.publicationEpoch + 1
        handle := some handle
        session := active.session
        retention := active.retention } with
      publicationEpoch := s.publicationEpoch + 1 }
  match active.session with
  | none => pure ()
  | some key =>
    if active.updateSessionIndex then do
      let bound ← publishSession key slot entry.id entry.revision active.publicationOrder
      Eff.when (bound = false) (Eff.modify fun s => s.setEntry slot { s.catalog slot with
        session := none
        retention := .recentPrivate })
    else pure ()

/-- The branch of a sequence the Program consumed into a continuation. -/
def finishCatalogued (result : FinishResult) : Eff ResourceManager Unit := do
  let s ← Eff.get
  let slot ← catalogAt (s.active lane).publicationSlot
  Eff.require (result.disposition = .catalogued ∧ result.continuation.isSome ∧
      validContinuationSummary s.maxLongAnchors result.summary ∧
      (s.catalog slot).state = .reservedForActive ∧
      (s.catalog slot).id = (s.active lane).continuationId)
    (.logicError "Program returned an invalid terminal continuation")
  releaseActiveReferences lane
  let handle ← Eff.deref result.continuation
  publishContinuation lane slot result.summary handle
  Eff.modify fun s => (s.setActive lane {}).setLane lane .free

def finish (view : FinishView) (lane : Nat) : Eff ResourceManager FinishDisposition := do
  requireLane lane .terminalPending
  let s ← Eff.get
  Eff.require (s.transaction = .none ∧ view.hasContextTransaction = false)
    (.logicError "terminal finish overlaps an open resource transaction")
  let result ← Eff.answer view.finish
  if result.status ≠ .consumed then do
    let discarded ← Eff.answer view.abort
    Eff.require (discarded = .consumed)
      (.logicError "Program could neither retain nor discard terminal sequence")
    releaseLane lane
    pure .released
  else do
    let _ ← catalogAt (s.active lane).publicationSlot
    if s.cacheEnabled = false ∨ result.disposition = .released then do
      Eff.require (result.disposition = .released ∧ result.continuation = none)
        (.logicError "released finish returned a continuation")
      releaseLane lane
      pure .released
    else do
      finishCatalogued lane result
      pure .catalogued

def abort (hasContextTransaction : Bool) (status : Except Fault ConsumeStatus) (lane : Nat) :
    Eff ResourceManager Unit := do
  let s ← Eff.get
  Eff.require (s.transaction = .none ∧ hasContextTransaction = false)
    (.logicError "terminal abort overlaps an open resource transaction")
  Eff.require (lane < maximumConcurrency) (.outOfRange "array::at")
  Eff.when (s.lanes lane = .active) (Eff.modify (·.setLane lane .terminalPending))
  requireLane lane .terminalPending
  let answered ← Eff.answer status
  Eff.require (answered = .consumed) (.logicError "Program did not consume aborted sequence")
  releaseLane lane

def applyCommitRow (disposition : CommitDisposition) : Eff ResourceManager Unit := do
  requireLane lane .active
  match disposition with
  | .active => pure ()
  | .finishable => Eff.modify (·.setLane lane .terminalPending)
  | .cancelledReleased => releaseCancelledLane lane

def applyCommit (lanes : List Nat) (result : CommitResult) : Eff ResourceManager Unit := do
  Eff.require (lanes.length = result.rows.length)
    (.logicError "commit result membership is not row aligned")
  Eff.forEach (lanes.zip result.rows) fun (lane, row) => applyCommitRow lane row

def applyDiscard (lanes : List Nat) (result : DiscardResult) : Eff ResourceManager Unit := do
  Eff.require (lanes.length = result.rowCount ∧ result.status = .consumed)
    (.logicError "pending discard did not consume its membership")
  Eff.forEach lanes releaseCancelledLane

/-- It is noexcept and swallows what a lane throws. -/
def releaseFailedCommit (lanes : List Nat) : Eff ResourceManager Unit :=
  Eff.forEach lanes fun lane => do
    let s ← Eff.get
    Eff.when (lane < s.laneCount ∧ (s.active lane).occupied)
      (Eff.swallow (releaseCancelledLane lane))

/-- `clear_after_program_cleanup`: every table is emptied; revisions and id counters go on. -/
def ResourceManager.clearAfterProgramCleanup : ResourceManager :=
  { s with
    transaction := .none
    catalog := fun j => if j < s.catalogCount then clearCatalogEntry (s.catalog j)
      else s.catalog j
    sharedCatalog := fun j => if j < s.sharedCatalogCount then clearSharedEntry (s.sharedCatalog j)
      else s.sharedCatalog j
    sessionIndex := fun _ => {}
    lanes := fun l => if l < s.laneCount then .free else s.lanes l
    active := fun l => if l < s.laneCount then {} else s.active l
    demandWindow := []
    demandEpoch := 0 }

end Ninfer.Resources
