/-
  The tables of the logical resource manager.

  A private catalogue of continuations, a shared catalogue of prefixes, an open-addressed index
  from cache sessions to private slots, one active entry for each lane, and at most one open
  transaction with the record of what it claimed. Tables of fixed size are functions on slots
  that the code reads below their count.

  Ids and revisions are 64-bit and skip 0 when they wrap. `kInvalidCatalogSlot` is `none` where a
  slot may be missing. Statistics (`context_stats_`) and the scratch tables that a call rebuilds
  before it reads them (`prefix_index_`, `grace_scratch_`, `observation_scratch_`) are not part
  of the state. Vector capacities reserved by the constructor never change: `maxLongAnchors` for
  the anchors of a summary, `3 + maxLongAnchors` for observations, 32 for the demand window, the
  shared capacity for the shared sources of a lane.
-/
import Ninfer.Resources.Contract
import Ninfer.Lib.Probing

namespace Ninfer.Resources

open Lib Function

/-! ## Entries -/

inductive CatalogState where
  | vacant
  | catalogued
  | claimed
  | reservedForActive
  deriving DecidableEq

inductive SharedCatalogState where
  | vacant
  | catalogued
  | claimed
  | reservedCapture
  deriving DecidableEq

structure RetentionObservation where
  retentionClass : RetentionClass := .recentPrivate
  selectedHitCount : Nat := 0
  lastHitEpoch : Nat := 0

structure CheckpointObservation where
  checkpoint : CheckpointRef
  observation : RetentionObservation

abbrev CacheSessionKey := List UInt8

structure CatalogEntry where
  state : CatalogState := .vacant
  id : UInt64 := 0
  revision : UInt64 := 1
  summary : ContinuationSummary := {}
  handle : Option Nat := none
  session : Option CacheSessionKey := none
  observations : List CheckpointObservation := []
  retention : RetentionClass := .recentPrivate
  publishedEpoch : Nat := 0

structure SharedCatalogEntry where
  state : SharedCatalogState := .vacant
  id : UInt64 := 0
  revision : UInt64 := 1
  summary : SharedPrefixSummary := {}
  handle : Option Nat := none
  observation : RetentionObservation := { retentionClass := .sharedStable }
  transactionPins : Nat := 0
  explicitCredit : Bool := false
  creditExpiryEpoch : Nat := 0

def advanceRevision (revision : UInt64) : UInt64 :=
  if revision + 1 = 0 then 1 else revision + 1

def saturatingIncrement (value : Nat) : Nat := if value ≠ 2 ^ 64 - 1 then value + 1 else value

def clearCatalogEntry (e : CatalogEntry) : CatalogEntry :=
  { revision := advanceRevision e.revision }

def clearSharedEntry (e : SharedCatalogEntry) : SharedCatalogEntry :=
  { revision := advanceRevision e.revision }

/-! ## Observations of checkpoints -/

variable (observations : List CheckpointObservation)

def findObservation (checkpoint : CheckpointRef) :
    Option RetentionObservation :=
  (observations.find? (·.checkpoint = checkpoint)).map (·.observation)

/-- Endpoints, turn closures and replays keep their history while their frontier moves. -/
def findSingletonObservation (checkpoint : CheckpointRef) : Option RetentionObservation :=
  if checkpoint.ordinal ≠ 0 then none
  else (observations.find? fun o =>
    o.checkpoint.kind = checkpoint.kind ∧ o.checkpoint.ordinal = 0).map (·.observation)

def migratedObservation (retention : RetentionClass)
    (checkpoint : CheckpointRef) : CheckpointObservation :=
  let old := (findObservation observations checkpoint).or
    (findSingletonObservation observations checkpoint)
  { checkpoint
    observation := { old.getD {} with
      retentionClass := retention } }

/-- `migrate_observations`; it terminates when the scratch vector is full. -/
def migrateObservations {σ : Type} (maxLongAnchors : Nat) (e : CatalogEntry)
    (summary : ContinuationSummary) (retention : RetentionClass) : Eff σ CatalogEntry :=
  if summary.checkpoints.length > 3 + maxLongAnchors then Eff.die
  else pure { e with
    observations := summary.checkpoints.map fun c =>
      migratedObservation e.observations retention c.ref }

/-- `assign_continuation_summary`; it terminates when the anchors do not fit. -/
def assignContinuationSummary {σ : Type} (maxLongAnchors : Nat) (e : CatalogEntry)
    (source : ContinuationSummary) : Eff σ CatalogEntry :=
  if source.longAnchors.length > maxLongAnchors then Eff.die
  else pure { e with
    summary := { source with activeReferences := 0 } }

/-! ## Lanes and records -/

structure ActiveOwnerEdge where
  owner : LogicalOwnerKey
  slot : Nat
  deriving DecidableEq

def activeEdge (c : CatalogCapability) : ActiveOwnerEdge := { owner := c.owner, slot := c.slot }

/-- `reset_active_entry` writes the default values of the fields. -/
structure ActiveEntry where
  occupied : Bool := false
  publicationSlot : Option Nat := none
  continuationId : UInt64 := 0
  session : Option CacheSessionKey := none
  retention : RetentionClass := .recentPrivate
  updateSessionIndex : Bool := true
  publicationOrder : Nat := 0
  retainedPrivateSource : Option ActiveOwnerEdge := none
  sharedSources : List ActiveOwnerEdge := []

structure PolicyObservationKey where
  shared : Bool
  slot : Nat
  ownerId : UInt64
  revision : UInt64
  checkpoint : CheckpointRef
  deriving DecidableEq

structure ReuseDomainId where
  low : UInt64
  high : UInt64
  deriving DecidableEq

structure PrefixDemandRecord where
  domain : ReuseDomainId
  candidateKeys : List PrefixShortlistKey := []
  exactResidentKeys : List PrefixShortlistKey := []
  selectedSourceKey : Option PrefixShortlistKey := none
  deriving DecidableEq

/-- `plan` is the resource revision the sealed `ResourcePlan` was made at, with whether it needs
    a transfer; it is taken when the plan is started. -/
structure Choice where
  destination : Nat
  plan : Option (UInt64 × Bool)
  sourceMode : PrivateSourceMode
  privateSource : Option CatalogCapability := none
  sharedSource : Option CatalogCapability := none
  publicationSlot : Nat
  privateClaims : List OwnerClaim := []
  sharedClaims : List OwnerClaim := []
  selectedObservation : Option PolicyObservationKey := none
  session : Option CacheSessionKey := none
  retention : RetentionClass
  updateSessionIndex : Bool
  publicationOrder : Nat
  demand : PrefixDemandRecord

structure MaterializationRecord where
  destination : Nat
  privateSource : Option CatalogCapability
  sourceMode : PrivateSourceMode
  sharedSource : Option CatalogCapability
  publicationSlot : Nat
  privateClaims : List OwnerClaim
  sharedClaims : List OwnerClaim
  selectedObservation : Option PolicyObservationKey
  session : Option CacheSessionKey
  retention : RetentionClass
  updateSessionIndex : Bool
  publicationOrder : Nat
  demand : PrefixDemandRecord
  deriving DecidableEq

structure ActiveCaptureRecord where
  lane : Nat
  publishesPrivate : Bool := false
  publishesShared : Bool := false
  publicationSlot : Option Nat := none
  replacementId : UInt64 := 0
  replacementRevision : UInt64 := 0
  sharedEvidence : SharedCandidateEvidence := {}
  privateClaims : List OwnerClaim := []
  sharedClaims : List OwnerClaim := []
  deriving DecidableEq

inductive Transaction where
  | none
  | materialization (record : MaterializationRecord)
  | activeCapture (record : ActiveCaptureRecord)
  deriving DecidableEq

def takeMaterializationRecord (c : Choice) : MaterializationRecord :=
  { c with }

/-! ## The session index -/

structure SessionIndexEntry where
  state : Probing.Kind := .empty
  key : CacheSessionKey := []
  slot : Option Nat := none
  ownerId : UInt64 := 0
  revision : UInt64 := 0
  publicationOrder : Nat := 0

def sessionHash (key : CacheSessionKey) : UInt64 :=
  key.foldl (fun hash value => (hash ^^^ value.toUInt64) * 1099511628211) 1469598103934665603

/-- The cell a probe for the key starts at in an index of `n` cells. -/
def sessionHome (n : Nat) (key : CacheSessionKey) : Nat := (sessionHash key).toNat % n

/-- `find_session_cell`. -/
def findSessionCell (n : Nat) (index : Nat → SessionIndexEntry) (key : CacheSessionKey) :
    Option Nat :=
  Probing.scan (·.state) (·.key) index key (Probing.probes n (sessionHome n key))

/-- The probe of `session_insert_cell`. -/
def sessionInsertCell (n : Nat) (index : Nat → SessionIndexEntry) (key : CacheSessionKey) :
    Option Nat :=
  Probing.scanInsert (·.state) (·.key) index key none (Probing.probes n (sessionHome n key))

/-- The cell `erase_session_if_owner` leaves; the key stays in it. -/
def erasedCell (c : SessionIndexEntry) : SessionIndexEntry := { state := .deleted, key := c.key }

def eraseSessionIfOwner (ownerId : UInt64) (index : Nat → SessionIndexEntry) :
    Nat → SessionIndexEntry :=
  if ownerId = 0 then index
  else fun c =>
    if (index c).state = .occupied ∧ (index c).ownerId = ownerId then erasedCell (index c)
    else index c

/-- `refresh_session_owner_revision` stops at the first cell of the owner and slot. -/
def refreshSessionOwnerRevision (n catalogCount : Nat) (ownerId : UInt64) (slot : Nat)
    (revision : UInt64) (index : Nat → SessionIndexEntry) : Nat → SessionIndexEntry :=
  if ownerId = 0 ∨ slot ≥ catalogCount then index
  else
    match (List.range n).find? fun c =>
      (index c).state = .occupied ∧ (index c).ownerId = ownerId ∧ (index c).slot = some slot with
    | none => index
    | some c => update index c { index c with revision }

/-! ## The manager -/

structure ResourceManager where
  laneCount : Nat
  catalogCount : Nat
  sharedCatalogCount : Nat
  cacheEnabled : Bool
  maxLongAnchors : Nat
  lanes : Nat → LogicalLaneState := fun _ => .free
  catalog : Nat → CatalogEntry := fun _ => {}
  sharedCatalog : Nat → SharedCatalogEntry := fun _ => {}
  /-- It has as many cells as the private catalogue has slots. -/
  sessionIndex : Nat → SessionIndexEntry := fun _ => {}
  active : Nat → ActiveEntry := fun _ => {}
  transaction : Transaction := .none
  demandWindow : List PrefixDemandRecord := []
  demandEpoch : Nat := 0
  retentionEpoch : Nat := 0
  publicationEpoch : Nat := 0
  nextContinuationId : UInt64 := 1
  nextSharedPrefixId : UInt64 := 1

def maximumConcurrency : Nat := 8

def demandWindowCapacity : Nat := 32

/-- `checked_prefix_index_capacity`, none when it overflows. -/
def checkedPrefixIndexCapacity (privateCapacity sharedCapacity maxLongAnchors : Nat) : Option Nat :=
  let width := maxLongAnchors + 2
  if privateCapacity ≠ 0 ∧ width > (2 ^ 64 - 1 - sharedCapacity) / privateCapacity then none
  else some (privateCapacity * width + sharedCapacity)

/-- The constructor; none when it throws. -/
def ResourceManager.make (laneCount privateCatalogCapacity sharedCatalogCapacity : Nat)
    (cacheEnabled : Bool) (maxLongAnchors : Nat) : Option ResourceManager :=
  match checkedPrefixIndexCapacity privateCatalogCapacity sharedCatalogCapacity maxLongAnchors with
  | none => none
  | some _ =>
    if laneCount = 0 ∨ laneCount > maximumConcurrency ∨ privateCatalogCapacity < laneCount then none
    else some
      { laneCount
        catalogCount := privateCatalogCapacity
        sharedCatalogCount := sharedCatalogCapacity
        cacheEnabled
        maxLongAnchors }

namespace ResourceManager

variable (s : ResourceManager)

variable (slot : Nat)

/-- An occupied lane retains the private slot. -/
def privateHasActiveEdge : Bool :=
  (List.range s.laneCount).any fun l =>
    (s.active l).occupied ∧ (s.active l).retainedPrivateSource.any (·.slot = slot)

def sharedActiveEdgeCount : Nat :=
  ((List.range s.laneCount).map fun l =>
    if (s.active l).occupied then (s.active l).sharedSources.countP (·.slot = slot) else 0).sum

def privateCapability : CatalogCapability :=
  { owner := { kind := .privateContinuation, id := (s.catalog slot).id }
    slot
    generation := (s.catalog slot).revision }

def sharedCapability : CatalogCapability :=
  { owner := { kind := .sharedPrefix, id := (s.sharedCatalog slot).id }
    slot
    generation := (s.sharedCatalog slot).revision }

def setEntry (e : CatalogEntry) : ResourceManager :=
  { s with catalog := update s.catalog slot e }

def setSharedEntry (e : SharedCatalogEntry) : ResourceManager :=
  { s with sharedCatalog := update s.sharedCatalog slot e }

def setLane (lane : Nat) (state : LogicalLaneState) : ResourceManager :=
  { s with lanes := update s.lanes lane state }

def setActive (lane : Nat) (a : ActiveEntry) : ResourceManager :=
  { s with active := update s.active lane a }

def setTransaction (t : Transaction) : ResourceManager :=
  { s with transaction := t }

end ResourceManager

end Ninfer.Resources
