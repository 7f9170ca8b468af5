/-
  A private source that an admission consumes: the plan (`inspect_lane` with a private source in
  mode `ConsumeToActive`), the plan together with its victims (`compose_pressure_candidate`), and
  the release of what the new request does not keep (`prepare_consumed_source`).

  A plan that retains its source is not followed here and comes out as `.declined`. Of the prompt
  only what is asked of it is kept: whether it matches the source up to a frontier. The checks of
  the speculative backend's own frontiers are one answer, `materializable`. Owner ids, work
  figures, vision and capture groups are left out, and so is whether the Host arena has room.
-/
import Ninfer.Qwen.Pressure

namespace Ninfer.Qwen

open Lib Function
open Resources (CheckpointKind CheckpointRef)

/-- `PrefixReusePath`. -/
inductive ReusePath where
  | root
  | privateEndpoint
  | privateTurnClosure
  | privateResponseReplay
  | privateLongAnchor
  | sharedStablePrefix
  deriving DecidableEq

def isRewriteCheckpointRestore (path : ReusePath) : Prop :=
  path = .privateTurnClosure ∨ path = .privateResponseReplay
  deriving Decidable

def restorePath : RewriteCheckpointKind → ReusePath
  | .turnClosure => .privateTurnClosure
  | .responseReplay => .privateResponseReplay

inductive RewriteCheckpointDisposition where
  | retainExisting
  | replaceAtCommittedFrontier
  | dropOptional
  deriving DecidableEq

/-- The base plan of a request and what its prompt answers about the source. -/
structure RequestBase where
  /-- Reuse is allowed and the prompt's identity is reusable. -/
  allowPrefixReuse : Bool := true
  prefixMatches : Nat → Bool := fun _ => true
  publishContinuation : Bool := true
  rewriteCheckpoint : Option RewriteCheckpoint := none
  /-- `root_demand.active_entitlement.device`. -/
  rootActive : PhysicalDeviceResources
  materializable : Bool := true

structure AdmissionCandidate where
  sourceIndex : Nat
  reuse : ReusePath
  reuseBase : Nat
  rewriteDisposition : RewriteCheckpointDisposition
  stateForkRequired : Bool
  prefixForkRequired : KVClass → Bool
  activeOptionalResources : PhysicalResources
  sourceResources : PhysicalResources
  transferRequirements : List ContextTransferRequirement
  needsTransfer : Bool
  demand : PhysicalDemand
  pressure : List Victim := []
  sharedPressure : List Victim := []

namespace Residents

/-! ## What a prefix of an address space consists of -/

section Prefix

variable (s : Residents) (c : KVClass) (pages : List Nat) (frontier : Nat)

def checkMembership : Except Stop Unit :=
  throwIf (kvPagesForFrontier frontier > pages.length)
    (.logicError "checkpoint KV requirement exceeds address membership")

def isShared (page : Nat) : Bool := decide (s.addressReferences c page > 1)

def deviceKvPrefixPages : Except Stop Nat := do
  checkMembership pages frontier
  return (pages.take (kvPagesForFrontier frontier)).countP (s.pageOnDevice c)

/-- The pages of the prefix without a partial tail. -/
def wholePrefix : List Nat :=
  if frontier % 64 = 0 then pages.take (kvPagesForFrontier frontier)
  else (pages.take (kvPagesForFrontier frontier)).dropLast

def sharedKvPrefixPages : Except Stop Nat := do
  checkMembership pages frontier
  return (wholePrefix pages frontier).countP (s.isShared c)

def sharedDeviceKvPrefixPages : Except Stop Nat := do
  checkMembership pages frontier
  return (pages.take (kvPagesForFrontier frontier)).countP fun p =>
    s.isShared c p && s.pageOnDevice c p

def missingSharedDeviceKvPrefixPages : Except Stop Nat := do
  checkMembership pages frontier
  return (pages.take (kvPagesForFrontier frontier)).countP fun p =>
    s.isShared c p && !s.pageOnDevice c p

/-- The last page of the prefix. -/
def prefixTail : Option Nat := (pages.take (kvPagesForFrontier frontier)).getLast?

/-- The tail, when there is one, is shared or not on the Device. -/
def tailCow : Bool :=
  match prefixTail pages frontier with
  | none => false
  | some tail => s.isShared c tail || !s.pageOnDevice c tail

def partialTailCowRequired : Except Stop Bool :=
  if frontier = 0 ∨ frontier % 64 = 0 then .ok false
  else do
    checkMembership pages frontier
    return s.tailCow c pages frontier

/-- The columns of the page at a place that lie below the frontier. -/
def selectedColumns (index : Nat) : Nat := min 64 (frontier - 64 * index)

/-- The page counts into `host_kv_prefix_bytes`. -/
def keepsHostReplica (entry : Nat × Nat) : Bool :=
  !s.isShared c entry.1 && s.pageOnHost c entry.1 &&
    !(decide (entry.2 + 1 = kvPagesForFrontier frontier ∧ frontier % 64 ≠ 0) &&
      s.tailCow c pages frontier) &&
    decide (selectedColumns frontier entry.2 = (s.pages c entry.1).committedColumns)

def hostKvPrefixBytes : Nat :=
  if s.hostKvExtents = false ∨ kvPagesForFrontier frontier > pages.length then 0
  else
    let bytes := s.pageStride c *
      (pages.zipIdx.take (kvPagesForFrontier frontier)).countP (s.keepsHostReplica c pages frontier)
    if bytes > maxU64 then 0 else bytes

/-- `missing_kv_restore`, without the number of runs. -/
def missingKvRestore : Except Stop Nat := do
  checkMembership pages frontier
  throwIf (∃ p ∈ pages.take (kvPagesForFrontier frontier),
      s.pageOnDevice c p = false ∧ s.pageOnHost c p = false)
    (.logicError "checkpoint KV page has no restorable replica")
  return (pages.take (kvPagesForFrontier frontier)).countP fun p => !s.pageOnDevice c p

/-- `private_tail_restore`: pages to bring back and the Host bytes they hold meanwhile. -/
def privateTailRestore (prefixFork : Bool) : Except Stop (Nat × Nat) :=
  if prefixFork = false ∨ frontier = 0 ∨ frontier % 64 = 0 then .ok (0, 0)
  else do
    checkMembership pages frontier
    match prefixTail pages frontier with
    | none => return (0, 0)
    | some tail =>
      if s.addressReferences c tail ≠ 1 ∨ s.pageOnDevice c tail = true then return (0, 0)
      else do
        throwIf (s.pageOnHost c tail = false)
          (.logicError "private COW tail has no restorable replica")
        return (1, s.pageStride c)

end Prefix

/-! ## The plan -/

variable (s : Residents)

def frontierOf (reuseBase : Nat) : KVClass → Nat
  | .main => reuseBase
  | .backend => backendFrontierAt s.speculativeBackend reuseBase

variable (r : RequestBase)

/-- The path and base a checkpoint of the source gives. -/
def selectPath (q : SequenceState) (checkpoint : CheckpointRef) :
    Except Stop (ReusePath × Nat) := do
  declineIf (r.allowPrefixReuse = false)
  match checkpoint.kind with
  | .sessionEndpoint =>
    throwIf (checkpoint.ordinal ≠ 0) (.logicError "private endpoint checkpoint ordinal is invalid")
    throwIf (checkpoint.frontier = 0 ∨ checkpoint.frontier ≠ q.executionFrontier)
      (.logicError "catalog endpoint summary disagrees with Program state")
    declineIf (r.prefixMatches checkpoint.frontier = false)
    return (.privateEndpoint, checkpoint.frontier)
  | .longAnchor => .error .declined
  | _ =>
    throwIf (checkpoint.ordinal ≠ 0) (.logicError "private rewrite checkpoint ordinal is invalid")
    match q.rewriteCheckpoint with
    | none => .error (.fault (.logicError "catalog rewrite summary disagrees with Program state"))
    | some rewrite =>
      throwIf (checkpoint.kind ≠ checkpointKind rewrite.kind ∨ checkpoint.frontier = 0 ∨
          checkpoint.frontier ≠ rewrite.frontier)
        (.logicError "catalog rewrite summary disagrees with Program state")
      declineIf (r.prefixMatches checkpoint.frontier = false)
      return (restorePath rewrite.kind, checkpoint.frontier)

/-- `can_retain_rewrite_checkpoint`. -/
def canRetainRewriteCheckpoint (desired : RewriteCheckpoint)
    (q : SequenceState) (reuse : ReusePath) (reuseBase : Nat) : Prop :=
  ∃ rewrite ∈ q.rewriteCheckpoint, (∃ i ∈ q.rewriteState, (s.images i).isSome) ∧
    r.prefixMatches rewrite.frontier = true ∧
    (rewrite.frontier = desired.frontier ∨
      (isRewriteCheckpointRestore reuse ∧ rewrite.frontier = reuseBase ∧
        desired.frontier ≤ reuseBase))
  deriving Decidable

def rewriteDisposition (q : SequenceState) (reuse : ReusePath)
    (reuseBase : Nat) : RewriteCheckpointDisposition :=
  match r.rewriteCheckpoint with
  | none => .dropOptional
  | some desired =>
    if r.publishContinuation = false then .dropOptional
    else if s.canRetainRewriteCheckpoint r desired q reuse reuseBase then .retainExisting
    else if desired.frontier > reuseBase then .replaceAtCommittedFrontier
    else .dropOptional

variable (q : SequenceState)

variable (reuse : ReusePath)

/-- `selected_state`. -/
def selectedState : Except Stop Nat :=
  if reuse = .privateEndpoint then
    match q.state.read with
    | none => .error (.fault (.logicError "private endpoint StateImage is stale"))
    | some i => do
      throwIf (q.endpointValid = false ∨ s.images i = none)
        (.logicError "private endpoint StateImage is stale")
      return i
  else
    match q.rewriteState with
    | none => .error (.fault (.logicError "materialization path has no selected StateImage"))
    | some i => do
      throwIf (¬ isRewriteCheckpointRestore reuse ∨ s.images i = none)
        (.logicError "materialization path has no selected StateImage")
      return i

/-- `selected_state_consumed_references` of a selected image. -/
def consumedReferences
    (disposition : RewriteCheckpointDisposition) (reuseBase selected : Nat) : Except Stop Nat := do
  throwIf (isRewriteCheckpointRestore reuse ∧ disposition ≠ .retainExisting ∧
      q.rewriteState ≠ some selected)
    (.logicError "selected rewrite StateImage is unavailable")
  let consumed :=
    (if disposition ≠ .retainExisting ∧ q.rewriteState = some selected then 1 else 0) +
    q.longAnchors.countP fun a => a.frontier > reuseBase ∧ a.state = selected
  throwIf (consumed > s.checkpointReferences selected)
    (.logicError "selected StateImage reference inventory is inconsistent")
  return consumed

/-- The checkpoints of the source that the active lineage keeps. -/
def optionalStates (disposition : RewriteCheckpointDisposition) (reuseBase : Nat) : List Nat :=
  (if disposition = .retainExisting then q.rewriteState.toList else []) ++
    (q.longAnchors.filter fun a => reuse = .privateEndpoint ∨ a.frontier ≤ reuseBase).map (·.state)

/-- `active_optional_resources`; a restore counts only what the source holds alone. -/
def activeOptionalResources
    (disposition : RewriteCheckpointDisposition) (reuseBase : Nat) : PhysicalResources :=
  s.imageSlots ((optionalStates q reuse disposition reuseBase).dedup.filter fun i =>
    (s.images i).isSome ∧ (reuse = .privateEndpoint ∨ s.stateExclusiveToSequence q i))

def imageResidency (image : Nat) : Residency :=
  ⟨s.imageOnDevice image, s.imageOnHost image⟩

/-- One class of the source, as the demand reads it. -/
structure ClassFigures where
  shared : Nat := 0
  missingShared : Nat := 0
  convertible : Nat := 0
  hostBytes : Nat := 0
  tailRestore : Nat := 0
  tailBytes : Nat := 0
  missing : Nat := 0
  prefixFork : Bool := false

variable (c : KVClass)

/-- `active` is the entitlement of the class; `exceeded` says that it is too small. -/
def classFigures (pages : List Nat) (frontier active : Nat)
    (exceeded inventory : String) : Except Stop ClassFigures := do
  let prefixFork ← s.partialTailCowRequired c pages frontier
  let device ← s.deviceKvPrefixPages c pages frontier
  let missing ← s.missingKvRestore c pages frontier
  throwIf (missing ≠ kvPagesForFrontier frontier - device) (.logicError inventory)
  let shared ← s.sharedKvPrefixPages c pages frontier
  let missingShared ← s.missingSharedDeviceKvPrefixPages c pages frontier
  throwIf (shared > active) (.logicError exceeded)
  let sharedDevice ← s.sharedDeviceKvPrefixPages c pages frontier
  let tail ← s.privateTailRestore c pages frontier prefixFork
  return {
    shared
    missingShared
    convertible := device - sharedDevice
    hostBytes := s.hostKvPrefixBytes c pages frontier
    tailRestore := tail.1
    tailBytes := tail.2
    missing
    prefixFork }

def backendFigures (kv : SequenceKVBundle) (frontier active : Nat) :
    Except Stop ClassFigures :=
  match kv.backend with
  | none => .ok {}
  | some address =>
    s.classFigures .backend address.pages frontier active
      "shared Backend KV exceeds the active entitlement"
      "Backend KV restore inventory is inconsistent"

/-- The transfers of a plan, without their work. -/
def planTransfers (reuseBase : Nat) (residency : Residency) (stateFork : Bool)
    (main backend : ClassFigures) : List ContextTransferRequirement :=
  let hostOnly : Bool := !residency.device && residency.host
  (if hostOnly then [⟨.state, .hostToDevice, 0, ()⟩] else []) ++
  (if isMaskedDraftBackend s.speculativeBackend ∧ stateFork = true ∧ hostOnly = false then
    [⟨.state, .deviceToDevice, 0, ()⟩] else []) ++
  (if main.missing ≠ 0 then [⟨.mainKv, .hostToDevice, main.missing, ()⟩] else []) ++
  (if backend.missing ≠ 0 then [⟨.backendKv, .hostToDevice, backend.missing, ()⟩] else []) ++
  -- The copy of a backend tail is listed only beside one of the main tail.
  if main.prefixFork then
    (if reuseBase % 64 ≠ 0 then [⟨.mainKv, .deviceToDevice, 1, ()⟩] else []) ++
    (if backend.prefixFork ∧ s.frontierOf reuseBase .backend % 64 ≠ 0 then
      [⟨.backendKv, .deviceToDevice, 1, ()⟩] else [])
  else []

/-- The demand of a consumed source. -/
def consumeDemand (active : PhysicalDeviceResources) (optionals sourceResources : PhysicalResources)
    (movesDeviceState : Bool) (main backend : ClassFigures) : PhysicalDemand :=
  let exclusiveActive : PhysicalDeviceResources := { active with
    mainKvPages := active.mainKvPages - main.shared
    backendKvPages := active.backendKvPages - backend.shared }
  let conversions : PhysicalDeviceResources := {
    stateSlots := min exclusiveActive.stateSlots
      (optionals.device.stateSlots + if movesDeviceState then 1 else 0)
    mainKvPages := min exclusiveActive.mainKvPages main.convertible
    backendKvPages := min exclusiveActive.backendKvPages backend.convertible }
  let retainedHost : PhysicalHostResources := { optionals.host with
    kvBytes := main.hostBytes + backend.hostBytes }
  let reservationAdded : PhysicalResources := {
    device := {
      activeLanes := exclusiveActive.activeLanes
      stateSlots := exclusiveActive.stateSlots - conversions.stateSlots
      mainKvPages := exclusiveActive.mainKvPages - conversions.mainKvPages + main.missingShared +
        main.tailRestore
      backendKvPages := exclusiveActive.backendKvPages - conversions.backendKvPages +
        backend.missingShared + backend.tailRestore } }
  let activeResources : PhysicalResources := { device := exclusiveActive, host := retainedHost }
  let reusedSource : PhysicalResources := {
    device := conversions
    host := { retainedHost with
      kvBytes := retainedHost.kvBytes + (main.tailBytes + backend.tailBytes) } }
  { activeEntitlement := activeResources
    reservationAdded
    reservationCredit := { device := conversions }
    physicalPeakAdditional := reservationAdded - (sourceResources - reusedSource)
    finalRemoved := sourceResources
    finalAdded := { activeResources with
      device := { exclusiveActive with
        mainKvPages := exclusiveActive.mainKvPages + main.missingShared
        backendKvPages := exclusiveActive.backendKvPages + backend.missingShared } } }

/-- The sums of `consumeDemand` are representable. -/
def checkDemand (active : PhysicalDeviceResources) (optionals : PhysicalResources)
    (main backend : ClassFigures) : Except Stop Unit := do
  throwIf (active.stateSlots > maxU32)
    (.overflowError "active optional StateImage entitlement overflow")
  throwIf (optionals.device.stateSlots ≥ maxU32)
    (.overflowError "active StateImage conversion overflow")
  throwIf (main.hostBytes + backend.hostBytes > maxU64)
    (.overflowError "active Host KV entitlement overflow")
  throwIf (main.hostBytes + backend.hostBytes + (main.tailBytes + backend.tailBytes) > maxU64)
    (.overflowError "private COW preparation Host KV entitlement overflow")
  throwIf (active.mainKvPages + main.missingShared + main.tailRestore > maxU32 ∨
      active.backendKvPages + backend.missingShared + backend.tailRestore > maxU32)
    (.overflowError "shared KV restore demand overflow")

/-- `inspect_lane` with a private source that it consumes. -/
def inspectLane (k : Nat) (checkpoint : CheckpointRef) :
    Except Stop AdmissionCandidate := do
  let q := (s.continuations k).sequence
  let (reuse, reuseBase) ← selectPath r q checkpoint
  throwIf (r.materializable = false) (.logicError "published checkpoint is not materializable")
  let disposition := s.rewriteDisposition r q reuse reuseBase
  let selected ← s.selectedState q reuse
  -- An endpoint that an optional checkpoint aliases stays immutable: the source is retained.
  declineIf (reuse = .privateEndpoint ∧ selected ∈ optionalStates q reuse disposition reuseBase)
  let consumed ← s.consumedReferences q reuse disposition reuseBase selected
  let stateFork := decide (s.checkpointReferences selected ≠ consumed)
  let optionals := s.activeOptionalResources q reuse disposition reuseBase
  let sourceResources ← s.ownerExclusiveResources q
  match q.kv with
  | none => .error (.fault (.logicError "checkpoint has no KV address space"))
  | some kv =>
    let active := { r.rootActive with
      stateSlots := r.rootActive.stateSlots + optionals.device.stateSlots }
    let main ← s.classFigures .main kv.text.pages reuseBase active.mainKvPages
      "shared Main KV exceeds the active entitlement" "Text KV restore inventory is inconsistent"
    let backend ← s.backendFigures kv (s.frontierOf reuseBase .backend) active.backendKvPages
    checkDemand active optionals main backend
    let transfers := s.planTransfers reuseBase (s.imageResidency selected) stateFork main backend
    return {
      sourceIndex := k
      reuse
      reuseBase
      rewriteDisposition := disposition
      stateForkRequired := stateFork
      prefixForkRequired := fun c => match c with
        | .main => main.prefixFork
        | .backend => backend.prefixFork
      activeOptionalResources := optionals
      sourceResources
      transferRequirements := transfers
      needsTransfer := decide (transfers ≠ [])
      demand := consumeDemand active optionals sourceResources
        (!stateFork && s.imageOnDevice selected) main backend }

/-! ## The plan with its victims -/

/-- The pages of the address space a class of the source has to give. -/
def protectedSource (kv : SequenceKVBundle) (backendPages : Nat) : KVClass → Option (List Nat)
  | .main => some kv.text.pages
  | .backend => if backendPages = 0 then none else kv.backend.map (·.pages)

/-- The images whose sharing with a victim may end, with the source's references on them. -/
def stateOwnershipCandidates (a : AdmissionCandidate) :
    List (Nat × Nat) :=
  if isRewriteCheckpointRestore a.reuse then
    ((optionalStates q a.reuse a.rewriteDisposition a.reuseBase).dedup.filter fun i =>
      (s.images i).isSome ∧ ¬ s.stateExclusiveToSequence q i).map
        fun i => (i, q.ownedCheckpointReferences i)
  else []

variable (a : AdmissionCandidate)

/-- `materialization_source_protection` of a consumed source. -/
def materializationSourceProtection :
    Except Stop SourceProtection := do
  let q := (s.continuations a.sourceIndex).sequence
  declineIf (¬ a.sourceIndex < s.continuationCapacity ∨
    (s.continuations a.sourceIndex).role ≠ .catalogued)
  match q.kv with
  | none => .error .declined
  | some kv =>
    let state ← s.selectedState q a.reuse
    let consumed ← s.consumedReferences q a.reuse a.rewriteDisposition a.reuseBase state
    let frontier := s.frontierOf a.reuseBase
    declineIf (kvPagesForFrontier (frontier .main) > kv.text.pages.length)
    declineIf (kvPagesForFrontier (frontier .backend) > (kv.pages .backend).length)
    let mainFork ← s.partialTailCowRequired .main kv.text.pages (frontier .main)
    let backendFork ← s.partialTailCowRequired .backend (kv.pages .backend) (frontier .backend)
    return {
      privateSourceIndex := some a.sourceIndex
      consumedPrivateSource := true
      state := some state
      consumedStateReferences := consumed
      stateOwnershipCandidates := s.stateOwnershipCandidates q a
      source := protectedSource kv (kvPagesForFrontier (frontier .backend))
      requiredPages := fun c => kvPagesForFrontier (frontier c)
      transferPages := fun c => frontier c / 64
      prefixForkRequired := fun c => match c with
        | .main => mainFork
        | .backend => backendFork }

/-- The proposed decision about an owner is the one the Program itself would make, or valid. -/
def checkPrivateVictim (protection : SourceProtection) (a : AdmissionCandidate)
    (seen : List Nat) (v : Victim) : Except Stop (List Nat) := do
  let q := (s.continuations v.index).sequence
  declineIf (¬ v.index < s.continuationCapacity ∨ (s.continuations v.index).role ≠ .catalogued)
  throwIf (v.index = a.sourceIndex ∨ v.index ∈ seen)
    (.invalidArgument "materialization pressure owner is duplicated")
  if v.decision.evictsContinuation then do
    let expected ← s.inspectEvictionOption q
    declineIf (expected ≠ v.decision)
  else s.pressureDecisionValid (some protection) q v.decision
  declineIf (v.decision.sharedOwner = true)
  match q.kv with
  | none => .error .declined
  | some kv =>
    declineIf (v.decision.backendKvChanges ≠ [] ∧ kv.backend = none)
    return seen ++ [v.index]

def checkSharedVictim (protection : SourceProtection) (seen : List Nat)
    (v : Victim) : Except Stop (List Nat) := do
  let h := (s.sharedPrefixes v.index).prefixState
  declineIf (¬ v.index < s.sharedPrefixCapacity ∨ (s.sharedPrefixes v.index).role ≠ .catalogued)
  throwIf (v.index ∈ seen) (.invalidArgument "materialization shared pressure owner is duplicated")
  if v.decision.evictsContinuation then do
    let expected ← s.inspectSharedEvictionOption h
    declineIf (expected ≠ v.decision)
  else s.sharedPressureDecisionValid (some protection) h v.decision
  declineIf (v.decision.sharedOwner = false)
  match h.kv with
  | none => .error .declined
  | some kv =>
    declineIf (v.decision.backendKvChanges ≠ [] ∧ kv.backend = none)
    return seen ++ [v.index]

/-- A fork of the selected image that the victims make unnecessary becomes a move. -/
def rederiveStateMove (projected : Option Bool) :
    Except Stop AdmissionCandidate :=
  if projected = none ∨ projected = some a.stateForkRequired then .ok a
  else do
    declineIf (a.stateForkRequired = false ∨ projected = some true)
    let selected ← s.selectedState (s.continuations a.sourceIndex).sequence a.reuse
    let a := { a with stateForkRequired := false }
    if s.imageOnDevice selected = false then return a
    else do
      let d := a.demand
      declineIf (d.reservationAdded.device.stateSlots = 0 ∨
        d.physicalPeakAdditional.device.stateSlots = 0)
      throwIf (d.reservationCredit.device.stateSlots = maxU32)
        (.overflowError "source StateImage Move credit overflow")
      declineIf (isMaskedDraftBackend s.speculativeBackend ∧
        ⟨.state, .deviceToDevice, 0, ()⟩ ∉ a.transferRequirements)
      let slot : PhysicalResources := { device := { stateSlots := 1 } }
      return { a with
        demand := { d with
          reservationAdded := d.reservationAdded - slot
          physicalPeakAdditional := d.physicalPeakAdditional - slot
          reservationCredit := d.reservationCredit + slot }
        transferRequirements :=
          if isMaskedDraftBackend s.speculativeBackend then
            a.transferRequirements.erase ⟨.state, .deviceToDevice, 0, ()⟩
          else a.transferRequirements }

/-- `rederive_prefix_move` of one class. -/
def rederivePrefixMove (projected : Option Bool)
    (a : AdmissionCandidate) : Except Stop AdmissionCandidate :=
  let pages := (s.continuations a.sourceIndex).sequence.pages c
  let frontier := s.frontierOf a.reuseBase c
  if projected = none ∨ projected = some (a.prefixForkRequired c) then .ok a
  else do
    declineIf (a.prefixForkRequired c = false ∨ projected = some true ∨ frontier = 0 ∨
      frontier % 64 = 0)
    declineIf (kvPagesForFrontier frontier > pages.length)
    match prefixTail pages frontier with
    | none => .error .declined
    | some tail => do
      declineIf (s.pageOnDevice c tail = false ∧ s.pageOnHost c tail = false)
      let d := a.demand
      let page : PhysicalResources := { device := deviceKvPages c 1 }
      declineIf (¬ page ≤ d.reservationAdded ∨ ¬ page ≤ d.physicalPeakAdditional)
      let credit ← if s.pageOnDevice c tail then checkedResourceSum d.reservationCredit page
        else pure d.reservationCredit
      declineIf (⟨c.resource, .deviceToDevice, 1, ()⟩ ∉ a.transferRequirements)
      return { a with
        demand := { d with
          reservationAdded := d.reservationAdded - page
          physicalPeakAdditional := d.physicalPeakAdditional - page
          reservationCredit := credit }
        transferRequirements := a.transferRequirements.erase ⟨c.resource, .deviceToDevice, 1, ()⟩
        prefixForkRequired := update a.prefixForkRequired c false }

/-- The demand with what the projection adds and takes away. -/
def projectedDemand (d : PhysicalDemand) (p : PressureTargetProjection) :
    Except Stop PhysicalDemand := do
  let removed := p.uniqueObjectDelta.removed
  let added := p.uniqueObjectDelta.added
  let credit ← checkedResourceSum d.reservationCredit removed
  let reserved ← checkedResourceSum d.reservationAdded added
  let peak ← checkedResourceSum d.physicalPeakAdditional added
  let finalRemoved ← checkedResourceSum d.finalRemoved removed
  let finalRemoved ← checkedResourceSum finalRemoved p.ownershipTransferDelta.removed
  let finalAdded ← checkedResourceSum d.finalAdded added
  let finalAdded ← checkedResourceSum finalAdded p.ownershipTransferDelta.added
  let entitlement ← checkedResourceDifference d.activeEntitlement p.activeEntitlementDelta.removed
  let entitlement ← checkedResourceSum entitlement p.activeEntitlementDelta.added
  return {
    activeEntitlement := entitlement
    reservationAdded := reserved
    reservationCredit := credit
    physicalPeakAdditional := positiveResourceDifference peak removed
    finalRemoved
    finalAdded }

/-- `compose_pressure_candidate` of a consumed source. -/
def composePressureCandidate
    (privateVictims sharedVictims : List Victim) : Except Stop AdmissionCandidate := do
  throwIf (a.pressure ≠ [] ∨ a.sharedPressure ≠ [])
    (.invalidArgument "materialization pressure composition is invalid")
  let protection ← s.materializationSourceProtection a
  let _ ← privateVictims.foldlM (s.checkPrivateVictim protection a) []
  let _ ← sharedVictims.foldlM (s.checkSharedVictim protection) []
  let projection ← s.evaluatePressureTarget (some protection) privateVictims sharedVictims
  let a ← s.rederiveStateMove a projection.sourceStateForkRequired
  let a ← s.rederivePrefixMove .main (projection.sourcePrefixForkRequired .main) a
  let a ← s.rederivePrefixMove .backend (projection.sourcePrefixForkRequired .backend) a
  let demand ← projectedDemand a.demand projection
  let optionals ← checkedResourceSum a.activeOptionalResources
    projection.sourceOptionalResourcesAdded
  return { a with
    demand
    activeOptionalResources := optionals
    needsTransfer := decide ((∃ v ∈ privateVictims ++ sharedVictims,
      v.decision.transferRequirements ≠ []) ∨ a.transferRequirements ≠ [])
    pressure := privateVictims
    sharedPressure := sharedVictims }

/-! ## The release -/

/-- What `release_if_unreferenced` says about an image that is still pinned. -/
def superseded : String := "superseded source StateImage remained pinned"

/-- The endpoint goes when it lies past the reuse base. -/
def dropEndpoint (k reuseBase : Nat) (s : Residents) : Except Stop Residents :=
  let q := (s.continuations k).sequence
  if q.endpointValid = true ∧ q.executionFrontier > reuseBase then
    let s := s.setSequence k fun q => { q with endpointValid := false, state := {} }
    match q.state.read with
    | none => .ok s
    | some endpoint => releaseDropped superseded k s endpoint
  else .ok s

/-- The anchor at a place goes when it lies past the reuse base. -/
def dropAnchor (k reuseBase : Nat) (s : Residents) (index : Nat) : Except Stop Residents :=
  match (s.continuations k).sequence.longAnchors[index]? with
  | none => .ok s
  | some anchor =>
    if anchor.frontier ≤ reuseBase then .ok s
    else releaseDropped superseded k
      (s.setSequence k fun q => { q with longAnchors := q.longAnchors.eraseIdx index }) anchor.state

/-- From the last anchor to the first. -/
def dropAnchors (k reuseBase : Nat) (s : Residents) : Except Stop Residents :=
  (List.range (s.continuations k).sequence.longAnchors.length).reverse.foldlM
    (dropAnchor k reuseBase) s

/-- The rewrite goes when the endpoint is reused and the request does not want it. -/
def dropRewrite (k : Nat) (a : AdmissionCandidate) (s : Residents) : Except Stop Residents :=
  if a.reuse = .privateEndpoint ∧ a.rewriteDisposition ≠ .retainExisting then
    match (s.continuations k).sequence.rewriteState with
    | none => .ok s
    | some rewrite =>
      releaseDropped superseded k
        (s.setSequence k fun q =>
          { q with rewriteState := none, rewriteCheckpoint := none }) rewrite
  else .ok s

/-- The columns of the last page below the frontier. -/
def tailColumns (frontier : Nat) : Nat := frontier - 64 * (kvPagesForFrontier frontier - 1)

/-- The tail whose content a truncation in place changes. -/
def changedTail (pages : List Nat) (frontier : Nat) : Option Nat :=
  match prefixTail pages frontier with
  | none => none
  | some tail =>
    if tailColumns frontier ≠ (s.pages c tail).committedColumns then some tail else none

/-- `can_destructive_truncate_inactive` of an address space; a Host replica of the changed tail
    is released before. -/
def canDestructiveTruncateInactive (address : KVAddressSpace)
    (frontier : Nat) : Prop :=
  s.canTruncateInactivePrefix c address frontier ∧ ∀ tail ∈ s.changedTail c address.pages frontier,
      tailColumns frontier ≤ (s.pages c tail).committedColumns ∧
      s.addressReferences c tail = 1 ∧ (s.pages c tail).writerReferences = 0 ∧
      (s.pages c tail).sourcePins = 0 ∧ s.pageOnDevice c tail = true
  deriving Decidable

/-- The checks on one address space before anything of it is released. -/
def checkTruncation (address : KVAddressSpace) (frontier : Nat)
    (prefixFork : Bool) : Except Stop Unit :=
  if prefixFork then
    throwIf (¬ s.canTruncateInactivePrefix c address frontier)
      (.logicError "COW source KV suffix is not releasable")
  else do
    throwIf (kvPagesForFrontier frontier > address.pages.length)
      (.outOfRange "KV logical page index is out of range")
    throwIf (s.hostKvExtents = false ∧ ∃ tail ∈ s.changedTail c address.pages frontier,
        s.pageOnHost c tail = true)
      (.logicError "stale source Host KV tail is not releasable")
    throwIf (¬ s.canDestructiveTruncateInactive c address frontier)
      (.logicError "consumed source KV is not destructively truncatable")

/-- The page after a truncation in place: its content has changed, so a Host replica is stale
    and gone. -/
def truncateTail (pages : List Nat) (frontier : Nat)
    (prefixFork : Bool) : Residents :=
  match prefixFork, s.changedTail c pages frontier with
  | false, some tail =>
    { s with
      pages := update s.pages c (update (s.pages c) tail { s.pages c tail with
        residency := ⟨s.pageOnDevice c tail, false⟩
        committedColumns := tailColumns frontier }) }
  | _, _ => s

def checkBackendTruncation (kv : SequenceKVBundle) (frontier : Nat)
    (prefixFork : Bool) : Except Stop Unit :=
  match kv.backend with
  | none => .ok ()
  | some address => s.checkTruncation .backend address frontier prefixFork

/-- Both address spaces cut to the reuse base. -/
def truncateSource (k : Nat) (a : AdmissionCandidate) (s : Residents) : Except Stop Residents :=
  match (s.continuations k).sequence.kv with
  | none => .error (.fault (.logicError "consumed materialization source is incomplete"))
  | some kv => do
    let frontier := s.frontierOf a.reuseBase
    s.checkTruncation .main kv.text (frontier .main) (a.prefixForkRequired .main)
    s.checkBackendTruncation kv (frontier .backend) (a.prefixForkRequired .backend)
    let s := s.truncateTail .main (kv.pages .main) (frontier .main) (a.prefixForkRequired .main)
    let s := s.truncateTail .backend (kv.pages .backend) (frontier .backend)
      (a.prefixForkRequired .backend)
    return s.setSequence k fun q => { q with
      kv := some (truncated kv (frontier .main) (frontier .backend)) }

/-- `prepare_consumed_source` up to its last check: the state it leaves and what it freed. -/
def consumedRelease :
    Except Stop (Residents × PhysicalResources) := do
  let k := a.sourceIndex
  throwIf (¬ k < s.continuationCapacity ∨ (s.continuations k).role ≠ .catalogued)
    (.logicError "materialization source changed before dependency release")
  throwIf ((s.continuations k).sequence.kv = none ∨ a.reuse = .root ∨ a.reuse = .sharedStablePrefix)
    (.logicError "consumed materialization source is incomplete")
  let before ← s.ownerExclusiveResources (s.continuations k).sequence
  let t ← dropEndpoint k a.reuseBase s
  let t ← dropAnchors k a.reuseBase t
  let t ← dropRewrite k a t
  let t ← truncateSource k a t
  let after ← t.ownerExclusiveResources (t.continuations k).sequence
  let removed ← checkedResourceDifference before after
  return (t, removed)

def prepareConsumedSource : Except Stop Residents := do
  let (t, removed) ← s.consumedRelease a
  let _ ← checkedResourceDifference a.demand.finalRemoved removed
  return t

end Residents

end Ninfer.Qwen
