/-
  Pressure on resident owners: what may be decided about one (`pressure_decision_valid`,
  `shared_pressure_decision_valid`), what a set of decisions is projected to free together
  (`evaluate_pressure_target`), and what carrying it out does (`publish_pressure_host_releases`,
  `publish_pressure_work`, `release_materialization_victim`, `release_shared_prefix_state_strict`).

  A decision evicts its owner, or drops some of its checkpoints and moves or drops replicas. All
  victims are decided on together, and the projection counts from the references at that time.

  The copies to the Host take as long as they take and are here done at once; whether the Host
  arena has room for them is not looked at. `.declined` stands for a result of `false` or
  `std::nullopt`.
-/
import Ninfer.Qwen.Residents

namespace Ninfer.Qwen

open Lib Function
open Resources (CheckpointKind CheckpointRef ContextResourceClass TargetKVRequirement)

/-! ## Decisions -/

inductive PressureStateDecision where
  | none
  | dropEndpointDeviceDuplicate
  | demoteEndpointToHost
  | dropEndpointHostDuplicate
  | dropRewriteDeviceDuplicate
  | demoteRewriteToHost
  | dropRewriteHostDuplicate
  | dropSharedDeviceDuplicate
  | demoteSharedToHost
  | dropSharedHostDuplicate
  deriving DecidableEq

namespace PressureStateDecision

/-- `pressure_state_drops_host`. -/
def dropsHost : PressureStateDecision → Bool
  | dropEndpointHostDuplicate | dropRewriteHostDuplicate | dropSharedHostDuplicate => true
  | _ => false

/-- `pressure_state_demotes`. -/
def demotes : PressureStateDecision → Bool
  | demoteEndpointToHost | demoteRewriteToHost | demoteSharedToHost => true
  | _ => false

def ofEndpoint : PressureStateDecision → Bool
  | dropEndpointDeviceDuplicate | demoteEndpointToHost | dropEndpointHostDuplicate => true
  | _ => false

def ofRewrite : PressureStateDecision → Bool
  | dropRewriteDeviceDuplicate | demoteRewriteToHost | dropRewriteHostDuplicate => true
  | _ => false

def ofShared : PressureStateDecision → Bool
  | dropSharedDeviceDuplicate | demoteSharedToHost | dropSharedHostDuplicate => true
  | _ => false

end PressureStateDecision

inductive PressureKVDecisionKind where
  | none
  | dropDeviceDuplicate
  | demoteToHost
  | dropHostDuplicate
  deriving DecidableEq

structure PressureKVDecision where
  beginPage : Nat
  pageCount : Nat
  kind : PressureKVDecisionKind
  deriving DecidableEq

def KVClass.resource : KVClass → ContextResourceClass
  | .main => .mainKv
  | .backend => .backendKv

/-- Without its work figures. -/
abbrev ContextTransferRequirement := Resources.ContextTransferRequirement Unit

structure PressureDecision where
  id : Nat := 0
  stateChanges : List PressureStateDecision := []
  mainKvChanges : List PressureKVDecision := []
  backendKvChanges : List PressureKVDecision := []
  droppedCheckpoints : List CheckpointRef := []
  checkpointDropEffect : PhysicalDelta := {}
  effect : PhysicalDelta := {}
  transferRequirements : List ContextTransferRequirement := []
  checkpointDrops : Nat := 0
  evictsContinuation : Bool := false
  sharedOwner : Bool := false
  deriving DecidableEq

def PressureDecision.kvChanges (d : PressureDecision) : KVClass → List PressureKVDecision
  | .main => d.mainKvChanges
  | .backend => d.backendKvChanges

/-- A victim: the index of its slot, and what is decided about it. -/
structure Victim where
  index : Nat
  decision : PressureDecision

/-- What the plan must leave alone (`MaterializationSourceProtection`); the address spaces are
    given by their pages. -/
structure SourceProtection where
  privateSourceIndex : Option Nat := none
  consumedPrivateSource : Bool := false
  state : Option Nat := none
  consumedStateReferences : Nat := 0
  /-- Images with the number of checkpoint references the source has on them. -/
  stateOwnershipCandidates : List (Nat × Nat) := []
  source : KVClass → Option (List Nat) := fun _ => none
  requiredPages : KVClass → Nat := fun _ => 0
  transferPages : KVClass → Nat := fun _ => 0
  prefixForkRequired : KVClass → Bool := fun _ => false

namespace SourceProtection

/-- `protected_materialization_page`. -/
def protectedPage (protection : Option SourceProtection) (c : KVClass) (offset page : Nat) :
    Prop :=
  ∃ p ∈ protection, ∃ pages ∈ p.source c, offset < p.requiredPages c ∧
    p.requiredPages c ≤ pages.length ∧ pages[offset]? = some page
  deriving Decidable

/-- The protected image is this one. -/
def protectedState (protection : Option SourceProtection) (state : Nat) : Prop :=
  ∃ p ∈ protection, p.state = some state
  deriving Decidable

end SourceProtection

namespace Residents

open SourceProtection

/-! ## What may be decided -/

variable (s : Residents)

/-- `can_release_reference` of a page, for an address space that is not active. -/
def canReleaseReference (c : KVClass) (page : Nat) : Prop :=
  s.activeReferences c page < s.addressReferences c page ∧ (s.pages c page).sourcePins = 0
  deriving Decidable

/-- `can_truncate_inactive_prefix`. -/
def canTruncateInactivePrefix (c : KVClass) (address : KVAddressSpace)
    (frontier : Nat) : Prop :=
  address.entitlement = none ∧ frontier ≤ address.committedFrontier ∧
    ∀ p ∈ address.pages.drop (kvPagesForFrontier frontier), s.canReleaseReference c p
  deriving Decidable

/-- The image a checkpoint of the sequence names. -/
def checkpointState (q : SequenceState) (ref : CheckpointRef) : Option Nat :=
  match ref.kind with
  | .sessionEndpoint => if q.endpointValid then q.state.read else none
  | .turnClosure | .responseReplay => q.rewriteState
  | .longAnchor =>
    (q.longAnchors.find? fun a => a.frontier = ref.frontier ∧ a.ordinal = ref.ordinal).map (·.state)
  | .sharedStablePrefix => none

/-- The order of a canonical list of dropped checkpoints. -/
def refBefore (a b : CheckpointRef) : Prop :=
  let key : CheckpointKind → Nat
    | .sessionEndpoint => 0
    | .turnClosure => 1
    | .responseReplay => 2
    | .sharedStablePrefix => 3
    | .longAnchor => 4
  key a.kind < key b.kind ∨ (key a.kind = key b.kind ∧
    (a.frontier < b.frontier ∨ (a.frontier = b.frontier ∧ a.ordinal < b.ordinal)))
  deriving Decidable

/-- Some surviving checkpoint of the sequence names the image. -/
def stateSurvivesDrops (q : SequenceState) (dropped : List CheckpointRef)
    (image : Nat) : Prop :=
  let summary := s.continuationSummary q
  (∃ m ∈ summary.endpoint, m.ref ∉ dropped ∧ q.state.read = some image) ∨
    (∃ m ∈ summary.rewrite, m.ref ∉ dropped ∧ q.rewriteState = some image) ∨
    ∃ a ∈ q.longAnchors, (s.checkpointSummary
      { kind := .longAnchor, frontier := a.frontier, ordinal := a.ordinal }).ref ∉ dropped ∧
      a.state = image
  deriving Decidable

/-- The replicas of the pages past a frontier that only this address space maps. -/
def suffixEffect (c : KVClass) (pages : List Nat) (frontier : Nat) :
    PhysicalResources :=
  let suffix := (pages.drop (kvPagesForFrontier frontier)).filter
    fun p => s.addressReferences c p = 1
  let count := suffix.countP (s.pageOnDevice c)
  { device := match c with
      | .main => { mainKvPages := count }
      | .backend => { backendKvPages := count }
    host := { kvBytes := s.hostBytes c suffix } }

variable (kv : SequenceKVBundle)

def backendCanTruncate (frontier : Nat) : Prop :=
  match kv.backend with
  | none => True
  | some address => s.canTruncateInactivePrefix .backend address frontier

instance (s : Residents) (kv : SequenceKVBundle) (frontier : Nat) :
    Decidable (s.backendCanTruncate kv frontier) := by
  unfold backendCanTruncate
  split <;> infer_instance

/-- The effect of `inspect_checkpoint_drop_option` on a sorted list without repetitions. -/
def checkpointDropEffect (q : SequenceState) (dropped : List CheckpointRef) :
    Except Stop PhysicalDelta :=
  match q.kv, retainedRequirementAfterDrops (s.continuationSummary q) dropped with
  | some kv, some remaining => do
    declineIf (∃ ref ∈ dropped, (checkpointState q ref).bind s.images = none)
    let states := (dropped.filterMap (checkpointState q)).dedup.filter fun i =>
      ¬ s.stateSurvivesDrops q dropped i ∧ s.stateExclusiveToSequence q i
    declineIf (¬ s.canTruncateInactivePrefix .main kv.text remaining.mainFrontier)
    declineIf (¬ s.backendCanTruncate kv remaining.backendFrontier)
    return {
      removed := s.imageSlots states +
        s.suffixEffect .main (kv.pages .main) remaining.mainFrontier +
        s.suffixEffect .backend (kv.pages .backend) remaining.backendFrontier }
  | _, _ => .error .declined

/-- The image a State action of a private owner is about (`pressure_state_source`). -/
def privateStateSource (q : SequenceState) (action : PressureStateDecision) :
    Except Stop (Option Nat) :=
  if action = .none then .ok none
  else if action.ofEndpoint then .ok q.state.read
  else if action.ofRewrite then
    match q.rewriteState with
    | none => .error (.fault (.logicError "pressure rewrite StateImage disappeared"))
    | some state => .ok (some state)
  else .error (.fault (.logicError "shared pressure State action targets a private owner"))

def sharedStateSource (h : SharedPrefixState) (action : PressureStateDecision) :
    Except Stop (Option Nat) :=
  if action = .none then .ok none
  else if action.ofEndpoint then
    .error (.fault (.logicError "private pressure State action targets a shared owner"))
  else if action.ofRewrite then
    .error (.fault (.logicError "pressure rewrite StateImage disappeared"))
  else .ok h.state

/-- The replicas an action on an image or a page wants to find, `host` being whether the Host
    tier exists. -/
def residencyFits (dropsHost demotes host : Bool) (r : Residency) : Prop :=
  if dropsHost then r = ⟨true, true⟩
  else if demotes then r = ⟨true, false⟩ ∧ host = true
  else r = ⟨true, true⟩
  deriving Decidable

variable (protection : Option SourceProtection)

/-- One State action on a known image; `exclusive` is whether its owner alone holds it. -/
def checkStateAction
    (action : PressureStateDecision) (exclusive : Nat → Bool) (targeted : List Nat) :
    Option Nat → Except Stop (List Nat)
  | none => .error .declined
  | some state =>
    match s.images state with
    | none => .error .declined
    | some image => do
      declineIf (image.immutable = false ∨ image.sourcePins ≠ 0 ∨
        (action.dropsHost = false ∧ exclusive state = false) ∨
        (action.dropsHost = false ∧ protectedState protection state) ∨ state ∈ targeted)
      declineIf (¬ residencyFits action.dropsHost action.demotes s.hostStateImages image.residency)
      return targeted ++ [state]

def checkPrivateStateAction (q : SequenceState) (d : PressureDecision) (targeted : List Nat)
    (action : PressureStateDecision) : Except Stop (List Nat) := do
  let dropped (kind : CheckpointKind) : Bool := d.droppedCheckpoints.any (·.kind = kind)
  declineIf ((action.ofEndpoint = false ∧ action.ofRewrite = false) ∨
    (action.ofEndpoint = true ∧ dropped .sessionEndpoint = true) ∨
    (action.ofRewrite = true ∧ (dropped .turnClosure = true ∨ dropped .responseReplay = true)))
  let state ← privateStateSource q action
  s.checkStateAction protection action (fun i => s.stateExclusiveToSequence q i) targeted state

def checkSharedStateAction
    (h : SharedPrefixState) (targeted : List Nat) (action : PressureStateDecision) :
    Except Stop (List Nat) := do
  let state ← sharedStateSource h action
  s.checkStateAction protection action (fun i => s.checkpointReferences i = 1) targeted state

/-- `can_drop_device_replica`. -/
def canDropDeviceReplica (c : KVClass) (page : Nat) : Prop :=
  (s.pages c page).residency = ⟨true, true⟩ ∧ (s.pages c page).writerReferences = 0 ∧
    s.activeReferences c page = 0 ∧ (s.pages c page).sourcePins = 0
  deriving Decidable

/-- One page of a KV action, with its place in the address space. -/
def checkKVPage (c : KVClass)
    (kind : PressureKVDecisionKind) (targeted : List Nat) (entry : Nat × Nat) :
    Except Stop (List Nat) := do
  let page := entry.1
  declineIf (page ∈ targeted ∨ (s.pages c page).writerReferences ≠ 0 ∨
    (s.pages c page).sourcePins ≠ 0 ∨
    (protectedPage protection c entry.2 page ∧ kind ≠ .dropHostDuplicate))
  match kind with
  | .dropHostDuplicate =>
    declineIf ((s.pages c page).residency ≠ ⟨true, true⟩ ∨ s.hostKvExtents = false)
  | .dropDeviceDuplicate =>
    declineIf (s.hasActiveReference c page ∨ ¬ s.canDropDeviceReplica c page)
  | .demoteToHost =>
    declineIf (s.hasActiveReference c page ∨ (s.pages c page).residency ≠ ⟨true, false⟩ ∨
      s.hostKvExtents = false)
  | .none => pure ()
  return targeted ++ [page]

/-- The pages of an action, each with its place. -/
def actionPages (pages : List Nat) (action : PressureKVDecision) : List (Nat × Nat) :=
  (pages.zipIdx.drop action.beginPage).take action.pageCount

def checkKVAction (c : KVClass)
    (pages : List Nat) (limit : Nat) (targeted : List Nat) (action : PressureKVDecision) :
    Except Stop (List Nat) := do
  declineIf (action.kind = .none ∨ action.pageCount = 0 ∨ action.beginPage > limit ∨
    action.pageCount > limit - action.beginPage)
  (actionPages pages action).foldlM (s.checkKVPage protection c action.kind) targeted

/-- `valid_kv`. -/
def checkKVActions (c : KVClass)
    (kv : SequenceKVBundle) (limit : Nat) (changes : List PressureKVDecision) :
    Except Stop (List Nat) := do
  declineIf (changes ≠ [] ∧ c = .backend ∧ kv.backend = none)
  changes.foldlM (s.checkKVAction protection c (kv.pages c) (min (kv.pages c).length limit)) []

/-- The pages of each class that outlive the dropped checkpoints, and the effect of the drops. -/
def checkDrops (q : SequenceState) (kv : SequenceKVBundle) (d : PressureDecision) :
    Except Stop (Nat × Nat) :=
  if d.droppedCheckpoints = [] then do
    declineIf (d.checkpointDropEffect ≠ {})
    return ((kv.pages .main).length, (kv.pages .backend).length)
  else do
    declineIf (¬ d.droppedCheckpoints.Pairwise refBefore)
    let effect ← s.checkpointDropEffect q d.droppedCheckpoints
    declineIf (effect ≠ d.checkpointDropEffect)
    match retainedRequirementAfterDrops (s.continuationSummary q) d.droppedCheckpoints with
    | none => .error .declined
    | some retained => return (retained.mainPages, retained.backendPages)

/-- `pressure_decision_valid`. -/
def pressureDecisionValid (q : SequenceState) (d : PressureDecision) : Except Stop Unit :=
  match q.kv with
  | none => .error .declined
  | some kv => do
    declineIf (d.evictsContinuation = true ∨ d.sharedOwner = true ∨ d.id = 0 ∨
      d.checkpointDrops ≠ d.droppedCheckpoints.length)
    let (mainLimit, backendLimit) ← s.checkDrops q kv d
    let _ ← d.stateChanges.foldlM (s.checkPrivateStateAction protection q d) []
    let _ ← s.checkKVActions protection .main kv mainLimit d.mainKvChanges
    let _ ← s.checkKVActions protection .backend kv backendLimit d.backendKvChanges
    declineIf (d.stateChanges = [] ∧ d.mainKvChanges = [] ∧ d.backendKvChanges = [] ∧
      d.droppedCheckpoints = [])

/-- `shared_pressure_decision_valid`. -/
def sharedPressureDecisionValid (h : SharedPrefixState) (d : PressureDecision) : Except Stop Unit :=
  match h.kv with
  | none => .error .declined
  | some kv => do
    declineIf (h.activeReferences ≠ 0 ∨ d.evictsContinuation = true ∨ d.sharedOwner = false ∨
      d.id = 0 ∨ d.droppedCheckpoints ≠ [] ∨ d.checkpointDrops ≠ 0 ∨
      d.checkpointDropEffect ≠ {} ∨ d.stateChanges.length > 1)
    let _ ← d.stateChanges.foldlM (s.checkSharedStateAction protection h) []
    let _ ← s.checkKVActions protection .main kv (kv.pages .main).length d.mainKvChanges
    let _ ← s.checkKVActions protection .backend kv (kv.pages .backend).length d.backendKvChanges
    declineIf (d.stateChanges = [] ∧ d.mainKvChanges = [] ∧ d.backendKvChanges = [])

/-- `inspect_eviction_option`. -/
def inspectEvictionOption (q : SequenceState) : Except Stop PressureDecision := do
  let removed ← s.ownerExclusiveResources q
  return {
    id := maxU64
    effect := { removed }
    checkpointDrops := (s.continuationSummary q).all.length
    evictsContinuation := true }

/-- `inspect_shared_eviction_option`. -/
def inspectSharedEvictionOption (h : SharedPrefixState) :
    Except Stop PressureDecision := do
  let removed ← s.sharedExclusiveResources h
  return {
    id := maxU64 - 1
    effect := { removed }
    checkpointDrops := 1
    evictsContinuation := true
    sharedOwner := true }

/-! ## What the decisions free together -/

/-- The images and pages that preserving decisions are about, with the replicas they will have. -/
structure Targets where
  states : List (Nat × Residency) := []
  pages : List ((KVClass × Nat) × Residency) := []

structure PressureTargetProjection where
  uniqueObjectDelta : PhysicalDelta := {}
  ownershipTransferDelta : PhysicalDelta := {}
  activeEntitlementDelta : PhysicalDelta := {}
  sourceOptionalResourcesAdded : PhysicalResources := {}
  sourceStateForkRequired : Option Bool := none
  sourcePrefixForkRequired : KVClass → Option Bool := fun _ => none
  /-- The pages whose Host replicas go with their last reference. -/
  releasedHostPages : List (KVClass × Nat) := []

/-- The image of a State action, seen from its owner; no throwing here. -/
def targetedState : Owner → PressureStateDecision → Option Nat
  | .continuation k, action =>
    if action.ofEndpoint then (s.continuations k).sequence.state.read
    else if action.ofRewrite then (s.continuations k).sequence.rewriteState
    else none
  | .sharedPrefix k, action =>
    if action.ofShared then (s.sharedPrefixes k).prefixState.state else none

variable (o : Owner)

def appendStateTarget (t : Targets) (action : PressureStateDecision) : Except Stop Targets :=
  match s.targetedState o action with
  | none => .error .declined
  | some state =>
    match s.images state with
    | none => .error .declined
    | some image => do
      declineIf ((protectedState protection state ∧ action.dropsHost = false) ∨
        state ∈ t.states.map (·.1))
      return { t with
        states := t.states ++ [(state,
          if action.dropsHost then ⟨image.residency.device, false⟩ else ⟨false, true⟩)] }

def appendPageTarget (c : KVClass)
    (kind : PressureKVDecisionKind) (t : Targets) (entry : Nat × Nat) : Except Stop Targets := do
  declineIf ((protectedPage protection c entry.2 entry.1 ∧ kind ≠ .dropHostDuplicate) ∨
    (c, entry.1) ∈ t.pages.map (·.1))
  return { t with
    pages := t.pages ++ [((c, entry.1),
      if kind = .dropHostDuplicate then ⟨s.pageOnDevice c entry.1, false⟩ else ⟨false, true⟩)] }

def appendPages (c : KVClass)
    (pages : List Nat) (t : Targets) (action : PressureKVDecision) : Except Stop Targets :=
  if action.kind = .none then do
    declineIf (action.pageCount ≠ 0)
    return t
  else do
    declineIf (action.pageCount = 0 ∨ action.beginPage > pages.length ∨
      action.pageCount > pages.length - action.beginPage)
    (actionPages pages action).foldlM (s.appendPageTarget protection c action.kind) t

variable (d : PressureDecision)

/-- `append_pressure_targets`. -/
def appendPressureTargets (t : Targets) : Except Stop Targets := do
  let t ← d.stateChanges.foldlM (s.appendStateTarget protection o) t
  let t ← d.mainKvChanges.foldlM (s.appendPages protection .main (s.ownedPages o .main)) t
  d.backendKvChanges.foldlM (s.appendPages protection .backend (s.ownedPages o .backend)) t

/-- The loop over the selected owners: the indices seen, the targets, and the effects that do
    not depend on what the others do. -/
structure Selection where
  seen : List Nat := []
  targets : Targets := {}
  delta : PhysicalDelta := {}

def selectPrivate (acc : Selection)
    (v : Victim) : Except Stop Selection := do
  declineIf (¬ v.index < s.continuationCapacity ∨ (s.continuations v.index).role ≠ .catalogued ∨
    v.decision.sharedOwner = true)
  declineIf (v.index ∈ acc.seen ∨ ∃ p ∈ protection, p.privateSourceIndex = some v.index)
  if v.decision.evictsContinuation then do
    declineIf (v.decision.effect.added ≠ {})
    return { acc with seen := v.index :: acc.seen }
  else do
    let targets ← s.appendPressureTargets protection (.continuation v.index) v.decision acc.targets
    let own ← checkedResourceDifference v.decision.effect.removed
      v.decision.checkpointDropEffect.removed
    let removed ← checkedResourceSum acc.delta.removed own
    let added ← checkedResourceSum acc.delta.added v.decision.effect.added
    return {
      seen := v.index :: acc.seen
      targets
      delta := { removed, added } }

def selectShared (acc : Selection)
    (v : Victim) : Except Stop Selection := do
  declineIf (¬ v.index < s.sharedPrefixCapacity ∨ (s.sharedPrefixes v.index).role ≠ .catalogued ∨
    v.decision.sharedOwner = false)
  declineIf (v.index ∈ acc.seen)
  if v.decision.evictsContinuation then do
    declineIf (v.decision.effect.added ≠ {})
    return { acc with seen := v.index :: acc.seen }
  else do
    let targets ← s.appendPressureTargets protection (.sharedPrefix v.index) v.decision acc.targets
    let removed ← checkedResourceSum acc.delta.removed v.decision.effect.removed
    let added ← checkedResourceSum acc.delta.added v.decision.effect.added
    return {
      seen := v.index :: acc.seen
      targets
      delta := { removed, added } }

def evicted (victims : List Victim) (index : Nat) : Prop :=
  ∃ v ∈ victims, v.index = index ∧ v.decision.evictsContinuation = true
  deriving Decidable

/-- `dropped_private[index]`. -/
def droppedOf (victims : List Victim) (index : Nat) : List CheckpointRef :=
  match victims.find? (fun v => v.index = index ∧ v.decision.evictsContinuation = false) with
  | none => []
  | some v => v.decision.droppedCheckpoints

/-- The pages of a class an owner keeps after its checkpoints are dropped. -/
def retainedPages (q : SequenceState) (dropped : List CheckpointRef) (c : KVClass) :
    Except Stop Nat :=
  match retainedRequirementAfterDrops (s.continuationSummary q) dropped with
  | none => .error .declined
  | some r => .ok (match c with
    | .main => r.mainPages
    | .backend => r.backendPages)

/-- The address space of a class is one that `activate` has not given an entitlement. -/
def inactiveAddress : KVClass → Prop
  | .main => kv.text.entitlement = none
  | .backend => ∀ address ∈ kv.backend, address.entitlement = none

instance (kv : SequenceKVBundle) : (c : KVClass) → Decidable (inactiveAddress kv c)
  | .main => inferInstanceAs (Decidable (_ = _))
  | .backend => inferInstanceAs (Decidable (∀ _ ∈ _, _))

/-- `append_address` of an evicted owner. -/
def evictedAddress (kv : Option SequenceKVBundle) (c : KVClass) : Except Stop (List Nat) :=
  match kv with
  | none => .error .declined
  | some kv => do
    throwIf (¬ inactiveAddress kv c)
      (.logicError "evicted KV address is not an inactive publication")
    return kv.pages c

/-- `append_address_suffix` of an owner that drops checkpoints. -/
def droppedSuffix (q : SequenceState) (dropped : List CheckpointRef) (c : KVClass) :
    Except Stop (List Nat) :=
  match q.kv with
  | none => .error .declined
  | some kv => do
    let retained ← s.retainedPages q dropped c
    throwIf (¬ inactiveAddress kv c) (.logicError "dropped checkpoint KV suffix is invalid")
    throwIf (retained > (kv.pages c).length)
      (.logicError "dropped checkpoint KV suffix exceeds its address space")
    return (kv.pages c).drop retained

/-- The references to pages of the class that one continuation gives up. -/
def selectedOfContinuation (privateVictims : List Victim) (c : KVClass) (k : Nat) :
    Except Stop (List Nat) :=
  let q := (s.continuations k).sequence
  if evicted privateVictims k then evictedAddress q.kv c
  else if droppedOf privateVictims k = [] then .ok []
  else s.droppedSuffix q (droppedOf privateVictims k) c

def selectedOfSharedPrefix (sharedVictims : List Victim) (c : KVClass) (k : Nat) :
    Except Stop (List Nat) :=
  if evicted sharedVictims k then evictedAddress (s.sharedPrefixes k).prefixState.kv c else .ok []

variable (privateVictims sharedVictims : List Victim)

/-- Every reference to a page of the class that the victims give up, one entry for each. -/
def selectedPages (c : KVClass) :
    Except Stop (List Nat) := do
  let ofContinuations ← (List.range s.continuationCapacity).mapM
    (s.selectedOfContinuation privateVictims c)
  let ofSharedPrefixes ← (List.range s.sharedPrefixCapacity).mapM
    (s.selectedOfSharedPrefix sharedVictims c)
  return ofContinuations.flatten ++ ofSharedPrefixes.flatten

/-- `removed_state_references`. -/
def removedStateReferences (image : Nat) : Nat :=
  ((List.range s.continuationCapacity).map fun k =>
    let q := (s.continuations k).sequence
    if evicted privateVictims k then q.ownedCheckpointReferences image
    else (droppedOf privateVictims k).countP fun ref =>
      ref.kind ≠ .sessionEndpoint ∧ checkpointState q ref = some image).sum +
  (List.range s.sharedPrefixCapacity).countP fun k =>
    evicted sharedVictims k ∧ (s.sharedPrefixes k).prefixState.state = some image

variable (targets : Targets)

/-- `final_state_placement`. -/
def finalStatePlacement (image : Nat) : Residency :=
  match targets.states.lookup image with
  | some r => r
  | none => ⟨s.imageOnDevice image, s.imageOnHost image⟩

def finalPagePlacement (c : KVClass) (page : Nat) : Residency :=
  match targets.pages.lookup (c, page) with
  | some r => r
  | none => (s.pages c page).residency

def stateShare (r : Residency) : PhysicalResources where
  device := { stateSlots := if r.device then 1 else 0 }
  host := { stateSlots := if r.host then 1 else 0 }

def deviceKvPages (c : KVClass) (n : Nat) : PhysicalDeviceResources :=
  match c with
  | .main => { mainKvPages := n }
  | .backend => { backendKvPages := n }

def pageShare (c : KVClass) (r : Residency) : PhysicalResources where
  device := deviceKvPages c (if r.device then 1 else 0)
  host := { kvBytes := if r.host then s.pageStride c else 0 }

/-- One candidate for a transfer of ownership into the consumed source. -/
def transferState (p : PressureTargetProjection) (candidate : Nat × Nat) :
    Except Stop PressureTargetProjection := do
  let references := s.checkpointReferences candidate.1
  let removed := s.removedStateReferences privateVictims sharedVictims candidate.1
  declineIf (candidate.2 = 0 ∨ removed > references ∨ references - removed < candidate.2)
  if references - removed ≠ candidate.2 then return p
  else do
    let transferred := stateShare (s.finalStatePlacement targets candidate.1)
    declineIf (transferred = {})
    let entitlement ← checkedResourceSum p.activeEntitlementDelta.added transferred
    let optionals ← checkedResourceSum p.sourceOptionalResourcesAdded transferred
    let removed ← checkedResourceSum p.ownershipTransferDelta.removed transferred
    let added ← checkedResourceSum p.ownershipTransferDelta.added transferred
    return { p with
      activeEntitlementDelta := { p.activeEntitlementDelta with added := entitlement }
      sourceOptionalResourcesAdded := optionals
      ownershipTransferDelta := { removed, added } }

/-- One page of `append_kv_ownership_transfers`. -/
def transferPage (c : KVClass) (protectedPages transferable : Nat)
    (selected : List Nat) (targets : Targets) (p : PressureTargetProjection)
    (entry : Nat × Nat) : Except Stop PressureTargetProjection := do
  let page := entry.1
  let offset := entry.2
  let references := s.addressReferences c page
  let removed := selected.count page
  let r := s.finalPagePlacement targets c page
  declineIf (removed ≥ references)
  if references ≤ 1 ∨ references - removed ≠ 1 then return p
  else if offset ≥ transferable then do
    -- Only a partial tail is protected beyond the full pages; the source may now write it.
    declineIf (offset + 1 ≠ protectedPages)
    declineIf (p.sourcePrefixForkRequired c ≠ some true)
    let transferred := s.pageShare c r
    declineIf (transferred = {})
    let removed ← checkedResourceSum p.ownershipTransferDelta.removed transferred
    let added ← checkedResourceSum p.ownershipTransferDelta.added transferred
    return { p with
      sourcePrefixForkRequired := update p.sourcePrefixForkRequired c (some false)
      ownershipTransferDelta := { removed, added } }
  else do
    declineIf (r.host = false ∧ r.device = false)
    let transferred := s.pageShare c r
    let entitlement ← checkedResourceSum p.activeEntitlementDelta.added
      { transferred with device := deviceKvPages c 1 }
    let removed ← checkedResourceSum p.ownershipTransferDelta.removed transferred
    let added ← checkedResourceSum p.ownershipTransferDelta.added transferred
    return { p with
      activeEntitlementDelta := { p.activeEntitlementDelta with added := entitlement }
      ownershipTransferDelta := { removed, added } }

/-- `append_kv_ownership_transfers`. -/
def transferPages (protection : SourceProtection) (c : KVClass)
    (selected : List Nat) (targets : Targets) (p : PressureTargetProjection) :
    Except Stop PressureTargetProjection :=
  match protection.source c with
  | none => .ok p
  | some pages => do
    declineIf (protection.requiredPages c > pages.length ∨
      protection.transferPages c > protection.requiredPages c)
    (pages.zipIdx.take (protection.requiredPages c)).foldlM
      (s.transferPage c (protection.requiredPages c) (protection.transferPages c) selected
        targets) p

/-- What the projection says about the consumed source. -/
def projectSource (protection : SourceProtection)
    (privateVictims sharedVictims : List Victim) (main backend : List Nat) (targets : Targets)
    (p : PressureTargetProjection) : Except Stop PressureTargetProjection :=
  if protection.consumedPrivateSource = false then .ok p
  else
    match protection.state with
    | none => .error .declined
    | some state => do
      declineIf (protection.source .main = none)
      let references := s.checkpointReferences state
      let removed := s.removedStateReferences privateVictims sharedVictims state
      declineIf (removed > references ∨ references - removed < protection.consumedStateReferences)
      let p := { p with
        sourceStateForkRequired :=
          some (decide (references - removed ≠ protection.consumedStateReferences)) }
      let p ← protection.stateOwnershipCandidates.foldlM
        (s.transferState privateVictims sharedVictims targets) p
      let p ← s.transferPages protection .main main targets p
      s.transferPages protection .backend backend targets p

/-- The images whose release is settled from the joint state: those of preserving decisions,
    of evicted owners and of dropped checkpoints. -/
def selectedStates : List Nat :=
  let continuation (k : Nat) : List Nat :=
    let q := (s.continuations k).sequence
    if evicted privateVictims k then
      q.state.write.toList ++
        (if ¬ q.state.borrowsRead ∨ q.state.read = q.state.write then
          q.state.read.toList else []) ++
        q.rewriteState.toList ++ q.reservedState.toList ++ q.longAnchors.map (·.state)
    else (droppedOf privateVictims k).filterMap (checkpointState q)
  let shared (k : Nat) : List Nat :=
    if evicted sharedVictims k then (s.sharedPrefixes k).prefixState.state.toList else []
  (targets.states.map (·.1) ++ ((List.range s.continuationCapacity).flatMap continuation ++
    (List.range s.sharedPrefixCapacity).flatMap shared).filter fun i => (s.images i).isSome).dedup

/-- `sequence_references_state`: a checkpoint that is not dropped still names the image. -/
def sequenceReferencesState (q : SequenceState) (dropped : List CheckpointRef) (image : Nat) :
    Prop :=
  let droppedKind (kind : CheckpointKind) : Bool := dropped.any (·.kind = kind)
  (q.endpointValid = true ∧ droppedKind .sessionEndpoint = false ∧
    (q.state.read = some image ∨ q.state.write = some image)) ∨
  q.reservedState = some image ∨
  (droppedKind .turnClosure = false ∧ droppedKind .responseReplay = false ∧
    q.rewriteState = some image) ∨
  ∃ a ∈ q.longAnchors, a.state = image ∧
    ({ kind := .longAnchor, frontier := a.frontier, ordinal := a.ordinal } : CheckpointRef) ∉
      dropped
  deriving Decidable

/-- An owner that is not evicted still refers to the image. -/
def referencedBySurvivor (image : Nat) : Prop :=
  (∃ k ∈ List.range s.continuationCapacity, (s.continuations k).role ≠ .free ∧
    ¬ evicted privateVictims k ∧
    sequenceReferencesState (s.continuations k).sequence (droppedOf privateVictims k) image) ∨
  ∃ k ∈ List.range s.sharedPrefixCapacity, (s.sharedPrefixes k).role ≠ .free ∧
    ¬ evicted sharedVictims k ∧ (s.sharedPrefixes k).prefixState.state = some image
  deriving Decidable

/-- The images that nothing refers to once the victims are done. -/
def releasedStates : List Nat :=
  (s.selectedStates privateVictims sharedVictims targets).filter fun i =>
    (∃ image ∈ s.images i, image.sourcePins = 0) ∧
    ¬ s.referencedBySurvivor privateVictims sharedVictims i ∧
    s.removedStateReferences privateVictims sharedVictims i = s.checkpointReferences i

/-- The pages that nothing maps once the victims are done. -/
def releasedPages (c : KVClass) (selected : List Nat) : List Nat :=
  selected.dedup.filter fun p => s.addressReferences c p = selected.count p ∧
    (s.pages c p).writerReferences = 0 ∧ (s.pages c p).sourcePins = 0

/-- Adding a share for every element of a list. -/
def sumShares {α : Type} (share : α → PhysicalResources) (l : List α) (start : PhysicalResources) :
    Except Stop PhysicalResources :=
  l.foldlM (fun acc x => checkedResourceSum acc (share x)) start

def evaluatePressureTarget
    (privateVictims sharedVictims : List Victim) : Except Stop PressureTargetProjection := do
  let selection ← privateVictims.foldlM (s.selectPrivate protection) {}
  let selection ← sharedVictims.foldlM (s.selectShared protection) { selection with seen := [] }
  let targets := selection.targets
  let main ← s.selectedPages privateVictims sharedVictims .main
  let backend ← s.selectedPages privateVictims sharedVictims .backend
  let start : PressureTargetProjection := match protection with
    | none => { uniqueObjectDelta := selection.delta }
    | some p => {
      uniqueObjectDelta := selection.delta
      sourcePrefixForkRequired := fun c =>
        if p.consumedPrivateSource then some (p.prefixForkRequired c) else none }
  let projection ← match protection with
    | none => pure start
    | some p => s.projectSource p privateVictims sharedVictims main backend targets start
  declineIf (∃ k ∈ List.range s.continuationCapacity, ¬ evicted privateVictims k ∧
    ∃ ref ∈ droppedOf privateVictims k, checkpointState (s.continuations k).sequence ref = none)
  let removed ← sumShares (fun i => stateShare (s.finalStatePlacement targets i))
    (s.releasedStates privateVictims sharedVictims targets) projection.uniqueObjectDelta.removed
  let removed ← sumShares (fun p => s.pageShare .main (s.finalPagePlacement targets .main p))
    (s.releasedPages .main main) removed
  let removed ← sumShares (fun p => s.pageShare .backend (s.finalPagePlacement targets .backend p))
    (s.releasedPages .backend backend) removed
  return { projection with
    uniqueObjectDelta := { projection.uniqueObjectDelta with removed }
    releasedHostPages :=
      ((s.releasedPages .main main).filter fun p =>
        (s.finalPagePlacement targets .main p).host).map (KVClass.main, ·) ++
      ((s.releasedPages .backend backend).filter fun p =>
        (s.finalPagePlacement targets .backend p).host).map (KVClass.backend, ·) }

/-! ## Carrying the decisions out -/

/-- `state_store->release` of an image that nothing refers to any more. -/
def releaseImage (pinned : String) (s : Residents) (i : Nat) : Except Stop Residents :=
  match s.images i with
  | none => .ok s
  | some image =>
    if s.checkpointReferences i ≠ 0 then .ok s
    else do
      throwIf (image.sourcePins ≠ 0) (.logicError pinned)
      return s.setImage i none

/-- What `can_release_continuation_slot_strict` asks of an image. -/
def imageReleasable (q : SequenceState) (image : Nat) : Prop :=
  ∃ i ∈ s.images image, q.ownedCheckpointReferences image ≤ s.checkpointReferences image ∧
    (q.ownedCheckpointReferences image ≠ 0 → i.immutable = true) ∧
    (s.checkpointReferences image = q.ownedCheckpointReferences image → i.sourcePins = 0)
  deriving Decidable

/-- `can_release` of both address spaces. -/
def kvReleasable : Prop :=
  s.canTruncateInactivePrefix .main kv.text 0 ∧ s.backendCanTruncate kv 0
  deriving Decidable

/-- `release_continuation_slot_strict`, after `can_release_continuation_slot_strict`. -/
def releaseContinuation (k : Nat) : Except Stop Residents :=
  let q := (s.continuations k).sequence
  match q.kv with
  | none => .error (.fault (.logicError "materialization victim is not strictly releasable"))
  | some kv => do
    throwIf (¬ k < s.continuationCapacity ∨ (s.continuations k).role ≠ .catalogued ∨
        q.state.forkPending = true ∨ q.sharedPrefixReferences ≠ [] ∨ ¬ s.kvReleasable kv ∨
        (∃ i ∈ q.heldImages, ¬ s.imageReleasable q i) ∨
        (q.endpointValid = false ∧ (q.state.read.isSome = true ∨ q.state.write.isSome = true)))
      (.logicError "materialization victim is not strictly releasable")
    q.heldImages.foldlM (releaseImage "materialization victim is not strictly releasable")
      { s with continuations := update s.continuations k {} }

/-- `release_shared_prefix_state_strict`, after `can_release_shared_prefix_state`. -/
def releaseSharedPrefix (k : Nat) : Except Stop Residents :=
  let h := (s.sharedPrefixes k).prefixState
  match h.kv, h.state with
  | some kv, some image => do
    throwIf (¬ k < s.sharedPrefixCapacity ∨ (s.sharedPrefixes k).role ≠ .catalogued ∨
        h.activeReferences ≠ 0)
      (.logicError "shared pressure victim changed before release")
    throwIf (¬ s.kvReleasable kv ∨ s.checkpointReferences image = 0 ∨
        ¬ ∃ i ∈ s.images image, s.checkpointReferences image = 1 → i.sourcePins = 0)
      (.logicError "shared pressure victim is not strictly releasable")
    releaseImage "shared pressure victim is not strictly releasable"
      { s with sharedPrefixes := update s.sharedPrefixes k {} } image
  | _, _ => .error (.fault (.logicError "shared pressure victim is not strictly releasable"))

/-- The sequence without one of its checkpoints. -/
def withoutCheckpoint (q : SequenceState) (ref : CheckpointRef) : SequenceState :=
  match ref.kind with
  | .sessionEndpoint => { q with endpointValid := false, state := {} }
  | .turnClosure | .responseReplay => { q with rewriteState := none, rewriteCheckpoint := none }
  | .longAnchor => { q with
    longAnchors := q.longAnchors.eraseP fun a =>
      a.frontier = ref.frontier ∧ a.ordinal = ref.ordinal }
  | .sharedStablePrefix => q

/-- `truncate_inactive_prefix`. -/
def truncatedAddress (address : KVAddressSpace) (frontier : Nat) : KVAddressSpace :=
  { address with
    pages := address.pages.take (kvPagesForFrontier frontier)
    committedFrontier := frontier }

/-- The bundle cut to the pages two frontiers need. -/
def truncated (main backend : Nat) : SequenceKVBundle where
  text := truncatedAddress kv.text main
  backend := kv.backend.map (truncatedAddress · backend)

/-- What `publish_checkpoint_drop` throws when the checkpoint is not the owner's. -/
def droppedCheckpointChanged : CheckpointKind → Fault
  | .sessionEndpoint => .logicError "endpoint checkpoint changed before drop"
  | .turnClosure | .responseReplay => .logicError "rewrite checkpoint changed before drop"
  | .longAnchor => .logicError "long-anchor checkpoint changed before drop"
  | .sharedStablePrefix => .logicError "shared checkpoint cannot be dropped from a private owner"

/-- `retained_state`: a checkpoint the sequence still has names the image. -/
def retainedState (q : SequenceState) (image : Nat) : Prop :=
  (q.endpointValid = true ∧ q.state.read = some image) ∨ q.rewriteState = some image ∨
    ∃ a ∈ q.longAnchors, a.state = image
  deriving Decidable

/-- The image of a checkpoint the sequence has just given up goes, unless another one keeps it. -/
def releaseDropped (pinned : String) (k : Nat) (s : Residents) (image : Nat) :
    Except Stop Residents :=
  if retainedState (s.continuations k).sequence image then .ok s else releaseImage pinned s image

/-- `publish_checkpoint_drop`. -/
def publishCheckpointDrop (k : Nat) (s : Residents) (ref : CheckpointRef) : Except Stop Residents :=
  let q := (s.continuations k).sequence
  match q.kv, retainedRequirementAfterDrops (s.continuationSummary q) [ref],
      checkpointState q ref with
  | none, _, _ => .error (.fault (.logicError "checkpoint drop owner has no KV bundle"))
  | some _, none, _ =>
    .error (.fault (.logicError "checkpoint drop release dependencies changed"))
  | some kv, some retained, image => do
    throwIf (¬ s.canTruncateInactivePrefix .main kv.text retained.mainFrontier ∨
        ¬ s.backendCanTruncate kv retained.backendFrontier)
      (.logicError "checkpoint drop release dependencies changed")
    match image with
    | none => .error (.fault (droppedCheckpointChanged ref.kind))
    | some image => do
      let s ← releaseDropped "dropped checkpoint StateImage remained pinned" k
        (s.setSequence k fun q => withoutCheckpoint q ref) image
      return s.setSequence k fun q => { q with
        kv := some (truncated kv retained.mainFrontier retained.backendFrontier) }

/-- One replica of an image goes: the Host one, or the Device one once the Host has a copy. -/
def moveImage (image : Nat) (action : PressureStateDecision) :
    Except Stop Residents :=
  match s.images image with
  | none => .error (.fault (.logicError "pressure State transfer has no source"))
  | some i => do
    throwIf (i.immutable = false ∨ i.sourcePins ≠ 0 ∨
        ¬ residencyFits action.dropsHost action.demotes s.hostStateImages i.residency)
      (.logicError "pressure Host State duplicate is no longer releasable")
    return s.setImage image (some { i with
      residency := if action.dropsHost then ⟨true, false⟩ else ⟨false, true⟩ })

/-- The same for a page. -/
def movePage (c : KVClass) (page : Nat) (kind : PressureKVDecisionKind) :
    Except Stop Residents := do
  let p := s.pages c page
  if kind = .dropHostDuplicate then
    throwIf (p.residency ≠ ⟨true, true⟩ ∨ s.hostKvExtents = false ∨ p.sourcePins ≠ 0)
      (.logicError "pressure Host KV duplicates are no longer releasable")
    return s.setPageResidency c page ⟨true, false⟩
  else
    throwIf (p.residency ≠ ⟨true, decide (kind ≠ .demoteToHost)⟩ ∨ p.writerReferences ≠ 0 ∨
        p.sourcePins ≠ 0 ∨ s.hasActiveReference c page)
      (.logicError "pressure KV replica changed before transfer")
    return s.setPageResidency c page ⟨false, true⟩

/-- The State actions of one phase: the Host duplicates first, everything else after the
    copies. -/
def moveStates (dropsHost : Bool) (s : Residents) :
    Except Stop Residents :=
  (d.stateChanges.filter (·.dropsHost = dropsHost)).foldlM (fun s action =>
    match s.targetedState o action with
    | none => .error (.fault (.logicError "pressure State transfer has no source"))
    | some image => s.moveImage image action) s

/-- One KV action on the pages it is about. -/
def moveRegion (c : KVClass) (s : Residents) (action : PressureKVDecision) :
    Except Stop Residents := do
  throwIf (action.beginPage > (s.ownedPages o c).length ∨
      action.pageCount > (s.ownedPages o c).length - action.beginPage)
    (.logicError "pressure KV region changed before transfer")
  (actionPages (s.ownedPages o c) action).foldlM (fun s entry => s.movePage c entry.1 action.kind) s

/-- The KV actions of one class and one phase. -/
def movePages (dropsHost : Bool) (c : KVClass) (s : Residents) :
    Except Stop Residents :=
  ((d.kvChanges c).filter fun a => decide (a.kind = .dropHostDuplicate) = dropsHost).foldlM
    (moveRegion o c) s

def moveReplicas (dropsHost : Bool) (s : Residents) :
    Except Stop Residents := do
  let s ← moveStates o d dropsHost s
  let s ← movePages o d dropsHost .main s
  movePages o d dropsHost .backend s

/-- `valid_owner` of `publish_pressure_host_releases`. -/
def ownerStands : Owner → Prop
  | .continuation k => k < s.continuationCapacity ∧ (s.continuations k).role = .catalogued
  | .sharedPrefix k => k < s.sharedPrefixCapacity ∧ (s.sharedPrefixes k).role = .catalogued ∧
    (s.sharedPrefixes k).prefixState.activeReferences = 0

instance (s : Residents) : (o : Owner) → Decidable (s.ownerStands o)
  | .continuation _ => inferInstanceAs (Decidable (_ ∧ _))
  | .sharedPrefix _ => inferInstanceAs (Decidable (_ ∧ _))

/-- The checkpoints a victim drops; a shared prefix has none to drop. -/
def publishDrops : Owner → PressureDecision → Residents → Except Stop Residents
  | .continuation k, d, s => d.droppedCheckpoints.foldlM (publishCheckpointDrop k) s
  | .sharedPrefix _, d, s => do
    throwIf (d.droppedCheckpoints ≠ [])
      (.logicError "checkpoint drop targets a shared pressure owner")
    return s

/-- `publish_pressure_host_releases`: checkpoint drops, then Host duplicates. -/
def publishHostReleases (s : Residents) :
    Except Stop Residents := do
  throwIf (¬ s.ownerStands o) (.logicError "pressure Host release owner changed before publication")
  let s ← publishDrops o d s
  moveReplicas o d true s

/-- An owner goes altogether. -/
def releaseVictim : Owner → Residents → Except Stop Residents
  | .continuation k, s => s.releaseContinuation k
  | .sharedPrefix k, s => s.releaseSharedPrefix k

/-- The `HostReleases` phase of one victim. -/
def releasePhase (s : Residents) : Except Stop Residents :=
  if d.evictsContinuation then releaseVictim o s else publishHostReleases o d s

/-- `publish_pressure_work`, once the copies are there. -/
def publishPhase (s : Residents) : Except Stop Residents :=
  if d.evictsContinuation then .ok s else moveReplicas o d false s

/-- The victims in the order the transaction works through them: shared ones first. -/
def victimOwners : List (Owner × PressureDecision) :=
  sharedVictims.map (fun v => (.sharedPrefix v.index, v.decision)) ++
    privateVictims.map fun v => (.continuation v.index, v.decision)

/-- The pressure transition of a transaction, from its first release to its last publication. -/
def executePressure :
    Except Stop Residents := do
  let owners := victimOwners privateVictims sharedVictims
  let s ← owners.foldlM (fun s v => releasePhase v.1 v.2 s) s
  owners.foldlM (fun s v => publishPhase v.1 v.2 s) s

end Residents

end Ninfer.Qwen
