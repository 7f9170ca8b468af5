/-
  What a Program has resident: the StateImages and KV pages of its continuations and shared
  prefixes, and the part each owner holds alone (`owner_exclusive_resources` of
  `program_impl.h`).

  An owner is a continuation slot or a shared-prefix slot. An address space is the list of the
  logical pages it maps, kept by its owner. The reference counters of pages and images are
  counted from the owners: a page is referenced once by every address space that maps it, an
  image once by every rewrite, long anchor and shared prefix that names it.

  Handles are plain numbers. A plan is made and carried out with no other change in between, so
  the generations that catch a stale handle are left out. So are tokens, identities, work
  figures, and the states an image or a page has only while a copy is in flight.
-/
import Ninfer.Lib.Tally
import Ninfer.Lib.Fallible
import Ninfer.Core.Handle
import Ninfer.Core.PageLayout
import Ninfer.Resources.Contract
import Ninfer.Qwen.RoundCoverage

namespace Ninfer.Qwen

open Lib Function Finset
open Resources (CheckpointKind CheckpointRef TargetKVRequirement)
open KVAddressSpaceStore (pagesForTokens)

/-- How a planning function ends early: it returns `std::nullopt` or `false`, or it throws. -/
inductive Stop where
  | declined
  | fault (f : Fault)

/-- `if (bad) { return std::nullopt; }`. -/
def declineIf (bad : Prop) [Decidable bad] : Except Stop Unit :=
  if bad then .error .declined else .ok ()

/-- `if (bad) { throw fault; }`. -/
def throwIf (bad : Prop) [Decidable bad] (f : Fault) : Except Stop Unit :=
  if bad then .error (.fault f) else .ok ()

theorem throwIf_ok {bad : Prop} [Decidable bad] {f : Fault} {u : Unit}
    (h : throwIf bad f = .ok u) : ¬ bad := by
  intro hbad
  rw [throwIf, if_pos hbad] at h
  cases h

/-! ## Physical resources -/

@[ext]
structure PhysicalDeviceResources where
  activeLanes : Nat := 0
  stateSlots : Nat := 0
  mainKvPages : Nat := 0
  backendKvPages : Nat := 0
  deriving DecidableEq

@[ext]
structure PhysicalHostResources where
  stateSlots : Nat := 0
  kvBytes : Nat := 0
  deriving DecidableEq

@[ext]
structure PhysicalResources where
  device : PhysicalDeviceResources := {}
  host : PhysicalHostResources := {}
  deriving DecidableEq

structure PhysicalDelta where
  removed : PhysicalResources := {}
  added : PhysicalResources := {}
  deriving DecidableEq

structure PhysicalDemand where
  activeEntitlement : PhysicalResources := {}
  reservationAdded : PhysicalResources := {}
  reservationCredit : PhysicalResources := {}
  physicalPeakAdditional : PhysicalResources := {}
  finalRemoved : PhysicalResources := {}
  finalAdded : PhysicalResources := {}

namespace PhysicalResources

/-- Both by an operation on counts, component by component. -/
def zipWith (op : Nat → Nat → Nat) (a b : PhysicalResources) : PhysicalResources where
  device := {
    activeLanes := op a.device.activeLanes b.device.activeLanes
    stateSlots := op a.device.stateSlots b.device.stateSlots
    mainKvPages := op a.device.mainKvPages b.device.mainKvPages
    backendKvPages := op a.device.backendKvPages b.device.backendKvPages }
  host := {
    stateSlots := op a.host.stateSlots b.host.stateSlots
    kvBytes := op a.host.kvBytes b.host.kvBytes }

instance : Add PhysicalResources := ⟨zipWith (· + ·)⟩

/-- Subtraction that stops at zero: `positive_resource_difference`. -/
instance : Sub PhysicalResources := ⟨zipWith (· - ·)⟩

/-- At most as much in every component. -/
instance : LE PhysicalResources :=
  ⟨fun a b =>
    a.device.activeLanes ≤ b.device.activeLanes ∧ a.device.stateSlots ≤ b.device.stateSlots ∧
    a.device.mainKvPages ≤ b.device.mainKvPages ∧
    a.device.backendKvPages ≤ b.device.backendKvPages ∧
    a.host.stateSlots ≤ b.host.stateSlots ∧ a.host.kvBytes ≤ b.host.kvBytes⟩

instance (a b : PhysicalResources) : Decidable (a ≤ b) := inferInstanceAs (Decidable (_ ∧ _))

end PhysicalResources

/-- `add_u32` of `checked_resource_sum`. -/
def addU32 (a b : Nat) (label : String) : Except Stop Nat := do
  throwIf (b > maxU32 - a) (.overflowError label)
  return a + b

theorem addU32_ok {a b n : Nat} {label : String} (h : addU32 a b label = .ok n) : n = a + b := by
  obtain ⟨_, _, h⟩ := bind_eq_ok h
  cases h
  rfl

def checkedResourceSum (left right : PhysicalResources) : Except Stop PhysicalResources := do
  throwIf (right.host.kvBytes > maxU64 - left.host.kvBytes)
    (.overflowError "Qwen3.6 Host KV resource sum overflow")
  let activeLanes ← addU32 left.device.activeLanes right.device.activeLanes
    "Qwen3.6 active-lane resource sum overflow"
  let stateSlots ← addU32 left.device.stateSlots right.device.stateSlots
    "Qwen3.6 StateImage resource sum overflow"
  let mainKvPages ← addU32 left.device.mainKvPages right.device.mainKvPages
    "Qwen3.6 Main KV resource sum overflow"
  let backendKvPages ← addU32 left.device.backendKvPages right.device.backendKvPages
    "Qwen3.6 Backend KV resource sum overflow"
  let hostSlots ← addU32 left.host.stateSlots right.host.stateSlots
    "Qwen3.6 Host StateImage resource sum overflow"
  return {
    device := {
      activeLanes
      stateSlots
      mainKvPages
      backendKvPages }
    host := {
      stateSlots := hostSlots
      kvBytes := left.host.kvBytes + right.host.kvBytes } }

theorem checkedResourceSum_ok {left right sum : PhysicalResources}
    (h : checkedResourceSum left right = .ok sum) : sum = left + right := by
  obtain ⟨_, _, h⟩ := bind_eq_ok h
  obtain ⟨n1, h1, h⟩ := bind_eq_ok h
  obtain ⟨n2, h2, h⟩ := bind_eq_ok h
  obtain ⟨n3, h3, h⟩ := bind_eq_ok h
  obtain ⟨n4, h4, h⟩ := bind_eq_ok h
  obtain ⟨n5, h5, h⟩ := bind_eq_ok h
  cases h
  rw [addU32_ok h1, addU32_ok h2, addU32_ok h3, addU32_ok h4, addU32_ok h5]
  rfl

def checkedResourceDifference (value removed : PhysicalResources) :
    Except Stop PhysicalResources := do
  throwIf (¬ removed ≤ value) (.logicError "Qwen3.6 resource subtraction underflow")
  return value - removed

theorem checkedResourceDifference_ok {value removed rest : PhysicalResources}
    (h : checkedResourceDifference value removed = .ok rest) : rest = value - removed := by
  obtain ⟨_, _, h⟩ := bind_eq_ok h
  cases h
  rfl

theorem checkedResourceDifference_of_le {value removed : PhysicalResources}
    (h : removed ≤ value) : checkedResourceDifference value removed = .ok (value - removed) := by
  rw [checkedResourceDifference, throwIf, if_neg (not_not_intro h)]
  rfl

def positiveResourceDifference (value removed : PhysicalResources) : PhysicalResources :=
  value - removed

/-! ## Images, pages and their owners -/

inductive KVClass where
  | main
  | backend
  deriving DecidableEq

/-- Which replicas an image or a page has. -/
structure Residency where
  device : Bool
  host : Bool
  deriving DecidableEq

structure StateImage where
  residency : Residency
  /-- The role is `CheckpointImmutable`. -/
  immutable : Bool := true
  sourcePins : Nat := 0
  deriving DecidableEq

structure KVPage where
  residency : Residency
  committedColumns : Nat := 64
  writerReferences : Nat := 0
  sourcePins : Nat := 0

structure KVAddressSpace where
  pages : List Nat
  committedFrontier : Nat := 64 * pages.length
  /-- The page entitlement of an active address space. -/
  entitlement : Option Nat := none

structure SequenceKVBundle where
  text : KVAddressSpace
  backend : Option KVAddressSpace := none

def SequenceKVBundle.pages (kv : SequenceKVBundle) : KVClass → List Nat
  | .main => kv.text.pages
  | .backend => match kv.backend with
    | none => []
    | some address => address.pages

inductive StateReadOwnership where
  | primary
  | lineageCheckpoint
  | externalOwner
  deriving DecidableEq

structure ActiveStateBinding where
  read : Option Nat := none
  write : Option Nat := none
  forkPending : Bool := false
  readOwnership : StateReadOwnership := .primary

def ActiveStateBinding.borrowsRead (b : ActiveStateBinding) : Prop := b.readOwnership ≠ .primary
  deriving Decidable

inductive RewriteCheckpointKind where
  | turnClosure
  | responseReplay

def checkpointKind : RewriteCheckpointKind → CheckpointKind
  | .turnClosure => .turnClosure
  | .responseReplay => .responseReplay

/-- A valid `RewriteCheckpoint`. -/
structure RewriteCheckpoint where
  kind : RewriteCheckpointKind
  frontier : Nat

structure LongAnchorCheckpoint where
  state : Nat
  frontier : Nat
  ordinal : Nat

structure SequenceState where
  kv : Option SequenceKVBundle := none
  state : ActiveStateBinding := {}
  rewriteState : Option Nat := none
  reservedState : Option Nat := none
  executionFrontier : Nat := 0
  endpointValid : Bool := false
  rewriteCheckpoint : Option RewriteCheckpoint := none
  longAnchors : List LongAnchorCheckpoint := []
  sharedPrefixReferences : List Nat := []

structure SharedPrefixState where
  kv : Option SequenceKVBundle := none
  state : Option Nat := none
  frontier : Nat := 0
  backendFrontier : Nat := 0
  activeReferences : Nat := 0

inductive ContinuationSlotRole where
  | free
  | reservedMaterialization
  | active
  | catalogued
  deriving DecidableEq

inductive SharedPrefixSlotRole where
  | free
  | reservedCapture
  | reservedReplacement
  | catalogued
  deriving DecidableEq

structure ContinuationSlot where
  role : ContinuationSlotRole := .free
  sequence : SequenceState := {}

structure SharedPrefixSlot where
  role : SharedPrefixSlotRole := .free
  prefixState : SharedPrefixState := {}

inductive Owner where
  | continuation (index : Nat)
  | sharedPrefix (index : Nat)

structure Residents where
  speculativeBackend : SpeculativeBackend
  maxLongAnchors : Nat
  /-- There are Host pools for images (`host_state_images`) and for pages (`host_kv_extents`). -/
  hostStateImages : Bool
  hostKvExtents : Bool
  pageStride : KVClass → Nat
  images : Nat → Option StateImage
  pages : KVClass → Nat → KVPage
  continuationCapacity : Nat
  continuations : Nat → ContinuationSlot
  sharedPrefixCapacity : Nat
  sharedPrefixes : Nat → SharedPrefixSlot

/-- `kv_pages_for_frontier`. -/
def kvPagesForFrontier (frontier : Nat) : Nat := pagesForTokens frontier

def backendFrontierAt (backend : SpeculativeBackend) (mainFrontier : Nat) : Nat :=
  match backend with
  | .mtp => if mainFrontier = 0 then 0 else mainFrontier - 1
  | .dflash => mainFrontier
  | _ => 0

namespace SequenceState

variable (q : SequenceState)

def pages (c : KVClass) : List Nat :=
  match q.kv with
  | none => []
  | some kv => kv.pages c

/-- The images the sequence has checkpoint references on, one entry for each reference. -/
def checkpointImages : List Nat :=
  q.rewriteState.toList ++ q.longAnchors.map (·.state)

/-- The images of the primary binding that live through it. -/
def primaryImages : List Nat :=
  (if ¬ q.state.borrowsRead ∨ q.state.read = q.state.write then q.state.read.toList else []) ++
    q.state.write.toList

/-- Every image the sequence keeps alive. -/
def heldImages : List Nat :=
  q.primaryImages ++ q.rewriteState.toList ++ q.reservedState.toList ++ q.longAnchors.map (·.state)

/-- `owned_checkpoint_references`. -/
def ownedCheckpointReferences (image : Nat) : Nat :=
  q.checkpointImages.count image

end SequenceState

namespace SharedPrefixState

def pages (h : SharedPrefixState) (c : KVClass) : List Nat :=
  match h.kv with
  | none => []
  | some kv => kv.pages c

end SharedPrefixState

namespace Residents

/-! ## Reference counts -/

variable (s : Residents)

def ownedPages : Owner → KVClass → List Nat
  | .continuation k, c => (s.continuations k).sequence.pages c
  | .sharedPrefix k, c => (s.sharedPrefixes k).prefixState.pages c

def checkpointImages : Owner → List Nat
  | .continuation k => (s.continuations k).sequence.checkpointImages
  | .sharedPrefix k => (s.sharedPrefixes k).prefixState.state.toList

/-- A weight of every owner, summed. -/
def total (weight : Owner → Nat) : Nat :=
  ∑ k ∈ range s.continuationCapacity, weight (.continuation k) +
    ∑ k ∈ range s.sharedPrefixCapacity, weight (.sharedPrefix k)

variable (c : KVClass)

/-- `address_references`. -/
def addressReferences (page : Nat) : Nat :=
  s.total fun o => (s.ownedPages o c).count page

/-- `checkpoint_references`. -/
def checkpointReferences (image : Nat) : Nat :=
  s.total fun o => (s.checkpointImages o).count image

/-- The pages of a class that an active address space of the sequence maps. -/
def activePages (q : SequenceState) (c : KVClass) : List Nat :=
  match q.kv, c with
  | none, _ => []
  | some kv, .main => if kv.text.entitlement.isSome then kv.text.pages else []
  | some kv, .backend => match kv.backend with
    | none => []
    | some address => if address.entitlement.isSome then address.pages else []

/-- `active_references` of a page. -/
def activeReferences (page : Nat) : Nat :=
  ∑ k ∈ range s.continuationCapacity, (activePages (s.continuations k).sequence c).count page

/-- `has_active_reference`. -/
def hasActiveReference (page : Nat) : Prop :=
  s.activeReferences c page ≠ 0
  deriving Decidable

variable {s t : Residents}

theorem total_congr {v w : Owner → Nat} (hc : t.continuationCapacity = s.continuationCapacity)
    (hp : t.sharedPrefixCapacity = s.sharedPrefixCapacity) (h : ∀ o, w o = v o) :
    t.total w = s.total v := by
  rw [total, total, hc, hp]
  simp [h]

/-! ## What an owner holds alone -/

variable (s : Residents)

/-- `state_exclusive_to_sequence`. -/
def stateExclusiveToSequence (q : SequenceState) (image : Nat) : Prop :=
  (s.images image).isSome ∧ s.checkpointReferences image = q.ownedCheckpointReferences image
  deriving Decidable

def imageOnDevice (image : Nat) : Bool :=
  match s.images image with
  | none => false
  | some i => i.residency.device

def imageOnHost (image : Nat) : Bool :=
  match s.images image with
  | none => false
  | some i => i.residency.host

variable (c : KVClass)

def pageOnDevice (page : Nat) : Bool :=
  (s.pages c page).residency.device

def pageOnHost (page : Nat) : Bool :=
  (s.pages c page).residency.host

/-- The slots of a list of distinct images. -/
def imageSlots (images : List Nat) : PhysicalResources where
  device := { stateSlots := images.countP s.imageOnDevice }
  host := { stateSlots := images.countP s.imageOnHost }

/-- The distinct images the sequence alone keeps alive. -/
def exclusiveImages (q : SequenceState) : List Nat :=
  (q.heldImages.filter fun i => s.stateExclusiveToSequence q i).dedup

def sequenceExclusiveStateResources (q : SequenceState) :
    Except Stop PhysicalResources := do
  throwIf (q.state.read.isSome ≠ q.state.write.isSome)
    (.logicError "sequence owner has a partial primary StateImage pair")
  throwIf (q.state.borrowsRead ∧ (q.state.forkPending = false ∨ q.state.read = q.state.write))
    (.logicError "sequence has an invalid borrowed StateImage source")
  throwIf (∃ i ∈ q.primaryImages ++ q.rewriteState.toList ++ q.reservedState.toList,
      s.images i = none)
    (.logicError "sequence owner has a stale StateImage")
  throwIf (∃ a ∈ q.longAnchors, s.images a.state = none)
    (.logicError "sequence owner has a stale long-anchor StateImage")
  return s.imageSlots (s.exclusiveImages q)

/-- The pages of an address space that no other address space maps. -/
def exclusivePages (pages : List Nat) : List Nat :=
  pages.filter fun p => s.addressReferences c p ≤ 1

def hostBytes (pages : List Nat) : Nat :=
  s.pageStride c * pages.countP (s.pageOnHost c)

/-- The pages an active address space may still grow by. -/
def growth (address : KVAddressSpace) : Except Stop Nat :=
  match address.entitlement with
  | none => .ok 0
  | some entitlement =>
    if entitlement < address.pages.length then
      .error (.fault (.logicError "owner active KV entitlement is inconsistent"))
    else .ok (entitlement - address.pages.length)

def backendGrowth (kv : SequenceKVBundle) : Except Stop Nat :=
  match kv.backend with
  | none => .ok 0
  | some address => growth address

/-- The replicas of the pages an owner holds alone. -/
def exclusiveKv (kv : SequenceKVBundle) : PhysicalResources where
  device := {
    mainKvPages := (s.exclusivePages .main (kv.pages .main)).countP (s.pageOnDevice .main)
    backendKvPages :=
      (s.exclusivePages .backend (kv.pages .backend)).countP (s.pageOnDevice .backend) }
  host := {
    kvBytes := s.hostBytes .main (s.exclusivePages .main (kv.pages .main)) +
      s.hostBytes .backend (s.exclusivePages .backend (kv.pages .backend)) }

/-- `owner_exclusive_resources` of a sequence. -/
def ownerExclusiveResources (q : SequenceState) :
    Except Stop PhysicalResources := do
  let states ← s.sequenceExclusiveStateResources q
  match q.kv with
  | none => .error (.fault (.logicError "sequence owner has no KV address bundle"))
  | some kv =>
    let main ← growth kv.text
    let backend ← backendGrowth kv
    throwIf ((s.exclusiveKv kv).host.kvBytes > maxU64)
      (.overflowError "resident Host KV byte count overflow")
    return states + s.exclusiveKv kv +
      { device := { mainKvPages := main, backendKvPages := backend } }

/-- `owner_exclusive_resources` of a shared prefix. -/
def sharedExclusiveResources (h : SharedPrefixState) :
    Except Stop PhysicalResources :=
  match h.kv, h.state with
  | some kv, some image => do
    throwIf (s.images image = none)
      (.logicError "shared prefix has incomplete resident physical state")
    throwIf (s.checkpointReferences image = 0)
      (.logicError "shared prefix StateImage has no checkpoint reference")
    throwIf ((s.exclusiveKv kv).host.kvBytes > maxU64)
      (.overflowError "shared Host KV byte count overflow")
    return s.imageSlots (if s.checkpointReferences image = 1 then [image] else []) +
      s.exclusiveKv kv
  | _, _ => .error (.fault (.logicError "shared prefix has incomplete resident physical state"))

/-! ## Summaries -/

/-- One `CheckpointSummary`, as far as pressure reads it. -/
structure CheckpointSummary where
  ref : CheckpointRef
  requiredKv : TargetKVRequirement

def checkpointSummary (ref : CheckpointRef) : CheckpointSummary where
  ref
  requiredKv := {
    mainFrontier := ref.frontier
    backendFrontier := backendFrontierAt s.speculativeBackend ref.frontier
    mainPages := kvPagesForFrontier ref.frontier
    backendPages := kvPagesForFrontier (backendFrontierAt s.speculativeBackend ref.frontier) }

structure ContinuationSummary where
  endpoint : Option CheckpointSummary := none
  rewrite : Option CheckpointSummary := none
  longAnchors : List CheckpointSummary := []

def ContinuationSummary.all (m : ContinuationSummary) : List CheckpointSummary :=
  m.endpoint.toList ++ m.rewrite.toList ++ m.longAnchors

/-- `populate_continuation_summary`, without its checks. -/
def continuationSummary (q : SequenceState) : ContinuationSummary where
  endpoint := if q.endpointValid then
      some (s.checkpointSummary { kind := .sessionEndpoint, frontier := q.executionFrontier })
    else none
  rewrite := q.rewriteCheckpoint.map fun r =>
    s.checkpointSummary { kind := checkpointKind r.kind, frontier := r.frontier }
  longAnchors := q.longAnchors.map fun a =>
    s.checkpointSummary { kind := .longAnchor, frontier := a.frontier, ordinal := a.ordinal }

/-- `retained_requirement_after_drops`. -/
def retainedRequirementAfterDrops (summary : ContinuationSummary) (dropped : List CheckpointRef) :
    Option TargetKVRequirement :=
  let survivors := summary.all.filter fun m => m.ref ∉ dropped
  let requirement : TargetKVRequirement := {
    mainFrontier := (survivors.map (·.requiredKv.mainFrontier)).foldl max 0
    backendFrontier := (survivors.map (·.requiredKv.backendFrontier)).foldl max 0
    mainPages := (survivors.map (·.requiredKv.mainPages)).foldl max 0
    backendPages := (survivors.map (·.requiredKv.backendPages)).foldl max 0 }
  if dropped = [] ∨ (summary.all.filter fun m => m.ref ∈ dropped).length ≠ dropped.length ∨
      survivors = [] ∨ requirement.mainFrontier = 0 ∨ requirement.mainPages = 0 then none
  else some requirement

/-! ## Writing slots back -/

def setSequence (index : Nat) (f : SequenceState → SequenceState) : Residents :=
  { s with
    continuations := update s.continuations index { s.continuations index with
      sequence := f (s.continuations index).sequence } }

def setPageResidency (page : Nat) (r : Residency) : Residents :=
  { s with
    pages := update s.pages c (update (s.pages c) page { s.pages c page with residency := r }) }

def setImage (image : Nat) (i : Option StateImage) : Residents :=
  { s with images := update s.images image i }

end Residents

end Ninfer.Qwen
