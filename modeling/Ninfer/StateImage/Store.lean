/-
  `StateImageStore` (`src/targets/qwen3_6/impl/runtime/state_image_store.h`) over its two
  pools, `StateImageDevicePool` and `HostStatePool` (`qwen3_6/state_image.h`,
  `impl/state/state_image.cpp`).

  A slot's payload is one value of `V`. The free stacks are lists, top first. A call of the
  device runtime takes `cuda`, whether it succeeds. Copies are asynchronous: a call that
  enqueues one leaves the payloads alone, and `System` performs the copy later.

  Left out: read-only queries that no modelled operation calls (`selectors`,
  `physical_slot`, `can_release_source_after_fork_abort`, ...), and the payload layouts.
-/
import Ninfer.Lib.Eff
import Ninfer.Core.Handle

namespace Ninfer.StateImage

open Lib Function

/-! ## The pools -/

structure HostStateSlotHandle where
  index : Nat
  generation : Nat
  deriving DecidableEq

/-- `HostStatePool::Slot`. -/
structure HostSlot where
  generation : Nat := 1
  occupied : Bool := false

structure HostStatePool (V : Type) where
  capacity : Nat
  slots : Nat → HostSlot
  freeSlots : List Nat
  occupied : Nat
  data : Nat → V

structure StateImageDevicePool (V : Type) where
  slotCount : Nat
  data : Nat → V

namespace HostStatePool

variable {V : Type}

def init (capacity : Nat) (data : Nat → V) : HostStatePool V where
  capacity
  slots := fun _ => {}
  freeSlots := List.range capacity
  occupied := 0
  data

def valid (p : HostStatePool V) (h : HostStateSlotHandle) : Bool :=
  h.index < p.capacity && (p.slots h.index).occupied && (p.slots h.index).generation = h.generation

def allocate (p : HostStatePool V) : Option HostStateSlotHandle × HostStatePool V :=
  match p.freeSlots with
  | [] => (none, p)
  | index :: rest =>
    (some ⟨index, (p.slots index).generation⟩, { p with
        freeSlots := rest
        slots := update p.slots index { p.slots index with occupied := true }
        occupied := p.occupied + 1 })

def release (p : HostStatePool V) (h : HostStateSlotHandle) : Bool × HostStatePool V :=
  if p.valid h then
    (true, { p with
        slots := update p.slots h.index
          { generation := nextGeneration (p.slots h.index).generation, occupied := false }
        freeSlots := h.index :: p.freeSlots
        occupied := p.occupied - 1 })
  else (false, p)

end HostStatePool

/-! ## The store -/

inductive StateImageRole where
  | free
  | activeMutable
  | checkpointImmutable
  | reservedDestination
  deriving DecidableEq

inductive StateTransferDirection where
  | deviceToHost
  | hostToDevice
  | hostToFork
  deriving DecidableEq

structure StateImageSelectors where
  source : Nat
  destination : Nat

/-- `StateImageStore::Object`. -/
structure Object where
  generation : Nat := 1
  contentEpoch : Nat := 0
  deviceSlot : Option Nat := none
  hostSlot : Option HostStateSlotHandle := none
  pendingDeviceSlot : Option Nat := none
  pendingHostSlot : Option HostStateSlotHandle := none
  transferId : Nat := 0
  checkpointReferences : Nat := 0
  sourcePins : Nat := 0
  destinationPinned : Bool := false
  role : StateImageRole := .free
  deriving DecidableEq

abbrev StateImageHandle := Handle Object

/-- A move-only capability; the owner is empty once it is consumed. -/
structure StateImageTransfer where
  owner : Option Nat
  id : Nat
  direction : StateTransferDirection
  source : StateImageHandle
  destination : StateImageHandle

structure StateImageStore (V : Type) where
  id : Nat
  device : StateImageDevicePool V
  host : Option (HostStatePool V)
  capacity : Nat
  objects : Nat → Object
  freeObjects : List Nat
  freeDeviceSlots : List Nat
  nextContentEpoch : Nat := 0
  nextTransferId : Nat := 0

namespace StateImageStore

variable {V : Type}

/-- The constructor, on the pools it is given; it throws when the logical capacity does not
    cover both pools. -/
def init (id : Nat) (device : StateImageDevicePool V) (host : Option (HostStatePool V))
    (logicalCapacity : Nat) : Except Fault (StateImageStore V) :=
  if logicalCapacity = 0 ∨ device.slotCount = 0 ∨ logicalCapacity < device.slotCount ∨
      (∃ h ∈ host, logicalCapacity < device.slotCount + h.capacity) then
    .error (.invalidArgument "StateImageStore capacity is inconsistent")
  else
    .ok {
      id
      device
      host
      capacity := logicalCapacity
      objects := fun _ => {}
      freeObjects := List.range logicalCapacity
      freeDeviceSlots := List.range device.slotCount }

def hasPendingReplica (o : Object) : Prop :=
  o.pendingDeviceSlot.isSome ∨ o.pendingHostSlot.isSome ∨ o.transferId ≠ 0
  deriving Decidable

variable (s : StateImageStore V)

def valid (h : StateImageHandle) : Prop :=
  h.owner = some s.id ∧ h.index < s.capacity ∧ (s.objects h.index).role ≠ .free ∧
    (s.objects h.index).generation = h.generation
  deriving Decidable

def require (h : StateImageHandle) : Eff (StateImageStore V) Object := do
  let s ← Eff.get
  if ¬ s.valid h then Eff.raise (.invalidArgument "StateImage handle is stale")
  pure (s.objects h.index)

/-- Assignments through the reference `objects_[index]`. -/
def setObject (index : Nat) (f : Object → Object) : Eff (StateImageStore V) Unit :=
  Eff.modify fun s => { s with objects := update s.objects index (f (s.objects index)) }

def takeDeviceSlot : Eff (StateImageStore V) (Option Nat) := fun s =>
  match s.freeDeviceSlots with
  | [] => .ok none s
  | slot :: rest => .ok (some slot) { s with freeDeviceSlots := rest }

def returnDeviceSlot (slot : Nat) : Eff (StateImageStore V) Unit :=
  Eff.modify fun s => { s with freeDeviceSlots := slot :: s.freeDeviceSlots }

def nextContentEpoch' : Eff (StateImageStore V) Nat := fun s =>
  .ok (nextEpoch s.nextContentEpoch) { s with nextContentEpoch := nextEpoch s.nextContentEpoch }

def nextTransfer : Eff (StateImageStore V) Nat := fun s =>
  .ok (nextEpoch s.nextTransferId) { s with nextTransferId := nextEpoch s.nextTransferId }

/-- `host_->allocate()`. -/
def hostAllocate : Eff (StateImageStore V) (Option HostStateSlotHandle) := fun s =>
  match s.host with
  | none => .dead
  | some p => .ok p.allocate.1 { s with host := some p.allocate.2 }

variable (slot : HostStateSlotHandle)

/-- `host_ != nullptr && host_->release(slot)`. -/
def hostRelease : Eff (StateImageStore V) Bool := fun s =>
  match s.host with
  | none => .ok false s
  | some p => .ok (p.release slot).1 { s with host := some (p.release slot).2 }

/-- `host_->view(slot)` and `host_->writable_view(slot)`. -/
def hostView : Eff (StateImageStore V) Unit := fun s =>
  match s.host with
  | none => .dead
  | some p =>
    if p.valid slot then .ok () s
    else .throw (.invalidArgument "HostStatePool handle is stale") s

/-- `device_->zero_slot(slot)`. -/
def zeroSlot [Zero V] (slot : Nat) (cuda : Bool) : Eff (StateImageStore V) Unit := do
  if cuda = false then Eff.raise .device
  Eff.modify fun s => { s with device := { s.device with data := update s.device.data slot 0 } }

/-! ### Allocation and roles -/

def allocate (role : StateImageRole) (withDevice : Bool) :
    Eff (StateImageStore V) (Option StateImageHandle) := fun s =>
  match s.freeObjects with
  | [] => .ok none s
  | index :: rest =>
    if role = .free ∨ (withDevice = true ∧ s.freeDeviceSlots = []) then .ok none s
    else
      let fresh : Object := { generation := (s.objects index).generation, role }
      let handle : StateImageHandle := ⟨some s.id, index, fresh.generation⟩
      if withDevice = true then
        .ok (some handle) { s with
          freeObjects := rest
          objects := update s.objects index { fresh with deviceSlot := s.freeDeviceSlots.head? }
          freeDeviceSlots := s.freeDeviceSlots.tail }
      else
        .ok (some handle) { s with freeObjects := rest, objects := update s.objects index fresh }

def reserveDestination : Eff (StateImageStore V) (Option StateImageHandle) :=
  allocate .reservedDestination true

def reserveLogicalDestination : Eff (StateImageStore V) (Option StateImageHandle) :=
  allocate .reservedDestination false

def canRelease (h : StateImageHandle) : Prop :=
  s.valid h ∧ (s.objects h.index).checkpointReferences = 0 ∧ (s.objects h.index).sourcePins = 0 ∧
    (s.objects h.index).destinationPinned = false ∧ ¬ hasPendingReplica (s.objects h.index)
  deriving Decidable

def release (h : StateImageHandle) : Eff (StateImageStore V) Bool := do
  let s ← Eff.get
  if ¬ s.canRelease h then return false
  else
    let object := s.objects h.index
    let released ← match object.hostSlot with
      | none => pure true
      | some slot => hostRelease slot
    if released = false then return false
    else
      setObject h.index fun o => { o with hostSlot := none }
      match object.deviceSlot with
        | none => pure ()
        | some slot => returnDeviceSlot slot
      setObject h.index fun o => { o with
        deviceSlot := none
        role := .free
        contentEpoch := 0
        generation := nextGeneration o.generation }
      Eff.modify fun s => { s with freeObjects := h.index :: s.freeObjects }
      return true

def reserveReset [Zero V] (cuda : Bool) : Eff (StateImageStore V) (Option StateImageHandle) := do
  match ← allocate .activeMutable true with
  | none => return none
  | some handle =>
    Eff.onThrow (do
        let object ← require handle
        zeroSlot (← Eff.deref object.deviceSlot) cuda
        let epoch ← nextContentEpoch'
        setObject handle.index fun o => { o with contentEpoch := epoch })
      (do let _ ← release handle)
    return some handle

def activateReset [Zero V] (h : StateImageHandle) (cuda : Bool) : Eff (StateImageStore V) Unit := do
  let object ← require h
  if object.role ≠ .reservedDestination ∨ object.deviceSlot = none ∨ object.sourcePins ≠ 0 ∨
      object.destinationPinned = true ∨ hasPendingReplica object then
    Eff.raise (.logicError "StateImage reset reservation is not activatable")
  zeroSlot (← Eff.deref object.deviceSlot) cuda
  let epoch ← nextContentEpoch'
  setObject h.index fun o => { o with contentEpoch := epoch, role := .activeMutable }

def retainCheckpointReference (h : StateImageHandle) : Eff (StateImageStore V) Unit := do
  let object ← require h
  if object.role ≠ .checkpointImmutable ∨ object.checkpointReferences = maxU32 then
    Eff.raise (.logicError "StateImage checkpoint reference is not retainable")
  setObject h.index fun o => { o with checkpointReferences := o.checkpointReferences + 1 }

def releaseCheckpointReference (h : StateImageHandle) : Eff (StateImageStore V) Unit := do
  let object ← require h
  if object.role ≠ .checkpointImmutable ∨ object.checkpointReferences = 0 then
    Eff.raise (.logicError "StateImage checkpoint reference is not releasable")
  setObject h.index fun o => { o with checkpointReferences := o.checkpointReferences - 1 }

def moveCheckpointToActive (h : StateImageHandle) : Eff (StateImageStore V) Unit := do
  let object ← require h
  if object.role ≠ .checkpointImmutable ∨ object.deviceSlot = none ∨
      object.checkpointReferences ≠ 0 ∨ object.sourcePins ≠ 0 ∨
      object.destinationPinned = true ∨ hasPendingReplica object then
    Eff.raise (.logicError "StateImage checkpoint is not movable")
  match object.hostSlot with
    | none => pure ()
    | some slot =>
      if (← hostRelease slot) = false then
        Eff.raise (.logicError "StateImage Host replica could not be consumed by Move")
  setObject h.index fun o => { o with hostSlot := none, role := .activeMutable }

def dropDeviceReplica (h : StateImageHandle) : Eff (StateImageStore V) Bool := do
  let s ← Eff.get
  if ¬ s.valid h then return false
  else
    let object := s.objects h.index
    if object.role ≠ .checkpointImmutable ∨ object.deviceSlot = none ∨ object.hostSlot = none ∨
        object.sourcePins ≠ 0 ∨ object.destinationPinned = true ∨ hasPendingReplica object then
      return false
    else
      returnDeviceSlot (← Eff.deref object.deviceSlot)
      setObject h.index fun o => { o with deviceSlot := none }
      return true

def dropHostReplica (h : StateImageHandle) : Eff (StateImageStore V) Bool := do
  let s ← Eff.get
  if ¬ s.valid h then return false
  else
    let object := s.objects h.index
    if s.host.isNone ∨ object.role ≠ .checkpointImmutable ∨ object.deviceSlot = none ∨
        object.hostSlot = none ∨ object.sourcePins ≠ 0 ∨ object.destinationPinned = true ∨
        hasPendingReplica object then
      return false
    else if (← hostRelease (← Eff.deref object.hostSlot)) = false then return false
    else
      setObject h.index fun o => { o with hostSlot := none }
      return true

variable (source destination : StateImageHandle)

def splitDeviceReplicaIdentity :
    Eff (StateImageStore V) Unit := do
  let sourceObject ← require source
  let destinationObject ← require destination
  if source = destination ∨ sourceObject.role ≠ .checkpointImmutable ∨
      sourceObject.deviceSlot = none ∨ sourceObject.hostSlot = none ∨
      sourceObject.sourcePins ≠ 0 ∨ sourceObject.destinationPinned = true ∨
      hasPendingReplica sourceObject ∨ destinationObject.role ≠ .reservedDestination ∨
      destinationObject.deviceSlot ≠ none ∨ destinationObject.hostSlot ≠ none ∨
      hasPendingReplica destinationObject ∨ destinationObject.sourcePins ≠ 0 ∨
      destinationObject.destinationPinned = true then
    Eff.raise (.logicError "StateImage replica identity split is invalid")
  setObject destination.index fun o => { o with
    deviceSlot := sourceObject.deviceSlot
    contentEpoch := sourceObject.contentEpoch
    role := .activeMutable }
  setObject source.index fun o => { o with deviceSlot := none }

def freeze (h : StateImageHandle) : Eff (StateImageStore V) Unit := do
  let object ← require h
  if object.role ≠ .activeMutable ∨ object.deviceSlot = none ∨ object.sourcePins ≠ 0 ∨
      object.destinationPinned = true ∨ hasPendingReplica object then
    Eff.raise (.logicError "StateImage active image is not freezable")
  let epoch ← nextContentEpoch'
  setObject h.index fun o => { o with contentEpoch := epoch, role := .checkpointImmutable }

/-- Unlike `moveCheckpointToActive`, a thaw leaves the Host replica where it is. -/
def thaw (h : StateImageHandle) : Eff (StateImageStore V) Unit := do
  let object ← require h
  if object.role ≠ .checkpointImmutable ∨ object.deviceSlot = none ∨
      object.checkpointReferences ≠ 0 ∨ object.sourcePins ≠ 0 ∨
      object.destinationPinned = true ∨ hasPendingReplica object then
    Eff.raise (.logicError "StateImage checkpoint is not thawable")
  setObject h.index fun o => { o with role := .activeMutable }

def canRecycleCheckpointDestination (h : StateImageHandle) : Prop :=
  s.valid h ∧ (s.objects h.index).role = .checkpointImmutable ∧
    (s.objects h.index).deviceSlot.isSome ∧ (s.objects h.index).hostSlot = none ∧
    (s.objects h.index).checkpointReferences = 1 ∧ (s.objects h.index).sourcePins = 0 ∧
    (s.objects h.index).destinationPinned = false ∧ ¬ hasPendingReplica (s.objects h.index)
  deriving Decidable

def recycleCheckpointDestination (h : StateImageHandle) : Eff (StateImageStore V) Nat := do
  let s ← Eff.get
  if ¬ s.canRecycleCheckpointDestination h then
    Eff.raise (.logicError "StateImage checkpoint is not recyclable as a destination")
  let object ← require h
  setObject h.index fun o => { o with checkpointReferences := 0, role := .reservedDestination }
  return object.contentEpoch

def restoreRecycledCheckpoint (h : StateImageHandle) (contentEpoch : Nat) :
    Eff (StateImageStore V) Unit := do
  let object ← require h
  if contentEpoch = 0 ∨ object.role ≠ .reservedDestination ∨ object.deviceSlot = none ∨
      object.hostSlot ≠ none ∨ object.checkpointReferences ≠ 0 ∨ object.sourcePins ≠ 0 ∨
      object.destinationPinned = true ∨ hasPendingReplica object then
    Eff.raise (.logicError "StateImage recycled checkpoint is not restorable")
  setObject h.index fun o => { o with
    contentEpoch
    checkpointReferences := 1
    role := .checkpointImmutable }

/-! ### Forks -/

def beginFork :
    Eff (StateImageStore V) StateImageSelectors := do
  let sourceObject ← require source
  let destinationObject ← require destination
  if source = destination ∨ sourceObject.role ≠ .checkpointImmutable ∨
      sourceObject.deviceSlot = none ∨ sourceObject.sourcePins = maxU32 ∨
      destinationObject.role ≠ .reservedDestination ∨ destinationObject.deviceSlot = none ∨
      destinationObject.sourcePins ≠ 0 ∨ destinationObject.destinationPinned = true ∨
      hasPendingReplica destinationObject then
    Eff.raise (.logicError "StateImage fork binding is invalid")
  setObject source.index fun o => { o with sourcePins := o.sourcePins + 1 }
  setObject destination.index fun o => { o with
    destinationPinned := true
    role := .activeMutable
    contentEpoch := sourceObject.contentEpoch }
  return ⟨← Eff.deref sourceObject.deviceSlot, ← Eff.deref destinationObject.deviceSlot⟩

def commitFork : Eff (StateImageStore V) Unit := do
  let sourceObject ← require source
  let destinationObject ← require destination
  if sourceObject.role ≠ .checkpointImmutable ∨ sourceObject.sourcePins = 0 ∨
      destinationObject.role ≠ .activeMutable ∨ destinationObject.deviceSlot = none ∨
      destinationObject.destinationPinned = false then
    Eff.raise (.logicError "StateImage fork commit is invalid")
  setObject source.index fun o => { o with sourcePins := o.sourcePins - 1 }
  setObject destination.index fun o => { o with destinationPinned := false }

def canAbortFork (source destination : StateImageHandle) : Prop :=
  s.valid source ∧ s.valid destination ∧ source ≠ destination ∧
    (s.objects source.index).role = .checkpointImmutable ∧
    (s.objects source.index).sourcePins ≠ 0 ∧
    (s.objects destination.index).role = .activeMutable ∧
    (s.objects destination.index).deviceSlot.isSome ∧
    (s.objects destination.index).destinationPinned = true
  deriving Decidable

def abortFork : Eff (StateImageStore V) Unit := do
  let s ← Eff.get
  if ¬ s.canAbortFork source destination then
    Eff.raise (.logicError "StateImage fork abort is invalid")
  setObject source.index fun o => { o with sourcePins := o.sourcePins - 1 }
  setObject destination.index fun o => { o with
    destinationPinned := false
    role := .reservedDestination
    contentEpoch := 0 }

/-! ### Transfers -/

variable (t : StateImageTransfer)

def validTransfer : Prop :=
  t.owner = some s.id ∧ t.id ≠ 0 ∧ s.valid t.source ∧ s.valid t.destination ∧
    (s.objects t.destination.index).transferId = t.id
  deriving Decidable

def validateTransfer : Eff (StateImageStore V) Unit := do
  let s ← Eff.get
  if ¬ s.validTransfer t then
    Eff.raise (.logicError "StateImage transfer capability is stale")

def reserveDeviceToHost (source : StateImageHandle) :
    Eff (StateImageStore V) (Option StateImageTransfer) := do
  let object ← require source
  let s ← Eff.get
  if s.host.isNone ∨ object.role ≠ .checkpointImmutable ∨ object.deviceSlot = none ∨
      object.hostSlot ≠ none ∨ hasPendingReplica object ∨ object.sourcePins = maxU32 then
    return none
  else
    match ← hostAllocate with
    | none => return none
    | some target =>
      let transfer ← nextTransfer
      setObject source.index fun o => { o with
        pendingHostSlot := some target
        transferId := transfer
        destinationPinned := true
        sourcePins := o.sourcePins + 1 }
      return some ⟨some s.id, transfer, .deviceToHost, source, source⟩

/-- Enqueues the copy and returns the Device slot it reads. -/
def enqueueDeviceToHost (cuda : Bool) : Eff (StateImageStore V) Nat := do
  validateTransfer t
  let object ← require t.source
  let s ← Eff.get
  if t.direction ≠ .deviceToHost ∨ s.host.isNone ∨ object.deviceSlot = none ∨
      object.pendingHostSlot = none then
    Eff.raise (.logicError "StateImage Device-to-Host transfer is not enqueueable")
  let slot ← Eff.deref object.deviceSlot
  hostView (← Eff.deref object.pendingHostSlot)
  if cuda = false then Eff.raise .device
  return slot

def abortTransfer : Eff (StateImageStore V) Unit := do
  let s ← Eff.get
  if ¬ s.validTransfer t then return ()
  else
    let source := s.objects t.source.index
    let destination := s.objects t.destination.index
    -- `if (source.source_pins != 0) --source.source_pins`: subtraction stops at zero here too
    setObject t.source.index fun o => { o with sourcePins := o.sourcePins - 1 }
    match t.direction with
    | .deviceToHost =>
      match source.pendingHostSlot with
        | none => pure ()
        | some slot => do let _ ← hostRelease slot
      setObject t.source.index fun o => { o with
        pendingHostSlot := none
        destinationPinned := false
        transferId := 0 }
    | direction =>
      match destination.pendingDeviceSlot with
        | none => pure ()
        | some slot => returnDeviceSlot slot
      setObject t.destination.index fun o => { o with
        pendingDeviceSlot := none
        destinationPinned := false
        transferId := 0 }
      if direction = .hostToFork then
        setObject t.destination.index fun o => { o with
          role := .reservedDestination
          contentEpoch := 0 }

/-- Reserves and enqueues; also returns the Device slot the copy reads. -/
def beginDeviceToHost (source : StateImageHandle) (cuda : Bool) :
    Eff (StateImageStore V) (Option (StateImageTransfer × Nat)) := do
  match ← reserveDeviceToHost source with
  | none => return none
  | some transfer =>
    let slot ← Eff.onThrow (enqueueDeviceToHost transfer cuda) (abortTransfer transfer)
    return some (transfer, slot)

/-- `device_->copy_from_host(host_->view(slot), ...)`, up to the enqueue. -/
def copyFromHost (cuda : Bool) : Eff (StateImageStore V) Unit := do
  hostView slot
  if cuda = false then Eff.raise .device

/-- Also returns the Host slot the copy reads. -/
def beginHostToDevice (source : StateImageHandle) (cuda : Bool) :
    Eff (StateImageStore V) (Option (StateImageTransfer × Nat)) := do
  let object ← require source
  let s ← Eff.get
  if s.host.isNone ∨ object.role ≠ .checkpointImmutable ∨ object.hostSlot = none ∨
      object.deviceSlot ≠ none ∨ hasPendingReplica object ∨ object.sourcePins = maxU32 then
    return none
  else
    match ← takeDeviceSlot with
    | none => return none
    | some target =>
      let transfer ← nextTransfer
      setObject source.index fun o => { o with
        pendingDeviceSlot := some target
        transferId := transfer
        destinationPinned := true
        sourcePins := o.sourcePins + 1 }
      let hostSlot ← Eff.deref object.hostSlot
      Eff.onThrow (copyFromHost hostSlot cuda) (do
        setObject source.index fun o => { o with
          sourcePins := o.sourcePins - 1
          destinationPinned := false
          transferId := 0
          pendingDeviceSlot := none }
        returnDeviceSlot target)
      return some (⟨some s.id, transfer, .hostToDevice, source, source⟩, hostSlot.index)

/-- Also returns the Host slot the copy reads. -/
def beginHostFork (cuda : Bool) :
    Eff (StateImageStore V) (Option (StateImageTransfer × Nat)) := do
  let sourceObject ← require source
  let destinationObject ← require destination
  let s ← Eff.get
  if s.host.isNone ∨ source = destination ∨ sourceObject.role ≠ .checkpointImmutable ∨
      sourceObject.hostSlot = none ∨ sourceObject.sourcePins = maxU32 ∨
      destinationObject.role ≠ .reservedDestination ∨ destinationObject.deviceSlot ≠ none ∨
      destinationObject.hostSlot ≠ none ∨ hasPendingReplica destinationObject ∨
      destinationObject.sourcePins ≠ 0 ∨ destinationObject.destinationPinned = true then
    return none
  else
    match ← takeDeviceSlot with
    | none => return none
    | some target =>
      let transfer ← nextTransfer
      setObject destination.index fun o => { o with
        pendingDeviceSlot := some target
        transferId := transfer
        destinationPinned := true
        role := .activeMutable
        contentEpoch := sourceObject.contentEpoch }
      setObject source.index fun o => { o with sourcePins := o.sourcePins + 1 }
      let hostSlot ← Eff.deref sourceObject.hostSlot
      Eff.onThrow (copyFromHost hostSlot cuda) (do
        setObject source.index fun o => { o with sourcePins := o.sourcePins - 1 }
        setObject destination.index fun o => { o with
          pendingDeviceSlot := none
          transferId := 0
          destinationPinned := false
          role := .reservedDestination
          contentEpoch := 0 }
        returnDeviceSlot target)
      return some (⟨some s.id, transfer, .hostToFork, source, destination⟩, hostSlot.index)

/-- `--source_pins`, unguarded. -/
def decrementPins (o : Object) : Object := { o with sourcePins := predU32 o.sourcePins }

def publishTransfer (keepSourceReplica : Bool) :
    Eff (StateImageStore V) Unit := do
  validateTransfer t
  let source ← require t.source
  let _ ← require t.destination
  match t.direction with
  | .deviceToHost =>
    setObject t.source.index fun o => { o with
      hostSlot := o.pendingHostSlot
      pendingHostSlot := none }
    if keepSourceReplica = false then
      returnDeviceSlot (← Eff.deref source.deviceSlot)
      setObject t.source.index fun o => { o with deviceSlot := none }
    setObject t.source.index fun o => { decrementPins o with
      destinationPinned := false
      transferId := 0 }
  | .hostToDevice =>
    setObject t.source.index fun o => { o with
      deviceSlot := o.pendingDeviceSlot
      pendingDeviceSlot := none }
    if keepSourceReplica = false then
      if (← hostRelease (← Eff.deref source.hostSlot)) = false then
        Eff.raise (.logicError "StateImage Host replica release failed at publication")
      setObject t.source.index fun o => { o with hostSlot := none }
    setObject t.source.index fun o => { decrementPins o with
      destinationPinned := false
      transferId := 0 }
  | .hostToFork =>
    setObject t.destination.index fun o => { o with
      deviceSlot := o.pendingDeviceSlot
      pendingDeviceSlot := none }
    setObject t.source.index decrementPins
    setObject t.destination.index fun o => { o with destinationPinned := false, transferId := 0 }

end StateImageStore

end Ninfer.StateImage
