/-
  The runs of a `StateImageStore`.

  The store's clients hold the open transfers. A copy that was enqueued happens at any later
  time (`copy`), execution writes the Device slot of an ActiveMutable image (`execute`), and
  everything else is a public operation of the store, in any order, with any handles.

  `forks` is ghost: the bindings `begin_fork` opened and `commit_fork`/`abort_fork` of the same
  pair have not closed, with the selector `begin_fork` returned.
-/
import Ninfer.Lib.Reach
import Ninfer.StateImage.Store

namespace Ninfer.StateImage

open Lib Function

/-- A transfer in a client's hands: the slot its copy reads once it is enqueued, and whether
    the copy has been performed. -/
structure OpenTransfer where
  transfer : StateImageTransfer
  enqueued : Option Nat
  copied : Bool

structure ForkBinding where
  source : StateImageHandle
  destination : StateImageHandle
  slot : Nat

structure ImageSystem (V : Type) where
  store : StateImageStore V
  transfers : List OpenTransfer
  forks : List ForkBinding

inductive Command (V : Type) where
  | reserveDestination
  | reserveLogicalDestination
  | reserveReset (cuda : Bool)
  | activateReset (h : StateImageHandle) (cuda : Bool)
  | retainCheckpointReference (h : StateImageHandle)
  | releaseCheckpointReference (h : StateImageHandle)
  | moveCheckpointToActive (h : StateImageHandle)
  | dropDeviceReplica (h : StateImageHandle)
  | dropHostReplica (h : StateImageHandle)
  | splitDeviceReplicaIdentity (source destination : StateImageHandle)
  | freeze (h : StateImageHandle)
  | thaw (h : StateImageHandle)
  | recycleCheckpointDestination (h : StateImageHandle)
  | restoreRecycledCheckpoint (h : StateImageHandle) (contentEpoch : Nat)
  | beginFork (source destination : StateImageHandle)
  | commitFork (source destination : StateImageHandle)
  | abortFork (source destination : StateImageHandle)
  | reserveDeviceToHost (source : StateImageHandle)
  /-- The `i`-th open transfer. -/
  | enqueueDeviceToHost (i : Nat) (cuda : Bool)
  | beginDeviceToHost (source : StateImageHandle) (cuda : Bool)
  | beginHostToDevice (source : StateImageHandle) (cuda : Bool)
  | beginHostFork (source destination : StateImageHandle) (cuda : Bool)
  | publishTransfer (i : Nat) (keepSourceReplica : Bool)
  /-- `abort_transfer`, or the destructor of the capability. -/
  | abortTransfer (i : Nat)
  | release (h : StateImageHandle)
  /-- The device performs the enqueued copy of the `i`-th open transfer. -/
  | copy (i : Nat)
  /-- Execution leaves `v` in the Device slot of an ActiveMutable image. -/
  | execute (h : StateImageHandle) (v : V)

namespace ImageSystem

variable {V : Type}

def onStore {α : Type} (m : Eff (StateImageStore V) α) : Eff (ImageSystem V) α :=
  Eff.zoom (·.store) (fun s t => { s with store := t }) m

def open_ (t : OpenTransfer) : Eff (ImageSystem V) Unit :=
  Eff.modify fun s => { s with transfers := s.transfers ++ [t] }

/-- The payload moved by an enqueued copy that reads the slot `slot`. -/
def performCopy (t : StateImageTransfer) (slot : Nat) (s : StateImageStore V) : StateImageStore V :=
  match s.host with
  | none => s
  | some p =>
    if t.direction = .deviceToHost then
      match (s.objects t.destination.index).pendingHostSlot with
      | none => s
      | some h =>
        { s with host := some { p with data := update p.data h.index (s.device.data slot) } }
    else
      match (s.objects t.destination.index).pendingDeviceSlot with
      | none => s
      | some d =>
        { s with device := { s.device with data := update s.device.data d (p.data slot) } }

def copy (i : Nat) (s : ImageSystem V) : ImageSystem V :=
  match s.transfers[i]? with
  | some ⟨t, some slot, _⟩ =>
    { s with
      store := performCopy t slot s.store
      transfers := s.transfers.set i ⟨t, some slot, true⟩ }
  | _ => s

def execute (h : StateImageHandle) (v : V) (s : ImageSystem V) : ImageSystem V :=
  if s.store.valid h ∧ (s.store.objects h.index).role = .activeMutable then
    match (s.store.objects h.index).deviceSlot with
    | none => s
    | some d =>
      { s with store := { s.store with
          device := { s.store.device with data := update s.store.device.data d v } } }
  else s

def closeFork (source destination : StateImageHandle) : Eff (ImageSystem V) Unit :=
  Eff.modify fun s => { s with
    forks := s.forks.eraseP fun f => f.source = source && f.destination = destination }

/-- A begun transfer joins the open ones, its copy enqueued. -/
def opened (r : Option (StateImageTransfer × Nat)) : Eff (ImageSystem V) Unit :=
  match r with
  | none => pure ()
  | some (t, slot) => open_ ⟨t, some slot, false⟩

def withOpen (i : Nat) (k : OpenTransfer → Eff (ImageSystem V) Unit) :
    Eff (ImageSystem V) Unit := do
  let s ← Eff.get
  match s.transfers[i]? with
  | none => pure ()
  | some t => k t

/-- What each command does. A transfer whose publication throws stays open. -/
@[simp] def run [Zero V] : Command V → Eff (ImageSystem V) Unit
  | .reserveDestination => do let _ ← onStore StateImageStore.reserveDestination
  | .reserveLogicalDestination => do let _ ← onStore StateImageStore.reserveLogicalDestination
  | .reserveReset cuda => do let _ ← onStore (StateImageStore.reserveReset cuda)
  | .activateReset h cuda => onStore (StateImageStore.activateReset h cuda)
  | .retainCheckpointReference h => onStore (StateImageStore.retainCheckpointReference h)
  | .releaseCheckpointReference h => onStore (StateImageStore.releaseCheckpointReference h)
  | .moveCheckpointToActive h => onStore (StateImageStore.moveCheckpointToActive h)
  | .dropDeviceReplica h => do let _ ← onStore (StateImageStore.dropDeviceReplica h)
  | .dropHostReplica h => do let _ ← onStore (StateImageStore.dropHostReplica h)
  | .splitDeviceReplicaIdentity source destination =>
    onStore (StateImageStore.splitDeviceReplicaIdentity source destination)
  | .freeze h => onStore (StateImageStore.freeze h)
  | .thaw h => onStore (StateImageStore.thaw h)
  | .recycleCheckpointDestination h => do
    let _ ← onStore (StateImageStore.recycleCheckpointDestination h)
  | .restoreRecycledCheckpoint h epoch =>
    onStore (StateImageStore.restoreRecycledCheckpoint h epoch)
  | .beginFork source destination => do
    let selectors ← onStore (StateImageStore.beginFork source destination)
    Eff.modify fun s => { s with forks := ⟨source, destination, selectors.source⟩ :: s.forks }
  | .commitFork source destination => do
    onStore (StateImageStore.commitFork source destination)
    closeFork source destination
  | .abortFork source destination => do
    onStore (StateImageStore.abortFork source destination)
    closeFork source destination
  | .reserveDeviceToHost source => do
    match ← onStore (StateImageStore.reserveDeviceToHost source) with
    | none => pure ()
    | some t => open_ ⟨t, none, false⟩
  | .enqueueDeviceToHost i cuda => withOpen i fun o => do
    let slot ← onStore (StateImageStore.enqueueDeviceToHost o.transfer cuda)
    Eff.modify fun s => { s with transfers := s.transfers.set i { o with enqueued := some slot } }
  | .beginDeviceToHost source cuda => do
    opened (← onStore (StateImageStore.beginDeviceToHost source cuda))
  | .beginHostToDevice source cuda => do
    opened (← onStore (StateImageStore.beginHostToDevice source cuda))
  | .beginHostFork source destination cuda => do
    opened (← onStore (StateImageStore.beginHostFork source destination cuda))
  | .publishTransfer i keep => withOpen i fun o => do
    onStore (StateImageStore.publishTransfer o.transfer keep)
    Eff.modify fun s => { s with transfers := s.transfers.eraseIdx i }
  | .abortTransfer i => withOpen i fun o => do
    onStore (StateImageStore.abortTransfer o.transfer)
    Eff.modify fun s => { s with transfers := s.transfers.eraseIdx i }
  | .release h => do let _ ← onStore (StateImageStore.release h)
  | .copy i => Eff.modify (copy i)
  | .execute h v => Eff.modify (execute h v)

/-- A store fresh from its constructor, with any payloads in the slots and nothing open. -/
def Fresh (s : ImageSystem V) : Prop :=
  (∃ id device host capacity, (∀ p ∈ host, ∃ n data, p = HostStatePool.init n data) ∧
    StateImageStore.init id device host capacity = .ok s.store) ∧
  s.transfers = [] ∧ s.forks = []

end ImageSystem

end Ninfer.StateImage
