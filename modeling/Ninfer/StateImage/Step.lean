/-
  What one command can do to the system.

  `Step may s t` lists the state changes of the store's operations with the guards the code
  checks before each. `Run` shows that every command, however it ends, is a sequence of steps;
  the invariants are proved over `Step`.

  `may` restricts when the environment issues a command. It is recorded only where a later
  theorem restricts it: thaw, fork commit and abort, and publication.
-/
import Ninfer.StateImage.System

namespace Ninfer.StateImage

open Lib Function Relation

/-- Nothing pending: no slot on its way in, no transfer. -/
structure Settled (o : Object) : Prop where
  pendingDevice : o.pendingDeviceSlot = none
  pendingHost : o.pendingHostSlot = none
  transfer : o.transferId = 0

/-- Settled, no pin, and not pinned as a destination. -/
structure Idle (o : Object) : Prop extends Settled o where
  pins : o.sourcePins = 0
  unpinned : o.destinationPinned = false

theorem settled_of {o : Object} (h : ¬ StateImageStore.hasPendingReplica o) : Settled o := by
  unfold StateImageStore.hasPendingReplica at h
  push Not at h
  exact ⟨by simpa using h.1, by simpa using h.2.1, h.2.2⟩

theorem idle_of {o : Object} (hp : o.sourcePins = 0) (hu : o.destinationPinned = false)
    (h : ¬ StateImageStore.hasPendingReplica o) : Idle o :=
  { settled_of h with pins := hp, unpinned := hu }

variable {V : Type}

namespace StateImageStore

/-- The store with its `i`-th object rewritten by `f`. -/
def setAt (s : StateImageStore V) (i : Nat) (f : Object → Object) : StateImageStore V :=
  { s with objects := update s.objects i (f (s.objects i)) }

section SetAt

variable (s : StateImageStore V) (i : Nat) (f : Object → Object)

@[simp] theorem setAt_self : (s.setAt i f).objects i = f (s.objects i) := by
  simp [setAt]

theorem setAt_of_ne {j : Nat} (h : j ≠ i) : (s.setAt i f).objects j = s.objects j := by
  simp [setAt, update_of_ne h]

theorem setAt_setAt (g : Object → Object) :
    (s.setAt i f).setAt i g = s.setAt i fun o => g (f o) := by
  simp [setAt]

theorem setAt_comm {j : Nat} (h : j ≠ i) (g : Object → Object) :
    (s.setAt i f).setAt j g = (s.setAt j g).setAt i f := by
  simp [setAt, update_of_ne h, update_of_ne h.symm, update_comm h]

@[simp] theorem setAt_id : (s.setAt i f).id = s.id := rfl

@[simp] theorem setAt_device : (s.setAt i f).device = s.device := rfl

@[simp] theorem setAt_host : (s.setAt i f).host = s.host := rfl

@[simp] theorem setAt_capacity : (s.setAt i f).capacity = s.capacity := rfl

@[simp] theorem setAt_freeObjects : (s.setAt i f).freeObjects = s.freeObjects := rfl

@[simp] theorem setAt_freeDeviceSlots : (s.setAt i f).freeDeviceSlots = s.freeDeviceSlots := rfl

end SetAt

/-- The Host pool after the slot, if there is one, is released. -/
def hostWithout (s : StateImageStore V) (slot : Option HostStateSlotHandle) :
    Option (HostStatePool V) :=
  match slot with
  | none => s.host
  | some h => s.host.map fun p => (p.release h).2

/-- Every Host handle an object holds, published or pending, is current in the pool. -/
def HostCurrent (s : StateImageStore V) : Prop :=
  ∀ i, i < s.capacity → ∀ h, (s.objects i).hostSlot = some h ∨
    (s.objects i).pendingHostSlot = some h → ∃ p, s.host = some p ∧ p.valid h = true

end StateImageStore

namespace ImageSystem

abbrev obj (s : ImageSystem V) (i : Nat) : Object := s.store.objects i

/-- The id the next transfer gets. -/
abbrev newId (s : ImageSystem V) : Nat := nextEpoch s.store.nextTransferId

end ImageSystem

open StateImageStore in
inductive Step [Zero V] (may : Command V → ImageSystem V → Prop) :
    ImageSystem V → ImageSystem V → Prop where
  | counters {s} (e n : Nat) :
    Step may s { s with store := { s.store with nextContentEpoch := e, nextTransferId := n } }
  | allocate {s} (i rest role) (hi : s.store.freeObjects = i :: rest)
    (hr : role = .activeMutable ∨ role = .reservedDestination) :
    Step may s { s with store := { s.store.setAt i fun o =>
        { generation := o.generation, role } with
      freeObjects := rest } }
  | allocateDevice {s} (i rest d slots role) (hi : s.store.freeObjects = i :: rest)
    (hd : s.store.freeDeviceSlots = d :: slots)
    (hr : role = .activeMutable ∨ role = .reservedDestination) :
    Step may s { s with store := { s.store.setAt i fun o =>
        { generation := o.generation, role, deviceSlot := some d } with
      freeObjects := rest
      freeDeviceSlots := slots } }
  | release {s} (h) (hv : s.store.valid h) (hidle : Idle (s.obj h.index)) :
    Step may s { s with store := { s.store.setAt h.index fun o => { o with
          hostSlot := none
          deviceSlot := none
          role := .free
          contentEpoch := 0
          generation := nextGeneration o.generation } with
      host := s.store.hostWithout (s.obj h.index).hostSlot
      freeDeviceSlots := (s.obj h.index).deviceSlot.toList ++ s.store.freeDeviceSlots
      freeObjects := h.index :: s.store.freeObjects } }
  | reset {s} (h d epoch) (hv : s.store.valid h)
    (hr : (s.obj h.index).role = .activeMutable ∨ (s.obj h.index).role = .reservedDestination)
    (hd : (s.obj h.index).deviceSlot = some d) (hidle : Idle (s.obj h.index)) :
    Step may s { s with store := { s.store.setAt h.index fun o => { o with
          contentEpoch := epoch
          role := .activeMutable } with
      device := { s.store.device with data := update s.store.device.data d 0 } } }
  | references {s} (h n) (hv : s.store.valid h) (hr : (s.obj h.index).role = .checkpointImmutable) :
    Step may s { s with store := s.store.setAt h.index fun o => { o with
      checkpointReferences := n } }
  | move {s} (h) (hv : s.store.valid h) (hr : (s.obj h.index).role = .checkpointImmutable)
    (hd : (s.obj h.index).deviceSlot ≠ none) (hidle : Idle (s.obj h.index)) :
    Step may s { s with store := { s.store.setAt h.index fun o => { o with
          hostSlot := none
          role := .activeMutable } with
      host := s.store.hostWithout (s.obj h.index).hostSlot } }
  | dropDevice {s} (h d) (hv : s.store.valid h)
    (hr : (s.obj h.index).role = .checkpointImmutable) (hd : (s.obj h.index).deviceSlot = some d)
    (hh : (s.obj h.index).hostSlot ≠ none) (hidle : Idle (s.obj h.index)) :
    Step may s { s with store := { s.store.setAt h.index fun o => { o with deviceSlot := none } with
      freeDeviceSlots := d :: s.store.freeDeviceSlots } }
  | dropHost {s} (h) (hv : s.store.valid h) (hr : (s.obj h.index).role = .checkpointImmutable)
    (hd : (s.obj h.index).deviceSlot ≠ none) (hidle : Idle (s.obj h.index)) :
    Step may s { s with store := { s.store.setAt h.index fun o => { o with hostSlot := none } with
      host := s.store.hostWithout (s.obj h.index).hostSlot } }
  | split {s} (a b d) (ha : s.store.valid a) (hb : s.store.valid b) (hab : a.index ≠ b.index)
    (hr : (s.obj a.index).role = .checkpointImmutable) (hd : (s.obj a.index).deviceSlot = some d)
    (hh : (s.obj a.index).hostSlot ≠ none) (hidle : Idle (s.obj a.index))
    (hr' : (s.obj b.index).role = .reservedDestination) (hd' : (s.obj b.index).deviceSlot = none)
    (hh' : (s.obj b.index).hostSlot = none) (hidle' : Idle (s.obj b.index)) :
    Step may s { s with store := (s.store.setAt b.index fun o => { o with
        deviceSlot := some d
        contentEpoch := (s.obj a.index).contentEpoch
        role := .activeMutable }).setAt a.index fun o => { o with deviceSlot := none } }
  | freeze {s} (h epoch) (hv : s.store.valid h) (hr : (s.obj h.index).role = .activeMutable)
    (hd : (s.obj h.index).deviceSlot ≠ none) (hidle : Idle (s.obj h.index)) :
    Step may s { s with store := s.store.setAt h.index fun o => { o with
      contentEpoch := epoch
      role := .checkpointImmutable } }
  | thaw {s} (h) (hm : may (.thaw h) s) (hv : s.store.valid h)
    (hr : (s.obj h.index).role = .checkpointImmutable) (hd : (s.obj h.index).deviceSlot ≠ none)
    (hidle : Idle (s.obj h.index)) :
    Step may s { s with store := s.store.setAt h.index fun o => { o with role := .activeMutable } }
  | recycle {s} (h) (hv : s.store.valid h) (hr : (s.obj h.index).role = .checkpointImmutable)
    (hh : (s.obj h.index).hostSlot = none) (hidle : Idle (s.obj h.index)) :
    Step may s { s with store := s.store.setAt h.index fun o => { o with
      checkpointReferences := 0
      role := .reservedDestination } }
  | restore {s} (h epoch) (hv : s.store.valid h)
    (hr : (s.obj h.index).role = .reservedDestination) (hd : (s.obj h.index).deviceSlot ≠ none)
    (hh : (s.obj h.index).hostSlot = none) (hidle : Idle (s.obj h.index)) :
    Step may s { s with store := s.store.setAt h.index fun o => { o with
      contentEpoch := epoch
      checkpointReferences := 1
      role := .checkpointImmutable } }
  | beginFork {s} (a b d) (ha : s.store.valid a) (hb : s.store.valid b)
    (hab : a.index ≠ b.index) (hr : (s.obj a.index).role = .checkpointImmutable)
    (hd : (s.obj a.index).deviceSlot = some d) (hmax : (s.obj a.index).sourcePins ≠ maxU32)
    (hr' : (s.obj b.index).role = .reservedDestination) (hd' : (s.obj b.index).deviceSlot ≠ none)
    (hidle' : Idle (s.obj b.index)) :
    Step may s { s with
      store := (s.store.setAt a.index fun o => { o with sourcePins := o.sourcePins + 1 }).setAt
        b.index fun o => { o with
          destinationPinned := true
          role := .activeMutable
          contentEpoch := (s.obj a.index).contentEpoch }
      forks := ⟨a, b, d⟩ :: s.forks }
  | commitFork {s} (a b) (hm : may (.commitFork a b) s) (ha : s.store.valid a)
    (hb : s.store.valid b) (hab : a.index ≠ b.index)
    (hr : (s.obj a.index).role = .checkpointImmutable) (hp : (s.obj a.index).sourcePins ≠ 0)
    (hr' : (s.obj b.index).role = .activeMutable) (hd' : (s.obj b.index).deviceSlot ≠ none) :
    Step may s { s with
      store := (s.store.setAt a.index fun o => { o with sourcePins := o.sourcePins - 1 }).setAt
        b.index fun o => { o with destinationPinned := false }
      forks := s.forks.eraseP fun f => f.source = a && f.destination = b }
  | abortFork {s} (a b) (hm : may (.abortFork a b) s) (ha : s.store.valid a)
    (hb : s.store.valid b) (hab : a.index ≠ b.index)
    (hr : (s.obj a.index).role = .checkpointImmutable) (hp : (s.obj a.index).sourcePins ≠ 0)
    (hr' : (s.obj b.index).role = .activeMutable) (hd' : (s.obj b.index).deviceSlot ≠ none) :
    Step may s { s with
      store := (s.store.setAt a.index fun o => { o with sourcePins := o.sourcePins - 1 }).setAt
        b.index fun o => { o with
          destinationPinned := false
          role := .reservedDestination
          contentEpoch := 0 }
      forks := s.forks.eraseP fun f => f.source = a && f.destination = b }
  | reserveDeviceToHost {s} (h p slot p') (hv : s.store.valid h) (hp : s.store.host = some p)
    (ha : p.allocate = (some slot, p')) (hr : (s.obj h.index).role = .checkpointImmutable)
    (hd : (s.obj h.index).deviceSlot ≠ none) (hh : (s.obj h.index).hostSlot = none)
    (hset : Settled (s.obj h.index)) (hmax : (s.obj h.index).sourcePins ≠ maxU32) :
    Step may s { s with
      store := { s.store.setAt h.index fun o => { o with
            pendingHostSlot := some slot
            transferId := s.newId
            destinationPinned := true
            sourcePins := o.sourcePins + 1 } with
        host := some p'
        nextTransferId := s.newId }
      transfers := s.transfers ++ [⟨⟨some s.store.id, s.newId, .deviceToHost, h, h⟩, none, false⟩] }
  | enqueue {s} (k o d) (hk : s.transfers[k]? = some o) (hv : s.store.validTransfer o.transfer)
    (hdir : o.transfer.direction = .deviceToHost)
    (hd : (s.obj o.transfer.source.index).deviceSlot = some d) :
    Step may s { s with transfers := s.transfers.set k { o with enqueued := some d } }
  | beginHostToDevice {s} (h d slots slot) (hv : s.store.valid h)
    (hfree : s.store.freeDeviceSlots = d :: slots)
    (hr : (s.obj h.index).role = .checkpointImmutable) (hd : (s.obj h.index).deviceSlot = none)
    (hh : (s.obj h.index).hostSlot = some slot) (hset : Settled (s.obj h.index))
    (hmax : (s.obj h.index).sourcePins ≠ maxU32) :
    Step may s { s with
      store := { s.store.setAt h.index fun o => { o with
            pendingDeviceSlot := some d
            transferId := s.newId
            destinationPinned := true
            sourcePins := o.sourcePins + 1 } with
        freeDeviceSlots := slots
        nextTransferId := s.newId }
      transfers := s.transfers ++
        [⟨⟨some s.store.id, s.newId, .hostToDevice, h, h⟩, some slot.index, false⟩] }
  | beginHostFork {s} (a b d slots slot) (ha : s.store.valid a) (hb : s.store.valid b)
    (hab : a.index ≠ b.index) (hfree : s.store.freeDeviceSlots = d :: slots)
    (hr : (s.obj a.index).role = .checkpointImmutable) (hh : (s.obj a.index).hostSlot = some slot)
    (hmax : (s.obj a.index).sourcePins ≠ maxU32)
    (hr' : (s.obj b.index).role = .reservedDestination) (hd' : (s.obj b.index).deviceSlot = none)
    (hh' : (s.obj b.index).hostSlot = none) (hidle' : Idle (s.obj b.index)) :
    Step may s { s with
      store := { (s.store.setAt b.index fun o => { o with
            pendingDeviceSlot := some d
            transferId := s.newId
            destinationPinned := true
            role := .activeMutable
            contentEpoch := (s.obj a.index).contentEpoch }).setAt
          a.index fun o => { o with sourcePins := o.sourcePins + 1 } with
        freeDeviceSlots := slots
        nextTransferId := s.newId }
      transfers := s.transfers ++
        [⟨⟨some s.store.id, s.newId, .hostToFork, a, b⟩, some slot.index, false⟩] }
  | publishDeviceToHost {s} (k o) (hm : may (.publishTransfer k true) s)
    (hk : s.transfers[k]? = some o) (hv : s.store.validTransfer o.transfer)
    (hdir : o.transfer.direction = .deviceToHost) :
    Step may s { s with
      store := s.store.setAt o.transfer.source.index fun o => { decrementPins o with
        hostSlot := o.pendingHostSlot
        pendingHostSlot := none
        destinationPinned := false
        transferId := 0 }
      transfers := s.transfers.eraseIdx k }
  | publishDeviceToHostOnly {s} (k o d) (hm : may (.publishTransfer k false) s)
    (hk : s.transfers[k]? = some o) (hv : s.store.validTransfer o.transfer)
    (hdir : o.transfer.direction = .deviceToHost)
    (hd : (s.obj o.transfer.source.index).deviceSlot = some d) :
    Step may s { s with
      store := { s.store.setAt o.transfer.source.index fun o => { decrementPins o with
            hostSlot := o.pendingHostSlot
            pendingHostSlot := none
            deviceSlot := none
            destinationPinned := false
            transferId := 0 } with
        freeDeviceSlots := d :: s.store.freeDeviceSlots }
      transfers := s.transfers.eraseIdx k }
  | publishHostToDevice {s} (k o) (hm : may (.publishTransfer k true) s)
    (hk : s.transfers[k]? = some o) (hv : s.store.validTransfer o.transfer)
    (hdir : o.transfer.direction = .hostToDevice) :
    Step may s { s with
      store := s.store.setAt o.transfer.source.index fun o => { decrementPins o with
        deviceSlot := o.pendingDeviceSlot
        pendingDeviceSlot := none
        destinationPinned := false
        transferId := 0 }
      transfers := s.transfers.eraseIdx k }
  | publishHostToDeviceOnly {s} (k o) (hm : may (.publishTransfer k false) s)
    (hk : s.transfers[k]? = some o) (hv : s.store.validTransfer o.transfer)
    (hdir : o.transfer.direction = .hostToDevice)
    (hh : (s.obj o.transfer.source.index).hostSlot ≠ none) :
    Step may s { s with
      store := { s.store.setAt o.transfer.source.index fun o => { decrementPins o with
            deviceSlot := o.pendingDeviceSlot
            pendingDeviceSlot := none
            hostSlot := none
            destinationPinned := false
            transferId := 0 } with
        host := s.store.hostWithout (s.obj o.transfer.source.index).hostSlot }
      transfers := s.transfers.eraseIdx k }
  | publishHostToFork {s} (k o keep) (hm : may (.publishTransfer k keep) s)
    (hk : s.transfers[k]? = some o) (hv : s.store.validTransfer o.transfer)
    (hdir : o.transfer.direction = .hostToFork) :
    Step may s { s with
      store := (((s.store.setAt o.transfer.destination.index fun o => { o with
          deviceSlot := o.pendingDeviceSlot
          pendingDeviceSlot := none }).setAt
        o.transfer.source.index decrementPins).setAt
        o.transfer.destination.index fun o => { o with
          destinationPinned := false
          transferId := 0 })
      transfers := s.transfers.eraseIdx k }
  | abortStale {s} (k o) (hk : s.transfers[k]? = some o) (hv : ¬ s.store.validTransfer o.transfer) :
    Step may s { s with transfers := s.transfers.eraseIdx k }
  | abortDeviceToHost {s} (k o) (hk : s.transfers[k]? = some o)
    (hv : s.store.validTransfer o.transfer) (hdir : o.transfer.direction = .deviceToHost) :
    Step may s { s with
      store := { (s.store.setAt o.transfer.source.index fun o => { o with
            sourcePins := o.sourcePins - 1 }).setAt o.transfer.source.index fun o => { o with
              pendingHostSlot := none
              destinationPinned := false
              transferId := 0 } with
        host := s.store.hostWithout (s.obj o.transfer.source.index).pendingHostSlot }
      transfers := s.transfers.eraseIdx k }
  | abortHostToDevice {s} (k o) (hk : s.transfers[k]? = some o)
    (hv : s.store.validTransfer o.transfer) (hdir : o.transfer.direction = .hostToDevice) :
    Step may s { s with
      store := { (s.store.setAt o.transfer.source.index fun o => { o with
            sourcePins := o.sourcePins - 1 }).setAt o.transfer.destination.index fun o => { o with
              pendingDeviceSlot := none
              destinationPinned := false
              transferId := 0 } with
        freeDeviceSlots := (s.obj o.transfer.destination.index).pendingDeviceSlot.toList ++
          s.store.freeDeviceSlots }
      transfers := s.transfers.eraseIdx k }
  | abortHostToFork {s} (k o) (hk : s.transfers[k]? = some o)
    (hv : s.store.validTransfer o.transfer) (hdir : o.transfer.direction = .hostToFork) :
    Step may s { s with
      store := { (s.store.setAt o.transfer.source.index fun o => { o with
            sourcePins := o.sourcePins - 1 }).setAt o.transfer.destination.index fun o => { o with
              pendingDeviceSlot := none
              destinationPinned := false
              transferId := 0
              role := .reservedDestination
              contentEpoch := 0 } with
        freeDeviceSlots := (s.obj o.transfer.destination.index).pendingDeviceSlot.toList ++
          s.store.freeDeviceSlots }
      transfers := s.transfers.eraseIdx k }
  | copy {s} (k) : Step may s (s.copy k)
  | execute {s} (h v) : Step may s (s.execute h v)

end Ninfer.StateImage
