/-
  Slot accounting of `StateImageStore`: in every reached state each Device slot is on the free
  stack, or is the Device slot or the pending Device slot of one object, exactly one of these;
  likewise each Host slot; the free objects are the ones on the object stack; and every
  CheckpointImmutable object has a published replica.

  The invariant also says what an open transfer's destination looks like (`Awaits`): the
  object it names still carries the transfer's id and the pending slot of its direction. No
  rule on the clients is assumed: any operation with any handles at any time, and a
  publication may come before its copy.
-/
import Ninfer.Lib.Tally
import Ninfer.StateImage.Run

namespace Ninfer.StateImage

open Lib Function Finset StateImageStore

variable {V : Type}

/-! ## Claims on slots -/

/-- One when the position holds the slot `x`. -/
def slotClaim (position : Option Nat) (x : Nat) : Nat := if position = some x then 1 else 0

def deviceClaims (o : Object) (x : Nat) : Nat :=
  slotClaim o.deviceSlot x + slotClaim o.pendingDeviceSlot x

def hostClaim (position : Option HostStateSlotHandle) (x : Nat) : Nat :=
  slotClaim (position.map (·.index)) x

def hostClaims (o : Object) (x : Nat) : Nat :=
  hostClaim o.hostSlot x + hostClaim o.pendingHostSlot x

/-- The Host handle is in one of the object's two positions. -/
def HoldsHost (o : Object) (h : HostStateSlotHandle) : Prop :=
  o.hostSlot = some h ∨ o.pendingHostSlot = some h

@[simp] theorem slotClaim_none (x : Nat) : slotClaim none x = 0 := rfl

@[simp] theorem hostClaim_none (x : Nat) : hostClaim none x = 0 := rfl

theorem count_cons_slot (d : Nat) (l : List Nat) (x : Nat) :
    (d :: l).count x = slotClaim (some d) x + l.count x := by
  simp [List.count_cons, slotClaim, Nat.add_comm]

theorem count_toList_append (position : Option Nat) (l : List Nat) (x : Nat) :
    (position.toList ++ l).count x = slotClaim position x + l.count x := by
  cases position with
  | none => simp
  | some d => exact count_cons_slot d l x

theorem one_le_hostClaims {o : Object} {h : HostStateSlotHandle} (hh : HoldsHost o h) :
    1 ≤ hostClaims o h.index := by
  rcases hh with hh | hh <;> simp [hostClaims, hostClaim, slotClaim, hh]

/-! ## The parts of the invariant -/

/-- Every Device slot is on the free stack or in one position of one object. -/
def DeviceOk (slotCount capacity : Nat) (objects : Nat → Object) (free : List Nat) : Prop :=
  ∀ x, free.count x + ∑ i ∈ range capacity, deviceClaims (objects i) x =
    if x < slotCount then 1 else 0

/-- Every Host slot is on the pool's free stack or in one position of one object, and every
    Host handle an object holds is current. -/
structure HostOk (capacity : Nat) (objects : Nat → Object) (host : Option (HostStatePool V)) :
    Prop where
  total : ∀ p, host = some p → ∀ x,
    p.freeSlots.count x + ∑ i ∈ range capacity, hostClaims (objects i) x =
      if x < p.capacity then 1 else 0
  current : ∀ i, i < capacity → ∀ h, HoldsHost (objects i) h → ∃ p, host = some p ∧ p.valid h = true

/-- The object stack holds the free objects, each once. -/
def StackOk (capacity : Nat) (objects : Nat → Object) (freeObjects : List Nat) : Prop :=
  ∀ i, freeObjects.count i = if i < capacity ∧ (objects i).role = .free then 1 else 0

/-- A free object holds nothing, and a checkpoint has a published replica. -/
structure ObjectOk (o : Object) : Prop where
  free : o.role = .free → o.deviceSlot = none ∧ o.pendingDeviceSlot = none ∧
    o.hostSlot = none ∧ o.pendingHostSlot = none ∧ o.transferId = 0
  replica : o.role = .checkpointImmutable → o.deviceSlot ≠ none ∨ o.hostSlot ≠ none

/-- The destination `o` of an open transfer `t` carries its id and its pending slot. -/
structure Awaits (o : Object) (t : StateImageTransfer) : Prop where
  id : t.id ≠ 0
  transferId : o.transferId = t.id
  generation : o.generation = t.destination.generation
  deviceToHost : t.direction = .deviceToHost → t.source = t.destination ∧
    o.role = .checkpointImmutable ∧ o.deviceSlot ≠ none ∧ o.pendingDeviceSlot = none ∧
    o.hostSlot = none ∧ o.pendingHostSlot ≠ none
  hostToDevice : t.direction = .hostToDevice → t.source = t.destination ∧
    o.role = .checkpointImmutable ∧ o.deviceSlot = none ∧ o.pendingDeviceSlot ≠ none ∧
    o.hostSlot ≠ none ∧ o.pendingHostSlot = none
  hostToFork : t.direction = .hostToFork → t.source.index ≠ t.destination.index ∧
    o.role = .activeMutable ∧ o.deviceSlot = none ∧ o.pendingDeviceSlot ≠ none ∧
    o.hostSlot = none ∧ o.pendingHostSlot = none

/-- Every open transfer's destination awaits it, and no two share one. -/
structure TransfersOk (capacity : Nat) (objects : Nat → Object) (transfers : List OpenTransfer) :
    Prop where
  lt : ∀ o ∈ transfers, o.transfer.destination.index < capacity
  awaits : ∀ o ∈ transfers, Awaits (objects o.transfer.destination.index) o.transfer
  distinct : (transfers.map (·.transfer.destination.index)).Nodup

structure WellFormed (s : ImageSystem V) : Prop where
  device : DeviceOk s.store.device.slotCount s.store.capacity s.store.objects
    s.store.freeDeviceSlots
  host : HostOk s.store.capacity s.store.objects s.store.host
  stack : StackOk s.store.capacity s.store.objects s.store.freeObjects
  object : ∀ i, i < s.store.capacity → ObjectOk (s.store.objects i)
  transfers : TransfersOk s.store.capacity s.store.objects s.transfers

/-- No open transfer goes to the object `i`. -/
def Unawaited (s : ImageSystem V) (i : Nat) : Prop :=
  ∀ u ∈ s.transfers, u.transfer.destination.index ≠ i

theorem Unawaited.elim {s : ImageSystem V} {i : Nat} (h : Unawaited s i) {P : OpenTransfer → Prop} :
    ∀ u ∈ s.transfers, u.transfer.destination.index = i → P u :=
  fun u hu e => (h u hu e).elim

theorem Awaits.not_settled {o : Object} {t : StateImageTransfer} (h : Awaits o t)
    (hs : Settled o) : False := h.id (h.transferId.symm.trans hs.transfer)

section Parts

variable {slotCount capacity i : Nat} {objects : Nat → Object} {free free' : List Nat} {o : Object}

theorem DeviceOk.update (h : DeviceOk slotCount capacity objects free) (hi : i < capacity)
    (hc : ∀ x, free'.count x + deviceClaims o x = free.count x + deviceClaims (objects i) x) :
    DeviceOk slotCount capacity (update objects i o) free' := by
  intro x
  have htally := tally_update capacity i hi objects o (deviceClaims · x)
  have := h x
  have := hc x
  omega

theorem StackOk.update (h : StackOk capacity objects free) (hi : (objects i).role ≠ .free)
    (ho : o.role ≠ .free) : StackOk capacity (update objects i o) free := by
  intro j
  rw [h j]
  by_cases hj : j = i
  · simp [hj, hi, ho]
  · rw [update_of_ne hj]

theorem TransfersOk.update {transfers : List OpenTransfer}
    (h : TransfersOk capacity objects transfers)
    (ho : ∀ t ∈ transfers, t.transfer.destination.index = i → Awaits o t.transfer) :
    TransfersOk capacity (update objects i o) transfers := by
  refine ⟨h.lt, fun t ht => ?_, h.distinct⟩
  rw [update_apply]
  split
  next hi => exact ho t ht hi
  · exact h.awaits t ht

theorem ObjectOk.update (h : ∀ j < capacity, ObjectOk (objects j)) (ho : ObjectOk o) :
    ∀ j < capacity, ObjectOk (update objects i o j) := by
  intro j hj
  rw [update_apply]
  split
  · exact ho
  · exact h j hj

end Parts

namespace HostOk

variable {capacity i : Nat} {objects : Nat → Object} {host : Option (HostStatePool V)}
  {p : HostStatePool V}

/-- Two positions never hold the same Host slot. -/
theorem claims_le_one (h : HostOk capacity objects host) (hp : host = some p) (x : Nat) :
    ∑ i ∈ range capacity, hostClaims (objects i) x ≤ 1 := by
  have := h.total p hp x
  split at this <;> omega

theorem claims_lt (h : HostOk capacity objects host) (hp : host = some p) (x : Nat)
    (hx : 1 ≤ p.freeSlots.count x) : x < p.capacity := by
  have := h.total p hp x
  split at this <;> omega

/-- The object `i` gives up the position that held `slot`, and the pool releases it. -/
theorem update {s : StateImageStore V} (h : HostOk s.capacity s.objects s.host)
    (hi : i < s.capacity) (slot : Option HostStateSlotHandle) {o : Object}
    (hslot : ∀ a, slot = some a → HoldsHost (s.objects i) a)
    (hc : ∀ x, hostClaims o x + hostClaim slot x = hostClaims (s.objects i) x)
    (hsub : ∀ a, HoldsHost o a → HoldsHost (s.objects i) a) :
    HostOk s.capacity (Function.update s.objects i o) (s.hostWithout slot) := by
  have htally := fun x => tally_update s.capacity i hi s.objects o (hostClaims · x)
  -- whoever holds a handle afterwards held it before
  have held : ∀ j, j < s.capacity → ∀ a, HoldsHost (Function.update s.objects i o j) a →
      HoldsHost (s.objects j) a := by
    intro j _ a ha
    rw [update_apply] at ha
    split at ha
    next e => exact e ▸ hsub a ha
    · exact ha
  cases slot with
  | none =>
    refine ⟨fun p hp x => ?_, fun j hj a ha => h.current j hj a (held j hj a ha)⟩
    have := h.total p hp x
    have := htally x
    have := hc x
    simp only [hostClaim_none] at this
    omega
  | some released =>
    obtain ⟨p, hp, hv⟩ := h.current i hi released (hslot _ rfl)
    have hw : s.hostWithout (some released) = some (p.release released).2 := by
      simp [hostWithout, hp]
    rw [hw]
    simp only [HostStatePool.release, hv, if_true]
    constructor
    · rintro _ ⟨⟩ x
      have := h.total p hp x
      have := htally x
      have hx := hc x
      simp only [count_cons_slot]
      simp only [hostClaim, Option.map_some] at hx
      omega
    · intro j hj a ha
      obtain ⟨q, hq, hqv⟩ := h.current j hj a (held j hj a ha)
      obtain rfl := Option.mem_unique hp hq
      have hne : a.index ≠ released.index := by
        intro e
        have hone := h.claims_le_one hp a.index
        have hrel : hostClaim (some released) a.index = 1 := by
          simp [hostClaim, slotClaim, e]
        have := hc a.index
        by_cases hji : j = i
        · subst hji
          rw [update_self] at ha
          have := one_le_hostClaims ha
          have := le_tally s.capacity j hj fun k => hostClaims (s.objects k) a.index
          omega
        · rw [update_of_ne hji] at ha
          have := one_le_hostClaims ha
          have := add_le_tally s.capacity i j hi hj (Ne.symm hji)
            fun k => hostClaims (s.objects k) a.index
          omega
      simpa [HostStatePool.valid, update_of_ne hne] using hqv

/-- The object `i` takes a slot the pool allocated. -/
theorem allocate (h : HostOk capacity objects host) (hi : i < capacity) {p' : HostStatePool V}
    {slot : HostStateSlotHandle} {o : Object} (hp : host = some p)
    (ha : p.allocate = (some slot, p'))
    (hc : ∀ x, hostClaims o x = hostClaims (objects i) x + hostClaim (some slot) x)
    (hsub : ∀ a, HoldsHost o a → HoldsHost (objects i) a ∨ a = slot) :
    HostOk capacity (Function.update objects i o) (some p') := by
  unfold HostStatePool.allocate at ha
  split at ha
  · simp at ha
  next y rest hfree =>
  obtain ⟨hslot, rfl⟩ := Prod.mk.inj ha
  obtain rfl := Option.some.inj hslot
  constructor
  · rintro _ ⟨⟩ x
    have := h.total p hp x
    have := tally_update capacity i hi objects o (hostClaims · x)
    have hx := hc x
    simp only [hostClaim, Option.map_some] at hx
    simp only [hfree, count_cons_slot] at *
    omega
  · intro j hj a hold
    have hcases : HoldsHost (objects j) a ∨ a = ⟨y, (p.slots y).generation⟩ := by
      rw [update_apply] at hold
      split at hold
      next e => exact e ▸ hsub a hold
      · exact .inl hold
    rcases hcases with hold | rfl
    · -- a slot someone holds is not on the free stack
      obtain ⟨q, hq, hqv⟩ := h.current j hj a hold
      obtain rfl := Option.mem_unique hp hq
      have hne : a.index ≠ y := by
        intro e
        have := h.total p hp a.index
        have := one_le_hostClaims hold
        have := le_tally capacity j hj fun k => hostClaims (objects k) a.index
        have hy : 1 ≤ p.freeSlots.count a.index := by simp [hfree, e]
        split at * <;> omega
      simpa [HostStatePool.valid, update_of_ne hne] using hqv
    · have := h.claims_lt hp y (by simp [hfree])
      simp [HostStatePool.valid, this]

end HostOk

/-! ## One object rewritten -/

/-- The live object `i` becomes `o`: what it gives up of Device slots is what the free stack
    gains, and the Host position it gives up is `slot`. -/
structure Trade (s : StateImageStore V) (i : Nat) (o : Object) (slot : Option HostStateSlotHandle)
    (free : List Nat) : Prop where
  lt : i < s.capacity
  live : (s.objects i).role ≠ .free
  live' : o.role ≠ .free
  replica : o.role = .checkpointImmutable → o.deviceSlot ≠ none ∨ o.hostSlot ≠ none
  device : ∀ x, free.count x + deviceClaims o x =
    s.freeDeviceSlots.count x + deviceClaims (s.objects i) x
  host : ∀ x, hostClaims o x + hostClaim slot x = hostClaims (s.objects i) x
  given : ∀ a, slot = some a → HoldsHost (s.objects i) a
  held : ∀ a, HoldsHost o a → HoldsHost (s.objects i) a

/-- No slot moves. -/
theorem Trade.quiet {s : StateImageStore V} {h : StateImageHandle} {o : Object}
    (hv : s.valid h) (ho : o.role ≠ .free)
    (hrep : o.role = .checkpointImmutable → o.deviceSlot ≠ none ∨ o.hostSlot ≠ none)
    (hd : o.deviceSlot = (s.objects h.index).deviceSlot)
    (hpd : o.pendingDeviceSlot = (s.objects h.index).pendingDeviceSlot)
    (hh : o.hostSlot = (s.objects h.index).hostSlot)
    (hph : o.pendingHostSlot = (s.objects h.index).pendingHostSlot) :
    Trade s h.index o none s.freeDeviceSlots where
  lt := hv.2.1
  live := hv.2.2.1
  live' := ho
  replica := hrep
  device := by simp [deviceClaims, hd, hpd]
  host := by simp [hostClaims, hh, hph]
  given := by simp
  held := by simp [HoldsHost, hh, hph]

namespace WellFormed

variable {s t : ImageSystem V} {i : Nat} {o : Object}

theorem hostCurrent (h : WellFormed s) : s.store.HostCurrent :=
  fun i hi a ha => h.host.current i hi a ha

variable {free rest : List Nat}

section

variable (h : WellFormed s)

include h

theorem trade (slot : Option HostStateSlotHandle)
    (haw : ∀ u ∈ s.transfers, u.transfer.destination.index = i → Awaits o u.transfer)
    (hobj : t.store.objects = update s.store.objects i o)
    (htr : Trade s.store i o slot t.store.freeDeviceSlots)
    (hhost : t.store.host = s.store.hostWithout slot := by rfl)
    (hcap : t.store.capacity = s.store.capacity := by rfl)
    (hcount : t.store.device.slotCount = s.store.device.slotCount := by rfl)
    (hstack : t.store.freeObjects = s.store.freeObjects := by rfl)
    (htrans : t.transfers = s.transfers := by rfl) : WellFormed t := by
  constructor
  · rw [hcap, hcount, hobj]
    exact h.device.update htr.lt htr.device
  · rw [hcap, hobj, hhost]
    exact h.host.update htr.lt slot htr.given htr.host htr.held
  · rw [hcap, hobj, hstack]
    exact h.stack.update htr.live htr.live'
  · rw [hcap, hobj]
    exact ObjectOk.update h.object ⟨fun hf => absurd hf htr.live', htr.replica⟩
  · rw [hcap, hobj, htrans]
    exact h.transfers.update haw

/-- No open transfer goes to an object without one. -/
theorem unawaited (hset : Settled (s.obj i)) : Unawaited s i := by
  intro u hu hi
  have := h.transfers.awaits u hu
  rw [hi] at this
  exact this.not_settled hset

/-- Two open transfers have two destinations. -/
theorem destination_ne {j k : Nat} {u v : OpenTransfer}
    (hk : s.transfers[k]? = some u) (hj : s.transfers[j]? = some v) (hjk : j ≠ k) :
    v.transfer.destination.index ≠ u.transfer.destination.index := by
  intro e
  refine hjk ((List.getElem?_inj ?_ h.transfers.distinct).mp ?_)
  · simpa using (List.getElem?_eq_some_iff.mp hj).1
  · simp [hj, hk, e]

/-- A transfer closes; its destination is no longer the destination of any. -/
theorem close {k : Nat} {u : OpenTransfer} (hk : s.transfers[k]? = some u) :
    WellFormed { s with transfers := s.transfers.eraseIdx k } ∧
      Unawaited { s with transfers := s.transfers.eraseIdx k } u.transfer.destination.index ∧
      Awaits (s.store.objects u.transfer.destination.index) u.transfer := by
  have hsub := List.eraseIdx_sublist s.transfers k
  refine ⟨{ h with transfers := ⟨fun v hv => ?_, fun v hv => ?_, ?_⟩ }, ?_,
    h.transfers.awaits u (List.mem_of_getElem? hk)⟩
  · exact h.transfers.lt v (hsub.subset hv)
  · exact h.transfers.awaits v (hsub.subset hv)
  · exact h.transfers.distinct.sublist (hsub.map _)
  · intro v hv
    obtain ⟨j, hj, hv⟩ := List.mem_eraseIdx_iff_getElem?.mp hv
    exact h.destination_ne hk hv hj

/-- A transfer opens towards an object that had none. -/
theorem append (u : OpenTransfer)
    (hlt : u.transfer.destination.index < s.store.capacity)
    (haw : Awaits (s.store.objects u.transfer.destination.index) u.transfer)
    (hnew : Unawaited s u.transfer.destination.index) :
    WellFormed { s with transfers := s.transfers ++ [u] } := by
  refine { h with transfers :=
    ⟨forall_mem_push h.transfers.lt hlt, forall_mem_push h.transfers.awaits haw, ?_⟩ }
  simp only [List.map_append, List.map_cons, List.map_nil]
  refine List.nodup_append.mpr ⟨h.transfers.distinct, List.nodup_singleton _, ?_⟩
  intro a ha b hb e
  obtain ⟨v, hv, rfl⟩ := List.mem_map.mp ha
  exact hnew v hv (e.trans (List.mem_singleton.mp hb))

/-- The top of the object stack is a free object. -/
theorem top (hi : s.store.freeObjects = i :: rest) :
    i < s.store.capacity ∧ (s.obj i).role = .free := by
  have hcount := h.stack i
  rw [hi, List.count_cons_self] at hcount
  split at hcount
  · assumption
  · omega

theorem top_settled (hi : s.store.freeObjects = i :: rest) :
    Settled (s.obj i) := by
  obtain ⟨hlt, hrole⟩ := h.top hi
  obtain ⟨-, h2, -, h4, h5⟩ := (h.object i hlt).free hrole
  exact ⟨h2, h4, h5⟩

/-- A free object is allocated with the Device slot at `position`, if any. -/
theorem take (position : Option Nat) {role : StateImageRole}
    (hi : s.store.freeObjects = i :: rest)
    (hd : s.store.freeDeviceSlots = position.toList ++ free)
    (hr : role = .activeMutable ∨ role = .reservedDestination) :
    WellFormed { s with store := { s.store.setAt i fun o =>
        { generation := o.generation, role, deviceSlot := position } with
      freeObjects := rest
      freeDeviceSlots := free } } := by
  obtain ⟨hlt, hrole⟩ := h.top hi
  obtain ⟨e1, e2, e3, e4, -⟩ := (h.object i hlt).free hrole
  constructor
  · refine h.device.update hlt fun x => ?_
    rw [hd, count_toList_append]
    simp [deviceClaims, e1, e2, Nat.add_comm]
  · refine h.host.update hlt none (by simp) (fun x => ?_) fun a ha => ?_
    · simp [hostClaims, e3, e4]
    · simp [HoldsHost] at ha
  · intro j
    have hj := h.stack j
    rw [hi, List.count_cons] at hj
    by_cases hji : j = i
    · subst hji
      have hne : role ≠ .free := by rcases hr with rfl | rfl <;> decide
      simp [hlt, hrole] at hj
      simpa [setAt, hne] using hj
    · simpa [setAt, update_of_ne hji, Ne.symm hji] using hj
  · refine ObjectOk.update h.object ?_
    rcases hr with rfl | rfl <;> exact ⟨by simp, by simp⟩
  · exact h.transfers.update (h.unawaited (h.top_settled hi)).elim

/-- A released object gives everything back. -/
theorem giveBack {a : StateImageHandle} (hv : s.store.valid a)
    (hidle : Idle (s.obj a.index)) :
    WellFormed { s with store := { s.store.setAt a.index fun o => { o with
          hostSlot := none
          deviceSlot := none
          role := .free
          contentEpoch := 0
          generation := nextGeneration o.generation } with
      host := s.store.hostWithout (s.obj a.index).hostSlot
      freeDeviceSlots := (s.obj a.index).deviceSlot.toList ++ s.store.freeDeviceSlots
      freeObjects := a.index :: s.store.freeObjects } } := by
  obtain ⟨_, hlt, hlive, _⟩ := hv
  have e1 := hidle.pendingDevice
  have e2 := hidle.pendingHost
  constructor
  · refine h.device.update hlt fun x => ?_
    rw [count_toList_append]
    simp [deviceClaims, e1, Nat.add_comm]
  · refine h.host.update hlt _ (fun b hb => .inl hb) (fun x => ?_) fun b hb => ?_
    · simp [hostClaims, e2]
    · simp [HoldsHost, e2] at hb
  · intro j
    have hj := h.stack j
    by_cases hji : j = a.index
    · subst hji
      simp [hlive] at hj
      simp [setAt, hlt, hj]
    · simpa [setAt, update_of_ne hji, Ne.symm hji] using hj
  · exact ObjectOk.update h.object ⟨by simp [e1, e2, hidle.transfer], by simp⟩
  · exact h.transfers.update (h.unawaited hidle.toSettled).elim

end

end WellFormed

/-! ## Steps -/

namespace WellFormed

variable {s t : ImageSystem V}

/-- A step that rewrites an object no transfer goes to, and moves no slot. -/
theorem quiet (h : WellFormed s) {a : StateImageHandle} (hv : s.store.valid a)
    (hun : Unawaited s a.index) (f : Object → Object)
    (hobj : t.store.objects = (s.store.setAt a.index f).objects)
    (hf : ∀ o, (f o).role ≠ .free ∧ (f o).deviceSlot = o.deviceSlot ∧
      (f o).pendingDeviceSlot = o.pendingDeviceSlot ∧ (f o).hostSlot = o.hostSlot ∧
      (f o).pendingHostSlot = o.pendingHostSlot)
    (hd : (s.obj a.index).deviceSlot ≠ none ∨ (f (s.obj a.index)).role ≠ .checkpointImmutable)
    (hfree : t.store.freeDeviceSlots = s.store.freeDeviceSlots := by rfl)
    (hhost : t.store.host = s.store.host := by rfl)
    (hcap : t.store.capacity = s.store.capacity := by rfl)
    (hcount : t.store.device.slotCount = s.store.device.slotCount := by rfl)
    (hstack : t.store.freeObjects = s.store.freeObjects := by rfl)
    (htrans : t.transfers = s.transfers := by rfl) : WellFormed t := by
  obtain ⟨f1, f2, f3, f4, f5⟩ := hf (s.obj a.index)
  refine h.trade none hun.elim hobj (hfree ▸ Trade.quiet hv f1 (fun hr => ?_) f2 f3 f4 f5)
    hhost hcap hcount hstack htrans
  rcases hd with hd | hd
  · exact .inl (f2 ▸ hd)
  · exact absurd hr hd

/-- A step that rewrites only an object's counters and flags. -/
theorem relabel (h : WellFormed s) {a : StateImageHandle} (hv : s.store.valid a)
    (f : Object → Object)
    (hf : ∀ o, f o = { o with
      checkpointReferences := (f o).checkpointReferences
      sourcePins := (f o).sourcePins
      destinationPinned := (f o).destinationPinned }) :
    WellFormed { s with store := s.store.setAt a.index f } := by
  have htr : Trade s.store a.index (f (s.obj a.index)) none s.store.freeDeviceSlots := by
    refine Trade.quiet hv ?_ ?_ ?_ ?_ ?_ ?_ <;> rw [hf]
    · exact hv.2.2.1
    · exact (h.object _ hv.2.1).replica
  refine h.trade none (fun u hu hi => ?_) rfl htr
  have haw := h.transfers.awaits u hu
  rw [hi] at haw
  rw [hf]
  exact ⟨haw.id, haw.transferId, haw.generation, haw.deviceToHost, haw.hostToDevice, haw.hostToFork⟩

/-- Execution's destination: ActiveMutable with a published Device slot. -/
theorem unawaited_of_bound {i : Nat} (h : WellFormed s) (hr : (s.obj i).role = .activeMutable)
    (hd : (s.obj i).deviceSlot ≠ none) : Unawaited s i := by
  intro u hu e
  have haw := h.transfers.awaits u hu
  rw [e] at haw
  cases hdir : u.transfer.direction with
  | deviceToHost => simp [(haw.deviceToHost hdir).2.1] at hr
  | hostToDevice => simp [(haw.hostToDevice hdir).2.1] at hr
  | hostToFork => exact hd (haw.hostToFork hdir).2.2.1

/-- A checkpoint with a Host replica gives its Device slot back. -/
theorem dropDevice (h : WellFormed s) {a : StateImageHandle} {d : Nat} (hv : s.store.valid a)
    (hr : (s.obj a.index).role = .checkpointImmutable) (hd : (s.obj a.index).deviceSlot = some d)
    (hh : (s.obj a.index).hostSlot ≠ none) (hidle : Idle (s.obj a.index)) :
    WellFormed { s with store := { s.store.setAt a.index fun o => { o with deviceSlot := none } with
      freeDeviceSlots := d :: s.store.freeDeviceSlots } } := by
  refine h.trade none (h.unawaited hidle.toSettled).elim rfl ?_
  refine ⟨hv.2.1, hv.2.2.1, by simp [hr], fun _ => .inr hh, fun x => ?_, fun x => rfl, by simp,
    fun _ hb => hb⟩
  simp [count_cons_slot, deviceClaims, hd]
  omega

/-- The payloads do not matter. -/
theorem payload (h : WellFormed s) (data : Nat → V) {p : HostStatePool V}
    (hp : s.store.host = some p) :
    WellFormed { s with store := { s.store with host := some { p with data } } } := by
  refine ⟨h.device, ⟨?_, fun i hi a ha => ?_⟩, h.stack, h.object, h.transfers⟩
  · rintro _ ⟨⟩ x
    exact h.host.total p hp x
  · obtain ⟨q, hq, hv⟩ := h.host.current i hi a ha
    obtain rfl := Option.mem_unique hp hq
    exact ⟨_, rfl, hv⟩

/-- The bookkeeping of an open transfer does not matter. -/
theorem replace (h : WellFormed s) {k : Nat} {u v : OpenTransfer}
    (hk : s.transfers[k]? = some u) (hv : v.transfer = u.transfer) :
    WellFormed { s with transfers := s.transfers.set k v } := by
  refine { h with transfers := ⟨fun w hw => ?_, fun w hw => ?_, ?_⟩ }
  · rcases List.mem_or_eq_of_mem_set hw with hw | rfl
    · exact h.transfers.lt w hw
    · rw [hv]
      exact h.transfers.lt u (List.mem_of_getElem? hk)
  · rcases List.mem_or_eq_of_mem_set hw with hw | rfl
    · exact h.transfers.awaits w hw
    · rw [hv]
      exact h.transfers.awaits u (List.mem_of_getElem? hk)
  · rw [map_set_of_eq _ hk (by rw [hv])]
    exact h.transfers.distinct

theorem copy (h : WellFormed s) (k : Nat) : WellFormed (s.copy k) := by
  unfold ImageSystem.copy
  split
  next t slot _ hk =>
    have marked := h.replace hk (v := ⟨t, some slot, true⟩) rfl
    unfold ImageSystem.performCopy
    split
    · exact marked
    next p hp =>
      split <;> split
      · exact marked
      · exact marked.payload _ hp
      · exact marked
      · exact { marked with }
  · exact h

end WellFormed

theorem valid_congr {s t : StateImageStore V} {a : StateImageHandle} (h : s.valid a)
    (hid : t.id = s.id) (hcap : t.capacity = s.capacity)
    (hobj : t.objects a.index = s.objects a.index) : t.valid a := by
  unfold valid
  rw [hid, hcap, hobj]
  exact h

theorem valid_setAt {s : StateImageStore V} {a : StateImageHandle} {i : Nat} (f : Object → Object)
    (h : s.valid a) (hi : a.index ≠ i) : (s.setAt i f).valid a :=
  valid_congr h rfl rfl (setAt_of_ne _ _ _ hi)

theorem wellFormed_fresh {s : ImageSystem V} (h : ImageSystem.Fresh s) : WellFormed s := by
  obtain ⟨⟨id, device, host, capacity, hpool, hinit⟩, htr, -⟩ := h
  unfold init at hinit
  split at hinit
  · simp at hinit
  obtain hstore := (Except.ok.inj hinit).symm
  refine ⟨fun x => ?_, ⟨fun p hp x => ?_, ?_⟩, fun i => ?_, ?_, ?_⟩
  · simp [hstore, deviceClaims]
  · obtain ⟨n, data, rfl⟩ := hpool p (by simpa [hstore] using hp)
    simp [hstore, hostClaims, HostStatePool.init]
    rfl
  · simp [hstore, HoldsHost]
  · simp [hstore]
  · intro i _
    rw [hstore]
    exact ⟨fun _ => ⟨rfl, rfl, rfl, rfl, rfl⟩, by simp⟩
  · rw [htr]
    exact ⟨by simp, by simp, by simp⟩

section Steps

variable [Zero V] {may : Command V → ImageSystem V → Prop} {s t : ImageSystem V}

theorem wellFormed_step (h : WellFormed s) (hs : Step may s t) : WellFormed t := by
  cases hs with
  | counters e n => exact { h with }
  | allocate i rest role hi hr => exact h.take none hi rfl hr
  | allocateDevice i rest d slots role hi hd hr =>
    exact h.take (some d) hi hd hr
  | release a hv hidle => exact h.giveBack hv hidle
  | reset a d epoch hv hr hd hidle =>
    exact h.quiet hv (h.unawaited hidle.toSettled)
      (fun o => { o with contentEpoch := epoch, role := .activeMutable }) rfl (by simp)
      (.inr (by simp))
  | references a n hv hr => exact h.relabel hv _ fun _ => rfl
  | move a hv hr hd hidle =>
    refine h.trade (s.obj a.index).hostSlot (h.unawaited hidle.toSettled).elim rfl ?_
    refine ⟨hv.2.1, hv.2.2.1, by simp, by simp, fun x => rfl,
      fun x => ?_, fun b hb => .inl hb, fun b hb => ?_⟩
    · simp [hostClaims, hidle.pendingHost]
    · simp [HoldsHost, hidle.pendingHost] at hb
  | dropDevice a d hv hr hd hh hidle => exact h.dropDevice hv hr hd hh hidle
  | dropHost a hv hr hd hidle =>
    refine h.trade (s.obj a.index).hostSlot (h.unawaited hidle.toSettled).elim rfl ?_
    refine ⟨hv.2.1, hv.2.2.1, by simp [hr], fun _ => .inl hd, fun x => rfl,
      fun x => ?_, fun b hb => .inl hb, fun b hb => ?_⟩
    · simp [hostClaims, hidle.pendingHost]
    · simp [HoldsHost, hidle.pendingHost] at hb
  | split a b d ha hb hab hr hd hh hidle hr' hd' hh' hidle' =>
    -- the slot goes over the free stack: `a` returns it, `b` takes it
    have returned := h.dropDevice ha hr hd hh hidle
    have hb' := valid_setAt (fun o => { o with deviceSlot := none }) hb hab.symm
    have e : (s.store.setAt a.index fun o => { o with deviceSlot := none }).objects b.index =
        s.obj b.index := setAt_of_ne _ _ _ hab.symm
    rw [setAt_comm _ _ _ hab]
    refine returned.trade none (i := b.index) (h.unawaited hidle'.toSettled).elim rfl ?_
    refine ⟨hb'.2.1, hb'.2.2.1, by simp, by simp, fun x => ?_, fun x => ?_, by simp, ?_⟩
    · simp [e, deviceClaims, hd', count_cons_slot]
      omega
    · simp [e, hostClaims]
    · simp [e, HoldsHost]
  | freeze a epoch hv hr hd hidle =>
    exact h.quiet hv (h.unawaited hidle.toSettled) _ rfl (by simp) (.inl hd)
  | thaw a hm hv hr hd hidle =>
    exact h.quiet hv (h.unawaited hidle.toSettled) _ rfl (by simp) (.inl hd)
  | recycle a hv hr hh hidle =>
    exact h.quiet hv (h.unawaited hidle.toSettled) _ rfl (by simp) (.inr (by simp))
  | restore a epoch hv hr hd hh hidle =>
    exact h.quiet hv (h.unawaited hidle.toSettled) _ rfl (by simp) (.inl hd)
  | beginFork a b d ha hb hab hr hd hmax hr' hd' hidle' =>
    have pinned := h.relabel ha (fun o => { o with sourcePins := o.sourcePins + 1 }) fun _ => rfl
    exact pinned.quiet (valid_setAt _ hb hab.symm) (h.unawaited hidle'.toSettled) _ rfl (by simp)
      (.inr (by simp))
  | commitFork a b hm ha hb hab hr hp hr' hd' =>
    have unpinned := (h.relabel ha (fun o => { o with sourcePins := o.sourcePins - 1 })
      fun _ => rfl).relabel (valid_setAt _ hb hab.symm)
        (fun o => { o with destinationPinned := false })
      fun _ => rfl
    exact { unpinned with }
  | abortFork a b hm ha hb hab hr hp hr' hd' =>
    have unpinned := h.relabel ha (fun o => { o with sourcePins := o.sourcePins - 1 }) fun _ => rfl
    exact unpinned.quiet (valid_setAt _ hb hab.symm) (h.unawaited_of_bound hr' hd') _ rfl (by simp)
      (.inr (by simp))
  | reserveDeviceToHost a p slot p' hv hp ha hr hd hh hset hmax =>
    refine WellFormed.append (s := { s with store := _ }) ?_ _ hv.2.1 ?_ (h.unawaited hset)
    · constructor
      · exact h.device.update hv.2.1 fun x => rfl
      · refine h.host.allocate hv.2.1 hp ha (fun x => ?_) fun b hb => ?_
        · simp [hostClaims, hset.pendingHost]
        · simpa [HoldsHost, hset.pendingHost, eq_comm] using hb
      · exact h.stack.update hv.2.2.1 hv.2.2.1
      · exact ObjectOk.update h.object ⟨by simp [hr], by simp [hd]⟩
      · exact h.transfers.update (h.unawaited hset).elim
    · refine ⟨nextEpoch_ne_zero _, by simp, by simpa using hv.2.2.2, ?_, by simp, by simp⟩
      simp [hr, hd, hh, hset.pendingDevice]
  | enqueue k o d hk hv hdir hd => exact h.replace hk rfl
  | beginHostToDevice a d slots slot hv hfree hr hd hh hset hmax =>
    refine WellFormed.append (s := { s with store := _ }) ?_ _ hv.2.1 ?_ (h.unawaited hset)
    · refine h.trade none (h.unawaited hset).elim rfl ?_
      refine ⟨hv.2.1, hv.2.2.1, by simp [hr], fun _ => .inr (by simp [hh]), fun x => ?_,
        fun x => rfl, by simp, fun _ hb => hb⟩
      simp [hfree, count_cons_slot, deviceClaims, hset.pendingDevice]
      omega
    · refine ⟨nextEpoch_ne_zero _, by simp, by simpa using hv.2.2.2, by simp, ?_, by simp⟩
      simp [hr, hd, hh, hset.pendingHost]
  | beginHostFork a b d slots slot ha hb hab hfree hr hh hmax hr' hd' hh' hidle' =>
    have hun := h.unawaited hidle'.toSettled
    have taken : WellFormed { s with store := { s.store.setAt b.index fun o => { o with
          pendingDeviceSlot := some d
          transferId := s.newId
          destinationPinned := true
          role := .activeMutable
          contentEpoch := (s.obj a.index).contentEpoch } with
        freeDeviceSlots := slots } } := by
      refine h.trade none hun.elim rfl ?_
      refine ⟨hb.2.1, hb.2.2.1, by simp, by simp, fun x => ?_, fun x => rfl, by simp,
        fun _ hb => hb⟩
      simp [hfree, count_cons_slot, deviceClaims, hidle'.pendingDevice]
      omega
    have pinned := taken.relabel (valid_congr ha rfl rfl (update_of_ne hab _ _))
      (fun o => { o with sourcePins := o.sourcePins + 1 }) fun _ => rfl
    refine WellFormed.append (s := { s with store := _ }) ?_ _ hb.2.1 ?_ ?_
    · exact { pinned with }
    · refine ⟨nextEpoch_ne_zero _, ?_, ?_, by simp, by simp, ?_⟩
      all_goals simp [setAt, update_of_ne hab.symm, hab, hd', hh', hidle'.pendingHost, hb.2.2.2]
    · exact hun
  | publishDeviceToHost k o hm hk hv hdir =>
    obtain ⟨closed, hun, haw⟩ := h.close hk
    obtain ⟨e, hr, hd, -, hh, hph⟩ := haw.deviceToHost hdir
    obtain ⟨-, -, hsrc, -, -⟩ := hv
    rw [← e] at hun hr hd hh hph
    refine closed.trade none hun.elim rfl ?_
    refine ⟨hsrc.2.1, hsrc.2.2.1, by simp [decrementPins, hr], fun _ => .inr hph, fun x => rfl,
      fun x => ?_, by simp, fun b hb => ?_⟩
    · simp [hostClaims, hh]
    · simpa [HoldsHost, hh] using hb
  | publishDeviceToHostOnly k o d hm hk hv hdir hd =>
    obtain ⟨closed, hun, haw⟩ := h.close hk
    obtain ⟨e, hr, -, -, hh, hph⟩ := haw.deviceToHost hdir
    obtain ⟨-, -, hsrc, -, -⟩ := hv
    rw [← e] at hun hr hh hph
    refine closed.trade none hun.elim rfl ?_
    refine ⟨hsrc.2.1, hsrc.2.2.1, by simp [decrementPins, hr], fun _ => .inr hph, fun x => ?_,
      fun x => ?_, by simp, fun b hb => ?_⟩
    · simp [count_cons_slot, deviceClaims, decrementPins, hd]
      omega
    · simp [hostClaims, hh]
    · simpa [HoldsHost, hh] using hb
  | publishHostToDevice k o hm hk hv hdir =>
    obtain ⟨closed, hun, haw⟩ := h.close hk
    obtain ⟨e, hr, hd, hpd, hh, -⟩ := haw.hostToDevice hdir
    obtain ⟨-, -, hsrc, -, -⟩ := hv
    rw [← e] at hun hr hd hpd hh
    refine closed.trade none hun.elim rfl ?_
    refine ⟨hsrc.2.1, hsrc.2.2.1, by simp [decrementPins, hr], fun _ => .inl hpd, fun x => ?_,
      fun x => rfl, by simp, fun b hb => hb⟩
    simp [deviceClaims, hd]
  | publishHostToDeviceOnly k o hm hk hv hdir hh =>
    obtain ⟨closed, hun, haw⟩ := h.close hk
    obtain ⟨e, hr, hd, hpd, -, hph⟩ := haw.hostToDevice hdir
    obtain ⟨-, -, hsrc, -, -⟩ := hv
    rw [← e] at hun hr hd hpd hph
    refine closed.trade (s.obj o.transfer.source.index).hostSlot hun.elim rfl ?_
    refine ⟨hsrc.2.1, hsrc.2.2.1, by simp [decrementPins, hr], fun _ => .inl hpd, fun x => ?_,
      fun x => ?_, fun b hb => .inl hb, fun b hb => ?_⟩
    · simp [deviceClaims, hd]
    · simp [hostClaims, decrementPins, hph]
    · simp [HoldsHost, decrementPins, hph] at hb
  | publishHostToFork k o keep hm hk hv hdir =>
    obtain ⟨closed, hun, haw⟩ := h.close hk
    obtain ⟨hne, hr, hd, hpd, hh, hph⟩ := haw.hostToFork hdir
    obtain ⟨-, -, hsrc, hdst, -⟩ := hv
    have bound : WellFormed { s with
        store := s.store.setAt o.transfer.destination.index fun o => { o with
          deviceSlot := o.pendingDeviceSlot
          pendingDeviceSlot := none
          destinationPinned := false
          transferId := 0 }
        transfers := s.transfers.eraseIdx k } := by
      refine closed.trade none hun.elim rfl ?_
      refine ⟨hdst.2.1, hdst.2.2.1, by simp [hr], fun _ => .inl hpd, fun x => ?_,
        fun x => rfl, by simp, fun b hb => hb⟩
      simp [deviceClaims, hd]
    have unpinned := bound.relabel (valid_setAt _ hsrc hne) decrementPins fun _ => rfl
    rw [setAt_comm _ _ _ hne.symm, setAt_setAt]
    exact unpinned
  | abortStale k o hk hv => exact (h.close hk).1
  | abortDeviceToHost k o hk hv hdir =>
    obtain ⟨closed, hun, haw⟩ := h.close hk
    obtain ⟨e, hr, hd, -, hh, -⟩ := haw.deviceToHost hdir
    obtain ⟨-, -, hsrc, -, -⟩ := hv
    rw [← e] at hun hr hd hh
    rw [setAt_setAt]
    refine closed.trade (s.obj o.transfer.source.index).pendingHostSlot hun.elim rfl ?_
    refine ⟨hsrc.2.1, hsrc.2.2.1, by simp [hr], fun _ => .inl hd, fun x => rfl, fun x => ?_,
      fun b hb => .inr hb, fun b hb => ?_⟩
    · simp [hostClaims, hh]
    · simp [HoldsHost, hh] at hb
  | abortHostToDevice k o hk hv hdir =>
    obtain ⟨closed, hun, haw⟩ := h.close hk
    obtain ⟨e, hr, hd, -, hh, -⟩ := haw.hostToDevice hdir
    obtain ⟨-, -, hsrc, -, -⟩ := hv
    rw [← e] at hun hr hd hh
    rw [← e, setAt_setAt]
    refine closed.trade none hun.elim rfl ?_
    refine ⟨hsrc.2.1, hsrc.2.2.1, by simp [hr], fun _ => .inr hh, fun x => ?_, fun x => rfl,
      by simp, fun b hb => hb⟩
    rw [count_toList_append]
    simp [deviceClaims, ImageSystem.obj, hd]
    omega
  | abortHostToFork k o hk hv hdir =>
    obtain ⟨closed, hun, haw⟩ := h.close hk
    obtain ⟨hne, hr, hd, -, -, -⟩ := haw.hostToFork hdir
    obtain ⟨-, -, hsrc, hdst, -⟩ := hv
    have unpinned := closed.relabel hsrc (fun o => { o with sourcePins := o.sourcePins - 1 })
      fun _ => rfl
    have e := setAt_of_ne s.store o.transfer.source.index
      (fun o => { o with sourcePins := o.sourcePins - 1 }) hne.symm
    refine unpinned.trade none hun.elim rfl ?_
    refine ⟨hdst.2.1, ?_, by simp, by simp, fun x => ?_, fun x => ?_, by simp, fun b hb => ?_⟩
    · rw [e]
      exact hdst.2.2.1
    · rw [count_toList_append]
      simp [e, deviceClaims, ImageSystem.obj, hd]
      omega
    · simp [hostClaims]
    · simpa [HoldsHost] using hb
  | copy k => exact h.copy k
  | execute a v =>
    unfold ImageSystem.execute
    split
    · split
      · exact h
      · exact { h with }
    · exact h

theorem reach_wellFormed (h : Reach ImageSystem.Fresh ImageSystem.run may s) : WellFormed s :=
  reach_inv (fun _ hs => hs.hostCurrent) (fun _ hs => wellFormed_fresh hs)
    (fun _ _ hs hstep => wellFormed_step hs hstep) h

end Steps

/-! ## The accounting -/

/-- Every slot is in exactly one place, and every object on one side. -/
structure SlotsAccounted (s : StateImageStore V) : Prop where
  /-- On the free stack, the Device slot of an object, or its pending Device slot: one of them. -/
  device : ∀ x, s.freeDeviceSlots.count x + ∑ i ∈ range s.capacity, deviceClaims (s.objects i) x =
    if x < s.device.slotCount then 1 else 0
  host : ∀ p, s.host = some p → ∀ x,
    p.freeSlots.count x + ∑ i ∈ range s.capacity, hostClaims (s.objects i) x =
      if x < p.capacity then 1 else 0
  /-- A handle an object holds names a slot of the pool, by its current generation. -/
  hostCurrent : s.HostCurrent
  objects : ∀ i, s.freeObjects.count i =
    if i < s.capacity ∧ (s.objects i).role = .free then 1 else 0
  replica : ∀ i, i < s.capacity → (s.objects i).role = .checkpointImmutable →
    (s.objects i).deviceSlot ≠ none ∨ (s.objects i).hostSlot ≠ none

/-- Every state that any sequence of operations reaches accounts for every slot. -/
theorem slots_accounted [Zero V] (s : ImageSystem V)
    (h : Reach ImageSystem.Fresh ImageSystem.run (fun _ _ => True) s) :
    SlotsAccounted s.store := by
  have hw := reach_wellFormed h
  exact ⟨hw.device, hw.host.total, hw.hostCurrent, hw.stack, fun i hi => (hw.object i hi).replica⟩

/-- One Device slot, one Host slot, two objects, nothing open. -/
def smallSystem : ImageSystem Nat where
  store := {
    id := 0
    device := ⟨1, fun _ => 7⟩
    host := some (HostStatePool.init 1 fun _ => 8)
    capacity := 2
    objects := fun _ => {}
    freeObjects := List.range 2
    freeDeviceSlots := List.range 1 }
  transfers := []
  forks := []

theorem smallSystem_fresh : smallSystem.Fresh := by
  refine ⟨⟨0, ⟨1, fun _ => 7⟩, some (HostStatePool.init 1 fun _ => 8), 2, ?_, rfl⟩, rfl, rfl⟩
  rintro p ⟨⟩
  exact ⟨1, fun _ => 8, rfl⟩

/-- The handle of the first object of a fresh store. -/
def firstImage : StateImageHandle := ⟨some 0, 0, 1⟩

/-- Freeze an image and start its snapshot to the Host. -/
def openSnapshot : List (Command Nat) :=
  [.reserveReset true, .freeze firstImage, .beginDeviceToHost firstImage true]

theorem openSnapshot_slots_accounted : ∃ s : ImageSystem Nat, ((s.store.objects 0).deviceSlot,
        (s.store.objects 0).pendingHostSlot) = (some 0, some ⟨0, 1⟩) ∧
      SlotsAccounted s.store := by
  have hrun : (trace ImageSystem.run (fun _ _ => True) openSnapshot smallSystem).map (fun s =>
      ((s.store.objects 0).deviceSlot, (s.store.objects 0).pendingHostSlot)) =
      some (some 0, some ⟨0, 1⟩) := by rfl
  obtain ⟨s, hreach, hstate⟩ := Reach.of_trace_map smallSystem_fresh hrun
  exact ⟨s, hstate, slots_accounted s hreach⟩

/-- An open transfer has its destination to itself, with its id and its pending slot. -/
theorem transfers_exclusive [Zero V] (s : ImageSystem V)
    (h : Reach ImageSystem.Fresh ImageSystem.run (fun _ _ => True) s) :
    TransfersOk s.store.capacity s.store.objects s.transfers :=
  (reach_wellFormed h).transfers

theorem openSnapshot_exclusive : ∃ s : ImageSystem Nat, s.transfers ≠ [] ∧
    TransfersOk 2 s.store.objects s.transfers := by
  have hs : trace ImageSystem.run (fun _ _ => True) openSnapshot smallSystem = some _ := rfl
  exact ⟨_, List.cons_ne_nil _ _, transfers_exclusive _ (.of_trace (.start smallSystem_fresh) hs)⟩

end Ninfer.StateImage
