/-
  Replica coherence of `StateImageStore`: when does every CheckpointImmutable image with a
  Device and a Host replica hold the same payload in both?

  Clients publish a transfer only after its copy (`CopiesFirst`). Under that rule alone the
  answer is no: `thaw` leaves the Host replica in place (`move_checkpoint_to_active` releases
  it), execution then changes the Device payload, and the next `freeze` publishes the image
  with two different replicas. When every thawed image is without a Host replica
  (`ThawsDeviceOnly`), coherence holds in every reached state, and dropping either replica
  leaves every checkpoint's payload as it was.
-/
import Ninfer.StateImage.SlotAccounting

namespace Ninfer.StateImage

open Lib Function Relation StateImageStore

variable {V : Type}

/-! ## Rules on the clients -/

/-- The index of the transfer a command publishes. -/
def Command.published : Command V → Option Nat
  | .publishTransfer k _ => some k
  | _ => none

/-- The image a command thaws. -/
def Command.thawed : Command V → Option StateImageHandle
  | .thaw h => some h
  | _ => none

/-- A transfer is published after its copy was performed. -/
def CopiesFirst (c : Command V) (s : ImageSystem V) : Prop :=
  ∀ k ∈ c.published, ∀ o ∈ s.transfers[k]?, o.copied = true
  deriving Decidable

/-- An image is thawed only when it has no Host replica. -/
def ThawsDeviceOnly (c : Command V) (s : ImageSystem V) : Prop :=
  ∀ h ∈ c.thawed, (s.store.objects h.index).hostSlot = none
  deriving Decidable

/-! ## Payloads -/

/-- The payloads of the two pools; no Host pool, no Host payload. -/
structure Payloads (V : Type) where
  device : Nat → V
  host : Nat → Option V

def StateImageStore.payloads (s : StateImageStore V) : Payloads V where
  device := s.device.data
  host := fun x => s.host.map (·.data x)

/-- `v` is the payload of a published replica of the object. -/
def Reads (m : Payloads V) (o : Object) (v : V) : Prop :=
  (∃ d, o.deviceSlot = some d ∧ m.device d = v) ∨
  (∃ h, o.hostSlot = some h ∧ m.host h.index = some v)

/-- A checkpoint with both replicas has one payload. -/
def Coherent (s : StateImageStore V) : Prop :=
  ∀ i, i < s.capacity → (s.objects i).role = .checkpointImmutable →
    ∀ d, (s.objects i).deviceSlot = some d → ∀ h, (s.objects i).hostSlot = some h →
      s.payloads.host h.index = some (s.payloads.device d)

/-- Releasing a Host slot leaves the payloads alone. -/
theorem payloads_hostWithout {s t : StateImageStore V} (slot : Option HostStateSlotHandle)
    (hd : t.device.data = s.device.data) (hh : t.host = s.hostWithout slot) :
    t.payloads = s.payloads := by
  have hdata : ∀ x, (s.hostWithout slot).map (·.data x) = s.host.map (·.data x) := by
    intro x
    unfold hostWithout
    cases slot with
    | none => rfl
    | some h =>
      cases s.host with
      | none => rfl
      | some p =>
        simp only [Option.map_some, HostStatePool.release]
        split <;> rfl
  simp [payloads, hd, hh, hdata]

/-- So does allocating one. -/
theorem payloads_allocate {s t : StateImageStore V} {p p' : HostStatePool V}
    {slot : HostStateSlotHandle} (hp : s.host = some p) (ha : p.allocate = (some slot, p'))
    (hd : t.device.data = s.device.data) (hh : t.host = some p') : t.payloads = s.payloads := by
  have hdata : p'.data = p.data := by
    unfold HostStatePool.allocate at ha
    split at ha
    · simp at ha
    · rw [← (Prod.mk.inj ha).2]
  simp [payloads, hd, hh, hp, hdata]

/-! ## The invariant -/

/-- Two replicas of a checkpoint agree, and an image that may change has no Host replica. -/
structure ImageCoherent (m : Payloads V) (o : Object) : Prop where
  checkpoint : o.role = .checkpointImmutable → ∀ d, o.deviceSlot = some d →
    ∀ h, o.hostSlot = some h → m.host h.index = some (m.device d)
  mutable : o.role = .activeMutable ∨ o.role = .reservedDestination → o.hostSlot = none

/-- The copy of an open transfer to or from the Host reads the published slot of its image,
    and once performed the pending slot holds the same payload. -/
structure TransferCoherent (m : Payloads V) (o : Object) (u : OpenTransfer) : Prop where
  deviceToHost : u.transfer.direction = .deviceToHost →
    (∀ x, u.enqueued = some x → o.deviceSlot = some x) ∧
    (u.copied = true → ∀ d, o.deviceSlot = some d → ∀ h, o.pendingHostSlot = some h →
      m.host h.index = some (m.device d))
  hostToDevice : u.transfer.direction = .hostToDevice →
    (∀ x, u.enqueued = some x → o.hostSlot.map (·.index) = some x) ∧
    (u.copied = true → ∀ d, o.pendingDeviceSlot = some d → ∀ h, o.hostSlot = some h →
      m.host h.index = some (m.device d))

structure Coherence (s : ImageSystem V) : Prop where
  image : ∀ i, i < s.store.capacity → ImageCoherent s.store.payloads (s.store.objects i)
  transfer : ∀ u ∈ s.transfers,
    TransferCoherent s.store.payloads (s.store.objects u.transfer.destination.index) u

theorem Coherence.coherent {s : ImageSystem V} (h : Coherence s) : Coherent s.store :=
  fun i hi => (h.image i hi).checkpoint

variable {o : Object}

/-- One object is rewritten, the payloads stay. -/
theorem Coherence.rewrite {s t : ImageSystem V} {i : Nat} (h : Coherence s)
    (htr : ∀ u ∈ s.transfers, u.transfer.destination.index = i →
      TransferCoherent s.store.payloads o u)
    (hobj : t.store.objects = update s.store.objects i o)
    (ho : ImageCoherent s.store.payloads o)
    (hpay : t.store.payloads = s.store.payloads := by rfl)
    (hcap : t.store.capacity = s.store.capacity := by rfl)
    (htrans : t.transfers = s.transfers := by rfl) : Coherence t := by
  constructor
  · intro j hj
    rw [hcap] at hj
    rw [hobj, hpay, update_apply]
    split
    · exact ho
    · exact h.image j hj
  · intro u hu
    rw [htrans] at hu
    rw [hobj, hpay, update_apply]
    split
    next hui => exact htr u hu hui
    · exact h.transfer u hu

/-! ## Writes to a slot -/

theorem deviceClaims_eq_zero {x : Nat} :
    deviceClaims o x = 0 ↔ o.deviceSlot ≠ some x ∧ o.pendingDeviceSlot ≠ some x := by
  unfold deviceClaims slotClaim
  split <;> split <;> simp_all

theorem index_ne_of_hostClaims {y : Nat} (h : hostClaims o y = 0) {a : HostStateSlotHandle}
    (ha : HoldsHost o a) : a.index ≠ y := by
  rintro rfl
  have := one_le_hostClaims ha
  omega

namespace WellFormed

variable {s : ImageSystem V} {i j x : Nat}

/-- A slot that the object `i` holds is in no position of another object. -/
theorem device_free_of_ne (h : WellFormed s) (hi : i < s.store.capacity)
    (hj : j < s.store.capacity) (hij : i ≠ j) (hx : 1 ≤ deviceClaims (s.store.objects i) x) :
    (s.store.objects j).deviceSlot ≠ some x ∧ (s.store.objects j).pendingDeviceSlot ≠ some x := by
  have htotal := h.device x
  have := add_le_tally _ i j hi hj hij fun k => deviceClaims (s.store.objects k) x
  refine deviceClaims_eq_zero.mp ?_
  split at htotal <;> omega

theorem device_le_one (h : WellFormed s) (hi : i < s.store.capacity) (x : Nat) :
    deviceClaims (s.store.objects i) x ≤ 1 := by
  have htotal := h.device x
  have := le_tally _ i hi fun k => deviceClaims (s.store.objects k) x
  split at htotal <;> omega

theorem host_zero_of_ne (h : WellFormed s) {p : HostStatePool V} (hp : s.store.host = some p)
    (hi : i < s.store.capacity) (hj : j < s.store.capacity) (hij : i ≠ j)
    (hx : 1 ≤ hostClaims (s.store.objects i) x) : hostClaims (s.store.objects j) x = 0 := by
  have := h.host.claims_le_one hp x
  have := add_le_tally _ i j hi hj hij fun k => hostClaims (s.store.objects k) x
  omega

theorem host_le_one (h : WellFormed s) {p : HostStatePool V} (hp : s.store.host = some p)
    (hi : i < s.store.capacity) (x : Nat) : hostClaims (s.store.objects i) x ≤ 1 := by
  have := h.host.claims_le_one hp x
  have := le_tally _ i hi fun k => hostClaims (s.store.objects k) x
  omega

end WellFormed

section Writes

variable {m : Payloads V} {o : Object} {u : OpenTransfer} {x : Nat}

theorem ImageCoherent.writeDevice (h : ImageCoherent m o) (v : V)
    (hx : o.role = .checkpointImmutable → o.deviceSlot ≠ some x) :
    ImageCoherent { m with device := update m.device x v } o := by
  refine ⟨fun hr d hd a ha => ?_, h.mutable⟩
  have hne : d ≠ x := fun e => hx hr (e ▸ hd)
  simpa [update_of_ne hne] using h.checkpoint hr d hd a ha

theorem ImageCoherent.writeHost (h : ImageCoherent m o) (v : V)
    (hx : ∀ a, o.hostSlot = some a → a.index ≠ x) :
    ImageCoherent { m with host := update m.host x (some v) } o := by
  refine ⟨fun hr d hd a ha => ?_, h.mutable⟩
  simpa [update_of_ne (hx a ha)] using h.checkpoint hr d hd a ha

theorem TransferCoherent.writeDevice (h : TransferCoherent m o u) (v : V)
    (hx : o.deviceSlot ≠ some x) (hx' : o.pendingDeviceSlot ≠ some x) :
    TransferCoherent { m with device := update m.device x v } o u := by
  refine ⟨fun hdir => ⟨(h.deviceToHost hdir).1, fun hc d hd a ha => ?_⟩,
    fun hdir => ⟨(h.hostToDevice hdir).1, fun hc d hd a ha => ?_⟩⟩
  · have hne : d ≠ x := fun e => hx (e ▸ hd)
    simpa [update_of_ne hne] using (h.deviceToHost hdir).2 hc d hd a ha
  · have hne : d ≠ x := fun e => hx' (e ▸ hd)
    simpa [update_of_ne hne] using (h.hostToDevice hdir).2 hc d hd a ha

theorem TransferCoherent.writeHost (h : TransferCoherent m o u) (v : V)
    (hx : ∀ a, HoldsHost o a → a.index ≠ x) :
    TransferCoherent { m with host := update m.host x (some v) } o u := by
  refine ⟨fun hdir => ⟨(h.deviceToHost hdir).1, fun hc d hd a ha => ?_⟩,
    fun hdir => ⟨(h.hostToDevice hdir).1, fun hc d hd a ha => ?_⟩⟩
  · simpa [update_of_ne (hx a (.inr ha))] using (h.deviceToHost hdir).2 hc d hd a ha
  · simpa [update_of_ne (hx a (.inl ha))] using (h.hostToDevice hdir).2 hc d hd a ha

end Writes

/-- Execution and resets write the Device slot of an image that is not a checkpoint. -/
theorem Coherence.writeBound {s : ImageSystem V} (h : Coherence s) (hw : WellFormed s) {i d : Nat}
    (hi : i < s.store.capacity) (hd : (s.store.objects i).deviceSlot = some d)
    (hr : (s.store.objects i).role ≠ .checkpointImmutable)
    (hun : Unawaited s i) (v : V) :
    Coherence { s with store := { s.store with
      device := { s.store.device with data := update s.store.device.data d v } } } := by
  have hclaim : 1 ≤ deviceClaims (s.store.objects i) d := by simp [deviceClaims, slotClaim, hd]
  constructor
  · intro j hj
    refine (h.image j hj).writeDevice v fun hrole => ?_
    have hij : i ≠ j := by
      rintro rfl
      exact hr hrole
    exact (hw.device_free_of_ne hi hj hij hclaim).1
  · intro u hu
    have hfree := hw.device_free_of_ne hi (hw.transfers.lt u hu) (hun u hu).symm hclaim
    exact (h.transfer u hu).writeDevice v hfree.1 hfree.2

theorem mem_set_cases {α : Type} {l : List α} {k : Nat} {a b : α} (h : a ∈ l.set k b) :
    a = b ∨ ∃ j, j ≠ k ∧ l[j]? = some a := by
  obtain ⟨j, hj⟩ := List.mem_iff_getElem?.mp h
  rw [List.getElem?_set] at hj
  split at hj
  · split at hj
    · exact .inl (Option.some.inj hj).symm
    · simp at hj
  · next hne => exact .inr ⟨j, Ne.symm hne, hj⟩

theorem payloads_writeHost {s : StateImageStore V} {p : HostStatePool V} (hp : s.host = some p)
    (y : Nat) (v : V) :
    { s with host := some { p with data := update p.data y v } }.payloads =
      { s.payloads with host := update s.payloads.host y (some v) } := by
  simp only [payloads, hp, Option.map_some, Payloads.mk.injEq, true_and]
  funext x
  by_cases hx : x = y
  · simp [hx]
  · simp [update_of_ne hx]

section Copy

variable {s : ImageSystem V} {k x : Nat} {t : StateImageTransfer} {c : Bool}

/-- The copy from the Device reaches the pending Host slot. -/
theorem Coherence.copyToHost (h : Coherence s) (hw : WellFormed s)
    (hk : s.transfers[k]? = some ⟨t, some x, c⟩) (hdir : t.direction = .deviceToHost)
    {p : HostStatePool V} (hp : s.store.host = some p) {a : HostStateSlotHandle}
    (ha : (s.store.objects t.destination.index).pendingHostSlot = some a) :
    Coherence { s with
      store := { s.store with
        host := some { p with data := update p.data a.index (s.store.device.data x) } }
      transfers := s.transfers.set k ⟨t, some x, true⟩ } := by
  have hmem := List.mem_of_getElem? hk
  have hi := hw.transfers.lt _ hmem
  have hclaim := one_le_hostClaims (.inr ha : HoldsHost (s.store.objects t.destination.index) a)
  constructor
  · intro j hj
    rw [payloads_writeHost hp]
    refine (h.image j hj).writeHost _ fun b hb e => ?_
    have hone := hw.host_le_one hp hj a.index
    by_cases hij : t.destination.index = j
    · subst hij
      simp [hostClaims, hostClaim, slotClaim, ha, hb, e] at hone
    · exact index_ne_of_hostClaims (hw.host_zero_of_ne hp hi hj hij hclaim) (.inl hb) e
  · intro u hu
    rw [payloads_writeHost hp]
    rcases mem_set_cases hu with rfl | ⟨j, hj, hu⟩
    · have old := (h.transfer _ hmem).deviceToHost hdir
      refine ⟨fun _ => ⟨old.1, fun _ d hd b hb => ?_⟩, fun hd => ?_⟩
      · obtain rfl := Option.mem_unique ha hb
        obtain rfl := Option.some.inj ((old.1 x rfl).symm.trans hd)
        simp [payloads]
      · simp [hdir] at hd
    · have hne := hw.destination_ne hk hu hj
      have hu := List.mem_of_getElem? hu
      refine (h.transfer u hu).writeHost _ fun b hb => ?_
      exact index_ne_of_hostClaims
        (hw.host_zero_of_ne hp hi (hw.transfers.lt u hu) hne.symm hclaim) hb

/-- The copy from the Host reaches the pending Device slot. -/
theorem Coherence.copyToDevice (h : Coherence s) (hw : WellFormed s)
    (hk : s.transfers[k]? = some ⟨t, some x, c⟩) (hdir : t.direction ≠ .deviceToHost)
    {p : HostStatePool V} (hp : s.store.host = some p) {d : Nat}
    (hd : (s.store.objects t.destination.index).pendingDeviceSlot = some d) :
    Coherence { s with
      store := { s.store with
        device := { s.store.device with data := update s.store.device.data d (p.data x) } }
      transfers := s.transfers.set k ⟨t, some x, true⟩ } := by
  have hmem := List.mem_of_getElem? hk
  have hi := hw.transfers.lt _ hmem
  have hclaim : 1 ≤ deviceClaims (s.store.objects t.destination.index) d := by
    simp [deviceClaims, slotClaim, hd]
  constructor
  · intro j hj
    refine (h.image j hj).writeDevice _ fun _ e => ?_
    have hone := hw.device_le_one hj d
    by_cases hij : t.destination.index = j
    · subst hij
      simp [deviceClaims, slotClaim, hd, e] at hone
    · exact (hw.device_free_of_ne hi hj hij hclaim).1 e
  · intro u hu
    rcases mem_set_cases hu with rfl | ⟨j, hj, hu⟩
    · refine ⟨fun hd => absurd hd hdir, fun hdir' => ?_⟩
      have old := (h.transfer _ hmem).hostToDevice hdir'
      refine ⟨old.1, fun _ d' hd' b hb => ?_⟩
      obtain rfl := Option.mem_unique hd hd'
      have hx : (s.store.objects t.destination.index).hostSlot.map (·.index) = some x := old.1 x rfl
      rw [show (s.store.objects t.destination.index).hostSlot = some b from hb] at hx
      simp only [Option.map_some, Option.some.injEq] at hx
      simp [payloads, hp, hx]
    · have hne := hw.destination_ne hk hu hj
      have hu := List.mem_of_getElem? hu
      have hfree := hw.device_free_of_ne hi (hw.transfers.lt u hu) hne.symm hclaim
      exact (h.transfer u hu).writeDevice _ hfree.1 hfree.2

/-- An awaited transfer with the Host has a Host handle at its destination, so there is a
    Host pool and the copy moves the payload. -/
theorem Coherence.copy (h : Coherence s) (hw : WellFormed s) (k : Nat) : Coherence (s.copy k) := by
  unfold ImageSystem.copy
  split
  next t x c hk =>
    have hmem := List.mem_of_getElem? hk
    have haw := hw.transfers.awaits _ hmem
    unfold ImageSystem.performCopy
    split
    next hnone =>
      refine ⟨h.image, fun u hu => ?_⟩
      rcases mem_set_cases hu with rfl | ⟨j, -, hu⟩
      · have hi := hw.transfers.lt _ hmem
        have nohost : ∀ b, ¬ HoldsHost (s.store.objects t.destination.index) b := by
          intro b hb
          obtain ⟨p, hp, -⟩ := hw.host.current _ hi b hb
          simp [hnone] at hp
        have old := h.transfer _ hmem
        exact ⟨fun hd => ⟨(old.deviceToHost hd).1, fun _ _ _ b hb => (nohost b (.inr hb)).elim⟩,
          fun hd => ⟨(old.hostToDevice hd).1, fun _ _ _ b hb => (nohost b (.inl hb)).elim⟩⟩
      · exact h.transfer u (List.mem_of_getElem? hu)
    next p hp =>
      split
      next hdir =>
        split
        next hnone => exact absurd hnone (haw.deviceToHost hdir).2.2.2.2.2
        next a ha => exact h.copyToHost hw hk hdir hp ha
      next hdir =>
        split
        next hnone =>
          cases hd : t.direction with
          | deviceToHost => exact absurd hd hdir
          | hostToDevice => exact absurd hnone (haw.hostToDevice hd).2.2.2.1
          | hostToFork => exact absurd hnone (haw.hostToFork hd).2.2.2.1
        next d hd => exact h.copyToDevice hw hk hdir hp hd
  · exact h

end Copy

/-! ## Steps -/

/-- What the theorem asks of the clients. -/
def KeepsCoherence (c : Command V) (s : ImageSystem V) : Prop :=
  CopiesFirst c s ∧ ThawsDeviceOnly c s
  deriving Decidable

section Steps

variable {s t : ImageSystem V}

/-- Only counters, pins and flags of an object change. -/
theorem Coherence.relabel {i : Nat} (h : Coherence s) (hi : i < s.store.capacity)
    (f : Object → Object)
    (hf : ∀ o, f o = { o with
      checkpointReferences := (f o).checkpointReferences
      sourcePins := (f o).sourcePins
      destinationPinned := (f o).destinationPinned }) :
    Coherence { s with store := s.store.setAt i f } := by
  refine h.rewrite (fun u hu e => ?_) rfl ?_ <;> rw [hf]
  · have := h.transfer u hu
    rw [e] at this
    exact ⟨this.deviceToHost, this.hostToDevice⟩
  · exact ⟨(h.image i hi).checkpoint, (h.image i hi).mutable⟩

theorem Coherence.append (h : Coherence s) (u : OpenTransfer)
    (hu : TransferCoherent s.store.payloads (s.store.objects u.transfer.destination.index) u) :
    Coherence { s with transfers := s.transfers ++ [u] } :=
  ⟨h.image, forall_mem_push h.transfer hu⟩

theorem Coherence.close (h : Coherence s) (k : Nat) :
    Coherence { s with transfers := s.transfers.eraseIdx k } :=
  ⟨h.image, fun u hu => h.transfer u ((List.eraseIdx_sublist _ _).subset hu)⟩

theorem imageCoherent_of_noHost {m : Payloads V} {o : Object} (h : o.hostSlot = none) :
    ImageCoherent m o :=
  ⟨by simp [h], fun _ => h⟩

theorem imageCoherent_of_noDevice {m : Payloads V} {o : Object} (h : o.deviceSlot = none)
    (hr : o.role = .checkpointImmutable) : ImageCoherent m o :=
  ⟨by simp [h], by simp [hr]⟩

end Steps

variable [Zero V] {s t : ImageSystem V}

theorem coherence_step (hw : WellFormed s) (h : Coherence s) (hs : Step KeepsCoherence s t) :
    Coherence t := by
  cases hs with
  | counters e n => exact ⟨h.image, h.transfer⟩
  | allocate i rest role hi hr =>
    exact h.rewrite (hw.unawaited (hw.top_settled hi)).elim rfl (imageCoherent_of_noHost rfl)
  | allocateDevice i rest d slots role hi hd hr =>
    exact h.rewrite (hw.unawaited (hw.top_settled hi)).elim rfl (imageCoherent_of_noHost rfl)
  | release a hv hidle =>
    exact h.rewrite (hw.unawaited hidle.toSettled).elim rfl (imageCoherent_of_noHost rfl)
      (payloads_hostWithout _ rfl rfl)
  | reset a d epoch hv hr hd hidle =>
    have hun := hw.unawaited hidle.toSettled
    have hne : (s.obj a.index).role ≠ .checkpointImmutable := by
      rcases hr with hr | hr <;> simp [hr]
    have zeroed := h.writeBound hw hv.2.1 hd hne hun 0
    exact zeroed.rewrite hun.elim rfl (imageCoherent_of_noHost ((h.image _ hv.2.1).mutable hr))
  | references a n hv hr => exact h.relabel hv.2.1 _ fun _ => rfl
  | move a hv hr hd hidle =>
    exact h.rewrite (hw.unawaited hidle.toSettled).elim rfl (imageCoherent_of_noHost rfl)
      (payloads_hostWithout _ rfl rfl)
  | dropDevice a d hv hr hd hh hidle =>
    exact h.rewrite (hw.unawaited hidle.toSettled).elim rfl (imageCoherent_of_noDevice rfl hr)
  | dropHost a hv hr hd hidle =>
    exact h.rewrite (hw.unawaited hidle.toSettled).elim rfl (imageCoherent_of_noHost rfl)
      (payloads_hostWithout _ rfl rfl)
  | split a b d ha hb hab hr hd hh hidle hr' hd' hh' hidle' =>
    have bound : Coherence { s with store := s.store.setAt b.index fun o => { o with
        deviceSlot := some d
        contentEpoch := (s.obj a.index).contentEpoch
        role := .activeMutable } } :=
      h.rewrite (hw.unawaited hidle'.toSettled).elim rfl (imageCoherent_of_noHost hh')
    refine bound.rewrite (hw.unawaited hidle.toSettled).elim rfl (imageCoherent_of_noDevice rfl ?_)
    simpa [setAt_of_ne _ _ _ hab] using hr
  | freeze a epoch hv hr hd hidle =>
    exact h.rewrite (hw.unawaited hidle.toSettled).elim rfl
      (imageCoherent_of_noHost ((h.image _ hv.2.1).mutable (.inl hr)))
  | thaw a hm hv hr hd hidle =>
    exact h.rewrite (hw.unawaited hidle.toSettled).elim rfl (imageCoherent_of_noHost (hm.2 a rfl))
  | recycle a hv hr hh hidle =>
    exact h.rewrite (hw.unawaited hidle.toSettled).elim rfl (imageCoherent_of_noHost hh)
  | restore a epoch hv hr hd hh hidle =>
    exact h.rewrite (hw.unawaited hidle.toSettled).elim rfl (imageCoherent_of_noHost hh)
  | beginFork a b d ha hb hab hr hd hmax hr' hd' hidle' =>
    have pinned := h.relabel ha.2.1 (fun o => { o with sourcePins := o.sourcePins + 1 })
      fun _ => rfl
    refine pinned.rewrite (hw.unawaited hidle'.toSettled).elim rfl (imageCoherent_of_noHost ?_)
    simpa [setAt_of_ne _ _ _ hab.symm] using (h.image _ hb.2.1).mutable (.inr hr')
  | commitFork a b hm ha hb hab hr hp hr' hd' =>
    have unpinned := (h.relabel ha.2.1 (fun o => { o with sourcePins := o.sourcePins - 1 })
      fun _ => rfl).relabel hb.2.1 (fun o => { o with destinationPinned := false }) fun _ => rfl
    exact ⟨unpinned.image, unpinned.transfer⟩
  | abortFork a b hm ha hb hab hr hp hr' hd' =>
    have unpinned := h.relabel ha.2.1 (fun o => { o with sourcePins := o.sourcePins - 1 })
      fun _ => rfl
    refine unpinned.rewrite (hw.unawaited_of_bound hr' hd').elim rfl (imageCoherent_of_noHost ?_)
    simpa [setAt_of_ne _ _ _ hab.symm] using (h.image _ hb.2.1).mutable (.inl hr')
  | reserveDeviceToHost a p slot p' hv hp ha hr hd hh hset hmax =>
    refine Coherence.append (s := { s with store := _ }) ?_ _ ?_
    · exact h.rewrite (hw.unawaited hset).elim rfl (imageCoherent_of_noHost hh)
        (payloads_allocate hp ha rfl rfl)
    · exact ⟨by simp, by simp⟩
  | enqueue k o d hk hv hdir hd =>
    refine ⟨h.image, fun u hu => ?_⟩
    rcases mem_set_cases hu with rfl | ⟨j, -, hu⟩
    · have old := h.transfer o (List.mem_of_getElem? hk)
      have haw := hw.transfers.awaits o (List.mem_of_getElem? hk)
      refine ⟨fun hdir => ⟨?_, (old.deviceToHost hdir).2⟩, fun hdir' => by simp [hdir] at hdir'⟩
      rintro x ⟨⟩
      rw [← (haw.deviceToHost hdir).1]
      exact hd
    · exact h.transfer u (List.mem_of_getElem? hu)
  | beginHostToDevice a d slots slot hv hfree hr hd hh hset hmax =>
    refine Coherence.append (s := { s with store := _ }) ?_ _ ?_
    · exact h.rewrite (hw.unawaited hset).elim rfl (imageCoherent_of_noDevice hd hr)
    · exact ⟨by simp, by simp [hh]⟩
  | beginHostFork a b d slots slot ha hb hab hfree hr hh hmax hr' hd' hh' hidle' =>
    have taken : Coherence { s with store := { s.store.setAt b.index fun o => { o with
          pendingDeviceSlot := some d
          transferId := s.newId
          destinationPinned := true
          role := .activeMutable
          contentEpoch := (s.obj a.index).contentEpoch } with
        freeDeviceSlots := slots } } :=
      h.rewrite (hw.unawaited hidle'.toSettled).elim rfl (imageCoherent_of_noHost hh')
    have pinned := taken.relabel ha.2.1 (fun o => { o with sourcePins := o.sourcePins + 1 })
      fun _ => rfl
    refine Coherence.append (s := { s with store := _ }) ?_ _ ?_
    · exact ⟨pinned.image, pinned.transfer⟩
    · exact ⟨by simp, by simp⟩
  | publishDeviceToHost k o hm hk hv hdir =>
    obtain ⟨-, hun, haw⟩ := hw.close hk
    obtain ⟨e, hr, -⟩ := haw.deviceToHost hdir
    have copied := ((h.transfer o (List.mem_of_getElem? hk)).deviceToHost hdir).2 (hm.1 k rfl o hk)
    rw [← e] at hun hr copied
    exact (h.close k).rewrite hun.elim rfl ⟨fun _ => copied, by simp [decrementPins, hr]⟩
  | publishDeviceToHostOnly k o d hm hk hv hdir hd =>
    obtain ⟨-, hun, haw⟩ := hw.close hk
    obtain ⟨e, hr, -⟩ := haw.deviceToHost hdir
    rw [← e] at hun hr
    exact (h.close k).rewrite hun.elim rfl (imageCoherent_of_noDevice rfl hr)
  | publishHostToDevice k o hm hk hv hdir =>
    obtain ⟨-, hun, haw⟩ := hw.close hk
    obtain ⟨e, hr, -⟩ := haw.hostToDevice hdir
    have copied := ((h.transfer o (List.mem_of_getElem? hk)).hostToDevice hdir).2 (hm.1 k rfl o hk)
    rw [← e] at hun hr copied
    exact (h.close k).rewrite hun.elim rfl ⟨fun _ => copied, by simp [decrementPins, hr]⟩
  | publishHostToDeviceOnly k o hm hk hv hdir hh =>
    obtain ⟨-, hun, haw⟩ := hw.close hk
    obtain ⟨e, -⟩ := haw.hostToDevice hdir
    rw [← e] at hun
    exact (h.close k).rewrite hun.elim rfl (imageCoherent_of_noHost rfl)
      (payloads_hostWithout _ rfl rfl)
  | publishHostToFork k o keep hm hk hv hdir =>
    obtain ⟨-, hun, haw⟩ := hw.close hk
    obtain ⟨hne, -, -, -, hh, -⟩ := haw.hostToFork hdir
    have bound : Coherence { s with
        store := s.store.setAt o.transfer.destination.index fun o => { o with
          deviceSlot := o.pendingDeviceSlot
          pendingDeviceSlot := none
          destinationPinned := false
          transferId := 0 }
        transfers := s.transfers.eraseIdx k } :=
      (h.close k).rewrite hun.elim rfl (imageCoherent_of_noHost hh)
    rw [setAt_comm _ _ _ hne.symm, setAt_setAt]
    exact bound.relabel hv.2.2.1.2.1 decrementPins fun _ => rfl
  | abortStale k o hk hv => exact h.close k
  | abortDeviceToHost k o hk hv hdir =>
    obtain ⟨-, hun, haw⟩ := hw.close hk
    obtain ⟨e, -, -, -, hh, -⟩ := haw.deviceToHost hdir
    rw [← e] at hun hh
    rw [setAt_setAt]
    exact (h.close k).rewrite hun.elim rfl (imageCoherent_of_noHost hh)
      (payloads_hostWithout _ rfl rfl)
  | abortHostToDevice k o hk hv hdir =>
    obtain ⟨-, hun, haw⟩ := hw.close hk
    obtain ⟨e, hr, hd, -⟩ := haw.hostToDevice hdir
    rw [← e] at hun hr hd
    rw [← e, setAt_setAt]
    exact (h.close k).rewrite hun.elim rfl (imageCoherent_of_noDevice hd hr)
  | abortHostToFork k o hk hv hdir =>
    obtain ⟨-, hun, haw⟩ := hw.close hk
    obtain ⟨hne, -, -, -, hh, -⟩ := haw.hostToFork hdir
    have unpinned := (h.close k).relabel hv.2.2.1.2.1
      (fun o => { o with sourcePins := o.sourcePins - 1 }) fun _ => rfl
    refine unpinned.rewrite hun.elim rfl (imageCoherent_of_noHost ?_)
    simpa [setAt_of_ne _ _ _ hne.symm] using hh
  | copy k => exact h.copy hw k
  | execute a v =>
    unfold ImageSystem.execute
    split
    next hv =>
      split
      · exact h
      next d hd =>
        exact h.writeBound hw hv.1.2.1 hd (by simp [hv.2])
          (hw.unawaited_of_bound hv.2 (by simp [hd])) v
    · exact h

omit [Zero V] in
theorem coherence_fresh (h : ImageSystem.Fresh s) : Coherence s := by
  obtain ⟨⟨id, device, host, capacity, -, hinit⟩, htr, -⟩ := h
  unfold init at hinit
  split at hinit
  · simp at hinit
  obtain hstore := (Except.ok.inj hinit).symm
  refine ⟨fun i _ => ?_, by simp [htr]⟩
  rw [hstore]
  exact imageCoherent_of_noHost rfl

theorem reach_coherence (h : Reach ImageSystem.Fresh ImageSystem.run KeepsCoherence s) :
    WellFormed s ∧ Coherence s :=
  reach_inv (I := fun s => WellFormed s ∧ Coherence s) (fun _ hs => hs.1.hostCurrent)
    (fun _ hs => ⟨wellFormed_fresh hs, coherence_fresh hs⟩)
    (fun _ _ hs hstep => ⟨wellFormed_step hs.1 hstep, coherence_step hs.1 hs.2 hstep⟩) h

/-! ## Drops -/

/-- Every checkpoint's payload reads as before. -/
def SameReads (s t : StateImageStore V) : Prop :=
  ∀ i, i < s.capacity → (s.objects i).role = .checkpointImmutable →
    ∀ v, Reads t.payloads (t.objects i) v ↔ Reads s.payloads (s.objects i) v

omit [Zero V] in
theorem SameReads.of_rewrite {s t : StateImageStore V} {i : Nat}
    (hobj : t.objects = update s.objects i o) (hpay : t.payloads = s.payloads)
    (ho : ∀ v, Reads s.payloads o v ↔ Reads s.payloads (s.objects i) v) : SameReads s t := by
  intro j _ _ v
  rw [hobj, hpay]
  by_cases hji : j = i
  · subst hji
    rw [update_self]
    exact ho v
  · rw [update_of_ne hji]

omit [Zero V] in
/-- An agreeing replica goes: what is left reads the same. -/
theorem reads_drop {m : Payloads V} {d : Nat} {h : HostStateSlotHandle}
    (hd : o.deviceSlot = some d) (hh : o.hostSlot = some h)
    (hm : m.host h.index = some (m.device d)) (v : V) :
    (Reads m { o with deviceSlot := none } v ↔ Reads m o v) ∧
      (Reads m { o with hostSlot := none } v ↔ Reads m o v) := by
  simp [Reads, hd, hh, hm]

theorem dropDeviceReplica_sameReads (hc : Coherent s.store) (a : StateImageHandle) :
    wp (ImageSystem.run (.dropDeviceReplica a)) (keeps fun t => SameReads s.store t.store) s := by
  simp [ImageSystem.run, dropDeviceReplica, keeps]
  refine ⟨fun hv => ⟨fun _ _ _ _ _ => .rfl, fun hr _ hh _ _ _ d hd => ?_⟩, fun _ _ _ _ _ => .rfl⟩
  obtain ⟨b, hb⟩ := Option.ne_none_iff_exists'.mp hh
  exact .of_rewrite rfl rfl fun v => (reads_drop hd hb (hc _ hv.2.1 hr d hd b hb) v).1

theorem dropHostReplica_sameReads (hc : Coherent s.store) (a : StateImageHandle) :
    wp (ImageSystem.run (.dropHostReplica a)) (keeps fun t => SameReads s.store t.store) s := by
  simp [ImageSystem.run, dropHostReplica, keeps]
  refine ⟨fun hv => ⟨fun _ _ _ _ _ => .rfl, fun _ hr hd _ _ _ _ b hb => ?_⟩, fun _ _ _ _ _ => .rfl⟩
  refine ⟨fun p hp _ => ?_, fun _ _ _ _ _ => .rfl⟩
  obtain ⟨d, hd⟩ := Option.ne_none_iff_exists'.mp hd
  exact .of_rewrite rfl (payloads_hostWithout (some b) rfl rfl)
    fun v => (reads_drop hd hb (hc _ hv.2.1 hr d hd b hb) v).2

/-- When no image with a Host replica is thawed, every reached checkpoint is coherent, and
    neither drop changes what any checkpoint reads back. -/
theorem replicas_coherent (s : ImageSystem V)
    (h : Reach ImageSystem.Fresh ImageSystem.run KeepsCoherence s) :
    Coherent s.store ∧ ∀ a t, ((ImageSystem.run (.dropDeviceReplica a) s).Lands t ∨
        (ImageSystem.run (.dropHostReplica a) s).Lands t) → SameReads s.store t.store := by
  have hc := (reach_coherence h).2.coherent
  refine ⟨hc, fun a t ht => ?_⟩
  rcases ht with ht | ht
  · exact wp_lands (I := fun t => SameReads s.store t.store) (dropDeviceReplica_sameReads hc a) ht
  · exact wp_lands (I := fun t => SameReads s.store t.store) (dropHostReplica_sameReads hc a) ht

/-- Freeze an image and snapshot it to the Host. -/
def snapshot : List (Command Nat) :=
  openSnapshot ++ [.copy 0, .publishTransfer 0 true]

theorem snapshot_coherent :
    ∃ s : ImageSystem Nat, ((s.store.objects 0).deviceSlot, (s.store.objects 0).hostSlot) =
        (some 0, some ⟨0, 1⟩) ∧
      Coherent s.store ∧ ∀ a t, ((ImageSystem.run (.dropDeviceReplica a) s).Lands t ∨
          (ImageSystem.run (.dropHostReplica a) s).Lands t) → SameReads s.store t.store := by
  have hrun : (trace ImageSystem.run KeepsCoherence snapshot smallSystem).map (fun s =>
      ((s.store.objects 0).deviceSlot, (s.store.objects 0).hostSlot)) =
      some (some 0, some ⟨0, 1⟩) := by rfl
  obtain ⟨s, hreach, hstate⟩ := Reach.of_trace_map smallSystem_fresh hrun
  exact ⟨s, hstate, replicas_coherent s hreach⟩

/-- Snapshot to the Host, thaw, execute, freeze. -/
def staleSnapshot : List (Command Nat) :=
  snapshot ++ [.thaw firstImage, .execute firstImage 5, .freeze firstImage]

/-- Every publication came after its copy, and yet the checkpoint has the payload 5 on the
    Device and 0 on the Host. -/
theorem thaw_breaks_coherence :
    ∃ s : ImageSystem Nat, Reach ImageSystem.Fresh ImageSystem.run CopiesFirst s ∧
      ¬ Coherent s.store := by
  have hrun : (trace ImageSystem.run CopiesFirst staleSnapshot smallSystem).map (fun s =>
      ((s.store.objects 0).role, (s.store.objects 0).deviceSlot, (s.store.objects 0).hostSlot,
        s.store.capacity, s.store.payloads.device 0, s.store.payloads.host 0)) =
      some (.checkpointImmutable, some 0, some ⟨0, 1⟩, 2, 5, some 0) := by rfl
  obtain ⟨s, hreach, hstate⟩ := Reach.of_trace_map smallSystem_fresh hrun
  simp only [Prod.mk.injEq] at hstate
  obtain ⟨hr, hd, hh, hcap, hdev, hhost⟩ := hstate
  refine ⟨s, hreach, fun hc => ?_⟩
  have heq := hc 0 (by omega) hr 0 hd ⟨0, 1⟩ hh
  rw [hdev, hhost] at heq
  simp at heq

end Ninfer.StateImage
