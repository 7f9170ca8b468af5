/-
  The operations executed: every command of the system is a sequence of `Step`s.

  First the rules that execute the store's primitives symbolically, then one lemma per
  command, then `run_steps` and the rule `reach_inv` that the invariants use.
-/
import Ninfer.StateImage.Step

namespace Ninfer.StateImage

open Lib Function Relation StateImageStore

variable {V : Type}

/-! ## Primitives -/

namespace StateImageStore

variable {s : StateImageStore V}

@[simp] theorem wp_require {P : Post (StateImageStore V) Object} (h : StateImageHandle) :
    wp (require h) P s ↔ (s.valid h → P.ok (s.objects h.index) s) ∧
      (¬ s.valid h → P.throw (.invalidArgument "StateImage handle is stale") s) := by
  simp [require]

variable {P : Post (StateImageStore V) Unit}

@[simp] theorem wp_setObject (i : Nat) (f : Object → Object) :
    wp (setObject i f) P s ↔ P.ok () (s.setAt i f) := .rfl

@[simp] theorem wp_returnDeviceSlot (d : Nat) :
    wp (returnDeviceSlot d) P s ↔
      P.ok () { s with freeDeviceSlots := d :: s.freeDeviceSlots } := .rfl

@[simp] theorem wp_nextContentEpoch' {P : Post (StateImageStore V) Nat} : wp nextContentEpoch' P s ↔
      P.ok (nextEpoch s.nextContentEpoch)
        { s with nextContentEpoch := nextEpoch s.nextContentEpoch } := .rfl

@[simp] theorem wp_nextTransfer {P : Post (StateImageStore V) Nat} : wp nextTransfer P s ↔
      P.ok (nextEpoch s.nextTransferId)
        { s with nextTransferId := nextEpoch s.nextTransferId } := .rfl

@[simp] theorem wp_zeroSlot [Zero V] {P : Post (StateImageStore V) Unit} (d : Nat) (cuda : Bool) :
    wp (zeroSlot d cuda) P s ↔ (cuda = true → P.ok () { s with device :=
        { s.device with data := update s.device.data d 0 } }) ∧
      (cuda = false → P.throw .device s) := by
  cases cuda <;> simp [zeroSlot]

@[simp] theorem wp_hostView (h : HostStateSlotHandle) :
    wp (hostView h) P s ↔ (∀ p, s.host = some p → (p.valid h = true → P.ok () s) ∧
        (p.valid h = false → P.throw (.invalidArgument "HostStatePool handle is stale") s)) ∧
      (s.host = none → P.dead) := by
  unfold wp hostView
  cases s.host with
  | none => simp [Outcome.Sat]
  | some p => cases hv : p.valid h <;> simp [hv, Outcome.Sat]

theorem allocate_none {p p' : HostStatePool V} (h : p.allocate = (none, p')) : p' = p := by
  unfold HostStatePool.allocate at h
  split at h
  · exact (Prod.mk.inj h).2.symm
  · simp at h

theorem wp_hostAllocate {P : Post (StateImageStore V) (Option HostStateSlotHandle)}
    (hdead : P.dead) (hnone : P.ok none s)
    (hsome : ∀ p slot p', s.host = some p → p.allocate = (some slot, p') →
      P.ok (some slot) { s with host := some p' }) : wp hostAllocate P s := by
  unfold wp hostAllocate
  cases hp : s.host with
  | none => exact hdead
  | some p =>
    rcases ha : p.allocate with ⟨slot, p'⟩
    cases slot with
    | none =>
      have := allocate_none ha
      subst this
      simp only [ha, ← hp]
      exact hnone
    | some slot =>
      simp only [ha]
      exact hsome p slot p' hp ha

theorem hostWithout_of_stale {h : HostStateSlotHandle}
    (hbad : ∀ p, s.host = some p → p.valid h = false) : s.hostWithout (some h) = s.host := by
  unfold hostWithout
  cases hp : s.host with
  | none => rfl
  | some p => simp [HostStatePool.release, hbad p hp]

/-- A failed release leaves the pool as it was, so the pool afterwards is `hostWithout` either
    way. -/
@[simp] theorem wp_hostRelease {P : Post (StateImageStore V) Bool} (h : HostStateSlotHandle) :
    wp (hostRelease h) P s ↔ ((∃ p, s.host = some p ∧ p.valid h = true) →
        P.ok true { s with host := s.hostWithout (some h) }) ∧
      ((¬ ∃ p, s.host = some p ∧ p.valid h = true) → P.ok false s) := by
  obtain ⟨i, d, host, c, o, f, fd, e, n⟩ := s
  unfold wp hostRelease hostWithout
  cases host with
  | none => simp [Outcome.Sat]
  | some p => cases hv : p.valid h <;> simp [hv, Outcome.Sat, HostStatePool.release]

end StateImageStore

@[simp] theorem wp_onStore {α : Type} {P : Post (ImageSystem V) α} {s : ImageSystem V}
    (m : Eff (StateImageStore V) α) :
    wp (ImageSystem.onStore m) P s ↔
      wp m ⟨fun a t => P.ok a { s with store := t }, fun e t => P.throw e { s with store := t },
        P.dead⟩ s.store :=
  wp_zoom _ _ m

/-! ## Commands -/

/-- Where a command ends, a state that steps lead to. -/
def Leads [Zero V] (may : Command V → ImageSystem V → Prop) (s : ImageSystem V) :
    Post (ImageSystem V) Unit :=
  keeps (ReflTransGen (Step may) s)

section Leads
variable [Zero V] {may : Command V → ImageSystem V → Prop} {s t : ImageSystem V}

@[simp] theorem leads_ok (a : Unit) : (Leads may s).ok a t ↔ ReflTransGen (Step may) s t := .rfl

@[simp] theorem leads_throw (e : Fault) :
    (Leads may s).throw e t ↔ ReflTransGen (Step may) s t := .rfl

@[simp] theorem leads_dead : (Leads may s).dead := trivial

end Leads

open ImageSystem

variable {t : StateImageStore V}

theorem wp_takeDeviceSlot {P : Post (StateImageStore V) (Option Nat)} (hnone : P.ok none t)
    (hsome : ∀ d slots, t.freeDeviceSlots = d :: slots →
      P.ok (some d) { t with freeDeviceSlots := slots }) : wp takeDeviceSlot P t := by
  unfold wp takeDeviceSlot
  cases hd : t.freeDeviceSlots with
  | nil => exact hnone
  | cons d slots => exact hsome d slots hd

/-- The store after `allocate` took the object `i`, and its Device slot. -/
theorem wp_allocate {P : Post (StateImageStore V) (Option StateImageHandle)}
    {role : StateImageRole} (withDevice : Bool) (hr : role ≠ .free) (hnone : P.ok none t)
    (hlogical : withDevice = false → ∀ i rest, t.freeObjects = i :: rest →
      P.ok (some ⟨some t.id, i, (t.objects i).generation⟩)
        { t.setAt i fun o => { generation := o.generation, role } with
          freeObjects := rest })
    (hdevice : withDevice = true → ∀ i rest d slots, t.freeObjects = i :: rest →
      t.freeDeviceSlots = d :: slots →
      P.ok (some ⟨some t.id, i, (t.objects i).generation⟩)
        { t.setAt i fun o => { generation := o.generation, role, deviceSlot := some d } with
          freeObjects := rest
          freeDeviceSlots := slots }) : wp (allocate role withDevice) P t := by
  unfold wp allocate
  cases hf : t.freeObjects with
  | nil => exact hnone
  | cons i rest =>
    cases withDevice with
    | false =>
      simp only [hr, false_and, or_self, if_false, reduceCtorEq]
      exact hlogical rfl i rest hf
    | true =>
      cases hd : t.freeDeviceSlots with
      | nil => simp only [and_self, or_true, if_true]; exact hnone
      | cons d slots =>
        simp only [hr, reduceCtorEq, and_false, or_self, if_false, if_true]
        exact hdevice rfl i rest d slots hf hd

theorem index_ne_of_role {a b : StateImageHandle} {r r' : StateImageRole}
    (ha : (t.objects a.index).role = r) (hb : (t.objects b.index).role = r') (h : r ≠ r') :
    a.index ≠ b.index := by
  intro e
  rw [e, hb] at ha
  exact h ha.symm

variable [Zero V] {may : Command V → ImageSystem V → Prop} {s : ImageSystem V}

variable (may) in
theorem allocate_leads {P : Post (StateImageStore V) (Option StateImageHandle)}
    {role : StateImageRole} (withDevice : Bool)
    (hr : role = .activeMutable ∨ role = .reservedDestination) (hnone : P.ok none s.store)
    (hsome : ∀ h t, ReflTransGen (Step may) s { s with store := t } → Idle (t.objects h.index) →
      (t.objects h.index).role = role → P.ok (some h) t) :
    wp (allocate role withDevice) P s.store := by
  have hfree : role ≠ .free := by rcases hr with rfl | rfl <;> decide
  refine wp_allocate withDevice hfree hnone (fun _ i rest hi => ?_) fun _ i rest d slots hi hd => ?_
  · refine hsome _ _ (.single (.allocate i rest role hi hr)) ?_ ?_ <;> simp [setAt]
    exact ⟨⟨rfl, rfl, rfl⟩, rfl, rfl⟩
  · refine hsome _ _ (.single (.allocateDevice i rest d slots role hi hd hr)) ?_ ?_ <;> simp [setAt]
    exact ⟨⟨rfl, rfl, rfl⟩, rfl, rfl⟩

theorem run_reserveDestination : wp (run .reserveDestination) (Leads may s) s := by
  simp [reserveDestination]
  exact allocate_leads may true (.inr rfl) .refl fun h t ht _ _ => ht

theorem run_reserveLogicalDestination : wp (run .reserveLogicalDestination) (Leads may s) s := by
  simp [reserveLogicalDestination]
  exact allocate_leads may false (.inr rfl) .refl fun h t ht _ _ => ht

theorem run_release (h : StateImageHandle) : wp (run (.release h)) (Leads may s) s := by
  simp [release, canRelease]
  refine ⟨fun _ => .refl, fun hv hc hp hu hn => ?_⟩
  have step : ReflTransGen (Step may) s _ := .single (.release h hv (idle_of hp hu hn))
  cases hh : (s.store.objects h.index).hostSlot with
  | none =>
    cases hd : (s.store.objects h.index).deviceSlot <;>
      simpa [setAt, hostWithout, hh, hd] using step
  | some slot =>
    simp
    refine ⟨fun _ _ _ => ?_, fun _ => .refl⟩
    cases hd : (s.store.objects h.index).deviceSlot <;>
      simpa [setAt, hostWithout, hh, hd] using step

theorem run_reserveReset (cuda : Bool) : wp (run (.reserveReset cuda)) (Leads may s) s := by
  simp [reserveReset]
  refine allocate_leads may true (.inl rfl) .refl fun h t ht hidle hr => ?_
  -- a failed reset gives the image back
  have hrel : wp (release h)
      ⟨fun _ u => ReflTransGen (Step may) s { s with store := u }, fun _ _ => True, True⟩ t := by
    have back : wp (run (.release h)) (Leads may { s with store := t }) { s with store := t } :=
      run_release h
    simp [run] at back
    exact wp_mono back (fun _ _ hu => ht.trans hu) (fun _ _ _ => trivial) (fun _ => trivial)
  simp
  refine ⟨fun hv d hd => ⟨fun _ => ?_, fun _ => hrel⟩, fun _ => hrel⟩
  have bumped : Step may { s with store := t } _ :=
    .counters (nextEpoch t.nextContentEpoch) t.nextTransferId
  have zeroed : Step may { s with store := { t with
      nextContentEpoch := nextEpoch t.nextContentEpoch } } _ :=
    .reset h d (nextEpoch t.nextContentEpoch) hv (.inl hr) hd hidle
  refine ht.trans (.tail (.single bumped) ?_)
  simpa [setAt, hr] using zeroed

variable (a b : StateImageHandle)

theorem run_splitDeviceReplicaIdentity :
    wp (run (.splitDeviceReplicaIdentity a b)) (Leads may s) s := by
  simp [splitDeviceReplicaIdentity]
  refine ⟨fun ha => ⟨fun hb => ⟨fun _ => .refl,
    fun _ hr hd hh hp hu hn hr' hd' hh' hn' hp' hu' => ?_⟩, fun _ => .refl⟩, fun _ => .refl⟩
  obtain ⟨d, hd⟩ := Option.ne_none_iff_exists'.mp hd
  have step : Step may s _ := .split a b d ha hb (index_ne_of_role hr hr' (by decide)) hr hd hh
    (idle_of hp hu hn) hr' hd' hh' (idle_of hp' hu' hn')
  rw [hd]
  exact .single step

theorem run_beginFork : wp (run (.beginFork a b)) (Leads may s) s := by
  simp [beginFork]
  refine ⟨fun ha => ⟨fun hb => ⟨fun _ => .refl,
    fun _ hr _ hmax hr' hd' hp' hu' hn' d hd d' hd'' => ?_⟩, fun _ => .refl⟩, fun _ => .refl⟩
  exact .single (.beginFork a b d ha hb (index_ne_of_role hr hr' (by decide)) hr hd hmax hr' hd'
    (idle_of hp' hu' hn'))

theorem run_commitFork (hm : may (.commitFork a b) s) :
    wp (run (.commitFork a b)) (Leads may s) s := by
  simp [commitFork, closeFork]
  refine ⟨fun ha => ⟨fun hb => ⟨fun _ => .refl, fun hr hp hr' hd' _ => ?_⟩, fun _ => .refl⟩,
    fun _ => .refl⟩
  exact .single (.commitFork a b hm ha hb (index_ne_of_role hr hr' (by decide)) hr hp hr' hd')

theorem run_abortFork (hm : may (.abortFork a b) s) :
    wp (run (.abortFork a b)) (Leads may s) s := by
  simp [abortFork, closeFork, canAbortFork]
  refine ⟨fun _ => .refl, fun ha hb _ hr hp hr' hd' _ => ?_⟩
  exact .single (.abortFork a b hm ha hb (index_ne_of_role hr hr' (by decide)) hr hp hr'
    (Option.isSome_iff_ne_none.mp hd'))

section

variable (h : StateImageHandle)

include h

theorem run_freeze : wp (run (.freeze h)) (Leads may s) s := by
  simp [freeze]
  refine ⟨fun hv => ⟨fun _ => .refl, fun hr hd hp hu hn => ?_⟩, fun _ => .refl⟩
  exact .tail (.single (.counters _ _)) (.freeze h _ hv hr hd (idle_of hp hu hn))

theorem run_thaw (hm : may (.thaw h) s) :
    wp (run (.thaw h)) (Leads may s) s := by
  simp [thaw]
  refine ⟨fun hv => ⟨fun _ => .refl, fun hr hd _ hp hu hn => ?_⟩, fun _ => .refl⟩
  exact .single (.thaw h hm hv hr hd (idle_of hp hu hn))

theorem run_activateReset (cuda : Bool) :
    wp (run (.activateReset h cuda)) (Leads may s) s := by
  simp [activateReset]
  refine ⟨fun hv => ⟨fun _ => .refl, fun hr _ hp hu hn d hd => ⟨fun _ => ?_, fun _ => .refl⟩⟩,
    fun _ => .refl⟩
  have bumped : Step may s _ :=
    .counters (nextEpoch s.store.nextContentEpoch) s.store.nextTransferId
  exact .tail (.single bumped) (Step.reset h d _ hv (.inr hr) hd (idle_of hp hu hn))

theorem run_retainCheckpointReference :
    wp (run (.retainCheckpointReference h)) (Leads may s) s := by
  simp [retainCheckpointReference]
  exact ⟨fun hv => ⟨fun _ => .refl, fun hr _ => .single (.references h _ hv hr)⟩, fun _ => .refl⟩

theorem run_releaseCheckpointReference :
    wp (run (.releaseCheckpointReference h)) (Leads may s) s := by
  simp [releaseCheckpointReference]
  exact ⟨fun hv => ⟨fun _ => .refl, fun hr _ => .single (.references h _ hv hr)⟩, fun _ => .refl⟩

theorem run_moveCheckpointToActive :
    wp (run (.moveCheckpointToActive h)) (Leads may s) s := by
  simp [moveCheckpointToActive]
  refine ⟨fun hv => ⟨fun _ => .refl, fun hr hd _ hp hu hn => ?_⟩, fun _ => .refl⟩
  have step : Step may s _ := .move h hv hr hd (idle_of hp hu hn)
  cases hh : (s.store.objects h.index).hostSlot with
  | none => rw [ImageSystem.obj, hh] at step; exact .single step
  | some slot =>
    rw [ImageSystem.obj, hh] at step
    simp
    exact ⟨fun _ _ _ => .single step, fun _ => .refl⟩

theorem run_dropDeviceReplica :
    wp (run (.dropDeviceReplica h)) (Leads may s) s := by
  simp [dropDeviceReplica]
  refine ⟨fun hv => ⟨fun _ => .refl, fun hr _ hh hp hu hn d hd => ?_⟩, fun _ => .refl⟩
  exact .single (.dropDevice h d hv hr hd hh (idle_of hp hu hn))

theorem run_dropHostReplica :
    wp (run (.dropHostReplica h)) (Leads may s) s := by
  simp [dropHostReplica]
  refine ⟨fun hv => ⟨fun _ => .refl, fun _ hr hd _ hp hu hn slot hh => ?_⟩, fun _ => .refl⟩
  have step : Step may s _ := .dropHost h hv hr hd (idle_of hp hu hn)
  rw [ImageSystem.obj, hh] at step
  exact ⟨fun _ _ _ => .single step, fun _ => .refl⟩

theorem run_recycleCheckpointDestination :
    wp (run (.recycleCheckpointDestination h)) (Leads may s) s := by
  simp [recycleCheckpointDestination, canRecycleCheckpointDestination]
  refine ⟨fun _ => .refl, fun hv hr _ hh _ hp hu hn => ⟨fun _ => ?_, fun _ => .refl⟩⟩
  exact .single (.recycle h hv hr hh (idle_of hp hu hn))

theorem run_restoreRecycledCheckpoint (epoch : Nat) :
    wp (run (.restoreRecycledCheckpoint h epoch)) (Leads may s) s := by
  simp [restoreRecycledCheckpoint]
  refine ⟨fun hv => ⟨fun _ => .refl, fun _ hr hd hh _ hp hu hn => ?_⟩, fun _ => .refl⟩
  exact .single (.restore h epoch hv hr hd hh (idle_of hp hu hn))

end

theorem eraseIdx_last {α : Type} (l : List α) (a : α) : (l ++ [a]).eraseIdx l.length = l := by
  rw [List.eraseIdx_append_of_length_le (Nat.le_refl _)]
  simp

variable (may) in
theorem reserveDeviceToHost_leads {P : Post (StateImageStore V) (Option StateImageTransfer)}
    (h : StateImageHandle) (hthrow : ∀ e, P.throw e s.store) (hnone : P.ok none s.store)
    (hdead : P.dead)
    (hsome : ∀ tr t, tr.direction = .deviceToHost → tr.source = h → tr.destination = h →
      Step may s { s with store := t, transfers := s.transfers ++ [⟨tr, none, false⟩] } →
      P.ok (some tr) t) :
    wp (reserveDeviceToHost h) P s.store := by
  simp [reserveDeviceToHost]
  refine ⟨fun hv => ⟨fun _ => hnone, fun hhost hr hd hh hn hmax => ?_⟩, fun _ => hthrow _⟩
  refine wp_hostAllocate hdead hnone fun p slot p' hp ha => ?_
  have step : Step may s _ := .reserveDeviceToHost h p slot p' hv hp ha hr hd hh
    (settled_of hn) hmax
  exact hsome _ _ rfl rfl rfl step

theorem run_reserveDeviceToHost (h : StateImageHandle) :
    wp (run (.reserveDeviceToHost h)) (Leads may s) s := by
  simp [run]
  refine reserveDeviceToHost_leads may h (fun _ => .refl) .refl trivial fun tr t _ _ _ ht => ?_
  simp [open_]
  exact .single ht

variable (may) in
theorem enqueueDeviceToHost_leads {P : Post (StateImageStore V) Nat} (k : Nat) (o : OpenTransfer)
    (cuda : Bool) (hk : s.transfers[k]? = some o) (hthrow : ∀ e, P.throw e s.store) (hdead : P.dead)
    (hok : ∀ d, Step may s { s with transfers := s.transfers.set k { o with enqueued := some d } } →
      P.ok d s.store) :
    wp (enqueueDeviceToHost o.transfer cuda) P s.store := by
  simp [enqueueDeviceToHost, validateTransfer, hthrow, hdead]
  intro hv hs hdir hhost _ _ d hd slot hslot p hp _ _
  exact hok d (.enqueue k o d hk hv hdir hd)

theorem run_enqueueDeviceToHost (k : Nat) (cuda : Bool) :
    wp (run (.enqueueDeviceToHost k cuda)) (Leads may s) s := by
  simp [withOpen]
  cases hk : s.transfers[k]? with
  | none => exact .refl
  | some o =>
    simp
    exact enqueueDeviceToHost_leads may k o cuda hk (fun _ => .refl) trivial fun d hd => .single hd

variable (may) in
theorem abortTransfer_leads {P : Post (StateImageStore V) Unit} (k : Nat) (o : OpenTransfer)
    (hk : s.transfers[k]? = some o)
    (hok : ∀ t, Step may s { s with store := t, transfers := s.transfers.eraseIdx k } → P.ok () t) :
    wp (abortTransfer o.transfer) P s.store := by
  simp [abortTransfer]
  refine ⟨fun hv => ?_, fun hv => hok _ (.abortStale k o hk hv)⟩
  cases hdir : o.transfer.direction with
  | deviceToHost =>
    have step := hok _ (.abortDeviceToHost k o hk hv hdir)
    cases hh : (s.store.objects o.transfer.source.index).pendingHostSlot with
    | none => simpa [setAt, hostWithout, hh] using step
    | some slot =>
      simp
      refine ⟨fun p _ _ => by simpa [setAt, hostWithout, hh] using step, fun hbad => ?_⟩
      simpa [setAt, hostWithout_of_stale (by simpa [setAt] using hbad), hh] using step
  | hostToDevice =>
    have step := hok _ (.abortHostToDevice k o hk hv hdir)
    cases hd : (s.store.objects o.transfer.destination.index).pendingDeviceSlot <;>
      simpa [setAt, hd] using step
  | hostToFork =>
    have step := hok _ (.abortHostToFork k o hk hv hdir)
    cases hd : (s.store.objects o.transfer.destination.index).pendingDeviceSlot <;>
      simpa [setAt, hd] using step

theorem run_abortTransfer (k : Nat) : wp (run (.abortTransfer k)) (Leads may s) s := by
  simp [withOpen]
  cases hk : s.transfers[k]? with
  | none => exact .refl
  | some o =>
    simp
    exact abortTransfer_leads may k o hk fun t ht => .single ht

theorem run_beginDeviceToHost (h : StateImageHandle) (cuda : Bool) :
    wp (run (.beginDeviceToHost h cuda)) (Leads may s) s := by
  simp [beginDeviceToHost]
  refine reserveDeviceToHost_leads may h (fun _ => .refl) .refl trivial fun tr t _ _ _ ht => ?_
  -- the reserved transfer is the last open one: it is enqueued, or aborted
  have habort : wp (abortTransfer tr)
      ⟨fun _ u => ReflTransGen (Step may) s { s with store := u }, fun _ _ => True, True⟩ t := by
    refine abortTransfer_leads may
      (s := { s with store := t, transfers := s.transfers ++ [⟨tr, none, false⟩] })
      s.transfers.length ⟨tr, none, false⟩ (by simp) fun u hu => ?_
    rw [eraseIdx_last] at hu
    exact .tail (.single ht) hu
  simp
  refine enqueueDeviceToHost_leads may
    (s := { s with store := t, transfers := s.transfers ++ [⟨tr, none, false⟩] })
    s.transfers.length ⟨tr, none, false⟩ cuda (by simp) (fun _ => habort) trivial fun d hd => ?_
  simp [opened, open_]
  refine .tail (.single ht) ?_
  simpa using hd

/-- A begin whose copy fails is undone by hand: the state an abort of the new transfer leaves. -/
theorem Step.undo {t : ImageSystem V} {store : StateImageStore V} {l : List OpenTransfer}
    {o : OpenTransfer} (h : Step may s t) (hl : t.transfers = l ++ [o])
    (hu : t.transfers[l.length]? = some o →
      Step may t { t with store, transfers := t.transfers.eraseIdx l.length }) :
    ReflTransGen (Step may) s { t with store, transfers := l } := by
  have hu := hu (by simp [hl])
  rw [hl, eraseIdx_last] at hu
  exact .tail (.single h) hu

theorem run_beginHostToDevice (h : StateImageHandle) (cuda : Bool) :
    wp (run (.beginHostToDevice h cuda)) (Leads may s) s := by
  simp [beginHostToDevice]
  refine ⟨fun hv => ⟨fun _ => .refl, fun hhost hr hh hd hn hmax => ?_⟩, fun _ => .refl⟩
  refine wp_takeDeviceSlot .refl fun d slots hfree => ?_
  simp [copyFromHost]
  intro slot hslot p _
  have step : Step may s _ := .beginHostToDevice h d slots slot hv hfree hr hd hslot
    (settled_of hn) hmax
  have undone := step.undo rfl fun hk => .abortHostToDevice _ _ hk
    (by simpa [validTransfer, setAt, valid, nextEpoch_ne_zero] using hv) rfl
  refine ⟨fun _ => ⟨fun _ => ?_, fun _ => ?_⟩, fun _ => ?_⟩
  · simpa [setAt, obj, newId] using undone
  · simpa [opened, open_, setAt] using ReflTransGen.single step
  · simpa [setAt, obj, newId] using undone

theorem run_beginHostFork (cuda : Bool) :
    wp (run (.beginHostFork a b cuda)) (Leads may s) s := by
  simp [beginHostFork]
  refine ⟨fun ha => ⟨fun hb => ⟨fun _ => .refl,
    fun hhost _ hr hh hmax hr' hd' hh' hn' hp' hu' => ?_⟩, fun _ => .refl⟩, fun _ => .refl⟩
  refine wp_takeDeviceSlot .refl fun d slots hfree => ?_
  simp [copyFromHost]
  intro slot hslot p _
  have hab := index_ne_of_role hr hr' (by decide)
  have step : Step may s _ := .beginHostFork a b d slots slot ha hb hab hfree hr hslot hmax hr'
    hd' hh' (idle_of hp' hu' hn')
  have undone := step.undo rfl fun hk => .abortHostToFork _ _ hk (by
    unfold valid at ha hb
    simp [validTransfer, setAt, valid, nextEpoch_ne_zero, update_of_ne hab, update_of_ne hab.symm,
      ha, hb]) rfl
  refine ⟨fun _ => ⟨fun _ => ?_, fun _ => ?_⟩, fun _ => ?_⟩
  · simpa [setAt, obj, newId, update_of_ne hab, update_of_ne hab.symm] using undone
  · simpa [opened, open_, setAt] using ReflTransGen.single step
  · simpa [setAt, obj, newId, update_of_ne hab, update_of_ne hab.symm] using undone

theorem run_publishTransfer (hcur : s.store.HostCurrent) (k : Nat) (keep : Bool)
    (hm : may (.publishTransfer k keep) s) :
    wp (run (.publishTransfer k keep)) (Leads may s) s := by
  simp [withOpen]
  cases hk : s.transfers[k]? with
  | none => exact .refl
  | some o =>
    simp [publishTransfer, validateTransfer]
    refine ⟨fun hv => ⟨fun hs => ⟨fun hd => ?_, fun _ => .refl⟩, fun _ => .refl⟩, fun _ => .refl⟩
    cases hdir : o.transfer.direction with
    | deviceToHost =>
      cases keep with
      | true =>
        have step : Step may s _ := .publishDeviceToHost k o hm hk hv hdir
        simpa [setAt, decrementPins] using ReflTransGen.single step
      | false =>
        simp
        intro d hd
        have step : Step may s _ := .publishDeviceToHostOnly k o d hm hk hv hdir hd
        simpa [setAt, decrementPins] using ReflTransGen.single step
    | hostToDevice =>
      cases keep with
      | true =>
        have step : Step may s _ := .publishHostToDevice k o hm hk hv hdir
        simpa [setAt, decrementPins] using ReflTransGen.single step
      | false =>
        simp
        intro slot hslot
        have hh : (s.obj o.transfer.source.index).hostSlot ≠ none := by simp [hslot]
        have step : Step may s _ := .publishHostToDeviceOnly k o hm hk hv hdir hh
        obtain ⟨p, hp, hcurrent⟩ := hcur _ hs.2.1 slot (.inl hslot)
        refine ⟨fun _ _ _ => ?_, fun hbad => ?_⟩
        · simpa [setAt, decrementPins, hostWithout, hslot] using ReflTransGen.single step
        · simp [hbad p hp] at hcurrent
    | hostToFork =>
      have step : Step may s _ := .publishHostToFork k o keep hm hk hv hdir
      simpa [setAt, decrementPins] using ReflTransGen.single step

/-- Every command lands where steps lead, whichever way it ends. -/
theorem run_steps (hcur : s.store.HostCurrent) (c : Command V) (hm : may c s) :
    wp (run c) (Leads may s) s := by
  cases c with
  | reserveDestination => exact run_reserveDestination
  | reserveLogicalDestination => exact run_reserveLogicalDestination
  | reserveReset cuda => exact run_reserveReset cuda
  | activateReset h cuda => exact run_activateReset h cuda
  | retainCheckpointReference h => exact run_retainCheckpointReference h
  | releaseCheckpointReference h => exact run_releaseCheckpointReference h
  | moveCheckpointToActive h => exact run_moveCheckpointToActive h
  | dropDeviceReplica h => exact run_dropDeviceReplica h
  | dropHostReplica h => exact run_dropHostReplica h
  | splitDeviceReplicaIdentity a b => exact run_splitDeviceReplicaIdentity a b
  | freeze h => exact run_freeze h
  | thaw h => exact run_thaw h hm
  | recycleCheckpointDestination h => exact run_recycleCheckpointDestination h
  | restoreRecycledCheckpoint h epoch => exact run_restoreRecycledCheckpoint h epoch
  | beginFork a b => exact run_beginFork a b
  | commitFork a b => exact run_commitFork a b hm
  | abortFork a b => exact run_abortFork a b hm
  | reserveDeviceToHost h => exact run_reserveDeviceToHost h
  | enqueueDeviceToHost k cuda => exact run_enqueueDeviceToHost k cuda
  | beginDeviceToHost h cuda => exact run_beginDeviceToHost h cuda
  | beginHostToDevice h cuda => exact run_beginHostToDevice h cuda
  | beginHostFork a b cuda => exact run_beginHostFork a b cuda
  | publishTransfer k keep => exact run_publishTransfer hcur k keep hm
  | abortTransfer k => exact run_abortTransfer k
  | release h => exact run_release h
  | copy k => exact .single (.copy k)
  | execute h v => exact .single (.execute h v)

/-- An invariant that makes the Host handles current and that every step keeps holds in every
    reached state. -/
theorem reach_inv {I : ImageSystem V → Prop} (hcur : ∀ s, I s → s.store.HostCurrent)
    (h0 : ∀ s, Fresh s → I s) (hstep : ∀ s t, I s → Step may s t → I t)
    (h : Reach Fresh run may s) : I s := by
  refine h.inv h0 fun c s hs hm => ?_
  have keep : ∀ t, ReflTransGen (Step may) s t → I t := by
    intro t ht
    induction ht with
    | refl => exact hs
    | tail _ hstp ih => exact hstep _ _ ih hstp
  exact wp_mono (run_steps (hcur s hs) c hm) (fun _ => keep) (fun _ => keep) (fun _ => trivial)

end Ninfer.StateImage
