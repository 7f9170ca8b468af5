/-
  A pending Fork and its source, which should stay readable until the fork is committed or aborted.

  `begin_fork` alone does not see to it. A Device-to-Host transfer of the source may be published
  with `keep_source_replica = false` while the fork is pending: `publish_transfer` returns the
  Device slot without looking at `source_pins` (`drop_device_replica` refuses a pinned image),
  and the slot the fork reads is free. When such a publication happens only while its own pin
  is the only one, and forks are committed and aborted as the pairs they were begun
  (`KeepsForkSources`), the source of every pending fork is a checkpoint with the Device slot
  `begin_fork` returned, and that slot is nowhere else.

  The invariant counts: an image's `source_pins` is the number of pending forks and open
  transfers that read it.
-/
import Ninfer.StateImage.Coherence

namespace Ninfer.StateImage

open Lib Function StateImageStore

variable {V : Type}

/-! ## Rules on the clients -/

/-- The pair a command commits or aborts. -/
def Command.closedFork : Command V → Option (StateImageHandle × StateImageHandle)
  | .commitFork a b => some (a, b)
  | .abortFork a b => some (a, b)
  | _ => none

/-- The index of the transfer a command publishes without keeping the source replica. -/
def Command.movedTransfer : Command V → Option Nat
  | .publishTransfer k false => some k
  | _ => none

/-- Forks are closed as the pairs they were begun. -/
def PairsForks (c : Command V) (s : ImageSystem V) : Prop :=
  ∀ p ∈ c.closedFork, ∃ f ∈ s.forks, f.source = p.1 ∧ f.destination = p.2
  deriving Decidable

/-- A Device replica is given up to a Host copy only when nothing else reads it. -/
def MovesUnforked (c : Command V) (s : ImageSystem V) : Prop :=
  ∀ k ∈ c.movedTransfer, ∀ u ∈ s.transfers[k]?, u.transfer.direction = .deviceToHost →
    (s.store.objects u.transfer.source.index).sourcePins = 1
  deriving Decidable

def KeepsForkSources (c : Command V) (s : ImageSystem V) : Prop :=
  PairsForks c s ∧ MovesUnforked c s
  deriving Decidable

/-! ## The invariant -/

/-- The number of pending forks that read the object `i`. -/
def forkCount (forks : List ForkBinding) (i : Nat) : Nat :=
  forks.countP fun f => f.source.index = i

/-- The number of open transfers that read the object `i`. -/
def transferCount (transfers : List OpenTransfer) (i : Nat) : Nat :=
  transfers.countP fun u => u.transfer.source.index = i

/-- The handle names a checkpoint. -/
def NamesCheckpoint (s : StateImageStore V) (h : StateImageHandle) : Prop :=
  s.valid h ∧ (s.objects h.index).role = .checkpointImmutable

structure Pinned (s : ImageSystem V) : Prop where
  pins : ∀ i, i < s.store.capacity →
    (s.store.objects i).sourcePins = forkCount s.forks i + transferCount s.transfers i
  fork : ∀ f ∈ s.forks, NamesCheckpoint s.store f.source ∧
    (s.store.objects f.source.index).deviceSlot = some f.slot
  transfer : ∀ u ∈ s.transfers, NamesCheckpoint s.store u.transfer.source ∧
    u.transfer.owner = some s.store.id ∧ u.transfer.destination.owner = some s.store.id

/-- The object is the same checkpoint and still has the Device slot it had. -/
structure Kept (o o' : Object) : Prop where
  generation : o'.generation = o.generation
  role : o'.role = o.role
  device : ∀ d, o.deviceSlot = some d → o'.deviceSlot = some d

theorem Kept.rfl {o : Object} : Kept o o := ⟨Eq.refl _, Eq.refl _, fun _ h => h⟩

theorem one_le_forkCount {forks : List ForkBinding} {f : ForkBinding} (h : f ∈ forks) :
    1 ≤ forkCount forks f.source.index :=
  List.countP_pos_iff.mpr ⟨f, h, by simp⟩

theorem one_le_transferCount {transfers : List OpenTransfer} {u : OpenTransfer}
    (h : u ∈ transfers) : 1 ≤ transferCount transfers u.transfer.source.index :=
  List.countP_pos_iff.mpr ⟨u, h, by simp⟩

section Frame

variable {s t : ImageSystem V} {o : Object}

theorem NamesCheckpoint.kept {s t : StateImageStore V} {a : StateImageHandle}
    (h : NamesCheckpoint s a) (hid : t.id = s.id) (hcap : t.capacity = s.capacity)
    (hk : Kept (s.objects a.index) (t.objects a.index)) : NamesCheckpoint t a := by
  obtain ⟨⟨h1, h2, h3, h4⟩, h5⟩ := h
  refine ⟨⟨hid ▸ h1, hcap ▸ h2, ?_, ?_⟩, ?_⟩
  · rw [hk.role]
    exact h3
  · rw [hk.generation]
    exact h4
  · rw [hk.role]
    exact h5

section

variable (h : Pinned s)

include h

/-- What a step has to show: one object is rewritten and kept if it is read, the new readers
    read checkpoints, and only that object's count changes. -/
theorem Pinned.rewrite {i : Nat}
    (hobj : t.store.objects = update s.store.objects i o)
    (hk : o.sourcePins ≠ 0 → Kept (s.store.objects i) o)
    (hcount : ∀ j < s.store.capacity, forkCount t.forks j + transferCount t.transfers j =
      if j = i then o.sourcePins else forkCount s.forks j + transferCount s.transfers j)
    (hforks : ∀ f ∈ t.forks, f ∈ s.forks ∨ NamesCheckpoint s.store f.source ∧
      (s.store.objects f.source.index).deviceSlot = some f.slot)
    (htransfers : ∀ u ∈ t.transfers, u ∈ s.transfers ∨ NamesCheckpoint s.store u.transfer.source ∧
      u.transfer.owner = some s.store.id ∧ u.transfer.destination.owner = some s.store.id)
    (hid : t.store.id = s.store.id := by rfl)
    (hcap : t.store.capacity = s.store.capacity := by rfl) : Pinned t := by
  have hpins : ∀ j < s.store.capacity, (t.store.objects j).sourcePins =
      forkCount t.forks j + transferCount t.transfers j := by
    intro j hj
    rw [hcount j hj, hobj, update_apply]
    split
    · rfl
    · exact h.pins j hj
  have kept : ∀ j < s.store.capacity, forkCount t.forks j + transferCount t.transfers j ≠ 0 →
      Kept (s.store.objects j) (t.store.objects j) := by
    intro j hj hread
    rw [← hpins j hj, hobj] at hread
    rw [hobj]
    by_cases e : j = i
    · rw [e, update_self] at hread ⊢
      exact hk hread
    · rw [update_of_ne e]
      exact .rfl
  refine ⟨fun i hi => hpins i (hcap ▸ hi), fun f hf => ?_, fun u hu => ?_⟩
  · obtain ⟨hn, hd⟩ := (hforks f hf).elim (h.fork f) id
    have := one_le_forkCount hf
    have hk := kept _ hn.1.2.1 (by omega)
    exact ⟨hn.kept hid hcap hk, hk.device _ hd⟩
  · obtain ⟨hn, ho⟩ := (htransfers u hu).elim (h.transfer u) id
    have := one_le_transferCount hu
    have hk := kept _ hn.1.2.1 (by omega)
    rw [hid]
    exact ⟨hn.kept hid hcap hk, ho⟩

/-- An object that no fork and no transfer reads may change in any way. -/
theorem Pinned.rewriteUnread {i : Nat}
    (hobj : t.store.objects = update s.store.objects i o)
    (hk : (s.store.objects i).sourcePins ≠ 0 → Kept (s.store.objects i) o)
    (hpins : o.sourcePins = (s.store.objects i).sourcePins := by rfl)
    (hid : t.store.id = s.store.id := by rfl)
    (hcap : t.store.capacity = s.store.capacity := by rfl) (hforks : t.forks = s.forks := by rfl)
    (htrans : t.transfers = s.transfers := by rfl) : Pinned t := by
  refine h.rewrite hobj (hpins ▸ hk) (fun j hj => ?_) (fun f hf => .inl (hforks ▸ hf))
    (fun u hu => .inl (htrans ▸ hu)) hid hcap
  rw [hforks, htrans]
  split
  next e => rw [hpins, ← e, h.pins j hj]
  · rfl

/-- A fork begins to read `a`. -/
theorem Pinned.openFork {a b : StateImageHandle} {d : Nat}
    (ha : NamesCheckpoint s.store a) (hd : (s.store.objects a.index).deviceSlot = some d)
    (hobj : t.store.objects = update s.store.objects a.index o)
    (hforks : t.forks = ⟨a, b, d⟩ :: s.forks)
    (hk : Kept (s.store.objects a.index) o)
    (hpins : o.sourcePins = (s.store.objects a.index).sourcePins + 1 := by rfl)
    (hid : t.store.id = s.store.id := by rfl)
    (hcap : t.store.capacity = s.store.capacity := by rfl)
    (htrans : t.transfers = s.transfers := by rfl) : Pinned t := by
  refine h.rewrite hobj (fun _ => hk) (fun j hj => ?_) (fun f hf => ?_)
    (fun u hu => .inl (htrans ▸ hu)) hid hcap
  · rw [hforks, htrans, hpins]
    have hj := h.pins j hj
    simp only [forkCount, List.countP_cons, decide_eq_true_eq, eq_comm (a := a.index)] at hj ⊢
    split
    next e => subst e; omega
    · rfl
  · rw [hforks] at hf
    rcases List.mem_cons.mp hf with rfl | hf
    · exact .inr ⟨ha, hd⟩
    · exact .inl hf

/-- A fork of `a` is committed or aborted. -/
theorem Pinned.closeFork {f : ForkBinding} (hf : f ∈ s.forks)
    (hobj : t.store.objects = update s.store.objects f.source.index o)
    (hforks : t.forks =
      s.forks.eraseP fun g => g.source = f.source && g.destination = f.destination)
    (hk : Kept (s.store.objects f.source.index) o)
    (hpins : o.sourcePins = (s.store.objects f.source.index).sourcePins - 1 := by rfl)
    (hid : t.store.id = s.store.id := by rfl)
    (hcap : t.store.capacity = s.store.capacity := by rfl)
    (htrans : t.transfers = s.transfers := by rfl) : Pinned t := by
  refine h.rewrite hobj (fun _ => hk) (fun j hj => ?_)
    (fun g hg => .inl (List.eraseP_subset (hforks ▸ hg))) (fun u hu => .inl (htrans ▸ hu)) hid hcap
  rw [hforks, htrans, hpins]
  have hj := h.pins j hj
  obtain ⟨g, hg, hq, hcount⟩ := countP_eraseP hf
    (q := fun g => g.source = f.source && g.destination = f.destination) (by simp)
    fun g => g.source.index = j
  simp only [Bool.and_eq_true, decide_eq_true_eq] at hq
  simp only [forkCount, hq.1, decide_eq_true_eq, eq_comm (a := f.source.index)] at hj hcount ⊢
  split at hcount
  next e => subst e; rw [if_pos rfl]; omega
  next e => rw [if_neg e]; omega

/-- A transfer begins to read `a`. -/
theorem Pinned.openTransfer {u : OpenTransfer}
    (ha : NamesCheckpoint s.store u.transfer.source)
    (hown : u.transfer.owner = some s.store.id ∧ u.transfer.destination.owner = some s.store.id)
    (hobj : t.store.objects = update s.store.objects u.transfer.source.index o)
    (htrans : t.transfers = s.transfers ++ [u])
    (hk : Kept (s.store.objects u.transfer.source.index) o)
    (hpins : o.sourcePins = (s.store.objects u.transfer.source.index).sourcePins + 1 := by rfl)
    (hid : t.store.id = s.store.id := by rfl)
    (hcap : t.store.capacity = s.store.capacity := by rfl) (hforks : t.forks = s.forks := by rfl) :
    Pinned t := by
  refine h.rewrite hobj (fun _ => hk) (fun j hj => ?_) (fun f hf => .inl (hforks ▸ hf))
    (fun v hv => ?_) hid hcap
  · rw [hforks, htrans, hpins]
    have hj := h.pins j hj
    simp only [transferCount, List.countP_append, List.countP_singleton, decide_eq_true_eq,
      eq_comm (a := u.transfer.source.index)] at hj ⊢
    split
    next e => subst e; omega
    · rfl
  · rw [htrans] at hv
    rcases List.mem_append.mp hv with hv | hv
    · exact .inl hv
    · exact .inr (List.mem_singleton.mp hv ▸ ⟨ha, hown⟩)

/-- The `k`-th transfer is published or aborted; its source is kept if anything else reads it. -/
theorem Pinned.closeTransfer {k : Nat} {u : OpenTransfer}
    (hu : s.transfers[k]? = some u)
    (hobj : t.store.objects = update s.store.objects u.transfer.source.index o)
    (hk : o.sourcePins ≠ 0 → Kept (s.store.objects u.transfer.source.index) o)
    (hpins : o.sourcePins = (s.store.objects u.transfer.source.index).sourcePins - 1 := by rfl)
    (htrans : t.transfers = s.transfers.eraseIdx k := by rfl)
    (hid : t.store.id = s.store.id := by rfl)
    (hcap : t.store.capacity = s.store.capacity := by rfl) (hforks : t.forks = s.forks := by rfl) :
    Pinned t := by
  refine h.rewrite hobj hk (fun j hj => ?_) (fun f hf => .inl (hforks ▸ hf))
    (fun v hv => .inl ((List.eraseIdx_sublist _ _).subset (htrans ▸ hv))) hid hcap
  rw [hforks, htrans, hpins]
  have hj := h.pins j hj
  have hcount := countP_eraseIdx hu fun v => v.transfer.source.index = j
  simp only [transferCount, decide_eq_true_eq, eq_comm (a := u.transfer.source.index)]
    at hj hcount ⊢
  split at hcount
  next e => subst e; rw [if_pos rfl]; omega
  next e => rw [if_neg e]; omega

/-- Only a checkpoint is read. -/
theorem Pinned.pins_eq_zero {i : Nat} (hi : i < s.store.capacity)
    (hr : (s.store.objects i).role ≠ .checkpointImmutable) :
    (s.store.objects i).sourcePins = 0 := by
  rw [h.pins i hi]
  have hf : forkCount s.forks i = 0 := by
    refine List.countP_eq_zero.mpr fun f hf e => hr ?_
    rw [← of_decide_eq_true e]
    exact (h.fork f hf).1.2
  have ht : transferCount s.transfers i = 0 := by
    refine List.countP_eq_zero.mpr fun u hu e => hr ?_
    rw [← of_decide_eq_true e]
    exact (h.transfer u hu).1.2
  omega

theorem Pinned.mark {k : Nat} {u v : OpenTransfer} (hk : s.transfers[k]? = some u)
    (hv : v.transfer = u.transfer) : Pinned { s with transfers := s.transfers.set k v } := by
  refine ⟨fun i hi => ?_, h.fork, fun w hw => ?_⟩
  · have hmap := map_set_of_eq (fun w => w.transfer.source.index) hk (by rw [hv])
    have hcount := congrArg (List.countP fun x => x = i) hmap
    simp only [List.countP_map] at hcount
    rw [h.pins i hi]
    exact congrArg _ hcount.symm
  · rcases List.mem_or_eq_of_mem_set hw with hw | rfl
    · exact h.transfer w hw
    · rw [hv]
      exact h.transfer u (List.mem_of_getElem? hk)

end

end Frame

/-! ## Steps -/

section Steps

variable {s t : ImageSystem V}

/-- Neither the forks nor the transfers read an idle object. -/
theorem Pinned.rewriteIdle (h : Pinned s) {i : Nat} {o : Object} (hidle : Idle (s.obj i))
    (hobj : t.store.objects = update s.store.objects i o)
    (hpins : o.sourcePins = (s.store.objects i).sourcePins := by rfl)
    (hid : t.store.id = s.store.id := by rfl)
    (hcap : t.store.capacity = s.store.capacity := by rfl) (hforks : t.forks = s.forks := by rfl)
    (htrans : t.transfers = s.transfers := by rfl) : Pinned t :=
  h.rewriteUnread hobj (fun hne => absurd hidle.pins hne) hpins hid hcap hforks htrans

/-- An open transfer's capability never goes stale. -/
theorem Pinned.validTransfer (h : Pinned s) (hw : WellFormed s) {k : Nat} {u : OpenTransfer}
    (hk : s.transfers[k]? = some u) : s.store.validTransfer u.transfer := by
  have hu := List.mem_of_getElem? hk
  obtain ⟨hn, ho, ho'⟩ := h.transfer u hu
  have haw := hw.transfers.awaits u hu
  refine ⟨ho, haw.id, hn.1, ⟨ho', hw.transfers.lt u hu, ?_, haw.generation⟩, haw.transferId⟩
  cases hdir : u.transfer.direction with
  | deviceToHost => simp [(haw.deviceToHost hdir).2.1]
  | hostToDevice => simp [(haw.hostToDevice hdir).2.1]
  | hostToFork => simp [(haw.hostToFork hdir).2.1]

/-- `--source_pins` of a transfer's source does not wrap. -/
theorem Pinned.decrement (h : Pinned s) {k : Nat} {u : OpenTransfer}
    (hk : s.transfers[k]? = some u) :
    predU32 (s.store.objects u.transfer.source.index).sourcePins =
      (s.store.objects u.transfer.source.index).sourcePins - 1 := by
  have hu := List.mem_of_getElem? hk
  have := one_le_transferCount hu
  have := h.pins _ (h.transfer u hu).1.1.2.1
  exact predU32_of_ne (by omega)

theorem pinned_step [Zero V] (hw : WellFormed s) (h : Pinned s) (hs : Step KeepsForkSources s t) :
    Pinned t := by
  cases hs with
  | counters e n => exact ⟨h.pins, h.fork, h.transfer⟩
  | allocate i rest role hi hr =>
    obtain ⟨hlt, hrole⟩ := hw.top hi
    have h0 := h.pins_eq_zero hlt (by simp [hrole])
    exact h.rewriteUnread rfl (fun hne => absurd h0 hne) h0.symm
  | allocateDevice i rest d slots role hi hd hr =>
    obtain ⟨hlt, hrole⟩ := hw.top hi
    have h0 := h.pins_eq_zero hlt (by simp [hrole])
    exact h.rewriteUnread rfl (fun hne => absurd h0 hne) h0.symm
  | release a hv hidle => exact h.rewriteIdle hidle rfl
  | reset a d epoch hv hr hd hidle => exact h.rewriteIdle hidle rfl
  | references a n hv hr =>
    exact h.rewriteUnread rfl fun _ => ⟨rfl, rfl, fun _ hd => hd⟩
  | move a hv hr hd hidle => exact h.rewriteIdle hidle rfl
  | dropDevice a d hv hr hd hh hidle => exact h.rewriteIdle hidle rfl
  | dropHost a hv hr hd hidle => exact h.rewriteIdle hidle rfl
  | split a b d ha hb hab hr hd hh hidle hr' hd' hh' hidle' =>
    have bound : Pinned { s with store := s.store.setAt b.index fun o => { o with
        deviceSlot := some d
        contentEpoch := (s.obj a.index).contentEpoch
        role := .activeMutable } } := h.rewriteIdle hidle' rfl
    refine bound.rewriteIdle (i := a.index) ?_ rfl
    simpa [ImageSystem.obj, setAt_of_ne _ _ _ hab] using hidle
  | freeze a epoch hv hr hd hidle => exact h.rewriteIdle hidle rfl
  | thaw a hm hv hr hd hidle => exact h.rewriteIdle hidle rfl
  | recycle a hv hr hh hidle => exact h.rewriteIdle hidle rfl
  | restore a epoch hv hr hd hh hidle => exact h.rewriteIdle hidle rfl
  | beginFork a b d ha hb hab hr hd hmax hr' hd' hidle' =>
    rw [setAt_comm _ _ _ hab.symm]
    have bound : Pinned { s with store := s.store.setAt b.index fun o => { o with
        destinationPinned := true
        role := .activeMutable
        contentEpoch := (s.obj a.index).contentEpoch } } :=
      h.rewriteIdle hidle' rfl
    have e := setAt_of_ne s.store b.index (fun o => { o with
        destinationPinned := true
        role := .activeMutable
        contentEpoch := (s.obj a.index).contentEpoch }) hab
    exact bound.openFork ⟨valid_setAt _ ha hab, e ▸ hr⟩ (e ▸ hd) rfl rfl ⟨rfl, rfl, fun _ hd => hd⟩
  | commitFork a b hm ha hb hab hr hp hr' hd' =>
    obtain ⟨f, hf, rfl, rfl⟩ := hm.1 (a, b) rfl
    rw [setAt_comm _ _ _ hab.symm]
    have unbound : Pinned { s with store := s.store.setAt f.destination.index fun o => { o with
        destinationPinned := false } } :=
      h.rewriteUnread rfl fun _ => ⟨rfl, rfl, fun _ hd => hd⟩
    exact unbound.closeFork hf rfl rfl ⟨rfl, rfl, fun _ hd => hd⟩
  | abortFork a b hm ha hb hab hr hp hr' hd' =>
    obtain ⟨f, hf, rfl, rfl⟩ := hm.1 (a, b) rfl
    rw [setAt_comm _ _ _ hab.symm]
    have h0 := h.pins_eq_zero hb.2.1 (by simp [hr'])
    have unbound : Pinned { s with store := s.store.setAt f.destination.index fun o => { o with
        destinationPinned := false
        role := .reservedDestination
        contentEpoch := 0 } } :=
      h.rewriteUnread rfl fun hne => absurd h0 hne
    exact unbound.closeFork hf rfl rfl ⟨rfl, rfl, fun _ hd => hd⟩
  | reserveDeviceToHost a p slot p' hv hp ha hr hd hh hset hmax =>
    exact h.openTransfer (u := ⟨⟨some s.store.id, s.newId, .deviceToHost, a, a⟩, none, false⟩)
      ⟨hv, hr⟩ ⟨rfl, hv.1⟩ rfl rfl ⟨rfl, rfl, fun _ hd => hd⟩
  | enqueue k o d hk hv hdir hd => exact h.mark hk rfl
  | beginHostToDevice a d slots slot hv hfree hr hd hh hset hmax =>
    exact h.openTransfer
      (u := ⟨⟨some s.store.id, s.newId, .hostToDevice, a, a⟩, some slot.index, false⟩)
      ⟨hv, hr⟩ ⟨rfl, hv.1⟩ rfl rfl ⟨rfl, rfl, fun _ hd => hd⟩
  | beginHostFork a b d slots slot ha hb hab hfree hr hh hmax hr' hd' hh' hidle' =>
    have bound : Pinned { s with store := s.store.setAt b.index fun o => { o with
        pendingDeviceSlot := some d
        transferId := s.newId
        destinationPinned := true
        role := .activeMutable
        contentEpoch := (s.obj a.index).contentEpoch } } :=
      h.rewriteIdle hidle' rfl
    have e := setAt_of_ne s.store b.index (fun o => { o with
        pendingDeviceSlot := some d
        transferId := s.newId
        destinationPinned := true
        role := .activeMutable
        contentEpoch := (s.obj a.index).contentEpoch }) hab
    exact bound.openTransfer
      (u := ⟨⟨some s.store.id, s.newId, .hostToFork, a, b⟩, some slot.index, false⟩)
      ⟨valid_setAt _ ha hab, e ▸ hr⟩ ⟨rfl, hb.1⟩ rfl rfl ⟨rfl, rfl, fun _ hd => hd⟩
  | publishDeviceToHost k o hm hk hv hdir =>
    exact h.closeTransfer hk rfl (fun _ => ⟨rfl, rfl, fun _ hd => hd⟩) (h.decrement hk)
  | publishDeviceToHostOnly k o d hm hk hv hdir hd =>
    have hone := hm.2 k rfl o hk hdir
    have hdec := h.decrement hk
    refine h.closeTransfer hk rfl (fun hne => absurd ?_ hne) hdec
    exact hdec.trans (by rw [hone])
  | publishHostToDevice k o hm hk hv hdir =>
    have haw := (hw.close hk).2.2.hostToDevice hdir
    have hd := haw.2.2.1
    rw [← haw.1] at hd
    exact h.closeTransfer hk rfl (fun _ => ⟨rfl, rfl, fun d hd' => by simp [hd] at hd'⟩)
      (h.decrement hk)
  | publishHostToDeviceOnly k o hm hk hv hdir hh =>
    have haw := (hw.close hk).2.2.hostToDevice hdir
    have hd := haw.2.2.1
    rw [← haw.1] at hd
    exact h.closeTransfer hk rfl (fun _ => ⟨rfl, rfl, fun d hd' => by simp [hd] at hd'⟩)
      (h.decrement hk)
  | publishHostToFork k o keep hm hk hv hdir =>
    obtain ⟨hne, -, hd, -⟩ := (hw.close hk).2.2.hostToFork hdir
    rw [setAt_comm _ _ _ hne.symm, setAt_setAt]
    have bound : Pinned { s with store := s.store.setAt o.transfer.destination.index fun o =>
        { o with
          deviceSlot := o.pendingDeviceSlot
          pendingDeviceSlot := none
          destinationPinned := false
          transferId := 0 } } :=
      h.rewriteUnread rfl fun _ => ⟨rfl, rfl, fun d hd' => by simp [hd] at hd'⟩
    exact bound.closeTransfer hk rfl (fun _ => ⟨rfl, rfl, fun _ hd => hd⟩) (bound.decrement hk)
  | abortStale k o hk hv => exact absurd (h.validTransfer hw hk) hv
  | abortDeviceToHost k o hk hv hdir =>
    rw [setAt_setAt]
    exact h.closeTransfer hk rfl fun _ => ⟨rfl, rfl, fun _ hd => hd⟩
  | abortHostToDevice k o hk hv hdir =>
    have haw := (hw.close hk).2.2.hostToDevice hdir
    rw [← haw.1, setAt_setAt]
    exact h.closeTransfer hk rfl fun _ => ⟨rfl, rfl, fun _ hd => hd⟩
  | abortHostToFork k o hk hv hdir =>
    obtain ⟨hne, hr, -⟩ := (hw.close hk).2.2.hostToFork hdir
    rw [setAt_comm _ _ _ hne.symm]
    have h0 := h.pins_eq_zero hv.2.2.2.1.2.1 (by simp [hr])
    have unbound : Pinned { s with store := s.store.setAt o.transfer.destination.index fun o =>
        { o with
          pendingDeviceSlot := none
          destinationPinned := false
          transferId := 0
          role := .reservedDestination
          contentEpoch := 0 } } :=
      h.rewriteUnread rfl fun hne => absurd h0 hne
    exact unbound.closeTransfer hk rfl fun _ => ⟨rfl, rfl, fun _ hd => hd⟩
  | copy k =>
    unfold ImageSystem.copy
    split
    next t x c hk =>
      have marked := h.mark hk (v := ⟨t, some x, true⟩) rfl
      unfold ImageSystem.performCopy
      split
      · exact marked
      · split <;> split <;> exact ⟨marked.pins, marked.fork, marked.transfer⟩
    · exact h
  | execute a v =>
    unfold ImageSystem.execute
    split
    · split
      · exact h
      · exact ⟨h.pins, h.fork, h.transfer⟩
    · exact h

end Steps

theorem pinned_fresh {s : ImageSystem V} (h : ImageSystem.Fresh s) : Pinned s := by
  obtain ⟨⟨id, device, host, capacity, -, hinit⟩, htr, hforks⟩ := h
  unfold init at hinit
  split at hinit
  · simp at hinit
  obtain hstore := (Except.ok.inj hinit).symm
  refine ⟨fun i _ => ?_, by simp [hforks], by simp [htr]⟩
  simp [hstore, htr, hforks, forkCount, transferCount]

theorem reach_pinned [Zero V] {s : ImageSystem V}
    (h : Reach ImageSystem.Fresh ImageSystem.run KeepsForkSources s) : WellFormed s ∧ Pinned s :=
  reach_inv (I := fun s => WellFormed s ∧ Pinned s) (fun _ hs => hs.1.hostCurrent)
    (fun _ hs => ⟨wellFormed_fresh hs, pinned_fresh hs⟩)
    (fun _ _ hs hstep => ⟨wellFormed_step hs.1 hstep, pinned_step hs.1 hs.2 hstep⟩) h

/-! ## The source of a pending fork -/

/-- The fork's source is still the checkpoint it was, in the slot `begin_fork` returned, and
    that slot is not free and not another image's. -/
structure SourceReadable (s : StateImageStore V) (f : ForkBinding) : Prop where
  checkpoint : NamesCheckpoint s f.source
  slot : (s.objects f.source.index).deviceSlot = some f.slot
  notFree : f.slot ∉ s.freeDeviceSlots
  unshared : ∀ j, j < s.capacity → j ≠ f.source.index →
    (s.objects j).deviceSlot ≠ some f.slot ∧ (s.objects j).pendingDeviceSlot ≠ some f.slot

theorem fork_source_readable [Zero V] (s : ImageSystem V)
    (h : Reach ImageSystem.Fresh ImageSystem.run KeepsForkSources s) :
    ∀ f ∈ s.forks, SourceReadable s.store f := by
  intro f hf
  obtain ⟨hw, hpin⟩ := reach_pinned h
  obtain ⟨hn, hd⟩ := hpin.fork f hf
  have hlt := hn.1.2.1
  have hclaim : 1 ≤ deviceClaims (s.store.objects f.source.index) f.slot := by
    simp [deviceClaims, slotClaim, hd]
  refine ⟨hn, hd, fun hfree => ?_, fun j hj hne => hw.device_free_of_ne hlt hj hne.symm hclaim⟩
  have hcount := List.count_pos_iff.mpr hfree
  have htotal := hw.device f.slot
  have := le_tally _ _ hlt fun k => deviceClaims (s.store.objects k) f.slot
  split at htotal <;> omega

/-- Two Device slots, one Host slot, three objects, nothing open. -/
def forkingSystem : ImageSystem Nat where
  store := {
    id := 0
    device := ⟨2, fun _ => 7⟩
    host := some (HostStatePool.init 1 fun _ => 8)
    capacity := 3
    objects := fun _ => {}
    freeObjects := List.range 3
    freeDeviceSlots := List.range 2 }
  transfers := []
  forks := []

theorem forkingSystem_fresh : forkingSystem.Fresh := by
  refine ⟨⟨0, ⟨2, fun _ => 7⟩, some (HostStatePool.init 1 fun _ => 8), 3, ?_, rfl⟩, rfl, rfl⟩
  rintro p ⟨⟩
  exact ⟨1, fun _ => 8, rfl⟩

/-- The handle of the second object of a fresh store. -/
def secondImage : StateImageHandle := ⟨some 0, 1, 1⟩

def pendingFork : List (Command Nat) :=
  [.reserveReset true, .freeze firstImage, .reserveDestination, .beginFork firstImage secondImage]

theorem pendingFork_source_readable :
    ∃ s : ImageSystem Nat, s.forks = [⟨firstImage, secondImage, 0⟩] ∧
      ∀ f ∈ s.forks, SourceReadable s.store f := by
  have hrun : (trace ImageSystem.run KeepsForkSources pendingFork forkingSystem).map (·.forks) =
      some [⟨firstImage, secondImage, 0⟩] := by rfl
  obtain ⟨s, hreach, hforks⟩ := Reach.of_trace_map forkingSystem_fresh hrun
  exact ⟨s, hforks, fork_source_readable s hreach⟩

/-- Begin a fork, snapshot its source to the Host and give up the Device replica. -/
def snapshotUnderFork : List (Command Nat) :=
  [.reserveReset true, .freeze firstImage, .reserveDestination, .beginFork firstImage secondImage,
    .beginDeviceToHost firstImage true, .copy 0, .publishTransfer 0 false]

/-- The copy came before the publication and no fork was closed, and yet the slot the pending
    fork reads is on the free stack. -/
theorem publish_frees_fork_source : ∃ s : ImageSystem Nat,
      Reach ImageSystem.Fresh ImageSystem.run (fun c s => CopiesFirst c s ∧ PairsForks c s) s ∧
      ∃ f ∈ s.forks, (s.store.objects f.source.index).deviceSlot ≠ some f.slot ∧
        f.slot ∈ s.store.freeDeviceSlots := by
  have hrun : (trace ImageSystem.run (fun c s => CopiesFirst c s ∧ PairsForks c s)
      snapshotUnderFork forkingSystem).map (fun s =>
      (s.forks, (s.store.objects 0).deviceSlot, s.store.freeDeviceSlots)) =
      some ([⟨firstImage, secondImage, 0⟩], none, [0]) := by rfl
  obtain ⟨s, hreach, hstate⟩ := Reach.of_trace_map forkingSystem_fresh hrun
  simp only [Prod.mk.injEq] at hstate
  obtain ⟨hforks, hd, hfree⟩ := hstate
  refine ⟨s, hreach, ⟨firstImage, secondImage, 0⟩, ?_, ?_, ?_⟩
  · simp [hforks]
  · simp [firstImage, hd]
  · simp [hfree]

/-- In such a run an image has as many pins as pending forks and open transfers read it. -/
theorem pins_count_readers [Zero V] (s : ImageSystem V)
    (h : Reach ImageSystem.Fresh ImageSystem.run KeepsForkSources s) : Pinned s :=
  (reach_pinned h).2

/-- A pending fork and an open transfer read one image: two pins. -/
theorem pendingFork_pinned : ∃ s : ImageSystem Nat, (s.store.objects 0).sourcePins = 2 ∧
    s.forks.length = 1 ∧ s.transfers.length = 1 ∧ Pinned s := by
  have hrun : (trace ImageSystem.run KeepsForkSources
      (pendingFork ++ [.beginDeviceToHost firstImage true]) forkingSystem).map (fun s =>
      ((s.store.objects 0).sourcePins, s.forks.length, s.transfers.length)) =
      some (2, 1, 1) := by rfl
  obtain ⟨s, hreach, hstate⟩ := Reach.of_trace_map forkingSystem_fresh hrun
  simp only [Prod.mk.injEq] at hstate
  obtain ⟨hpins, hforks, htransfers⟩ := hstate
  exact ⟨s, hpins, hforks, htransfers, pins_count_readers s hreach⟩

end Ninfer.StateImage
