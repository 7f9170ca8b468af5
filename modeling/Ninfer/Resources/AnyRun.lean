/-
  What any run keeps, and that adoption is all or nothing.

  Two facts need no soundness of the tables, so they hold over runs with any publication orders,
  also after a terminal step that failed halfway: an open materialization fits its source, and the
  summary of every private entry fits the capacities of the manager and has an observation for
  each of its checkpoints. The first is all that the changes of a result rely on beyond its checks.
-/
import Ninfer.Resources.System

namespace Ninfer.Resources

open Lib Function ResourceManager

variable {s t : ResourceManager} {m : Nat}

/-! ## Observed summaries -/

/-- The summary fits, and every checkpoint of it has an observation. -/
def Observed (m : Nat) (e : CatalogEntry) : Prop :=
  e.summary.longAnchors.length ≤ m ∧
    ∀ c ∈ e.summary.checkpoints, (findObservation e.observations c.ref).isSome

theorem isSome_findObservation {l : List CheckpointObservation} {r : CheckpointRef} :
    (findObservation l r).isSome ↔ ∃ o ∈ l, o.checkpoint = r := by
  simp [findObservation, List.find?_isSome]

variable {e : CatalogEntry} {summary : ContinuationSummary} {f : ResourceManager → ResourceManager}

/-- Observations that keep their checkpoints observe the same. -/
theorem Observed.of_checkpoints {e' : CatalogEntry} (h : Observed m e) (hs : e'.summary = e.summary)
    (ho : e'.observations.map (·.checkpoint) = e.observations.map (·.checkpoint)) :
    Observed m e' := by
  unfold Observed at h ⊢
  rw [hs]
  refine ⟨h.1, fun c hc => ?_⟩
  obtain ⟨o, hmem, hr⟩ := isSome_findObservation.mp (h.2 c hc)
  have hin : c.ref ∈ e'.observations.map (·.checkpoint) := by
    rw [ho]
    exact List.mem_map.mpr ⟨o, hmem, hr⟩
  obtain ⟨o', hmem', hr'⟩ := List.mem_map.mp hin
  exact isSome_findObservation.mpr ⟨o', hmem', hr'⟩

/-- An entry without checkpoints. -/
theorem Observed.of_empty {n : Nat} (h : e.summary = { activeReferences := n }) : Observed m e := by
  unfold Observed
  simp [h, ContinuationSummary.checkpoints]

theorem observed_renewed (e : CatalogEntry) (retention : RetentionClass)
    (h : summary.longAnchors.length ≤ m) : Observed m (renewed e summary retention) := by
  refine ⟨h, fun c hc => isSome_findObservation.mpr ?_⟩
  exact ⟨_, List.mem_map.mpr ⟨c, hc, rfl⟩, rfl⟩

theorem checkpoints_hitObservation (r : CheckpointRef) (epoch : Nat)
    (l : List CheckpointObservation) :
    (hitObservation r epoch l).map (·.checkpoint) = l.map (·.checkpoint) := by
  induction l with
  | nil => rfl
  | cons o l ih =>
    unfold hitObservation
    split
    · rfl
    · simp [ih]

/-! ## Steady states -/

/-- The open materialization fits its source. -/
def FitsOpen (s : ResourceManager) : Prop := ∀ r, s.transaction = .materialization r → r.Fits

/-- Every private summary is observed; the sizes are the ones of the constructor. -/
structure Fitted (m : Nat) (s : ResourceManager) : Prop where
  lanes : 0 < s.laneCount
  anchors : s.maxLongAnchors = m
  observed : ∀ j, Observed m (s.catalog j)

/-- What any run keeps. -/
def Steady (m : Nat) (s : ResourceManager) : Prop := FitsOpen s ∧ Fitted m s

theorem FitsOpen.congr (h : FitsOpen s) (ht : t.transaction = s.transaction) : FitsOpen t :=
  fun r hr => h r (ht ▸ hr)

theorem FitsOpen.of_none (ht : t.transaction = .none) : FitsOpen t := by
  simp [FitsOpen, ht]

theorem FitsOpen.of_capture {r : ActiveCaptureRecord} (ht : t.transaction = .activeCapture r) :
    FitsOpen t := by
  simp [FitsOpen, ht]

/-- The sizes that never change. -/
abbrev ResourceManager.sizes (s : ResourceManager) : Nat × Nat := (s.laneCount, s.maxLongAnchors)

theorem Fitted.congr (h : Fitted m s) (hm : t.sizes = s.sizes) (hc : t.catalog = s.catalog) :
    Fitted m t := by
  obtain ⟨hl, ha⟩ := Prod.mk.inj hm
  exact ⟨hl ▸ h.lanes, ha.trans h.anchors, fun j => hc ▸ h.observed j⟩

theorem Fitted.setEntry (h : Fitted m s) {j : Nat} (hc : t.catalog = update s.catalog j e)
    (hm : t.sizes = s.sizes) (he : Observed m e) : Fitted m t := by
  obtain ⟨hl, ha⟩ := Prod.mk.inj hm
  refine ⟨hl ▸ h.lanes, ha.trans h.anchors, fun k => ?_⟩
  rw [hc, update_apply]
  split
  · exact he
  · exact h.observed k

/-- Only the states of entries changed. -/
theorem Fitted.states (h : Fitted m s) (hm : t.sizes = s.sizes)
    (hc : ∀ j, ∃ st, t.catalog j = { s.catalog j with state := st }) : Fitted m t := by
  obtain ⟨hl, ha⟩ := Prod.mk.inj hm
  refine ⟨hl ▸ h.lanes, ha.trans h.anchors, fun j => ?_⟩
  obtain ⟨st, hj⟩ := hc j
  rw [hj]
  exact h.observed j

theorem Fitted.clear (h : Fitted m s) (j : Nat) :
    Fitted m (s.setEntry j (clearCatalogEntry (s.catalog j))) :=
  h.setEntry rfl rfl (.of_empty (n := 0) rfl)

/-! ## Primitive steps -/

section Primitive

variable {I : ResourceManager → Prop}

theorem preserves_get : Preserves I (Eff.get : Eff ResourceManager ResourceManager) :=
  .of_checks fun _ => .get

theorem preserves_require {c : Prop} [Decidable c] {e : Fault} : Preserves I (Eff.require c e) :=
  .of_checks fun _ => .require

theorem preserves_answer {α : Type} {x : Except Fault α} :
    Preserves I (Eff.answer x : Eff ResourceManager α) :=
  .of_checks fun _ => .answer x

theorem preserves_catalogAt (slot : Option Nat) : Preserves I (catalogAt slot) :=
  .of_checks fun _ => checks_catalogAt slot

theorem preserves_requireLane (lane : Nat) (expected : LogicalLaneState) :
    Preserves I (requireLane lane expected) :=
  preserves_get.bind fun _ => preserves_require

end Primitive

/-- A change that neither opens nor closes a transaction. -/
theorem preserves_modify (ht : ∀ s, (f s).transaction = s.transaction)
    (hf : ∀ s, Fitted m s → Fitted m (f s)) : Preserves (Steady m) (Eff.modify f) :=
  .modify fun s hs => ⟨hs.1.congr (ht s), hf s hs.2⟩

/-- A change of other tables. -/
theorem preserves_apart (h : ∀ s, ((f s).transaction, (f s).sizes, (f s).catalog) =
    (s.transaction, s.sizes, s.catalog)) : Preserves (Steady m) (Eff.modify f) := by
  simp only [Prod.mk.injEq] at h
  exact preserves_modify (fun s => (h s).1) fun s hs => hs.congr (by simp [h]) (h s).2.2

theorem preserves_close : Preserves (Steady m) (Eff.modify (·.setTransaction .none)) :=
  .modify fun _ hs => ⟨.of_none rfl, hs.2.congr rfl rfl⟩

/-- A renewal gives an observed entry, or the code terminates. -/
theorem Preserves.renewEntry_bind {α : Type} {I : ResourceManager → Prop}
    {retention : RetentionClass} {f : CatalogEntry → Eff ResourceManager α}
    (h : ∀ e', Observed m e' → Preserves I (f e')) :
    Preserves I (renewEntry m e summary retention >>= f) := by
  intro s hs
  unfold renewEntry assignContinuationSummary migrateObservations
  simp only [wp_bind, wp_ite, wp_die, wp_pure]
  refine ⟨fun _ => trivial, fun hlen => ⟨fun _ => trivial, fun _ => ?_⟩⟩
  exact h _ (observed_renewed e retention (Nat.not_lt.mp hlen)) s hs

/-! ## Lanes -/

variable (lane : Nat)

theorem preserves_releaseActiveReferences :
    Preserves (Steady m) (releaseActiveReferences lane) := by
  refine preserves_get.bind fun _ => preserves_require.bind fun _ =>
    preserves_require.bind fun _ => .bind (.forEach fun _ => ?_)
      fun _ => preserves_apart fun _ => rfl
  exact preserves_require.bind fun _ => preserves_require

theorem preserves_releaseLane : Preserves (Steady m) (releaseLane lane) := by
  exact (preserves_releaseActiveReferences lane).bind fun _ => preserves_get.bind fun _ =>
    (preserves_catalogAt _).bind fun _ => preserves_modify (fun _ => rfl) fun _ hs =>
      (hs.clear _).congr rfl rfl

theorem preserves_releaseCancelledLane :
    Preserves (Steady m) (releaseCancelledLane lane) := by
  exact preserves_get.bind fun _ => preserves_require.bind fun _ =>
    preserves_releaseLane lane

theorem preserves_setLane (st : LogicalLaneState) :
    Preserves (Steady m) (Eff.modify (·.setLane lane st)) :=
  preserves_apart fun _ => rfl

theorem preserves_markTerminalPending :
    Preserves (Steady m) (markTerminalPending lane) := by
  exact (preserves_requireLane _ _).bind fun _ => preserves_setLane _ _

theorem Fitted.demote (h : Fitted m s) (previous : SessionIndexEntry) (slot : Nat) (id : UInt64) :
    Fitted m (s.demoteReplacedSession previous slot id) := by
  unfold demoteReplacedSession
  split
  · exact h
  · next j _ =>
    dsimp only
    split
    · refine h.setEntry rfl rfl ((h.observed j).of_checkpoints rfl ?_)
      simp [List.map_map, Function.comp_def]
    · exact h

theorem preserves_publishSession (key : CacheSessionKey) (slot : Nat) (ownerId revision : UInt64)
    (order : Nat) : Preserves (Steady m) (publishSession key slot ownerId revision order) := by
  have hcell : ∀ c e, Preserves (Steady m) (Eff.modify (·.setCell c e)) := fun _ _ =>
    preserves_apart fun _ => rfl
  refine preserves_get.bind fun s => preserves_require.bind fun _ => ?_
  split
  · exact .raise _
  · refine .ite ?_ (.ite (.pure _) (.ite ?_ ?_))
    · exact (hcell _ _).bind fun _ => .pure _
    · exact preserves_require.bind fun _ => (hcell _ _).bind fun _ => .pure _
    · refine (hcell _ _).bind fun _ => .bind (.when
        (preserves_modify (fun u => ?_) fun _ hs => hs.demote _ _ _)) fun _ => .pure _
      unfold demoteReplacedSession
      split
      · rfl
      · dsimp only
        split <;> rfl

theorem preserves_publishContinuation (lane slot : Nat) (summary : ContinuationSummary)
    (handle : Nat) : Preserves (Steady m) (publishContinuation lane slot summary handle) := by
  refine Preserves.get_bind fun s hs => ?_
  rw [hs.2.anchors]
  refine Preserves.renewEntry_bind fun e he => Preserves.bind
    (preserves_modify (fun _ => rfl) fun u hu => hu.setEntry rfl rfl he) fun _ => ?_
  split
  · exact .pure _
  · refine .ite ((preserves_publishSession _ _ _ _ _).bind fun _ => ?_) (.pure _)
    exact .when (preserves_modify (fun _ => rfl) fun u hu => hu.setEntry rfl rfl (hu.observed slot))

theorem preserves_finish (view : FinishView) (lane : Nat) :
    Preserves (Steady m) (finish view lane) := by
  refine (preserves_requireLane _ _).bind fun _ => preserves_get.bind fun s =>
    preserves_require.bind fun _ => preserves_answer.bind fun result =>
    .ite ?_ ?_
  · exact preserves_answer.bind fun _ => preserves_require.bind fun _ =>
      (preserves_releaseLane lane).bind fun _ => .pure _
  · refine (preserves_catalogAt _).bind fun _ => .ite ?_ ?_
    · exact preserves_require.bind fun _ =>
        (preserves_releaseLane lane).bind fun _ => .pure _
    · refine .bind ?_ fun _ => .pure _
      exact preserves_get.bind fun _ => (preserves_catalogAt _).bind fun _ =>
        preserves_require.bind fun _ => (preserves_releaseActiveReferences lane).bind fun _ =>
        Preserves.deref.bind fun _ => (preserves_publishContinuation _ _ _ _).bind fun _ =>
        preserves_apart fun _ => rfl

theorem preserves_abort (has : Bool) (status : Except Fault ConsumeStatus) (lane : Nat) :
    Preserves (Steady m) (abort has status lane) := by
  refine preserves_get.bind fun _ => preserves_require.bind fun _ =>
    preserves_require.bind fun _ => .bind (.when (preserves_setLane _ _)) fun _ => ?_
  exact (preserves_requireLane _ _).bind fun _ => preserves_answer.bind fun _ =>
    preserves_require.bind fun _ => preserves_releaseLane lane

theorem preserves_applyCommit (lanes : List Nat) (result : CommitResult) :
    Preserves (Steady m) (applyCommit lanes result) := by
  refine preserves_require.bind fun _ => .forEach fun ⟨lane, row⟩ => ?_
  refine (preserves_requireLane _ _).bind fun _ => ?_
  cases row with
  | active => exact .pure _
  | finishable => exact preserves_setLane _ _
  | cancelledReleased => exact preserves_releaseCancelledLane lane

theorem preserves_applyDiscard (lanes : List Nat) (result : DiscardResult) :
    Preserves (Steady m) (applyDiscard lanes result) := by
  exact preserves_require.bind fun _ => .forEach preserves_releaseCancelledLane

theorem preserves_releaseFailedCommit (lanes : List Nat) :
    Preserves (Steady m) (releaseFailedCommit lanes) := by
  exact .forEach fun lane => preserves_get.bind fun _ =>
    .when (preserves_releaseCancelledLane lane).swallow

theorem Fitted.cleared (h : Fitted m s) : Fitted m s.clearAfterProgramCleanup := by
  refine ⟨h.lanes, h.anchors, fun j => ?_⟩
  unfold clearAfterProgramCleanup
  dsimp only
  split
  · exact .of_empty (n := 0) rfl
  · exact h.observed j

/-! ## Adoption of results -/

theorem preserves_applyPrivateAction (claim : OwnerClaim) (row : MaterializationVictimResult) :
    Preserves (Steady m) (applyPrivateAction claim row) := by
  have hstate : ∀ st, Preserves (Steady m) (Eff.modify (·.setCatalogState claim.capability.slot st))
      := fun st => preserves_modify (fun _ => rfl) fun u hu => hu.setEntry rfl rfl (hu.observed _)
  refine Preserves.get_bind fun s hs => Preserves.ite ?_ (Preserves.ite (hstate _) ?_)
  · exact Preserves.bind (preserves_apart fun _ => rfl) fun _ =>
      preserves_modify (fun _ => rfl) fun u hu => hu.clear _
  · refine Preserves.deref.bind fun summary => ?_
    rw [hs.2.anchors]
    refine Preserves.renewEntry_bind fun e he => Preserves.bind
      (preserves_modify (fun _ => rfl) fun u hu => hu.setEntry rfl rfl he) fun _ => ?_
    exact Preserves.bind (preserves_apart fun _ => rfl) fun _ =>
      hstate _

theorem preserves_applySharedAction (claim : OwnerClaim) (row : MaterializationSharedVictimResult) :
    Preserves (Steady m) (applySharedAction claim row) := by
  have hset : ∀ e, Preserves (Steady m) (Eff.modify (·.setSharedEntry claim.capability.slot e)) :=
    fun _ => preserves_apart fun _ => rfl
  refine preserves_get.bind fun s => .ite (hset _) (.ite ?_ ?_)
  · exact preserves_apart fun _ => rfl
  · exact Preserves.deref.bind fun _ => hset _

theorem preserves_privateActions (what : String) (claims : List OwnerClaim)
    (victims : List MaterializationVictimResult) :
    Preserves (Steady m) (Eff.forEach claims fun claim => do
      let row ← privateResultFor what victims claim
      applyPrivateAction claim row) :=
  .forEach fun claim => .bind (.of_checks fun _ => checks_resultFor) fun row =>
      preserves_applyPrivateAction claim row

theorem preserves_sharedActions (what : String) (claims : List OwnerClaim)
    (victims : List MaterializationSharedVictimResult) :
    Preserves (Steady m) (Eff.forEach claims fun claim => do
      let row ← sharedResultFor what victims claim
      applySharedAction claim row) :=
  .forEach fun claim => .bind (.of_checks fun _ => checks_resultFor) fun row =>
      preserves_applySharedAction claim row

theorem preserves_retainPrivateSource (source : CatalogCapability)
    (final : Option ContinuationSummary) :
    Preserves (Steady m) (retainPrivateSource source final) := by
  have hstate : Preserves (Steady m) (Eff.modify (·.setCatalogState source.slot .catalogued)) :=
    preserves_modify (fun _ => rfl) fun u hu => hu.setEntry rfl rfl (hu.observed _)
  refine Preserves.get_bind fun s hs => ?_
  split
  · exact hstate
  · rw [hs.2.anchors]
    refine Preserves.renewEntry_bind fun e he => Preserves.bind
      (preserves_modify (fun _ => rfl) fun u hu => hu.setEntry rfl rfl he) fun _ => ?_
    exact .bind (preserves_apart fun _ => rfl) fun _ => hstate

section Materialization

variable (record : MaterializationRecord) (result : MaterializationResult)

theorem preserves_applyPrivateSource : Preserves (Steady m) (applyPrivateSource record result) := by
  refine preserves_get.bind fun s => ?_
  split
  · exact .pure _
  · refine Preserves.deref.bind fun row => ?_
    split
    · exact (preserves_retainPrivateSource _ _).bind fun _ => .pure _
    · refine .bind (preserves_apart fun _ => rfl) fun _ =>
        .bind (preserves_modify (fun _ => rfl) fun u hu => hu.setEntry rfl rfl ?_) fun _ =>
          .pure _
      exact .of_empty rfl

theorem preserves_applySharedSource : Preserves (Steady m) (applySharedSource record result) := by
  unfold applySharedSource
  split
  · exact .pure _
  · refine .bind (preserves_apart fun _ => rfl) fun _ =>
      Preserves.deref.bind fun row => ?_
    split
    · exact .pure _
    · refine preserves_apart fun u => ?_
      dsimp only
      split <;> rfl

theorem Fitted.hit (h : Fitted m s) (record : MaterializationRecord) :
    Fitted m (s.observeSelectedHit record) := by
  unfold observeSelectedHit
  split
  · exact h
  · next key _ =>
    dsimp only
    split
    · split
      · exact h.congr rfl rfl
      · exact h
    · split
      · exact h.setEntry rfl rfl
          ((h.observed key.slot).of_checkpoints rfl (checkpoints_hitObservation _ _ _))
      · exact h

theorem preserves_settleMaterialization :
    Preserves (Steady m) (settleMaterialization record result) := by
  refine .bind (.when (preserves_modify (fun u => ?_) fun u hu =>
    hu.hit record)) fun _ => (preserves_privateActions _ _ _).bind fun _ =>
    (preserves_sharedActions _ _ _).bind fun _ => (preserves_applyPrivateSource _ _).bind fun _ =>
    (preserves_applySharedSource _ _).bind fun _ => .pure _
  rw [(onlyHit_observeSelectedHit record).frame]

theorem Fitted.restored (h : Fitted m s) (j : Nat) :
    Fitted m (s.setEntry j (restoredEntry (s.catalog j))) := by
  refine h.setEntry rfl rfl ?_
  unfold restoredEntry
  split <;> exact h.observed j

theorem Fitted.restoreClaims (h : Fitted m s) (claims : List OwnerClaim) :
    Fitted m (claims.foldl (fun s c => s.setEntry c.capability.slot
      (restoredEntry (s.catalog c.capability.slot))) s) := by
  induction claims generalizing s with
  | nil => exact h
  | cons c claims ih => exact ih (h.restored _)

theorem Fitted.restoreShared (h : Fitted m s) (claims : List OwnerClaim) :
    Fitted m (claims.foldl (fun s c => s.setSharedEntry c.capability.slot
      (restoredShared (s.sharedCatalog c.capability.slot))) s) := by
  induction claims generalizing s with
  | nil => exact h
  | cons c claims ih => exact ih (h.congr rfl rfl)

theorem Fitted.restore (h : Fitted m s) (record : MaterializationRecord) :
    Fitted m (s.restoreUnreportedMaterialization record) := by
  have h1 : Fitted m (record.privateSource.elim s fun c =>
      s.setEntry c.slot (restoredEntry (s.catalog c.slot))) := by
    cases record.privateSource with
    | none => exact h
    | some c => exact h.restored c.slot
  unfold restoreUnreportedMaterialization
  generalize record.privateSource.elim s _ = u at h1
  have h2 : Fitted m (record.sharedSource.elim u fun c => u.unpinShared c.slot) := by
    cases record.sharedSource with
    | none => exact h1
    | some c => exact h1.congr rfl rfl
  have h3 := (h2.restoreClaims record.privateClaims).restoreShared record.sharedClaims
  dsimp only
  split
  · exact h3.setEntry rfl rfl (h3.observed _)
  · exact h3

theorem preserves_applyMaterialization :
    Preserves (Steady m) (applyMaterialization record result) := by
  refine (preserves_settleMaterialization _ _).bind fun retained => .ite ?_ ?_
  · intro s hs
    exact ⟨.of_none rfl, (hs.2.restore record).congr rfl rfl⟩
  · refine .bind (preserves_modify (fun _ => rfl) fun u hu => ?_) fun _ =>
      .bind (preserves_apart fun _ => rfl) fun _ =>
      Preserves.deref.bind fun _ =>
      .bind (preserves_apart fun _ => rfl) fun _ =>
      .pure _
    exact hu.setEntry rfl rfl ((hu.observed record.publicationSlot).of_checkpoints rfl rfl)

end Materialization

theorem preserves_applyActiveCapture (record : ActiveCaptureRecord) (result : ActiveCaptureResult) :
    Preserves (Steady m) (applyActiveCapture record result) := by
  refine Preserves.bind ?_ fun _ => Preserves.ite ?_ ?_
  · unfold settleActiveCapture
    exact (preserves_privateActions _ _ _).bind fun _ => preserves_sharedActions _ _ _
  · refine Preserves.bind (preserves_apart fun u => ?_) fun _ => preserves_close
    unfold abandonCapture
    split
    · rfl
    · split <;> rfl
  · refine Preserves.bind ?_ fun _ => Preserves.bind ?_ fun _ => preserves_close
    · unfold applyCapturePrivate
      refine Preserves.get_bind fun s hs => Preserves.ite ?_ (Preserves.pure _)
      refine Preserves.deref.bind fun slot => ?_
      rw [hs.2.anchors]
      refine Preserves.renewEntry_bind fun e he => preserves_modify (fun _ => rfl) fun u hu => ?_
      exact hu.setEntry rfl rfl he
    · unfold applyCaptureShared
      refine Preserves.ite ?_ (Preserves.pure _)
      exact Preserves.deref.bind fun _ => Preserves.deref.bind fun _ =>
        Preserves.bind (preserves_apart fun _ => rfl) fun _ =>
        preserves_apart fun _ => rfl

theorem preserves_progressContextTransaction (hasBefore hasAfter : Bool)
    (progress : Except Fault ContextTransactionProgress) :
    Preserves (Steady m) (progressContextTransaction hasBefore hasAfter progress) := by
  refine preserves_get.bind fun _ => preserves_require.bind fun _ =>
    preserves_answer.bind fun p => ?_
  cases p with
  | inProgress => exact .pure _
  | materialization result =>
    exact .bind (.bind (.of_checks fun _ =>
      checks_openMaterialization hasAfter) fun r => .bind (.of_checks fun _ =>
        checks_checkMaterialization r result) fun _ => preserves_applyMaterialization r result)
      fun _ => .pure _
  | activeCapture result =>
    exact .bind (.bind (.of_checks fun _ =>
      checks_openActiveCapture hasAfter) fun r => .bind (.of_checks fun _ =>
        checks_checkActiveCapture r result) fun _ => preserves_applyActiveCapture r result)
      fun _ => .pure _

/-! ## Reservation -/

theorem preserves_adopt (has : Bool) (activation : PublishedActivation) :
    Preserves (Steady m) (adopt has activation) := by
  refine preserves_get.bind fun s => ?_
  split
  · exact .ite ((preserves_setLane _ _).bind fun _ => preserves_close) .die
  · exact .die

theorem preserves_reserveActiveCapture (view : CaptureView) (lane : Nat) :
    Preserves (Steady m) (reserveActiveCapture view lane) := by
  have hopen : ∀ r, Preserves (Steady m) (Eff.modify (·.setTransaction (.activeCapture r))) :=
    fun r => .modify fun _ hs => ⟨.of_capture rfl, hs.2.congr rfl rfl⟩
  refine (preserves_requireLane _ _).bind fun _ => preserves_get.bind fun s =>
    preserves_require.bind fun _ => .ite (.pure _) ?_
  refine .bind (preserves_get.bind fun _ =>
    preserves_require.bind fun _ => .pure _) fun index => ?_
  dsimp only
  split
  · exact .ite (.pure _) ((hopen _).bind fun _ => preserves_answer.bind
      fun _ => .ite (preserves_close.bind fun _ => .pure _) (.pure _))
  · next scenario plan _ =>
    refine preserves_get.bind fun u => .bind (.of_checks fun t =>
      .collect fun o _ => checks_captureClaim _ _ _ o) fun claims => ?_
    refine preserves_require.bind fun _ => .bind (.of_checks fun t =>
      checks_checkCapturePublication _ _) fun _ => ?_
    refine (hopen _).bind fun _ => .bind (preserves_modify (fun t => ?_) fun t ht => ?_)
      fun _ => preserves_answer.bind fun _ => .ite (.bind
        (preserves_modify (fun t => ?_) fun t ht => ?_) fun _ => preserves_close.bind fun _ =>
          .pure _) (.pure _)
    · unfold reserveLogicalActiveCapture
      rw [captureStates_eq]
    · unfold reserveLogicalActiveCapture
      rw [captureStates_eq]
      exact ht.states rfl fun j => ⟨_, rfl⟩
    · unfold rollbackLogicalActiveCapture
      rw [captureStates_eq]
    · unfold rollbackLogicalActiveCapture
      rw [captureStates_eq]
      exact ht.states rfl fun j => ⟨_, rfl⟩

/-- A reservation opens a record only for a choice that passed its checks. -/
theorem wp_reserveMaterialization_steady (hs : Steady m s) (view : ReserveView) {choice : Choice}
    (hb : choice.Bound) :
    wp (reserveMaterialization view choice)
      ⟨fun p t => Steady m t ∧ p.2.Bound, fun _ t => Steady m t, False⟩ s := by
  refine Checks.require.wp_bind (fun _ => hs) fun _ _ =>
    Checks.require.wp_bind (fun _ => hs) fun _ _ => ?_
  rw [wp_ite]
  refine ⟨fun _ => ⟨hs, hb⟩, fun _ => ?_⟩
  refine (checks_validateChoice choice view.resourceRevision).wp_bind (fun _ => hs) fun _ hok => ?_
  have hopen : Steady m ((s.setTransaction (.materialization
      (takeMaterializationRecord choice))).reserveLogicalMaterialization
        (takeMaterializationRecord choice)) := by
    rw [reserveLogical_eq]
    refine ⟨fun r hr => ?_, hs.2.states rfl fun j => ⟨_, rfl⟩⟩
    obtain rfl := Transaction.materialization.inj hr
    exact hok.fits hb
  simp only [wp_bind, wp_modify, wp_answer]
  refine ⟨fun status _ => ?_, fun _ _ => hopen⟩
  rw [wp_ite]
  refine ⟨fun _ => ⟨⟨.of_none rfl, ?_⟩, hb⟩, fun _ => ⟨hopen, hb⟩⟩
  have hback : Fitted m (((s.setTransaction (.materialization
      (takeMaterializationRecord choice))).reserveLogicalMaterialization
        (takeMaterializationRecord choice)).rollbackLogicalMaterialization
          (takeMaterializationRecord choice)) := by
    rw [rollbackLogical_eq]
    exact hopen.2.states rfl fun j => ⟨_, rfl⟩
  exact hback.congr rfl rfl

/-! ## Runs with any publication orders -/

namespace ManagerSystem

/-- The states of any run. -/
abbrev ReachedAny : ManagerSystem → Prop := Reach Init run fun _ _ => True

structure Steadied (m : Nat) (s : ManagerSystem) : Prop where
  manager : Steady m s.rm
  choices : ∀ c ∈ s.choices, c.Bound

variable {s : ManagerSystem}

theorem Steadied.onManager {α : Type} (h : Steadied m s) {op : Eff ResourceManager α}
    (hop : Preserves (Steady m) op) : wp (onManager op) (keeps (Steadied m)) s := by
  unfold ManagerSystem.onManager
  rw [wp_zoom]
  exact wp_mono (hop s.rm h.manager) (fun _ t ht => ⟨ht, h.choices⟩)
    (fun _ t ht => ⟨ht, h.choices⟩) id

theorem wp_run_steadied (h : Steadied m s) (c : Command) : wp (run c) (keeps (Steadied m)) s := by
  cases c with
  | inspect view base order =>
    simp only [run, wp_bind, ManagerSystem.onManager, wp_zoom, wp_modify]
    refine wp_mono (checks_inspect view base order) ?_ ?_ fun _ => trivial
    · rintro i t ⟨rfl, hi⟩
      refine ⟨h.manager, fun c hc => ?_⟩
      rcases List.mem_append.mp hc with hc | hc
      · exact h.choices c hc
      · exact (hi c (Option.mem_toList.mp hc)).1
    · rintro e t rfl
      exact h
  | reserveMaterialization i view =>
    simp only [run, reserve, wp_bind, wp_get, wp_deref, ManagerSystem.onManager, wp_zoom, wp_modify]
    refine ⟨fun choice hchoice => ?_, fun _ => trivial⟩
    refine wp_mono (wp_reserveMaterialization_steady h.manager view
      (h.choices choice (List.mem_of_getElem? hchoice))) (fun p t ht => ⟨ht.1, fun c hc => ?_⟩)
      (fun _ t ht => ⟨ht, h.choices⟩) fun _ => trivial
    rcases List.mem_or_eq_of_mem_set hc with hc | rfl
    · exact h.choices c hc
    · exact ht.2
  | progressContextTransaction hasBefore hasAfter p =>
    simp only [run, progress, wp_bind, wp_get]
    exact wp_imp (h.onManager (preserves_progressContextTransaction hasBefore hasAfter p))
      (fun _ _ ht => ⟨ht.manager, ht.choices⟩)
  | adopt has activation => exact h.onManager (preserves_adopt has activation)
  | reserveActiveCapture view lane =>
    exact wp_discard_keeps (h.onManager (preserves_reserveActiveCapture view lane))
  | markTerminalPending lane => exact h.onManager (preserves_markTerminalPending lane)
  | finish view lane => exact wp_discard_keeps (h.onManager (preserves_finish view lane))
  | abort has status lane => exact h.onManager (preserves_abort has status lane)
  | applyCommit lanes result => exact h.onManager (preserves_applyCommit lanes result)
  | applyDiscard lanes result => exact h.onManager (preserves_applyDiscard lanes result)
  | releaseFailedCommit lanes => exact h.onManager (preserves_releaseFailedCommit lanes)
  | clearAfterProgramCleanup =>
    exact ⟨⟨.of_none rfl, h.manager.2.cleared⟩, h.choices⟩

theorem steadied_of_init (h : Init s) : Steadied s.rm.maxLongAnchors s := by
  obtain ⟨hc, _, _, _, _, _, _, hmake⟩ := h
  unfold make at hmake
  split at hmake
  · simp at hmake
  · split at hmake
    · simp at hmake
    · next hsizes =>
      have hrm := Option.some.inj hmake
      refine ⟨⟨.of_none ?_, ?_, rfl, fun _ => .of_empty (n := 0) ?_⟩, by simp [hc]⟩
      · rw [← hrm]
      · rw [← hrm]
        exact Nat.pos_of_ne_zero fun hz => hsizes (.inl hz)
      · rw [← hrm]

theorem steady_of_reachedAny (h : ReachedAny s) : ∃ m, Steadied m s := by
  refine h.inv (I := fun s => ∃ m, Steadied m s) (fun s hs => ⟨_, steadied_of_init hs⟩)
    fun c s ⟨m, hs⟩ _ => ?_
  exact wp_mono (wp_run_steadied hs c) (fun _ _ ht => ⟨m, ht⟩) (fun _ _ ht => ⟨m, ht⟩) id

end ManagerSystem

/-! ## Checked, then applied -/

/-- If the adoption of a result throws, nothing changed; if its checks pass, it is applied to its
    end and every owner of the record is in the state the result reports. -/
theorem adoption_all_or_nothing (s : ManagerSystem) (h : ManagerSystem.ReachedAny s) :
    (∀ has result, (∀ e t, adoptMaterializationProgress has result s.rm = .throw e t → t = s.rm) ∧
      ∀ r, s.rm.transaction = .materialization r →
        ∀ t, checkMaterialization r result s.rm = .ok () t →
          ∃ o u, applyMaterialization r result t = .ok o u ∧ Reported s.rm u r result) ∧
    (∀ has result, (∀ e t, adoptActiveCaptureProgress has result s.rm = .throw e t → t = s.rm) ∧
      ∀ r, s.rm.transaction = .activeCapture r → ∀ t, checkActiveCapture r result s.rm = .ok () t →
          ∃ u, applyActiveCapture r result t = .ok () u ∧ CaptureReported s.rm u r result) := by
  obtain ⟨_, hsteady⟩ := ManagerSystem.steady_of_reachedAny h
  have hfits := hsteady.manager.1
  refine ⟨fun has result => ⟨fun e t he => ?_, fun r hr t ht => ?_⟩,
    fun has result => ⟨fun e t he => ?_, fun r hr t ht => ?_⟩⟩
  · exact wp_threw (wp_adoptMaterializationProgress (fun r hr _ => hfits r hr) has result) he
  · obtain ⟨rfl, hok⟩ := (checks_checkMaterialization r result).of_ok ht
    obtain ⟨o, u, hu, happ⟩ := wp_returns (wp_applyMaterialization hok (hfits r hr))
    refine ⟨o, u, hu, ?_⟩
    cases o with
    | aborted => exact happ.2.reported
    | published activation => exact happ.2.2.reported
  · exact wp_threw (wp_adoptActiveCaptureProgress has result) he
  · obtain ⟨rfl, hok⟩ := (checks_checkActiveCapture r result).of_ok ht
    obtain ⟨_, u, hu, hc⟩ := wp_returns (wp_applyActiveCapture hok)
    exact ⟨u, hu, hc.reported⟩

/-- A catalogued owner, and a request that is to release it. -/
def releasingRun : List Command :=
  wholeRequest none 1 0 ++ [.inspect (needsOwners 1) {} 2, .reserveMaterialization 1 startsNow]

/-- The run ends with an open record, of which any figures may be computed. -/
theorem releasingRun_open {β : Type} {f : MaterializationRecord → ResourceManager → β} {b : β}
    (h : (trace ManagerSystem.run (fun _ _ => True) releasingRun (oneLane 1)).map (fun s =>
      s.rm.transaction.opened.map (f · s.rm)) = some (some b)) :
    ∃ s r, ManagerSystem.ReachedAny s ∧ s.rm.transaction = .materialization r ∧ f r s.rm = b := by
  obtain ⟨s, hreach, hopen⟩ := Reach.of_trace_map (oneLane_init 1 (by simp)) h
  obtain ⟨r, hr, hb⟩ := Option.map_eq_some_iff.mp hopen
  exact ⟨s, r, hreach, Transaction.opened_eq_some.mp hr, hb⟩

/-- The owner was evicted, and the request started. -/
def evictedVictim : MaterializationResult :=
  { publishedRoot with
    victims := [{ owner := 0, disposition := .evicted, pressureCommitted := true }] }

theorem adopts_evictedVictim : ∃ s r o u, ManagerSystem.ReachedAny s ∧
    s.rm.transaction = .materialization r ∧ r.privateClaims.map (·.planningId) = [0] ∧
    applyMaterialization r evictedVictim s.rm = .ok o u ∧ Reported s.rm u r evictedVictim := by
  obtain ⟨s, r, hreach, hr, hfigures⟩ := releasingRun_open (f := fun r s =>
    (r.privateClaims.map (·.planningId), (checkMaterialization r evictedVictim s).returned))
    (b := ([0], true)) (by decide +kernel)
  obtain ⟨hclaims, hcheck⟩ := Prod.mk.inj hfigures
  obtain ⟨_, t, ht⟩ := Outcome.returned_iff.mp hcheck
  obtain ⟨rfl, _⟩ := (checks_checkMaterialization r evictedVictim).of_ok ht
  obtain ⟨o, u, hu, hrep⟩ := ((adoption_all_or_nothing s hreach).1 true evictedVictim).2 r hr _ ht
  exact ⟨s, r, o, u, hreach, hr, hclaims, hu, hrep⟩

/-- The transaction was aborted, and in the meantime the owner got a Host replica. -/
def movedVictim : MaterializationResult :=
  { victims :=
      [{ owner := 0
         finalSummary := some { endpoint := some { oneToken with stateResidency := .both } } }] }

/-- The residency of the first owner's endpoint after a call. -/
def endpointResidency {α : Type} : Outcome ResourceManager α → Option ReplicaResidency
  | .ok _ u => (u.catalog 0).summary.endpoint.map (·.stateResidency)
  | _ => none

/-- The checks accept the row of an owner that was not put under pressure with another summary
    than it has, and the owner keeps the one it has. -/
theorem uncommitted_summary_is_lost : ∃ s r, ManagerSystem.ReachedAny s ∧
    s.rm.transaction = .materialization r ∧
    r.privateClaims.map (fun c => (c.planningId, c.capability.slot)) = [(0, 0)] ∧
    (checkMaterialization r movedVictim s.rm).returned = true ∧
    endpointResidency (applyMaterialization r movedVictim s.rm) = some .deviceOnly ∧
    movedVictim.victims.map (·.finalSummary.bind (·.endpoint.map (·.stateResidency))) =
      [some .both] := by
  obtain ⟨s, r, hreach, hr, hfigures⟩ := releasingRun_open (f := fun r s =>
    (r.privateClaims.map (fun c => (c.planningId, c.capability.slot)),
      (checkMaterialization r movedVictim s).returned,
      endpointResidency (applyMaterialization r movedVictim s)))
    (b := ([(0, 0)], true, some .deviceOnly)) (by decide +kernel)
  simp only [Prod.mk.injEq] at hfigures
  obtain ⟨hclaims, hcheck, hkept⟩ := hfigures
  exact ⟨s, r, hreach, hr, hclaims, hcheck, hkept, rfl⟩

/-- In any run a checkpoint has its observation, and long anchors stay within their limit. -/
theorem checkpoints_observed (s : ManagerSystem) (h : ManagerSystem.ReachedAny s) (j : Nat) :
    Observed s.rm.maxLongAnchors (s.rm.catalog j) := by
  obtain ⟨m, hs⟩ := ManagerSystem.steady_of_reachedAny h
  rw [hs.manager.2.anchors]
  exact hs.manager.2.observed j

theorem finished_observed : ∃ s : ManagerSystem, (s.rm.catalog 0).summary.endpoint.isSome ∧
    Observed s.rm.maxLongAnchors (s.rm.catalog 0) := by
  have hrun : (trace ManagerSystem.run (fun _ _ => True) (wholeRequest none 1 0) (oneLane 1)).map
      (·.rm.catalog 0 |>.summary.endpoint.isSome) = some true := by decide +kernel
  obtain ⟨s, hreach, he⟩ := Reach.of_trace_map (oneLane_init 1 (by simp)) hrun
  exact ⟨s, he, checkpoints_observed s hreach 0⟩

end Ninfer.Resources
