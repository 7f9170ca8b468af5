/-
  The runs of a resource manager.

  A run issues the public operations in any order, with any answers of the Program. A choice can
  only be reserved after an inspection returned it, so the system keeps the choices that are
  around. `published` is ghost: the publication orders of the activations published so far. The
  engine orders requests by their admission, so no two activations have the same order; this is
  what `May` asks of a reservation.
-/
import Ninfer.Resources.Steps

namespace Ninfer.Resources

open Lib Function

structure ManagerSystem where
  rm : ResourceManager
  choices : List Choice := []
  published : List Nat := []

inductive Command where
  | inspect (view : PlanningView) (base : RequestBasePlan) (publicationOrder : Nat)
  /-- The `i`-th choice. -/
  | reserveMaterialization (i : Nat) (view : ReserveView)
  | progressContextTransaction (hasBefore hasAfter : Bool)
      (progress : Except Fault ContextTransactionProgress)
  | adopt (hasContextTransaction : Bool) (activation : PublishedActivation)
  | reserveActiveCapture (view : CaptureView) (lane : Nat)
  | markTerminalPending (lane : Nat)
  | finish (view : FinishView) (lane : Nat)
  | abort (hasContextTransaction : Bool) (status : Except Fault ConsumeStatus) (lane : Nat)
  | applyCommit (lanes : List Nat) (result : CommitResult)
  | applyDiscard (lanes : List Nat) (result : DiscardResult)
  | releaseFailedCommit (lanes : List Nat)
  | clearAfterProgramCleanup

namespace ManagerSystem

def onManager {α : Type} (m : Eff ResourceManager α) : Eff ManagerSystem α :=
  Eff.zoom (·.rm) (fun s t => { s with rm := t }) m

/-- A reservation takes the plan and the claims out of its choice. -/
def reserve (i : Nat) (view : ReserveView) : Eff ManagerSystem Unit := do
  let s ← Eff.get
  let choice ← Eff.deref s.choices[i]?
  let result ← onManager (reserveMaterialization view choice)
  Eff.modify fun s => { s with choices := s.choices.set i result.2 }

def progress (hasBefore hasAfter : Bool) (progress : Except Fault ContextTransactionProgress) :
    Eff ManagerSystem Unit := do
  let s ← Eff.get
  let outcome ← onManager (progressContextTransaction hasBefore hasAfter progress)
  Eff.modify fun t => { t with published := startedOrders s.rm outcome ++ t.published }

def run : Command → Eff ManagerSystem Unit
  | .inspect view base order => do
    let inspection ← onManager (inspect view base order)
    Eff.modify fun s => { s with choices := s.choices ++ inspection.choice.toList }
  | .reserveMaterialization i view => reserve i view
  | .progressContextTransaction hasBefore hasAfter p => progress hasBefore hasAfter p
  | .adopt has activation => onManager (adopt has activation)
  | .reserveActiveCapture view lane => do let _ ← onManager (reserveActiveCapture view lane)
  | .markTerminalPending lane => onManager (markTerminalPending lane)
  | .finish view lane => do let _ ← onManager (finish view lane)
  | .abort has status lane => onManager (abort has status lane)
  | .applyCommit lanes result => onManager (applyCommit lanes result)
  | .applyDiscard lanes result => onManager (applyDiscard lanes result)
  | .releaseFailedCommit lanes => onManager (releaseFailedCommit lanes)
  | .clearAfterProgramCleanup => onManager (Eff.modify (·.clearAfterProgramCleanup))

/-- A reservation is of a choice at hand whose order no activation has. -/
def May (c : Command) (s : ManagerSystem) : Prop :=
  match c with
  | .reserveMaterialization i _ => ∃ choice ∈ s.choices[i]?, choice.publicationOrder ∉ s.published
  | _ => True

instance (c : Command) (s : ManagerSystem) : Decidable (May c s) := by
  unfold May
  split <;> infer_instance

/-- A manager as its constructor leaves it. -/
def Init (s : ManagerSystem) : Prop :=
  s.choices = [] ∧ s.published = [] ∧ ∃ laneCount privateCapacity sharedCapacity cacheEnabled
    maxLongAnchors, ResourceManager.make laneCount privateCapacity sharedCapacity cacheEnabled
      maxLongAnchors = some s.rm

abbrev Reached : ManagerSystem → Prop := Reach Init run May

/-! ## The invariant over runs -/

structure Inv (s : ManagerSystem) : Prop where
  manager : Invariant s.rm s.published
  choices : ∀ c ∈ s.choices, c.Bound

/-- What one command keeps: the invariant, the size of the index, and the order of every key
    that stays bound. -/
def Step (s t : ManagerSystem) : Prop :=
  Inv t ∧ t.rm.catalogCount = s.rm.catalogCount ∧
    OrdersGrow s.rm.catalogCount s.rm.sessionIndex t.rm.sessionIndex

variable {s t : ManagerSystem}

theorem Step.refl (h : Inv s) : Step s s :=
  ⟨h, rfl, (CellsKept.refl _).grow h.manager.sound.indexed⟩

/-- A manager that kept its bindings makes a step of the system. -/
theorem Inv.step (h : Inv s) {rm : ResourceManager} {choices : List Choice} {log : List Nat}
    (hk : Kept s.rm log rm) (hc : ∀ c ∈ choices, c.Bound) :
    Step s { rm, choices, published := log } :=
  ⟨⟨hk.inv, hc⟩, hk.cells.1, hk.cells.2.grow h.manager.sound.indexed⟩

theorem Inv.onManager (h : Inv s) {m : Eff ResourceManager Unit}
    (hm : wp m (keeps (Kept s.rm s.published)) s.rm) :
    wp (onManager m) (keeps (Step s)) s := by
  unfold ManagerSystem.onManager
  rw [wp_zoom]
  exact wp_mono hm (fun _ t ht => h.step ht h.choices) (fun _ t ht => h.step ht h.choices) id

theorem wp_run (h : Inv s) {c : Command} (hm : May c s) : wp (run c) (keeps (Step s)) s := by
  have hk := Kept.start h.manager
  cases c with
  | inspect view base order =>
    simp only [run, wp_bind, onManager, wp_zoom, wp_modify]
    refine wp_mono (checks_inspect view base order) ?_ ?_ fun _ => trivial
    · rintro i t ⟨rfl, hi⟩
      refine ⟨⟨h.manager, fun c hc => ?_⟩, (Step.refl h).2⟩
      rcases List.mem_append.mp hc with hc | hc
      · exact h.choices c hc
      · exact (hi c (Option.mem_toList.mp hc)).1
    · rintro e t rfl
      exact Step.refl h
  | reserveMaterialization i view =>
    obtain ⟨choice, hchoice, hord⟩ := hm
    simp only [run, reserve, wp_bind, wp_get, Option.mem_def.mp hchoice, wp_deref,
      Option.some.injEq, forall_eq', reduceCtorEq, false_implies, and_true, onManager, wp_zoom,
      wp_modify]
    have hb := h.choices choice (List.mem_of_getElem? hchoice)
    refine wp_mono (wp_reserveMaterialization hk view hb hord) (fun p t ht => ?_)
      (fun _ t ht => h.step ht h.choices) fun _ => trivial
    refine h.step ht.1 fun c hc => ?_
    rcases List.mem_or_eq_of_mem_set hc with hc | rfl
    · exact h.choices c hc
    · exact ht.2
  | progressContextTransaction hasBefore hasAfter p =>
    simp only [run, progress, wp_bind, wp_get, onManager, wp_zoom, wp_modify]
    refine wp_mono (wp_progressContextTransaction hk hasBefore hasAfter p)
      (fun o t ht => h.step ht.1 h.choices) ?_ fun _ => trivial
    rintro e t rfl
    exact Step.refl h
  | adopt has activation => exact h.onManager (wp_adopt hk has activation)
  | reserveActiveCapture view lane =>
    simp only [run, wp_bind, onManager, wp_zoom, wp_pure]
    exact wp_mono (wp_reserveActiveCapture hk) (fun _ t ht => h.step ht h.choices)
      (fun _ t ht => h.step ht h.choices) fun _ => trivial
  | markTerminalPending lane => exact h.onManager (wp_markTerminalPending hk)
  | finish view lane =>
    simp only [run, wp_bind, onManager, wp_zoom, wp_pure]
    refine wp_mono (wp_finish_invariant h.manager view lane)
      (fun _ t ht => ⟨⟨ht.1, h.choices⟩, ht.2.1, ht.2.2.1⟩)
      ?_ fun _ => trivial
    rintro e t rfl
    exact Step.refl h
  | abort has status lane => exact h.onManager (wp_abort hk has status)
  | applyCommit lanes result => exact h.onManager (wp_applyCommit hk lanes result)
  | applyDiscard lanes result => exact h.onManager (wp_applyDiscard hk lanes result)
  | releaseFailedCommit lanes => exact h.onManager (wp_releaseFailedCommit hk lanes)
  | clearAfterProgramCleanup =>
    refine ⟨⟨h.manager.cleared, h.choices⟩, rfl, fun c _ d _ _ hd => ?_⟩
    simp [ResourceManager.clearAfterProgramCleanup] at hd

theorem inv_of_reached (h : Reached s) : Inv s := by
  refine h.inv (fun s hs => ?_) fun c s hs hm => ?_
  · obtain ⟨hc, hp, _, _, _, _, _, hmake⟩ := hs
    exact ⟨hp ▸ invariant_make hmake, by simp [hc]⟩
  · exact wp_mono (wp_run hs hm) (fun _ _ ht => ht.1) (fun _ _ ht => ht.1) id

end ManagerSystem

/-! ## A small manager -/

/-- A Program that finds every root candidate feasible. -/
def rootView : PlanningView :=
  { isolatedRequestFeasible := true
    inspectAdmission := fun _ _ _ _ _ => some { identity := { physicalStatus := .feasible } }
    noAllowance := true
    rootMaximalTarget := fun _ => { candidate := 0 }
    search := fun _ => []
    assessIdentity := fun _ c => { candidate := c }
    selectFrontiers := id
    sealIdentity := fun _ _ => some (1, false)
    sealTarget := fun _ _ _ => some (1, false) }

def startsNow : ReserveView :=
  { hasContextTransaction := false
    resourceRevision := 1
    startStatus := .ok .reserved
    cancellationRequested := false }

/-- The result of a root request that started. -/
def publishedRoot : MaterializationResult :=
  { status := .published
    published := some 0 }

/-- A checkpoint of one token. -/
def oneToken : CheckpointSummary :=
  { ref := { frontier := 1 }
    shortlistKey := { frontier := 1 }
    requiredKv := { mainPages := 1 }
    rebuildWork := { tokens := 1 } }

def endsWithOneToken : FinishView :=
  { finish := .ok
      { status := .consumed
        disposition := .catalogued
        summary :=
          { endpoint := some oneToken }
        continuation := some 0 } }

/-- A root request from its inspection to its finish, as the `i`-th choice. -/
def wholeRequest (session : Option CacheSessionKey) (order i : Nat) : List Command :=
  [.inspect rootView { sessionKey := session } order, .reserveMaterialization i startsNow,
    .progressContextTransaction true true (.ok (.materialization publishedRoot)),
    .adopt true { sequence := 0, destination := 0 }, .markTerminalPending 0,
    .finish endsWithOneToken 0]

/-- The maximal target when the owners have one checkpoint each, and at least `n` of them have to
    go. -/
def releasesAtLeast (n : Nat) (records : List PlanningOwnerRecord) : PressureTargetAssessment :=
  { physicalStatus := if n ≤ records.length then .feasible else .infeasible
    ownerOutcomes := records.map fun r =>
      { owner := r.id
        disposition := .evicted
        droppedCheckpoints := 1 }
    checkpointImpacts := records.map fun r =>
      { owner := r.id
        checkpoint := oneToken.ref
        survives := false }
    candidate := 0 }

def needsOwners (n : Nat) : PlanningView :=
  { rootView with
    inspectAdmission := fun _ _ _ c _ =>
      if c.isSome then none
      else some { identity := { physicalStatus := .infeasible, expandable := true } }
    rootMaximalTarget := releasesAtLeast n }

/-- The record of an open materialization. -/
def Transaction.opened : Transaction → Option MaterializationRecord
  | .materialization r => some r
  | _ => .none

theorem Transaction.opened_eq_some {t : Transaction} {r : MaterializationRecord} :
    t.opened = some r ↔ t = .materialization r := by
  cases t <;> simp [opened]

/-- A manager with one lane and no shared slots. -/
def oneLane (privateSlots : Nat) : ManagerSystem :=
  { rm :=
      { laneCount := 1
        catalogCount := privateSlots
        sharedCatalogCount := 0
        cacheEnabled := true
        maxLongAnchors := 0 } }

theorem oneLane_init (privateSlots : Nat) (h : 0 < privateSlots ∧ privateSlots ≤ 8) :
    ManagerSystem.Init (oneLane privateSlots) := by
  refine ⟨rfl, rfl, 1, privateSlots, 0, true, 0, ?_⟩
  obtain ⟨hpos, hle⟩ := h
  interval_cases privateSlots <;> rfl

end Ninfer.Resources
