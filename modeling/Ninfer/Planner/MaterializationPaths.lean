/-
  The construction paths of the materialization search, and that their loop ends.

  Every turn of the loop lowers `Setting.measure`: a slice either spends work or takes the cursor
  from its path, a started path uses up one of the starts, and the refinement is seeded once. A
  path that begins again after an infeasible target has spent work before. The clock plays no part.
-/
import Ninfer.Planner.MaterializationSteps

namespace Ninfer.Planner

open Lib

namespace Materialization

variable {τ H C P : Type} [Inhabited H] {x : Setting τ H C P} {κ κ' : x.Counts} {d : Nat}
  {s t : Search τ H C} {i : Fin 4}

/-! ## The measure -/

variable (paths : Fin 4 → ConstructionPath C)

/-- How many paths have a cursor. -/
def cursors : Nat :=
  ∑ i, if (paths i).cursor.isSome then 1 else 0

theorem cursors_le : cursors paths ≤ 4 := by
  calc ∑ i, (if (paths i).cursor.isSome then 1 else 0)
      ≤ ∑ _i : Fin 4, 1 := Finset.sum_le_sum fun i _ => by split_ifs <;> simp
    _ = 4 := by simp

theorem cursors_update (i : Fin 4)
    (path : ConstructionPath C) :
    cursors (Function.update paths i path) + (if (paths i).cursor.isSome then 1 else 0) =
      cursors paths + (if path.cursor.isSome then 1 else 0) := by
  have hrest : ∑ j ∈ Finset.univ.erase i,
        (if (Function.update paths i path j).cursor.isSome then 1 else 0) =
      ∑ j ∈ Finset.univ.erase i, (if (paths j).cursor.isSome then 1 else 0) := by
    refine Finset.sum_congr rfl fun j hj => ?_
    rw [Function.update_of_ne (Finset.ne_of_mem_erase hj)]
  unfold cursors
  rw [← Finset.add_sum_erase _ _ (Finset.mem_univ i),
    ← Finset.add_sum_erase _ _ (Finset.mem_univ i),
    hrest, Function.update_self]
  omega

theorem cursors_update_le (i : Fin 4)
    (path : ConstructionPath C) : cursors (Function.update paths i path) ≤ cursors paths + 1 := by
  have h := cursors_update paths i path
  split_ifs at h <;> omega

/-- What every turn of the construction loop lowers. -/
def Setting.measure (x : Setting τ H C P) (s : Search τ H C) : Nat :=
  5 * (x.workLimit.toNat - s.searchWork.toNat) + 2 * (2 * x.order.length - s.nextPath) +
    cursors s.paths + if s.refinementSeeded then 0 else 6

/-- What the parts of a slice leave of the loop's state. -/
structure After (s t : Search τ H C) : Prop where
  searchWork : s.searchWork ≤ t.searchWork
  nextPath : t.nextPath = s.nextPath
  refinementSeeded : t.refinementSeeded = s.refinementSeeded

theorem After.refl (s : Search τ H C) : After s s := ⟨UInt64.le_refl _, rfl, rfl⟩

theorem After.trans {u : Search τ H C} (h : After s t) (h' : After t u) : After s u :=
  ⟨UInt64.le_trans h.searchWork h'.searchWork, h'.nextPath.trans h.nextPath,
    h'.refinementSeeded.trans h.refinementSeeded⟩

/-- Spent work outweighs whatever happens to the cursors. -/
theorem measure_lt_of_work (hwork : s.searchWork.toNat < t.searchWork.toNat)
    (hlimit : s.searchWork.toNat < x.workLimit.toNat) (hnext : t.nextPath = s.nextPath)
    (hseeded : t.refinementSeeded = s.refinementSeeded) : x.measure t < x.measure s := by
  have ht := cursors_le t.paths
  unfold Setting.measure
  rw [hnext, hseeded]
  omega

/-! ## Cursors -/

/-- The state after `path.cursor.reset()`. -/
def Resets (i : Fin 4) (s t : Search τ H C) : Prop :=
  ∃ u, t = { s with program := u }.withPath i { s.paths i with cursor := none }

theorem Inv.withPath (h : Inv x d s) (i : Fin 4) (path : ConstructionPath C)
    (hvisited : ∀ N : x.Numbering, ∀ v ∈ path.visited,
      v.toNat < N.canonical s.program) : Inv x d (s.withPath i path) :=
  ⟨h.accounts.withPath i path hvisited, h.best⟩

/-- A path keeps its visited targets. -/
theorem Inv.visited (h : Inv x d s) (i : Fin 4) (N : x.Numbering) :
    ∀ v ∈ (s.paths i).visited, v.toNat < N.canonical s.program :=
  (h.accounts.numbered N).visited i

theorem keeps_resetCursor (h : Inv x d s) (i : Fin 4) :
    wp (resetCursor x i) (Keeps x fun _ t => Inv x d t ∧ Resets i s t) s := by
  have hreset : ∀ u : τ, (∀ N : x.Numbering, N.canonical u = N.canonical s.program) →
      Inv x d ({ s with program := u }.withPath i { s.paths i with cursor := none }) := by
    intro u hu
    refine (h.withProgram hu).withPath i _ fun N v hv => ?_
    exact (h.visited i N v hv).trans_eq (hu N).symm
  unfold resetCursor
  rw [wp_modify]
  cases hcursor : (s.paths i).cursor with
  | none =>
    have hsame : ({ s.paths i with cursor := none } : ConstructionPath C) = s.paths i := by
      rw [← hcursor]
    refine ⟨h, s.program, ?_⟩
    rw [hsame]
    unfold Search.withPath
    rw [Function.update_eq_self]
  | some cursor =>
    exact ⟨hreset _ fun N => N.releaseCursor cursor s.program, _, rfl⟩

theorem Resets.after (h : Resets i s t) : After s t := by
  obtain ⟨u, rfl⟩ := h
  exact ⟨UInt64.le_refl _, rfl, rfl⟩

theorem Resets.cursors_le (h : Resets i s t) : cursors t.paths ≤ cursors s.paths := by
  obtain ⟨u, rfl⟩ := h
  have hupdate := cursors_update s.paths i { s.paths i with cursor := none }
  have hnone : (if (none : Option C).isSome then 1 else 0) = 0 := rfl
  exact (Nat.le_add_right _ _).trans hupdate.le

/-- A path that loses its cursor lowers the measure. -/
theorem Resets.measure_lt (h : Resets i s t) (hcursor : (s.paths i).cursor.isSome = true) :
    x.measure t < x.measure s := by
  obtain ⟨u, rfl⟩ := h
  have hupdate := cursors_update s.paths i { s.paths i with cursor := none }
  have hnone : (if (none : Option C).isSome then 1 else 0) = 0 := rfl
  rw [if_pos hcursor, hnone] at hupdate
  have hlt : cursors (Function.update s.paths i { s.paths i with cursor := none }) <
      cursors s.paths := by omega
  exact Nat.add_lt_add_right (Nat.add_lt_add_left hlt _) _

theorem keeps_giveUp (h : Inv x 0 s) (i : Fin 4) :
    wp (giveUp x i) (Keeps x fun _ t => Inv x 0 t ∧ After s t ∧
      ((s.paths i).cursor.isSome = true → x.measure t < x.measure s)) s := by
  refine Keeps.bind keeps_outOfWork ?_
  rintro stop _ ⟨m, rfl⟩
  rw [wp_modify_bind]
  have h1 := (h.withMeters m).withFlags s.nextPath stop s.rescueDone s.refinementSeeded
  refine Keeps.bind (keeps_resetCursor h1 i) ?_
  rintro _ t ⟨ht, hreset⟩
  exact ⟨ht, ⟨hreset.after.searchWork, hreset.after.nextPath, hreset.after.refinementSeeded⟩,
    fun hcursor => hreset.measure_lt hcursor⟩

/-! ## Starting a path -/

theorem rankGuidance_ordinal {index : Nat} {guide : PressureTargetGuidance} {cost : GuidanceCost}
    (h : x.rankGuidance index guide = .ok cost) :
    cost.stableTargetOrdinal = guide.stableTargetOrdinal := by
  obtain ⟨folded, hfolded, h⟩ := bind_eq_ok h
  obtain ⟨goal, _, h⟩ := bind_eq_ok h
  rw [← foldGuidance_ordinal hfolded]
  split_ifs at h
  all_goals
    cases h
    rfl

/-- What the start of a path leaves of the loop's state. -/
structure Starts (s t : Search τ H C) : Prop where
  searchWork : t.searchWork = s.searchWork
  nextPath : t.nextPath = s.nextPath
  refinementSeeded : t.refinementSeeded = s.refinementSeeded
  cursors : cursors t.paths ≤ cursors s.paths + 1

theorem keeps_startPath (h : Inv x d s) (i : Fin 4) (candidate : Nat) (target : H)
    (feasibility restore : Bool) :
    wp (startPath x i candidate target feasibility restore)
      (Keeps x fun _ t => Inv x d t ∧ Starts s t) s := by
  refine Keeps.bind (keeps_resetCursor h i) ?_
  rintro _ t ⟨ht, hreset⟩
  refine Keeps.bind (ht.call fun N _ _ hu => (N.guidance _ _ _ _ hu).1) ?_
  rintro guide _ ⟨h1, u, hu, rfl⟩
  refine Keeps.bind (keeps_answer h1.ends _) ?_
  rintro parent _ ⟨rfl, hparent⟩
  refine Keeps.bind (h1.call fun N _ _ hv => N.beginConstruction _ _ _ _ _ hv) ?_
  rintro cursor _ ⟨h2, v, hv, rfl⟩
  refine ⟨h2.withPath i _ fun N w hw => ?_, ?_⟩
  · obtain ⟨hkept, heq, hlt⟩ := N.guidance _ _ _ _ hu
    rw [List.mem_singleton.mp hw, rankGuidance_ordinal hparent, heq]
    exact hlt.trans_eq (hkept.symm.trans (N.beginConstruction _ _ _ _ _ hv).symm)
  · have hcursors := hreset.cursors_le
    obtain ⟨w, rfl⟩ := hreset
    exact ⟨rfl, rfl, rfl, (cursors_update_le _ i _).trans (Nat.add_le_add_right hcursors 1)⟩

/-! ## Slices -/

variable {chosen : GuidanceCost} {target : H} {ordinal : UInt32} {gain : UInt64}

theorem keeps_settle (h : Inv x 0 s)
    (hroom : chosen.stableTargetOrdinal.toNat < s.ledger.capacity) :
    wp (settle x i target chosen) (Keeps x fun _ t => Inv x 0 t ∧ After s t) s := by
  refine Keeps.bind (keeps_targetMarked h.ends _ fun _ => hroom) ?_
  rintro feasible s ⟨rfl, _, _⟩
  refine Keeps.bind (keeps_resetCursor h i) ?_
  rintro _ t ⟨ht, hreset⟩
  have hafter := hreset.after
  have hledger : t.ledger = s.ledger := by
    obtain ⟨u, rfl⟩ := hreset
    rfl
  rw [wp_gets_bind, wp_ite]
  refine ⟨fun _ => ?_, fun _ => ⟨ht, hafter⟩⟩
  refine Keeps.bind (keeps_targetMarked ht.ends _ fun _ => hledger ▸ hroom) ?_
  rintro expandable t ⟨rfl, _, _⟩
  rw [wp_ite]
  refine ⟨fun _ => ?_, fun _ => ⟨ht, hafter⟩⟩
  refine Keeps.bind (ht.call fun N _ _ hv => N.beginConstruction _ _ _ _ _ hv) ?_
  rintro cursor _ ⟨h1, v, hv, rfl⟩
  refine ⟨h1.withPath i _ fun N w hw => ?_, hafter.searchWork, hafter.nextPath,
    hafter.refinementSeeded⟩
  exact h1.visited i N w hw

/-- What a measured assessment leaves: it cost one unit of work. -/
structure Measured (s t : Search τ H C) : Prop where
  searchWork : t.searchWork.toNat = s.searchWork.toNat + 1
  nextPath : t.nextPath = s.nextPath
  refinementSeeded : t.refinementSeeded = s.refinementSeeded
  pending : t.pending = s.pending
  queue : t.queue.length ≤ s.queue.length + 1
  undiscovered : undiscovered t.ledger ≤ undiscovered s.ledger

theorem Measured.after (h : Measured s t) : After s t := by
  refine ⟨?_, h.nextPath, h.refinementSeeded⟩
  rw [UInt64.le_iff_toNat_le, h.searchWork]
  exact Nat.le_succ _

theorem keeps_assessMeasured {index : Nat} (h : Inv x 0 s) (hwork : s.searchWork < x.workLimit) :
    wp (assessMeasured x target index ordinal) (Keeps x fun _ t => Inv x 0 t ∧ Measured s t) s := by
  refine Keeps.bind keeps_tick ?_
  rintro started _ ⟨m, rfl⟩
  refine Keeps.bind (keeps_assessTarget (h.withMeters m) hwork) ?_
  rintro _ t ⟨ht, hst⟩
  rw [wp_gets_bind]
  refine Keeps.bind (keeps_observeStep _ _) ?_
  rintro estimate _ ⟨m', rfl⟩
  refine Keeps.bind (keeps_withMeters _) ?_
  rintro _ _ ⟨m'', rfl⟩
  refine ⟨(ht.withMeters m'').countWork, ?_, hst.nextPath, hst.refinementSeeded, hst.pending,
    hst.queue, hst.undiscovered⟩
  exact ht.accounts.toNat_searchWork_succ.trans
    (congrArg (fun work : UInt64 => work.toNat + 1) hst.searchWork)

theorem keeps_assessChosen (h : Inv x 0 s)
    (hroom : chosen.stableTargetOrdinal.toNat < s.ledger.capacity) :
    wp (assessChosen x i target chosen gain) (Keeps x fun _ t => Inv x 0 t ∧ After s t) s := by
  refine Keeps.bind (keeps_targetMarked h.ends _ fun _ => hroom) ?_
  rintro assessed s ⟨rfl, _, _⟩
  rw [wp_ite]
  refine ⟨fun _ => keeps_settle h hroom, fun _ => ?_⟩
  rw [wp_get_bind]
  refine Keeps.bind (keeps_allowWork _ _ _ _ _) ?_
  rintro granted _ ⟨⟨m, rfl⟩, hgranted⟩
  rw [wp_ite]
  refine ⟨fun hgrant => ?_, fun _ => ?_⟩
  · refine Keeps.bind (keeps_assessMeasured (h.withMeters m) (hgranted hgrant)) ?_
    rintro _ t ⟨ht, hmeasured⟩
    have hafter := hmeasured.after
    have hroom' : chosen.stableTargetOrdinal.toNat < t.ledger.capacity := by
      rw [ht.accounts.capacity, ← h.accounts.capacity]
      exact hroom
    refine Keeps.mono (keeps_settle ht hroom') ?_
    rintro _ u ⟨hu, htu⟩
    exact ⟨hu, After.trans ⟨hafter.searchWork, hafter.nextPath, hafter.refinementSeeded⟩ htu⟩
  · refine Keeps.mono (keeps_giveUp (h.withMeters m) i) ?_
    rintro _ u ⟨hu, hafter, _⟩
    exact ⟨hu, hafter.searchWork, hafter.nextPath, hafter.refinementSeeded⟩

/-- A target that was just named may be a new one, which then has the next number. -/
def Fresh (κ κ' : x.Counts) (ordinal : UInt32) : Prop :=
  ∀ N, κ' N = κ N ∨ κ' N = κ N + 1 ∧ ordinal.toNat = κ N

/-- A target whose number is in use is not new. -/
theorem Fresh.eq_of_lt (hfresh : Fresh κ κ' ordinal) (hlt : ∀ N, ordinal.toNat < κ N) : κ' = κ := by
  funext N
  rcases hfresh N with heq | ⟨_, heq⟩
  · exact heq
  · exact absurd (hlt N) (heq ▸ Nat.lt_irrefl _)

theorem Fresh.le (hfresh : Fresh κ κ' ordinal) (N) : κ N ≤ κ' N := by
  rcases hfresh N with heq | ⟨heq, _⟩
  · exact heq.ge
  · exact (Nat.le_succ _).trans_eq heq.symm

/-- One more target fits into the budget. -/
theorem fits_one {optional : UInt32} (hopt : ¬ kTargetBudget ≤ optional) :
    optional.toNat + (1 : UInt32).toNat ≤ 4096 := by
  rw [UInt32.le_iff_toNat_le, toNat_kTargetBudget] at hopt
  show optional.toNat + 1 ≤ 4096
  omega

theorem Accounts.chargeFresh (h : Accounts x κ d s) (hfresh : Fresh κ κ' ordinal)
    (hopt : ¬ kTargetBudget ≤ s.optionalTargets) :
    Accounts x κ' d { s with optionalTargets := s.optionalTargets + 1 } := by
  refine h.charge hfresh.le (fun N => ?_) fun _ => fits_one hopt
  rcases hfresh N with heq | ⟨heq, _⟩
  · exact heq.trans_le (Nat.le_add_right _ _)
  · exact heq.le

/-- The ledger has room for one more target than there are. -/
theorem Accounts.roomFresh (h : Accounts x κ d s) (hfresh : Fresh κ κ' ordinal)
    (hn : ∀ N, ordinal.toNat < κ' N) (hopt : ¬ kTargetBudget ≤ s.optionalTargets)
    (N : x.Numbering) : ordinal.toNat < s.ledger.capacity :=
  (h.chargeFresh hfresh hopt).room (hn N)

theorem keeps_discoverChosen {index : Nat} (h : Accounts x κ 0 s)
    (hfresh : Fresh κ κ' chosen.stableTargetOrdinal)
    (hn : ∀ N, chosen.stableTargetOrdinal.toNat < κ' N)
    (hopt : ¬ kTargetBudget ≤ s.optionalTargets) :
    wp (discoverChosen x target index chosen)
      (Keeps x fun _ t => Accounts x κ' 0 t ∧ After s t ∧ t.program = s.program ∧
        t.incumbent = s.incumbent ∧ t.assessments = s.assessments ∧ t.paths = s.paths ∧
        chosen.stableTargetOrdinal.toNat < t.ledger.capacity) s := by
  have hroom := h.roomFresh hfresh hn hopt
  refine Keeps.bind (keeps_targetMarked h.ends _ hroom) ?_
  rintro discovered s ⟨rfl, hlt, hdiscovered⟩
  rw [wp_ite]
  constructor
  · intro hknown
    have hold : κ' = κ := by
      refine hfresh.eq_of_lt fun N => (h.numbered N).marks _ .discovered ?_
      rw [← hdiscovered]
      exact hknown
    exact ⟨hold ▸ h, After.refl _, rfl, rfl, rfl, rfl, hlt⟩
  · intro _
    refine Keeps.bind (keeps_markTarget h.ends _ hroom) ?_
    rintro _ _ ⟨rfl, _⟩
    have hcharged := (h.chargeFresh hfresh hopt).mark [.discovered] hlt hn
    exact ⟨hcharged.withPending fun N => forall_mem_push (hcharged.numbered N).pending (hn N),
      ⟨UInt64.le_refl _, rfl, rfl⟩, rfl, rfl, rfl, rfl, hlt⟩

theorem keeps_reachTarget (h : Accounts x κ 0 s) (hb : Best x s.incumbent s.assessments)
    (hfresh : ∀ N : x.Numbering, N.canonical s.program = κ N ∨
      N.canonical s.program = κ N + 1 ∧ N.ordinalOf target = κ N)
    (hopt : ¬ kTargetBudget ≤ s.optionalTargets) :
    wp (reachTarget x i target gain) (Keeps x fun _ t => Inv x 0 t ∧ After s t) s := by
  unfold reachTarget
  rw [wp_gets_bind]
  refine Keeps.bind (keeps_call h.ends _) ?_
  rintro guide _ ⟨u, hu, rfl⟩
  have h1 := h.withProgram u
  refine Keeps.bind (keeps_answer h1.ends _) ?_
  rintro chosen _ ⟨rfl, hchosen⟩
  have hordinal := rankGuidance_ordinal hchosen
  have hn : ∀ N, chosen.stableTargetOrdinal.toNat < x.counts u N := by
    intro N
    obtain ⟨hkept, heq, hlt⟩ := N.guidance _ _ _ _ hu
    rw [hordinal, heq]
    exact hlt.trans_eq hkept.symm
  have hnew : Fresh κ (x.counts u) chosen.stableTargetOrdinal := by
    intro N
    obtain ⟨hkept, heq, _⟩ := N.guidance _ _ _ _ hu
    rw [Setting.counts, hkept, hordinal, heq]
    exact hfresh N
  rw [wp_gets_bind, wp_ite]
  constructor
  · intro hvisited
    have hold := hnew.eq_of_lt fun N => (h.numbered N).visited i _ hvisited
    have h2 : Inv x 0 { s with program := u } := .of_counts h1 hb (congrFun hold)
    refine Keeps.bind (keeps_resetCursor h2 i) ?_
    rintro _ t ⟨ht, hreset⟩
    exact ⟨ht, hreset.after.searchWork, hreset.after.nextPath, hreset.after.refinementSeeded⟩
  · intro _
    refine Keeps.bind (keeps_discoverChosen h1 hnew hn hopt) ?_
    rintro _ t ⟨h2, hafter, hprogram, hincumbent, hassessments, hpaths, hroom⟩
    rw [wp_modify_bind]
    have h3 : Inv x 0 t := by
      refine .of_counts h2 ?_ fun N => by rw [hprogram]; rfl
      rw [hincumbent, hassessments]
      exact hb
    have h4 : Inv x 0 (t.withPath i { t.paths i with
          parent := chosen
          best := none
          visited := (s.paths i).visited ++ [chosen.stableTargetOrdinal] }) := by
      refine h3.withPath i _ fun N => forall_mem_push (hpaths ▸ h3.visited i N) ?_
      rw [hprogram]
      exact hn N
    rw [wp_ite]
    constructor
    · intro _
      exact ⟨h4, hafter.searchWork, hafter.nextPath, hafter.refinementSeeded⟩
    · intro _
      refine Keeps.mono (keeps_assessChosen h4 hroom) ?_
      rintro _ v ⟨hv, htv⟩
      exact ⟨hv, After.trans ⟨hafter.searchWork, hafter.nextPath, hafter.refinementSeeded⟩
        ⟨htv.searchWork, htv.nextPath, htv.refinementSeeded⟩⟩

theorem keeps_chooseOption {cursor : C} (h : Inv x 0 s) :
    wp (chooseOption x i cursor gain) (Keeps x fun _ t => Inv x 0 t ∧ After s t) s := by
  unfold chooseOption
  rw [wp_get_bind, wp_ite]
  constructor
  · intro _
    refine Keeps.bind (keeps_resetCursor h i) ?_
    rintro _ t ⟨ht, hreset⟩
    exact ⟨ht, hreset.after⟩
  · intro hopt
    refine Keeps.bind (h.call fun N _ _ hu => N.chooseConstruction _ _ _ _ _ hu) ?_
    rintro _ _ ⟨h1, u, _, rfl⟩
    refine Keeps.bind (keeps_call h1.ends _) ?_
    rintro target _ ⟨v, hv, rfl⟩
    cases target with
    | none =>
      have h2 : Inv x 0 { s with program := v } := by
        refine h1.withProgram fun N => ?_
        rcases N.constructionTarget _ _ _ _ hv with heq | ⟨_, _, hnone, _⟩
        · exact heq
        · cases hnone
      exact ⟨h2.withFlags s.nextPath true s.rescueDone s.refinementSeeded, UInt64.le_refl _, rfl,
        rfl⟩
    | some target =>
      refine Keeps.mono (keeps_reachTarget (h1.accounts.withProgram v) h.best (fun N => ?_)
        fun hle => hopt (.inr hle)) ?_
      · rcases N.constructionTarget _ _ _ _ hv with heq | ⟨heq, _, hsome, hordinal⟩
        · exact .inl heq
        · cases hsome
          exact .inr ⟨heq, hordinal⟩
      · rintro _ t ⟨ht, hafter⟩
        exact ⟨ht, hafter.searchWork, hafter.nextPath, hafter.refinementSeeded⟩

theorem keeps_noteOption {step : PressureConstructionStep} (h : Inv x d s) :
    wp (noteOption x i step) (Keeps x fun _ t => Inv x d t ∧ After s t) s := by
  unfold noteOption
  rw [wp_gets_bind]
  cases step.guidance with
  | none => exact ⟨h, After.refl s⟩
  | some guide =>
    refine Keeps.bind (keeps_answer h.ends _) ?_
    rintro cost s ⟨rfl, _⟩
    rw [wp_when]
    refine ⟨fun _ => ⟨h.withPath i _ (h.visited i), UInt64.le_refl _, rfl, rfl⟩, fun _ => ?_⟩
    exact ⟨h, After.refl s⟩

/-- Step lemma of a slice: it spends work, or the path loses its cursor. -/
theorem keeps_slice {cursor : C} (h : Inv x 0 s) (hcursor : (s.paths i).cursor = some cursor) :
    wp (slice x i cursor) (Keeps x fun _ t => Inv x 0 t ∧ t.nextPath = s.nextPath ∧
      x.measure t < x.measure s) s := by
  unfold slice
  rw [wp_get_bind]
  refine Keeps.bind (keeps_allowWork _ _ _ _ _) ?_
  rintro granted _ ⟨⟨m, rfl⟩, hgranted⟩
  rw [wp_ite]
  constructor
  · intro hgrant
    have hwork := hgranted hgrant
    refine Keeps.bind keeps_tick ?_
    rintro started _ ⟨m, rfl⟩
    unfold operate
    rw [wp_modify_bind]
    have h1 : Inv x 1 { s with meters := m, operations := s.operations + 1 } :=
      ⟨(h.withMeters m).accounts.operate hwork, h.best⟩
    refine Keeps.bind (h1.call fun N _ _ hu => N.nextConstructionOption _ _ _ _ hu) ?_
    rintro step _ ⟨h2, u, _, rfl⟩
    refine Keeps.bind (keeps_observeStep _ _) ?_
    rintro estimate _ ⟨m, rfl⟩
    refine Keeps.bind (keeps_withMeters _) ?_
    rintro _ _ ⟨m, rfl⟩
    unfold countWork
    rw [wp_modify_bind]
    have h3 := (h2.withMeters m).countWork
    have hsucc := h2.accounts.toNat_searchWork_succ
    have hlower : ∀ t, After { s with
        program := u
        meters := m
        operations := s.operations + 1
        searchWork := s.searchWork + 1 } t → x.measure t < x.measure s := by
      intro t hafter
      have hle := UInt64.le_iff_toNat_le.mp hafter.searchWork
      have hlt : s.searchWork.toNat < t.searchWork.toNat := (Nat.lt_succ_self _).trans_le
        (hsucc.symm.trans_le hle)
      exact measure_lt_of_work hlt (UInt64.lt_iff_toNat_lt.mp hwork) hafter.nextPath
        hafter.refinementSeeded
    refine Keeps.bind (keeps_noteOption h3) ?_
    rintro _ t ⟨ht, hnoted⟩
    rw [wp_ite]
    refine ⟨fun _ => ?_, fun _ => ⟨ht, hnoted.nextPath, hlower t hnoted⟩⟩
    refine Keeps.mono (keeps_chooseOption ht) ?_
    rintro _ v ⟨hv, hafter⟩
    exact ⟨hv, (hnoted.trans hafter).nextPath, hlower v (hnoted.trans hafter)⟩
  · intro _
    refine Keeps.mono (keeps_giveUp (h.withMeters m) i) ?_
    rintro _ t ⟨ht, hafter, hlt⟩
    exact ⟨ht, hafter.nextPath, hlt (Option.isSome_of_eq_some hcursor)⟩

/-- Run lemma of the slices: a path without a cursor stays as it is. -/
theorem keeps_slices (h : Inv x 0 s) (count : Nat) :
    wp (slices x i count) (Keeps x fun _ t => Inv x 0 t ∧ t.nextPath = s.nextPath ∧
      (x.measure t < x.measure s ∨ t = s ∧ (count = 0 ∨ (s.paths i).cursor = none))) s := by
  induction count generalizing s with
  | zero => exact ⟨h, rfl, .inr ⟨rfl, .inl rfl⟩⟩
  | succ count ih =>
    unfold slices
    rw [wp_get_bind]
    cases hcursor : (s.paths i).cursor with
    | none => exact ⟨h, rfl, .inr ⟨rfl, .inr rfl⟩⟩
    | some cursor =>
      refine Keeps.bind (keeps_slice h hcursor) ?_
      rintro go t ⟨ht, hnext, hlt⟩
      rw [wp_ite]
      refine ⟨fun _ => ?_, fun _ => ⟨ht, hnext, .inl hlt⟩⟩
      refine Keeps.mono (ih ht) ?_
      rintro _ u ⟨hu, hnext', hless | ⟨rfl, _⟩⟩
      · exact ⟨hu, hnext'.trans hnext, .inl (hless.trans hlt)⟩
      · exact ⟨hu, hnext, .inl hlt⟩

end Materialization

end Ninfer.Planner
