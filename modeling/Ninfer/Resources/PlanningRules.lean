/-
  The rules of planning: an inspection only reads, and the choice it returns is bound.

  The publication slot of a target whose source is consumed is the slot of that source, from the
  logical goal through the incumbent and the sealed plan to the choice.
-/
import Ninfer.Resources.Reservation

namespace Ninfer.Resources

open Lib Function

variable {s : ResourceManager}

/-! ## Claims -/

theorem checks_selectedCheckpointDrops {owner expected count : Nat}
    {disposition : VictimDisposition} {outcomes : List PressureCheckpointOutcome}
    {contains : CheckpointRef → Bool} :
    Checks (selectedCheckpointDrops owner disposition expected outcomes count contains) s
      fun _ => True := by
  unfold selectedCheckpointDrops Checks
  simp [wp_bind, wp_when, wp_raise, wp_pure]

theorem checks_ownerClaim (c : CatalogCapability) (checkpoints : List PressureCheckpointOutcome)
    (outcome : PressureOwnerOutcome) :
    Checks (ownerClaim c checkpoints outcome) s fun claim => claim.capability = c := by
  have hdrops : Checks (ownerDrops c checkpoints outcome) s fun _ => True := by
    refine .get_bind ?_
    split <;> exact checks_selectedCheckpointDrops
  exact hdrops.bind fun _ _ => .pure rfl

theorem checks_outcomeClaim (records : List PlanningOwnerRecord)
    (checkpoints : List PressureCheckpointOutcome) (outcome : PressureOwnerOutcome) :
    Checks (outcomeClaim records checkpoints outcome) s fun _ => True := by
  unfold outcomeClaim
  split
  · exact .raise _
  · exact (checks_ownerClaim _ _ _).mono fun _ _ => trivial

/-! ## Incumbents -/

/-- The incumbent names a candidate, and a consumed source is republished in its own slot. -/
def Incumbent.Bound (candidates : List Candidate) (i : Incumbent) : Prop :=
  ∃ c, candidates[i.candidate]? = some c ∧
    (i.sourceMode = .consumeToActive → ∀ source ∈ c.privateSource, i.publicationSlot = source.slot)

def Planned.Bound (candidates : List Candidate) (p : Planned) : Prop :=
  ∃ c, candidates[p.candidate]? = some c ∧
    (p.sourceMode = .consumeToActive → ∀ source ∈ c.privateSource, p.publicationSlot = source.slot)

variable {outcomes : List PressureOwnerOutcome} {records : List PlanningOwnerRecord}
  {candidates : List Candidate} {demand : PrefixDemandRecord}

theorem goalSlot_of_some {candidate : Candidate} {j k : Nat}
    (h : s.goalSlot records candidate (some j) outcomes = some k) : k = j := by
  induction outcomes with
  | nil => exact (Option.some.inj h).symm
  | cons outcome rest ih =>
    unfold ResourceManager.goalSlot at h
    split at h
    · simp at h
    · split at h
      · simp at h
      · exact ih (by simpa using h)

theorem logicalGoal_consumed {c : Candidate} {mode : PrivateSourceMode} {k : Nat}
    (h : s.logicalGoal records c mode outcomes = some k) (hm : mode = .consumeToActive) :
    ∀ source ∈ c.privateSource, k = source.slot := by
  intro source hsource
  subst hm
  unfold ResourceManager.logicalGoal at h
  rw [Option.mem_def.mp hsource] at h
  split at h
  · simp at h
  · split at h
    · simp at h
    · exact goalSlot_of_some h

/-- What every feasible candidate has as an incumbent, the best one has. -/
theorem identityBest_rule {P : Incumbent → Prop}
    (h : ∀ c i slot, candidates[i]? = some c → identityGoal s c = some slot →
      P { candidate := i, publicationSlot := slot, sourceMode := c.plan.identity.sourceMode,
          cost := c.plan.identity.cost }) :
    ∀ best, identityBest s candidates = some best → P best := by
  suffices ∀ (l : List (Candidate × Nat)) (b : Option Incumbent),
      (∀ p ∈ l, candidates[p.2]? = some p.1) → (∀ i ∈ b, P i) →
      ∀ i ∈ l.foldl (identityStep s) b, P i by
    refine this _ none (fun p hp => ?_) (by simp)
    exact List.mk_mem_zipIdx_iff_getElem?.mp hp
  intro l
  induction l with
  | nil => exact fun b _ hb => hb
  | cons p l ih =>
    intro b hl hb
    refine ih _ (fun q hq => hl q (by simp [hq])) fun i hi => ?_
    unfold identityStep at hi
    split at hi
    · exact hb i hi
    · next slot hgoal =>
      split at hi
      · obtain rfl := Option.some.inj hi
        exact h p.1 p.2 slot (hl p (by simp)) hgoal
      · exact hb i hi

theorem identityStep_eq_none {best : Option Incumbent} {p : Candidate × Nat} :
    identityStep s best p = none ↔ best = none ∧ identityGoal s p.1 = none := by
  unfold identityStep
  cases hgoal : identityGoal s p.1 with
  | none => simp
  | some slot =>
    simp only [reduceCtorEq, and_false, iff_false]
    split
    · simp
    · next hcost =>
      rintro rfl
      simp at hcost

/-- There is a best candidate as soon as one has a goal. -/
theorem identityBest_eq_none :
    identityBest s candidates = none ↔ ∀ c ∈ candidates, identityGoal s c = none := by
  suffices ∀ (l : List (Candidate × Nat)) (b : Option Incumbent),
      l.foldl (identityStep s) b = none ↔ b = none ∧ ∀ p ∈ l, identityGoal s p.1 = none by
    unfold identityBest
    rw [this, and_iff_right rfl]
    conv_rhs => rw [← List.zipIdx_map_fst 0 candidates]
    exact (List.forall_mem_map (P := fun c => identityGoal s c = none)).symm
  intro l
  induction l with
  | nil => simp
  | cons p l ih =>
    intro b
    rw [List.foldl_cons, ih, identityStep_eq_none, List.forall_mem_cons, and_assoc]

theorem identityBest_bound (s : ResourceManager) (candidates : List Candidate) :
    ∀ best, identityBest s candidates = some best → best.Bound candidates := by
  refine identityBest_rule fun c i slot hc hgoal => ⟨c, hc, fun hm => ?_⟩
  unfold identityGoal at hgoal
  split at hgoal
  · exact logicalGoal_consumed hgoal hm
  · simp at hgoal

theorem assessmentGoal_bound {a : PressureTargetAssessment} {slot : Nat}
    (h : assessmentGoal s records candidates a = some slot) :
    (makeIncumbent a slot).Bound candidates := by
  unfold assessmentGoal at h
  split at h
  · split at h
    · simp at h
    · next c hc => exact ⟨c, hc, fun hm => logicalGoal_consumed h hm⟩
  · simp at h

theorem checks_foldAssessment (records : List PlanningOwnerRecord) (a : PressureTargetAssessment) :
    Checks (foldAssessment records a) s fun _ => True := by
  exact Checks.require.bind fun _ _ => Checks.require.bind fun _ _ =>
    Checks.require.mono fun _ _ => trivial

variable (view : PlanningView)

theorem checks_startIncumbent (candidates : List Candidate)
    (records : List PlanningOwnerRecord) :
    Checks (startIncumbent view candidates records) s fun o =>
      ∀ i, o = some i → i.Bound candidates := by
  refine .get_bind ?_
  split
  · next best hbest =>
    refine .pure fun i hi => ?_
    obtain rfl := Option.some.inj hi
    exact identityBest_bound s candidates best hbest
  · refine Checks.require.bind fun _ _ => ?_
    split
    · exact .pure (by simp)
    · next slot hgoal =>
      refine (checks_foldAssessment records _).bind fun _ _ => .pure fun i hi => ?_
      obtain rfl := Option.some.inj hi
      exact assessmentGoal_bound hgoal

theorem checks_searchTargets {targets : List PressureTargetAssessment} {incumbent : Incumbent}
    (h : incumbent.Bound candidates) :
    Checks (searchTargets candidates records targets incumbent) s fun i => i.Bound candidates := by
  induction targets generalizing incumbent with
  | nil => exact .pure h
  | cons a rest ih =>
    refine .get_bind ?_
    refine Checks.require.bind fun _ _ => (checks_foldAssessment records a).bind fun _ _ => ?_
    split
    · exact ih h
    · next slot hgoal =>
      split
      · exact ih (assessmentGoal_bound hgoal)
      · exact ih h

variable (base : RequestBasePlan)

theorem checks_finalSchedule (candidate : Candidate)
    (demand : PrefixDemandRecord) :
    Checks (finalSchedule view base candidate demand) s fun _ => True := by
  refine .get_bind ?_
  exact Checks.require.bind fun _ _ => Checks.require.bind fun _ _ =>
    .pure trivial

theorem checks_sealIncumbent {view : PlanningView} {base : RequestBasePlan}
    {incumbent : Incumbent} (h : incumbent.Bound candidates) :
    Checks (sealIncumbent view base candidates demand records incumbent) s fun o =>
      ∀ p, o = some p → p.Bound candidates := by
  obtain ⟨c, hc, hslot⟩ := h
  refine Checks.require.bind fun _ _ => (Checks.deref hc).bind fun _ _ =>
    (checks_finalSchedule view base _ demand).bind fun frontiers _ => ?_
  split
  · exact Checks.raise _
  · refine Checks.pure fun p hp => ?_
    obtain rfl := Option.some.inj hp
    exact ⟨c, hc, hslot⟩

theorem checks_sealIdentityBest {view : PlanningView} {base : RequestBasePlan} {best : Incumbent}
    (h : best.Bound candidates) :
    Checks (sealIdentityBest view base candidates demand best) s fun o =>
      ∀ p, o = some p → p.Bound candidates := by
  obtain ⟨c, hc, hslot⟩ := h
  refine (Checks.deref hc).bind fun _ _ =>
    (checks_finalSchedule view base _ demand).bind fun frontiers _ => Checks.pure fun p hp => ?_
  obtain ⟨plan, _, rfl⟩ := Option.map_eq_some_iff.mp hp
  exact ⟨c, hc, hslot⟩

theorem checks_planUnderPressure (candidates : List Candidate) (demand : PrefixDemandRecord) :
    Checks (planUnderPressure view base candidates demand) s fun o =>
      ∀ p, o = some p → p.Bound candidates := by
  refine .get_bind ?_
  refine Checks.require.bind fun _ _ =>
    (checks_startIncumbent view candidates _).bind fun start hstart => ?_
  cases start with
  | none => exact .pure (by simp)
  | some start =>
    exact (checks_searchTargets (hstart start rfl)).bind fun i hi => checks_sealIncumbent hi

theorem checks_planTarget (candidates : List Candidate) (demand : PrefixDemandRecord) :
    Checks (planTarget view base candidates demand) s fun o =>
      ∀ p, o = some p → p.Bound candidates := by
  refine .get_bind ?_
  split
  · next best hbest =>
    split
    · exact checks_sealIdentityBest (identityBest_bound s candidates best hbest)
    · exact checks_planUnderPressure view base candidates demand
  · exact checks_planUnderPressure view base candidates demand

/-! ## Choices -/

theorem checks_planMaterialization
    (destination : Nat) (candidates : List Candidate) (order : Nat) (demand : PrefixDemandRecord) :
    Checks (planMaterialization view base destination candidates order demand) s fun o =>
      ∀ c, o = some c → c.Bound ∧ c.publicationOrder = order := by
  refine Checks.get_bind ?_
  refine (checks_planTarget view base candidates demand).bind fun o ho => ?_
  cases o with
  | none => exact Checks.pure (by simp)
  | some planned =>
    obtain ⟨c, hc, hslot⟩ := ho planned rfl
    refine (Checks.deref hc).bind fun d hd => ?_
    subst hd
    refine (Checks.collect fun o _ => checks_outcomeClaim _ _ o).bind fun claims _ =>
      Checks.pure fun choice hchoice => ?_
    obtain rfl := Option.some.inj hchoice
    exact ⟨hslot, rfl⟩

theorem checks_candidateOf (destination : Nat)
    (cell : Option Nat) (i : PrefixIndexEntry) :
    Checks (candidateOf view base destination cell i) s fun _ => True := by
  refine .get_bind ?_
  split
  · exact .pure trivial
  · split
    · split
      · exact .pure trivial
      · exact Checks.require.bind fun _ _ => .pure trivial
    · split
      · exact .pure trivial
      · dsimp only
        split
        · exact .pure trivial
        · exact Checks.require.bind fun _ _ => .pure trivial

theorem checks_rebuildPrefixIndex : Checks rebuildPrefixIndex s fun i => i = s.prefixIndex := by
  refine .get_bind ?_
  exact Checks.require.bind fun _ _ => .pure rfl

/-- An inspection changes nothing, and its choice is bound and has the order it was asked for. -/
theorem checks_inspect (order : Nat) :
    Checks (inspect view base order) s fun i =>
      ∀ c ∈ i.choice, c.Bound ∧ c.publicationOrder = order := by
  refine Checks.get_bind ?_
  split
  · exact Checks.pure (by simp)
  · refine Checks.require.bind fun _ _ => ?_
    split
    · exact Checks.pure (by simp)
    · split
      · exact Checks.pure (by simp)
      · refine checks_rebuildPrefixIndex.bind fun index _ => ?_
        split
        · exact Checks.pure (by simp)
        · refine (Checks.collect fun i _ => checks_candidateOf view base _ _ i).bind
            fun sources _ => ?_
          refine (checks_planMaterialization view base _ _ order _).bind fun o ho => ?_
          refine Checks.pure fun c hc => ?_
          cases o with
          | none => simp [inspectionOf] at hc
          | some choice =>
            obtain rfl : choice = c := Option.some.inj hc
            exact ho choice rfl

end Ninfer.Resources
