/-
  Assessing and expanding keep the invariant of the materialization search.

  An assessment is the only step that changes the incumbent. An expansion is the step that may
  bring many new targets at once: each child that waits for its assessment was discovered for the
  first time, so what waits and what is not yet discovered do not grow together.
-/
import Ninfer.Planner.MaterializationRules

namespace Ninfer.Planner

open Lib

namespace Materialization

variable {τ H C P : Type} [Inhabited H] {x : Setting τ H C P} {κ : x.Counts} {d : Nat}
  {s t : Search τ H C}

/-! ## The invariant -/

namespace Inv

theorem ends (h : Inv x d s) : Ends x s := h.accounts.ends

theorem withMeters (h : Inv x d s) (m : Meters) : Inv x d { s with meters := m } :=
  ⟨h.accounts.withMeters m, h.best⟩

/-- The invariant, from accounts with the number of targets that there are now. -/
theorem of_counts (h : Accounts x κ d s) (hb : Best x s.incumbent s.assessments)
    (hκ : ∀ N, N.canonical s.program = κ N) : Inv x d s := by
  have hcounts : x.counts s.program = κ := funext hκ
  exact ⟨hcounts ▸ h, hb⟩

theorem withProgram (h : Inv x d s) {u : τ}
    (hu : ∀ N : x.Numbering, N.canonical u = N.canonical s.program) :
    Inv x d { s with program := u } :=
  of_counts (h.accounts.withProgram u) h.best hu

theorem withFlags (h : Inv x d s) (nextPath : Nat) (stopped done seeded : Bool) : Inv x d { s with
        nextPath
        searchStopped := stopped
        rescueDone := done
        refinementSeeded := seeded } :=
  ⟨h.accounts.withFlags nextPath stopped done seeded, h.best⟩

theorem countWork (h : Inv x 1 s) : Inv x 0 { s with searchWork := s.searchWork + 1 } :=
  ⟨h.accounts.countWork, h.best⟩

/-- The ledger has room for the number of every target. -/
theorem room (h : Inv x d s) {n : Nat} (hn : ∀ N : x.Numbering, n < N.canonical s.program)
    (N : x.Numbering) : n < s.ledger.capacity :=
  h.accounts.room (hn N)

/-- A call that makes no target. -/
theorem call {α : Type} {m : Call τ α} (h : Inv x d s)
    (hm : ∀ (N : x.Numbering) a u, m s.program = .ok (a, u) →
      N.canonical u = N.canonical s.program) :
    wp (call m) (Keeps x fun a t => Inv x d t ∧ ∃ u, m s.program = .ok (a, u) ∧
      t = { s with program := u }) s := by
  refine Keeps.mono (keeps_call h.ends m) fun a t => ?_
  rintro ⟨u, hu, rfl⟩
  exact ⟨h.withProgram fun N => hm N a u hu, u, hu, rfl⟩

end Inv

theorem Keeps.forEach {γ : Type} {l : List γ} {body : γ → Eff (Search τ H C) Unit}
    {I : Search τ H C → Prop} (hI : I s)
    (hbody : ∀ c ∈ l, ∀ t, I t → wp (body c) (Keeps x fun _ u => I u) t) :
    wp (Eff.forEach l body) (Keeps x fun _ u => I u) s := by
  induction l generalizing s with
  | nil => exact hI
  | cons c l ih =>
    refine Keeps.bind (f := fun _ => Eff.forEach l body) (hbody c (by simp) s hI) fun _ t ht => ?_
    exact ih ht fun c' hc' => hbody c' (by simp [hc'])

/-! ## A target is assessed -/

/-- What an assessment leaves of the loops' state. -/
structure Assesses (s t : Search τ H C) : Prop where
  searchWork : t.searchWork = s.searchWork
  nextPath : t.nextPath = s.nextPath
  refinementSeeded : t.refinementSeeded = s.refinementSeeded
  paths : t.paths = s.paths
  pending : t.pending = s.pending
  queue : t.queue.length ≤ s.queue.length + 1
  undiscovered : undiscovered t.ledger ≤ undiscovered s.ledger

section Best

variable {incumbent : Incumbent H} {l : List (Candidate × Assessment)} {a : Assessment}
  {target : H} {index : Nat} {cost : FoldedCost} {slot : UInt32}

theorem Best.assess_none (h : Best x incumbent l) {c : Candidate}
    (hgoal : x.problem.goalFor a = .ok none) : Best x incumbent (l ++ [(c, a)]) where
  index := h.index
  identity := h.identity
  target := h.target
  identities := h.identities
  assessed := forall_mem_push h.assessed fun slot cost hslot _ => by
    rw [hgoal] at hslot
    cases hslot

theorem holdsTarget_makeIncumbent (hassess : ∃ s u, x.session.assess target s = .ok (a, u))
    (hcandidate : a.candidate = (x.candidate index).id)
    (hgoal : x.problem.goalFor a = .ok (some slot))
    (hcost : foldAssessment x.problem.machineCost x.pressure (x.candidate index) a = .ok cost) :
    HoldsTarget x (makeIncumbent target index a cost slot) a where
  assessed := hassess
  candidate := hcandidate
  goal := hgoal
  cost := hcost
  sourceMode := rfl
  ownerOutcomes := rfl
  checkpointOutcomes := rfl

/-- A target that costs less than the incumbent takes its place. -/
theorem Best.assess_some (h : Best x incumbent l) (hindex : index < x.candidates.length)
    (hassess : ∃ s u, x.session.assess target s = .ok (a, u))
    (hcandidate : a.candidate = (x.candidate index).id)
    (hgoal : x.problem.goalFor a = .ok (some slot))
    (hcost : foldAssessment x.problem.machineCost x.pressure (x.candidate index) a = .ok cost) :
    Best x (if cost.less incumbent.cost then makeIncumbent target index a cost slot else incumbent)
      (l ++ [(x.candidate index, a)]) := by
  have hnew : ∀ cost', foldAssessment x.problem.machineCost x.pressure (x.candidate index) a =
      .ok cost' → cost = cost' := by
    intro cost' hcost'
    rw [hcost] at hcost'
    exact Except.ok.inj hcost'
  by_cases hless : cost.less incumbent.cost = true
  · have hlt := FoldedCost.less_iff.mp hless
    rw [if_pos hless]
    refine ⟨hindex, nofun, ?_, ?_, ?_⟩
    · intro b hb
      rw [← Option.some.inj hb]
      exact holdsTarget_makeIncumbent hassess hcandidate hgoal hcost
    · intro c hc slot' hslot'
      exact hlt.le.trans (h.identities c hc slot' hslot')
    · refine forall_mem_push (fun e he slot' cost' hslot' hcost' => ?_) fun _ cost' _ hcost' => ?_
      · exact hlt.le.trans (h.assessed e he slot' cost' hslot' hcost')
      · exact (congrArg FoldedCost.key (hnew cost' hcost')).le
  · have hle := not_lt.mp fun hlt => hless (FoldedCost.less_iff.mpr hlt)
    rw [if_neg hless]
    refine ⟨h.index, h.identity, h.target, h.identities, forall_mem_push h.assessed ?_⟩
    intro _ cost' _ hcost'
    rw [← hnew cost' hcost']
    exact hle

end Best

theorem candidateIndexFor_lt {id : PlanningCandidateId} {index : Nat}
    (h : x.candidateIndexFor id = .ok index) : index < x.candidates.length := by
  unfold Setting.candidateIndexFor at h
  split at h
  · cases h
  next hfound =>
    cases h
    exact (List.findIdx?_eq_some_iff_findIdx_eq.mp hfound).1

/-- The end of an assessment that has a goal, or has none. -/
theorem keeps_offerGoal {target : H} {index : Nat} {a : Assessment} {cost : FoldedCost}
    {goal : Option UInt32} {l : List (Candidate × Assessment)} (h : Accounts x κ d s)
    (hb : Best x s.incumbent l) (hl : s.assessments = l ++ [(x.candidate index, a)])
    (hn : ∀ N, a.stableTargetOrdinal.toNat < κ N) (hindex : index < x.candidates.length)
    (hassess : ∃ s u, x.session.assess target s = .ok (a, u))
    (hcandidate : a.candidate = (x.candidate index).id)
    (hcost : foldAssessment x.problem.machineCost x.pressure (x.candidate index) a = .ok cost)
    (hgoal : x.problem.goalFor a = .ok goal) :
    wp (offerGoal target index a cost goal)
      (Keeps x fun _ t => Accounts x κ d t ∧ Best x t.incumbent t.assessments ∧ Assesses s t ∧
        t.program = s.program ∧ t.queue = s.queue) s := by
  cases goal with
  | none =>
    refine ⟨h, ?_, ⟨rfl, rfl, rfl, rfl, rfl, Nat.le_succ _, le_rfl⟩, rfl, rfl⟩
    rw [hl]
    exact hb.assess_none hgoal
  | some slot =>
    refine Keeps.bind (keeps_markTarget h.ends [.feasible] fun N => h.room (hn N)) ?_
    rintro _ _ ⟨rfl, hroom⟩
    refine ⟨(h.mark _ hroom hn).withIncumbent _ _, ?_, ?_, rfl, rfl⟩
    · show Best x _ s.assessments
      rw [hl]
      exact hb.assess_some hindex hassess hcandidate hgoal hcost
    · exact ⟨rfl, rfl, rfl, rfl, rfl, Nat.le_succ _, undiscovered_withMarks_le⟩

/-- An assessed target that can be expanded is queued. -/
theorem keeps_enqueue {entry : QueueEntry H} {a : Assessment} (h : Inv x d s)
    (hentry : entry.stableTargetOrdinal = a.stableTargetOrdinal)
    (hn : ∀ N : x.Numbering, a.stableTargetOrdinal.toNat < N.canonical s.program) :
    wp (if a.expandable then do
          markTarget a.stableTargetOrdinal [.expandable]
          queuePush entry
        else pure () : Eff (Search τ H C) Unit)
      (Keeps x fun _ t => Inv x d t ∧ Assesses s t) s := by
  rw [wp_ite]
  refine ⟨fun _ => ?_, fun _ => ⟨h, ⟨rfl, rfl, rfl, rfl, rfl, Nat.le_succ _, le_rfl⟩⟩⟩
  refine Keeps.bind (keeps_markTarget h.ends [.expandable] (h.room hn)) ?_
  rintro _ _ ⟨rfl, hroom⟩
  have hmarked := h.accounts.mark [.expandable] hroom hn
  refine ⟨⟨hmarked.withQueue fun N => forall_mem_push (h.accounts.numbered N).queue ?_, h.best⟩, ?_⟩
  · rw [hentry]
    exact hn N
  · exact ⟨rfl, rfl, rfl, rfl, rfl, by simp, undiscovered_withMarks_le⟩

theorem Assesses.trans {u : Search τ H C} (h : Assesses s t) (hqueue : t.queue = s.queue)
    (h' : Assesses t u) : Assesses s u where
  searchWork := h'.searchWork.trans h.searchWork
  nextPath := h'.nextPath.trans h.nextPath
  refinementSeeded := h'.refinementSeeded.trans h.refinementSeeded
  paths := h'.paths.trans h.paths
  pending := h'.pending.trans h.pending
  queue := by rw [← hqueue]; exact h'.queue
  undiscovered := h'.undiscovered.trans h.undiscovered

/-- Step lemma of an assessment, which costs one unit of work. -/
theorem keeps_assessTarget {target : H} {index : Nat} {ordinal : UInt32} (h : Inv x 0 s)
    (hwork : s.searchWork < x.workLimit) :
    wp (assessTarget x target index ordinal) (Keeps x fun _ t => Inv x 1 t ∧ Assesses s t) s := by
  unfold assessTarget operate assessOnce
  have h1 := h.accounts.operate hwork
  refine Keeps.bind (R := fun a t => ∃ u, x.session.assess target s.program = .ok (a, u) ∧
    t = { s with
      program := u
      operations := s.operations + 1
      assessments := s.assessments ++ [(x.candidate index, a)] }) ?_ ?_
  · refine Keeps.bind (keeps_call h1.ends _) ?_
    rintro a _ ⟨u, hu, rfl⟩
    exact ⟨u, hu, rfl⟩
  rintro a _ ⟨u, hu, rfl⟩
  have hn : ∀ N, a.stableTargetOrdinal.toNat < x.counts s.program N := by
    intro N
    obtain ⟨_, heq, hlt⟩ := N.assess _ _ _ _ hu
    exact heq.trans_lt hlt
  have h2 := (h1.withProgram u).withAssessments (s.assessments ++ [(x.candidate index, a)])
  refine Keeps.bind (keeps_require h2.ends _ _) ?_
  rintro _ _ ⟨rfl, hcandidate⟩
  refine Keeps.bind (keeps_answer h2.ends _) ?_
  rintro index' _ ⟨rfl, hindex⟩
  refine Keeps.bind (keeps_require h2.ends _ _) ?_
  rintro _ _ ⟨rfl, rfl, hordinal⟩
  refine Keeps.bind (keeps_markTarget h2.ends _ fun N => h2.room (hn N)) ?_
  rintro _ _ ⟨rfl, hroom⟩
  have h3 := h2.mark [.discovered, .assessed] hroom hn
  refine Keeps.bind (keeps_answer h3.ends _) ?_
  rintro cost _ ⟨rfl, hcost⟩
  refine Keeps.bind (keeps_answer h3.ends _) ?_
  rintro goal _ ⟨rfl, hgoal⟩
  refine Keeps.bind (keeps_offerGoal h3 h.best rfl hn (candidateIndexFor_lt hindex)
    ⟨s.program, u, hu⟩ hcandidate hcost hgoal) ?_
  rintro _ t ⟨h4, hbest, hsame, hprogram, hqueue⟩
  have hcounts : ∀ N : x.Numbering, N.canonical t.program = N.canonical s.program := by
    intro N
    rw [hprogram]
    exact (N.assess _ _ _ _ hu).1
  have h5 : Inv x 1 t := .of_counts h4 hbest hcounts
  refine Keeps.mono (keeps_enqueue h5 rfl fun N => (hn N).trans_eq (hcounts N).symm) ?_
  rintro _ v ⟨h6, hafter⟩
  have hrest := hsame.trans hqueue hafter
  exact ⟨h6, hrest.searchWork, hrest.nextPath, hrest.refinementSeeded, hrest.paths, hrest.pending,
    hrest.queue, hrest.undiscovered.trans undiscovered_withMarks_le⟩

/-! ## A target is expanded -/

/-- What the children of an expansion leave of the loops' state. -/
structure Discovers (s t : Search τ H C) : Prop where
  searchWork : t.searchWork = s.searchWork
  queue : t.queue.length = s.queue.length
  waiting : t.pending.length + undiscovered t.ledger ≤ s.pending.length + undiscovered s.ledger

theorem foldlM_guidedOwner_ordinal {policies : List MaterializationOwnerPolicy}
    {outcomes : List PressureOwnerOutcome} {cost cost' : GuidanceCost}
    (h : outcomes.foldlM (guidedOwner policies) cost = .ok cost') :
    cost'.stableTargetOrdinal = cost.stableTargetOrdinal := by
  induction outcomes generalizing cost with
  | nil =>
    cases h
    rfl
  | cons outcome outcomes ih =>
    obtain ⟨next, hnext, h⟩ := bind_eq_ok h
    rw [ih h]
    unfold guidedOwner at hnext
    split at hnext
    · cases hnext
    · split_ifs at hnext
      all_goals
        cases hnext
        rfl

theorem foldGuidance_ordinal {machineCost : MachineCost} {pressure : PressureInputs}
    {candidate : Candidate} {guidance : PressureTargetGuidance} {cost : GuidanceCost}
    (h : foldGuidance machineCost pressure candidate guidance = .ok cost) :
    cost.stableTargetOrdinal = guidance.stableTargetOrdinal := by
  obtain ⟨owners, howners, h⟩ := bind_eq_ok h
  obtain ⟨value, _, h⟩ := bind_eq_ok h
  cases h
  exact foldlM_guidedOwner_ordinal howners

theorem keeps_discoverChild (h : Inv x d s) (parent : QueueEntry H) (child : H) :
    wp (discoverChild x parent child) (Keeps x fun _ t => Inv x d t ∧ Discovers s t) s := by
  refine Keeps.bind (h.call fun N _ _ hu => (N.guidance _ _ _ _ hu).1) ?_
  rintro guidance _ ⟨h1, u, hu, rfl⟩
  have hn : ∀ N : x.Numbering, guidance.stableTargetOrdinal.toNat < N.canonical u := by
    intro N
    obtain ⟨hkept, heq, hlt⟩ := N.guidance _ _ _ _ hu
    rw [hkept]
    exact heq.trans_lt hlt
  refine Keeps.bind (keeps_require h1.ends _ _) ?_
  rintro _ _ ⟨rfl, _⟩
  refine Keeps.bind (keeps_answer h1.ends _) ?_
  rintro index _ ⟨rfl, _⟩
  refine Keeps.bind (keeps_targetMarked h1.ends _ (h1.room hn)) ?_
  rintro discovered _ ⟨rfl, hroom, rfl⟩
  rw [wp_ite]
  refine ⟨fun _ => ⟨h1, rfl, rfl, le_rfl⟩, fun hnew => ?_⟩
  refine Keeps.bind (keeps_markTarget h1.ends _ (h1.room hn)) ?_
  rintro _ _ ⟨rfl, _⟩
  have h2 := h1.accounts.mark [.discovered] hroom hn
  refine Keeps.bind (keeps_answer h2.ends _) ?_
  rintro cost _ ⟨rfl, hcost⟩
  refine Keeps.bind (keeps_answer h2.ends _) ?_
  rintro goal _ ⟨rfl, _⟩
  refine ⟨⟨h2.withPending fun N => forall_mem_push (h1.accounts.numbered N).pending ?_, h.best⟩,
    rfl, rfl, ?_⟩
  · exact (congrArg UInt32.toNat (foldGuidance_ordinal hcost)).trans_lt (hn N)
  · have hless := undiscovered_discover hroom (Bool.eq_false_iff.mpr hnew)
      (List.mem_singleton_self _)
    rw [List.length_append, List.length_singleton]
    exact (Nat.add_right_comm _ _ _).trans_le (Nat.add_le_add_left hless _)

/-- What an expansion leaves of the loop's state. -/
structure Expands (s t : Search τ H C) : Prop where
  searchWork : t.searchWork = s.searchWork
  queue : t.queue.length ≤ s.queue.length + 1
  waiting : t.pending.length + undiscovered t.ledger ≤ s.pending.length + undiscovered s.ledger

theorem Expands.refl (s : Search τ H C) : Expands s s := ⟨rfl, Nat.le_succ _, le_rfl⟩

theorem keeps_keepParent (h : Inv x d s) {parent : QueueEntry H} (complete : Bool)
    (hn : ∀ N : x.Numbering, parent.stableTargetOrdinal.toNat < N.canonical s.program) :
    wp (keepParent parent complete) (Keeps x fun _ t => Inv x d t ∧ Expands s t) s := by
  unfold keepParent
  rw [wp_ite]
  constructor
  · intro _
    refine Keeps.mono (keeps_markTarget h.ends _ (h.room hn)) ?_
    rintro _ _ ⟨rfl, hroom⟩
    exact ⟨⟨h.accounts.mark _ hroom hn, h.best⟩, rfl, Nat.le_succ _,
      Nat.add_le_add_left undiscovered_withMarks_le _⟩
  · intro _
    exact ⟨⟨h.accounts.withQueue fun N => forall_mem_push (h.accounts.numbered N).queue (hn N),
      h.best⟩, rfl, by simp, le_rfl⟩

theorem keeps_discoverChildren (h : Inv x d s) (parent : QueueEntry H) (children : List H) :
    wp (Eff.forEach children (discoverChild x parent))
      (Keeps x fun _ t => Inv x d t ∧ Discovers s t) s := by
  refine Keeps.forEach (I := fun t => Inv x d t ∧ Discovers s t) ⟨h, rfl, rfl, le_rfl⟩ ?_
  rintro child _ t ⟨ht, hst⟩
  refine Keeps.mono (keeps_discoverChild ht parent child) ?_
  rintro _ u ⟨hu, htu⟩
  exact ⟨hu, htu.searchWork.trans hst.searchWork, htu.queue.trans hst.queue,
    htu.waiting.trans hst.waiting⟩

theorem toNat_kTargetBudget : kTargetBudget.toNat = 4096 := rfl

/-- What is left of the target budget is enough for a prepared expansion. -/
theorem fits_of_not_gt {optional count : UInt32} (hopt : ¬ kTargetBudget ≤ optional)
    (hcount : ¬ count > kTargetBudget - optional) : optional.toNat + count.toNat ≤ 4096 := by
  rw [UInt32.le_iff_toNat_le, toNat_kTargetBudget] at hopt
  have hle : optional ≤ kTargetBudget := by
    rw [UInt32.le_iff_toNat_le, toNat_kTargetBudget]
    omega
  rw [gt_iff_lt, UInt32.lt_iff_toNat_lt, UInt32.toNat_sub_of_le _ _ hle, toNat_kTargetBudget]
    at hcount
  omega

/-- Step lemma of an expansion, which costs one unit of work. -/
theorem keeps_expandTarget {parent : QueueEntry H} (h : Inv x 0 s)
    (hwork : s.searchWork < x.workLimit)
    (hn : ∀ N : x.Numbering, parent.stableTargetOrdinal.toNat < N.canonical s.program) :
    wp (expandTarget x parent) (Keeps x fun _ t => Inv x 1 t ∧ Expands s t) s := by
  have hslack : Inv x 1 s := ⟨h.accounts.slack hwork, h.best⟩
  unfold expandTarget operate
  refine Keeps.bind (keeps_targetMarked h.ends _ (h.room hn)) ?_
  rintro expanded s ⟨rfl, _, _⟩
  rw [wp_ite]
  refine ⟨fun _ => ⟨hslack, Expands.refl _⟩, fun _ => ?_⟩
  rw [wp_gets_bind, wp_ite]
  refine ⟨fun _ => ⟨hslack, Expands.refl _⟩, fun hopt => ?_⟩
  rw [wp_modify_bind]
  have h1 : Inv x 1 { s with operations := s.operations + 1 } :=
    ⟨h.accounts.operate hwork, h.best⟩
  refine Keeps.bind (h1.call fun N _ _ hu => N.prepareExpansion _ _ _ _ _ hu) ?_
  rintro count _ ⟨h2, u, hu, rfl⟩
  rw [wp_ite]
  constructor
  · intro _
    exact ⟨h2.withProgram fun N => N.discardExpansion u, rfl, Nat.le_succ _, le_rfl⟩
  · intro hcount
    have hfits := fits_of_not_gt hopt hcount
    refine Keeps.bind (keeps_call h2.ends _) ?_
    rintro children _ ⟨v, hv, rfl⟩
    rw [wp_modify_bind]
    have hcommit : ∀ N : x.Numbering,
        children.newCanonicalCount = count ∧ N.canonical v = N.canonical u + count.toNat :=
      fun N => N.commitExpansion _ _ _ _ _ _ _ hu hv
    have h3 : Inv x 1 { s with
          program := v
          operations := s.operations + 1
          optionalTargets := s.optionalTargets + children.newCanonicalCount } := by
      refine ⟨(h2.accounts.withProgram v).charge ?_ ?_ ?_, h.best⟩
      · intro N
        exact (Nat.le_add_right _ _).trans_eq (hcommit N).2.symm
      · intro N
        rw [(hcommit N).1]
        exact (hcommit N).2.le
      · intro N
        rw [(hcommit N).1]
        exact hfits
    have hn' : ∀ N : x.Numbering, parent.stableTargetOrdinal.toNat < N.canonical v := by
      intro N
      rw [(hcommit N).2, N.prepareExpansion _ _ _ _ _ hu]
      exact (hn N).trans_le (Nat.le_add_right _ _)
    refine Keeps.bind (keeps_keepParent h3 children.complete hn') ?_
    rintro _ t ⟨h4, hkeep⟩
    refine Keeps.bind (keeps_discoverChildren h4 parent children.children) ?_
    rintro _ w ⟨h5, hdiscover⟩
    exact ⟨h5, hdiscover.searchWork.trans hkeep.searchWork, hdiscover.queue.trans_le hkeep.queue,
      hdiscover.waiting.trans hkeep.waiting⟩

end Materialization

end Ninfer.Planner
