/-
  What a call of `MaterializationPlanner::plan` returns, and within which bounds.

  Of the session it is assumed that the target of an identity is that identity: its assessment has
  the candidate's own status and source mode and touches no owner. The bounds on the targets are
  for sessions that number them consecutively; that the search ends is for every session.
-/
import Ninfer.Planner.MaterializationLoops

namespace Ninfer.Planner

open Lib
open Resources (PrivateSourceMode)

namespace Materialization

variable {τ H C P : Type} {p : Problem τ H C P}

/-! ## The candidates -/

variable {candidates prior : List Candidate} {c : Candidate} {slot : UInt32} {r : Result P}

theorem admitCandidate_ok {input : CandidateInput}
    (h : admitCandidate prior input = .ok candidates) :
    ∃ c, candidates = prior ++ [c] ∧ c.id = input.id ∧ input.candidate = some c.identity := by
  unfold admitCandidate at h
  split at h
  · cases h
  next identity hidentity =>
    split_ifs at h
    cases h
    exact ⟨_, rfl, rfl, hidentity⟩

/-- The admitted candidates are those of the inputs. -/
theorem foldlM_admitCandidate {inputs : List CandidateInput}
    (h : inputs.foldlM admitCandidate prior = .ok candidates) :
    candidates.length = prior.length + inputs.length ∧ ∀ c ∈ candidates, c ∈ prior ∨
        ∃ input ∈ inputs, input.id = c.id ∧ input.candidate = some c.identity := by
  induction inputs generalizing prior with
  | nil =>
    cases h
    exact ⟨rfl, fun c hc => .inl hc⟩
  | cons input inputs ih =>
    rw [List.foldlM_cons] at h
    obtain ⟨next, hnext, h⟩ := bind_eq_ok h
    obtain ⟨c, rfl, hid, hidentity⟩ := admitCandidate_ok hnext
    obtain ⟨hlength, hmem⟩ := ih h
    refine ⟨?_, fun c' hc' => ?_⟩
    · rw [hlength, List.length_append, List.length_singleton, List.length_cons]
      omega
    · rcases hmem c' hc' with hprior | ⟨input', hinput', hrest⟩
      · rcases List.mem_append.mp hprior with hprior | hnew
        · exact .inl hprior
        · rw [List.mem_singleton.mp hnew]
          exact .inr ⟨input, List.mem_cons_self, hid.symm, hidentity⟩
      · exact .inr ⟨input', List.mem_cons_of_mem _ hinput', hrest⟩

/-- What `validate` makes sure of. -/
structure Validated (p : Problem τ H C P) (candidates : List Candidate) : Prop where
  length : candidates.length = p.candidates.length
  root : p.rootCandidateIndex < candidates.length
  inputs : ∀ c ∈ candidates, ∃ input ∈ p.candidates, input.id = c.id ∧
    input.candidate = some c.identity

theorem validate_ok (h : validate p.candidates p.rootCandidateIndex = .ok candidates) :
    Validated p candidates := by
  obtain ⟨_, hroot, h⟩ := bind_eq_ok h
  have hroot := refuse_ok hroot
  obtain ⟨hlength, hinputs⟩ := foldlM_admitCandidate h
  have hlength : candidates.length = p.candidates.length :=
    hlength.trans (Nat.zero_add _)
  refine ⟨hlength, ?_, fun c hc => ?_⟩
  · rw [hlength]
    omega
  · rcases hinputs c hc with hnil | hinput
    · cases hnil
    · exact hinput

theorem candidateAt_mem {index : Nat} (h : index < candidates.length) :
    candidateAt candidates index ∈ candidates := by
  unfold candidateAt
  rw [List.getD_eq_getElem _ _ h]
  exact List.getElem_mem h

/-! ## The identities -/

theorem identityGoal_some (h : p.identityGoal c = .ok (some slot)) :
    c.identity.physicalStatus = .feasible ∧
      p.logicalGoal c.id c.identity.sourceMode [] = .ok (some slot) := by
  unfold Problem.identityGoal at h
  split_ifs at h with hfeasible
  · exact ⟨hfeasible, h⟩
  · cases h

theorem goalFor_some {a : Assessment} (h : p.goalFor a = .ok (some slot)) :
    a.physicalStatus = .feasible ∧
      p.logicalGoal a.candidate a.sourceMode a.ownerOutcomes = .ok (some slot) := by
  unfold Problem.goalFor at h
  split_ifs at h with hfeasible
  · exact ⟨hfeasible, h⟩
  · cases h

variable [Inhabited H] {v w : Survey H}

/-- The best of some identities: one with a goal that costs no more than any other. -/
structure BestIdentity (p : Problem τ H C P) (candidates : List Candidate) (best : Incumbent H) :
    Prop where
  index : best.candidateIndex < candidates.length
  goal : p.identityGoal (candidateAt candidates best.candidateIndex) =
    .ok (some best.publicationSlot)
  cost : best.cost = foldIdentity p.machineCost (candidateAt candidates best.candidateIndex)
  sourceMode : best.sourceMode = (candidateAt candidates best.candidateIndex).identity.sourceMode
  assessed : best.assessed = none
  ownerOutcomes : best.ownerOutcomes = []
  checkpointOutcomes : best.checkpointOutcomes = []
  least : ∀ c ∈ candidates, ∀ slot, p.identityGoal c = .ok (some slot) →
    best.cost.key ≤ (foldIdentity p.machineCost c).key

/-- What the loop over the identities has found out about those it has seen. -/
structure Surveyed (p : Problem τ H C P) (candidates : List Candidate) (v : Survey H) : Prop where
  costs : v.identityCosts.length = candidates.length
  roots : ∀ root ∈ v.roots, root.candidateIndex < candidates.length
  none : v.best = none → ∀ c ∈ candidates, p.identityGoal c = .ok none
  some : ∀ best, v.best = some best → BestIdentity p candidates best

theorem candidateAt_append {index : Nat} (h : index < candidates.length) :
    candidateAt (candidates ++ [c]) index = candidateAt candidates index := by
  unfold candidateAt
  rw [List.getD_append _ _ _ _ h]

theorem candidateAt_length (candidates : List Candidate) (c : Candidate) :
    candidateAt (candidates ++ [c]) candidates.length = c := by
  unfold candidateAt
  rw [List.getD_append_right _ _ _ _ le_rfl, Nat.sub_self]
  rfl

/-- A best identity stays the best if the next one has no goal or costs no less. -/
theorem BestIdentity.append {best : Incumbent H} (h : BestIdentity p candidates best)
    (hle : ∀ slot, p.identityGoal c = .ok (some slot) →
      best.cost.key ≤ (foldIdentity p.machineCost c).key) :
    BestIdentity p (candidates ++ [c]) best where
  index := by
    rw [List.length_append]
    exact h.index.trans_le (Nat.le_add_right _ _)
  goal := by
    rw [candidateAt_append h.index]
    exact h.goal
  cost := by
    rw [candidateAt_append h.index]
    exact h.cost
  sourceMode := by
    rw [candidateAt_append h.index]
    exact h.sourceMode
  assessed := h.assessed
  ownerOutcomes := h.ownerOutcomes
  checkpointOutcomes := h.checkpointOutcomes
  least := forall_mem_push h.least hle

/-- An identity with a goal that costs less than all before is the best. -/
theorem BestIdentity.new (hgoal : p.identityGoal c = .ok (some slot))
    (hle : ∀ c' ∈ candidates, ∀ slot', p.identityGoal c' = .ok (some slot') →
      (foldIdentity p.machineCost c).key ≤ (foldIdentity p.machineCost c').key) :
    BestIdentity p (candidates ++ [c])
      ({ candidateIndex := candidates.length
         publicationSlot := slot
         sourceMode := c.identity.sourceMode
         cost := foldIdentity p.machineCost c } : Incumbent H) where
  index := by simp
  goal := by
    rw [candidateAt_length]
    exact hgoal
  cost := by rw [candidateAt_length]
  sourceMode := by rw [candidateAt_length]
  assessed := rfl
  ownerOutcomes := rfl
  checkpointOutcomes := rfl
  least := forall_mem_push hle fun _ _ => le_rfl

theorem surveyed_offer {goal : Option UInt32} (h : Surveyed p candidates v)
    (hgoal : p.identityGoal c = .ok goal) :
    (v.offer c (foldIdentity p.machineCost c) goal = none →
      ∀ c' ∈ candidates ++ [c], p.identityGoal c' = .ok none) ∧
    ∀ best, v.offer c (foldIdentity p.machineCost c) goal = some best →
      BestIdentity p (candidates ++ [c]) best := by
  cases goal with
  | none =>
    refine ⟨fun hnone => forall_mem_push (h.none hnone) hgoal, fun best hbest => ?_⟩
    refine (h.some best hbest).append fun slot hslot => ?_
    rw [hgoal] at hslot
    cases hslot
  | some slot =>
    unfold Survey.offer
    dsimp only
    split_ifs with hless
    · refine ⟨nofun, fun best hbest => ?_⟩
      cases hbest
      rw [h.costs]
      refine BestIdentity.new hgoal fun c' hc' slot' hslot' => ?_
      cases hold : v.best with
      | none =>
        rw [h.none hold c' hc'] at hslot'
        cases hslot'
      | some old =>
        rw [hold, Option.all_some, FoldedCost.less_iff] at hless
        exact hless.le.trans ((h.some old hold).least c' hc' slot' hslot')
    · refine ⟨fun hnone => ?_, fun best hbest => ?_⟩
      · rw [hnone] at hless
        exact absurd rfl hless
      · refine (h.some best hbest).append fun _ _ => not_lt.mp fun hlt => hless ?_
        rw [hbest, Option.all_some, FoldedCost.less_iff]
        exact hlt

theorem surveyCandidate_ok (h : Surveyed p candidates v) (hstep : surveyCandidate p v c = .ok w) :
    Surveyed p (candidates ++ [c]) w := by
  obtain ⟨goal, hgoal, hstep⟩ := bind_eq_ok hstep
  cases hstep
  obtain ⟨hnone, hsome⟩ := surveyed_offer h hgoal
  refine ⟨?_, ?_, hnone, hsome⟩
  · show (v.identityCosts ++ [_]).length = _
    rw [List.length_append, List.length_append, h.costs]
    rfl
  · rw [List.length_append, List.length_singleton]
    exact forall_mem_push (fun root hroot => (h.roots root hroot).trans (Nat.lt_succ_self _))
      (h.costs.trans_lt (Nat.lt_succ_self _))

/-- Run lemma of the loop over the identities. -/
theorem foldlM_surveyCandidate {seen : List Candidate} (h : Surveyed p seen v)
    (hrun : candidates.foldlM (surveyCandidate p) v = .ok w) :
    Surveyed p (seen ++ candidates) w := by
  induction candidates generalizing seen v with
  | nil =>
    cases hrun
    rw [List.append_nil]
    exact h
  | cons c candidates ih =>
    rw [List.foldlM_cons] at hrun
    obtain ⟨next, hnext, hrun⟩ := bind_eq_ok hrun
    have hrest := ih (surveyCandidate_ok h hnext) hrun
    rw [List.append_assoc] at hrest
    exact hrest

theorem surveyed_nil : Surveyed p [] ({} : Survey H) :=
  ⟨rfl, nofun, fun _ => nofun, fun _ h => absurd h.symm (Option.some_ne_none _)⟩

/-! ## The first incumbent -/

variable {x : Setting τ H C P} {d : Nat} {s t : Search τ H C}

/-- The state in which a session begins. -/
structure Begun (x : Setting τ H C P) (s : Search τ H C) : Prop where
  owners : s.owners = x.pressure.ownerPolicy.length
  operations : s.operations = 0
  searchWork : s.searchWork = 0
  optionalTargets : s.optionalTargets = 0
  ledger : s.ledger = .empty (x.candidates.length + 1 + 4096)
  queue : s.queue = []
  pending : s.pending = []
  visited : ∀ i, (s.paths i).visited = []
  rejected : s.rejected = false
  nextPath : s.nextPath = 0
  assessments : s.assessments = []

theorem Begun.accounts (h : Begun x s) {κ : x.Counts} (hκ : ∀ N, κ N = x.candidates.length) :
    Accounts x κ 0 s where
  owners := h.owners
  operations := by rw [h.operations]; exact Nat.zero_le _
  work := by rw [h.searchWork]; exact Nat.zero_le _
  capacity := by rw [h.ledger]; rfl
  marks := by rw [h.ledger]; exact nofun
  numbered N :=
    { counted := by rw [hκ N]; omega
      roots := (hκ N).ge
      optional := by rw [h.optionalTargets]; exact Nat.zero_le _
      marks := by rw [h.ledger]; exact nofun
      queue := by rw [h.queue]; exact List.forall_mem_nil _
      pending := by rw [h.pending]; exact List.forall_mem_nil _
      visited := fun i => by rw [h.visited i]; exact List.forall_mem_nil _
      rejected := h.rejected }

theorem BestIdentity.best {best : Incumbent H} {target : H}
    (h : BestIdentity x.problem x.candidates best)
    (htarget : ∃ s u, x.session.identityTarget (x.candidate best.candidateIndex).id s =
      .ok (target, u)) : Best x { best with target } [] where
  index := h.index
  identity _ := ⟨htarget, h.goal, h.cost, h.sourceMode, h.ownerOutcomes, h.checkpointOutcomes⟩
  target a ha := by
    rw [h.assessed] at ha
    cases ha
  identities := h.least
  assessed := List.forall_mem_nil _

/-- No identity is feasible with a goal, and not the Root maximal target of a session that began in
    the state `s`. -/
structure Infeasible (p : Problem τ H C P) (candidates : List Candidate) (s : τ) : Prop where
  identities : ∀ c ∈ candidates, p.identityGoal c = .ok none
  root : ∃ target u a v,
    p.session.rootMaximalTarget (candidateAt candidates p.rootCandidateIndex).id s =
      .ok (target, u) ∧
    p.session.assess target u = .ok (a, v) ∧ p.goalFor a = .ok none

/-- The first incumbent is a best one, or nothing is feasible. -/
theorem keeps_firstIncumbent (h : Begun x s) (hsurvey : Surveyed x.problem x.candidates x.survey)
    (hroot : x.problem.rootCandidateIndex < x.candidates.length)
    (hcounts : ∀ N : x.Numbering, N.canonical s.program = x.candidates.length) :
    wp (firstIncumbent x) (Keeps x fun found t => (found = true → Ready x t) ∧
      (found = false → Ends x t ∧ Infeasible x.problem x.candidates s.program)) s := by
  have h0 := h.accounts hcounts
  unfold firstIncumbent
  cases hbest : x.survey.best with
  | some best =>
    refine Keeps.bind (keeps_call h0.ends _) ?_
    rintro target _ ⟨u, hu, rfl⟩
    have h1 := h.accounts (κ := x.counts u) fun N =>
      (N.identityTarget _ _ _ _ hu).trans (hcounts N)
    refine ⟨fun _ => ⟨⟨(h1.withProgram u).withIncumbent s.candidateSeeded _, ?_⟩, h.nextPath⟩,
      nofun⟩
    rw [h.assessments]
    exact (hsurvey.some best hbest).best ⟨s.program, u, hu⟩
  | none =>
    have hnone := hsurvey.none hbest
    refine Keeps.bind (keeps_call h0.ends _) ?_
    rintro target _ ⟨u, hu, rfl⟩
    have h1 := h0.withProgram u
    refine Keeps.bind (R := fun a t => ∃ v, x.session.assess target u = .ok (a, v) ∧ t = { s with
        program := v
        assessments := s.assessments ++ [(x.candidate x.problem.rootCandidateIndex, a)] }) ?_ ?_
    · refine Keeps.bind (keeps_call h1.ends _) ?_
      rintro a _ ⟨v, hv, rfl⟩
      exact ⟨v, hv, rfl⟩
    rintro a _ ⟨v, hv, rfl⟩
    have h2 := (h0.withProgram v).withAssessments
      (s.assessments ++ [(x.candidate x.problem.rootCandidateIndex, a)])
    refine Keeps.bind (keeps_require h2.ends _ _) ?_
    rintro _ _ ⟨rfl, hcandidate⟩
    refine Keeps.bind (keeps_answer h2.ends _) ?_
    rintro goal _ ⟨rfl, hgoal⟩
    cases goal with
    | none => exact ⟨nofun, fun _ => ⟨h2.ends, hnone, target, u, a, v, hu, hv, hgoal⟩⟩
    | some slot =>
      refine Keeps.bind (keeps_answer h2.ends _) ?_
      rintro cost _ ⟨rfl, hcost⟩
      rw [wp_modify_bind]
      have hkept : ∀ N : x.Numbering,
          N.canonical v = N.canonical u := fun N => (N.assess _ _ _ _ hv).1
      -- the Root maximal target is the one target that is not charged
      have hle : ∀ N : x.Numbering, N.canonical s.program ≤ N.canonical v ∧
            N.canonical v ≤ x.candidates.length + 1 := by
        intro N
        rw [hkept N]
        rcases N.rootMaximalTarget _ _ _ _ hu with heq | ⟨heq, _⟩
        all_goals
          rw [heq, hcounts N]
          omega
      have h3 : Accounts x (x.counts v) 0 _ := (h2.withIncumbent s.candidateSeeded
          (makeIncumbent target x.problem.rootCandidateIndex a cost slot)).grow
        (fun N => (hle N).1) fun N => (hle N).2.trans (Nat.le_add_right _ _)
      have hn : ∀ N, a.stableTargetOrdinal.toNat < x.counts v N := by
        intro N
        obtain ⟨_, heq, hlt⟩ := N.assess _ _ _ _ hv
        rw [heq]
        exact hlt.trans_eq (hkept N).symm
      refine Keeps.bind (keeps_markTarget h3.ends _ fun N => h3.room (hn N)) ?_
      rintro _ _ ⟨rfl, hroom⟩
      refine ⟨fun _ => ⟨⟨h3.mark _ hroom hn, ?_⟩, h.nextPath⟩, nofun⟩
      rw [h.assessments]
      refine ⟨hroot, nofun, ?_, ?_, ?_⟩
      · intro b hb
        rw [← Option.some.inj hb]
        exact holdsTarget_makeIncumbent ⟨u, v, hv⟩ hcandidate hgoal hcost
      · intro c hc slot' hslot'
        rw [hnone c hc] at hslot'
        cases hslot'
      · intro e he slot' cost' _ hcost'
        rw [List.mem_singleton.mp he, hcost] at hcost'
        rw [Except.ok.inj hcost']
        exact le_rfl

/-! ## Sealing -/

/-- What an incumbent is sealed with. -/
def Confirmed (x : Setting τ H C P) (incumbent : Incumbent H) (a : Assessment) : Prop :=
  HoldsTarget x incumbent a ∨
    HoldsIdentity x incumbent ∧ (∃ s u, x.session.assess incumbent.target s = .ok (a, u)) ∧
      a.physicalStatus = .feasible

theorem keeps_confirmIncumbent (h : Inv x d s) :
    wp (confirmIncumbent x s.incumbent) (Keeps x fun a t => Ends x t ∧
      t.assessments = s.assessments ∧ Confirmed x s.incumbent a) s := by
  have hends := h.ends
  unfold confirmIncumbent
  cases hassessed : s.incumbent.assessed with
  | some a => exact ⟨hends, rfl, .inl (h.best.target a hassessed)⟩
  | none =>
    have hoperate : Ends x { s with operations := s.operations + 1 } := by
      have hoperations := h.accounts.operations
      have hwork := h.accounts.work
      refine ⟨hends.owners, ?_, hends.capacity, hends.marks, hends.optional, hends.rejected⟩
      show s.operations + 1 ≤ x.workLimit.toNat + 1
      omega
    unfold operate
    rw [wp_modify_bind]
    refine Keeps.bind (keeps_call hoperate _) ?_
    rintro a _ ⟨u, hu, rfl⟩
    have hcalled : Ends x { s with program := u, operations := s.operations + 1 } :=
      { hoperate with }
    refine Keeps.bind (keeps_require hcalled _ _) ?_
    rintro _ _ ⟨rfl, _, hfeasible⟩
    exact ⟨hcalled, rfl, .inr ⟨h.best.identity hassessed, ⟨s.program, u, hu⟩, hfeasible⟩⟩

/-- The result is sealed from a confirmed incumbent. -/
def SealedFrom (x : Setting τ H C P) (assessments : List (Candidate × Assessment))
    (r : Result P) : Prop :=
  ∃ incumbent a, Best x incumbent assessments ∧ Confirmed x incumbent a ∧
    (∃ frontiers s u, x.session.sealTarget incumbent.target a frontiers s = .ok (some r.plan, u)) ∧
    r.candidate = (x.candidate incumbent.candidateIndex).id ∧
    r.publicationSlot = incumbent.publicationSlot ∧ r.sourceMode = incumbent.sourceMode ∧
    r.ownerOutcomes = incumbent.ownerOutcomes ∧
    r.checkpointOutcomes = incumbent.checkpointOutcomes

theorem Ends.withProgram (h : Ends x s) (u : τ) : Ends x { s with program := u } :=
  { h with }

theorem keeps_sealIncumbent (h : Inv x d s) :
    wp (sealIncumbent x) (Keeps x fun r t => Ends x t ∧ SealedFrom x t.assessments r) s := by
  unfold sealIncumbent
  rw [wp_gets_bind]
  refine Keeps.bind (keeps_confirmIncumbent h) ?_
  rintro a t ⟨ht, hassessments, hconfirmed⟩
  refine Keeps.bind (keeps_call ht _) ?_
  rintro frontiers _ ⟨u, _, rfl⟩
  refine Keeps.bind (keeps_call (ht.withProgram u) _) ?_
  rintro plan _ ⟨v, hv, rfl⟩
  cases plan with
  | none => exact ht.withProgram v
  | some plan =>
    refine ⟨ht.withProgram v, s.incumbent, a, ?_, hconfirmed, ⟨frontiers, u, v, hv⟩, rfl, rfl, rfl,
      rfl, rfl⟩
    rw [hassessments]
    exact h.best

/-! ## A whole call -/

/-- The bounds of a call, by the number of owners that it found. -/
structure Landed (p : Problem τ H C P) (s : Search τ H C) : Prop where
  operations : s.operations ≤ kTargetBudget.toNat * (16 + 16 * s.owners) + 1
  marks : ∀ n m, s.ledger.marked n m = true → n < p.candidates.length + 1 + kTargetBudget.toNat
  optional : ∀ _ : Numbering p.session p.candidates.length,
    s.optionalTargets.toNat ≤ kTargetBudget.toNat
  rejected : ∀ _ : Numbering p.session p.candidates.length, s.rejected = false

theorem toNat_workLimit_le (x : Setting τ H C P) :
    x.workLimit.toNat ≤ 4096 * (16 + 16 * x.pressure.ownerPolicy.length) := by
  unfold Setting.workLimit
  rw [UInt64.toNat_mul, UInt64.toNat_add, UInt64.toNat_mul, UInt64.toNat_ofNat']
  refine (Nat.mod_le _ _).trans (Nat.mul_le_mul_left 4096 ((Nat.mod_le _ _).trans ?_))
  refine Nat.add_le_add_left ((Nat.mod_le _ _).trans ?_) 16
  exact Nat.mul_le_mul_left 16 (Nat.mod_le _ _)

theorem Ends.landed (h : Ends x s) (hlength : x.candidates.length = x.problem.candidates.length) :
    Landed x.problem s where
  operations := by
    rw [h.owners]
    exact h.operations.trans (Nat.add_le_add_right (toNat_workLimit_le x) 1)
  marks n m hm := by
    rw [← hlength]
    exact (h.marks n m hm).trans_eq h.capacity
  optional := by
    rw [← hlength]
    exact h.optional
  rejected := by
    rw [← hlength]
    exact h.rejected

theorem Begun.ends (h : Begun x s) : Ends x s where
  owners := h.owners
  operations := by rw [h.operations]; exact Nat.zero_le _
  capacity := by rw [h.ledger]; rfl
  marks := by rw [h.ledger]; exact nofun
  optional _ := by rw [h.optionalTargets]; exact Nat.zero_le _
  rejected _ := h.rejected

theorem Begun.withProgram (h : Begun x s) (u : τ) : Begun x { s with program := u } :=
  { h with }

theorem Ready.withMeters (h : Ready x s) (m : Meters) : Ready x { s with meters := m } :=
  ⟨h.inv.withMeters m, h.nextPath⟩

theorem keeps_searchOrigin (h : Ready x s) (started : Int) :
    wp (searchOrigin x started) (Keeps x fun _ t => Ready x t) s := by
  unfold searchOrigin
  rw [wp_ite]
  refine ⟨fun _ => h, fun _ => ?_⟩
  refine Keeps.bind keeps_tick ?_
  rintro reading _ ⟨m, rfl⟩
  exact h.withMeters m

theorem keeps_startBudget (h : Ready x s) (origin : Int) :
    wp (startBudget x origin) (Keeps x fun _ t => Ready x t) s := by
  refine Keeps.bind keeps_tick ?_
  rintro reading _ ⟨m, rfl⟩
  rw [wp_gets_bind]
  refine Keeps.mono (keeps_withMeters _) ?_
  rintro _ _ ⟨m', rfl⟩
  exact h.withMeters m'

/-- The part of a call that has a session. -/
theorem keeps_planSearch (h : Begun x s) (hsurvey : Surveyed x.problem x.candidates x.survey)
    (hroot : x.problem.rootCandidateIndex < x.candidates.length) (started : Int) :
    wp (planSearch x started) (Keeps x fun r t => Ends x t ∧
      (r = none → ∃ u, x.session.beginPressurePlanning s.program = .ok ((), u) ∧
        Infeasible x.problem x.candidates u) ∧
      ∀ result, r = some result → SealedFrom x t.assessments result) s := by
  refine Keeps.bind (keeps_call h.ends _) ?_
  rintro _ _ ⟨u, hu, rfl⟩
  refine Keeps.bind (keeps_firstIncumbent (h.withProgram u) hsurvey hroot fun N =>
    N.begins _ _ _ hu) ?_
  rintro found t ⟨hfound, hnone⟩
  rw [wp_ite]
  constructor
  · intro htrue
    refine Keeps.bind (keeps_searchOrigin (hfound htrue) started) ?_
    rintro origin t ht
    refine Keeps.bind (keeps_startBudget ht origin) ?_
    rintro _ t ht
    refine Keeps.bind (keeps_search ht hsurvey.roots) ?_
    rintro _ t ⟨d, ht⟩
    refine Keeps.bind (keeps_sealIncumbent ht) ?_
    rintro r t ⟨hends, hsealed⟩
    refine ⟨hends, nofun, ?_⟩
    intro result hresult
    rw [← Option.some.inj hresult]
    exact hsealed
  · intro hfalse
    obtain ⟨hends, hinfeasible⟩ := hnone (Bool.eq_false_iff.mpr hfalse)
    exact ⟨hends, fun _ => ⟨u, hu, hinfeasible⟩,
      fun _ hsome => absurd hsome.symm (Option.some_ne_none _)⟩

/-- The identity of `c` is scheduled and sealed in the state `program`. -/
def SealsIdentity (p : Problem τ H C P) (program : τ) (c : Candidate) (plan : Option P) : Prop :=
  ∃ frontiers u v, p.session.scheduleIdentity c.id program = .ok (frontiers, u) ∧
    p.session.sealIdentity c.id frontiers u = .ok (plan, v)

/-- What a call of `plan` may return. -/
inductive Reported (p : Problem τ H C P) (program : τ) (candidates : List Candidate)
    (t : Search τ H C) : Option (Result P) → Prop where
  | unsealed {best : Incumbent H} (hbest : BestIdentity p candidates best)
      (hseal : SealsIdentity p program (candidateAt candidates best.candidateIndex) none) :
      Reported p program candidates t none
  | infeasible {pressure : PressureInputs} {u v : τ}
      (hpressure : p.session.pressureInputs program = .ok (pressure, u))
      (hbegins : p.session.beginPressurePlanning u = .ok ((), v))
      (h : Infeasible p candidates v) : Reported p program candidates t none
  | identity {best : Incumbent H} {r : Result P} (hbest : BestIdentity p candidates best)
      (hassessments : t.assessments = [])
      (hseal : SealsIdentity p program (candidateAt candidates best.candidateIndex) (some r.plan))
      (hr : r = { plan := r.plan
                  candidate := (candidateAt candidates best.candidateIndex).id
                  publicationSlot := best.publicationSlot
                  sourceMode := best.sourceMode }) :
      Reported p program candidates t (some r)
  | target {x : Setting τ H C P} {r : Result P} {u : τ} (hproblem : x.problem = p)
      (hcandidates : x.candidates = candidates)
      (hpressure : p.session.pressureInputs program = .ok (x.pressure, u))
      (hsealed : SealedFrom x t.assessments r) : Reported p program candidates t (some r)

section Early

variable (p) (program : τ) (seeded : List Bool) (m : Meters) (u : τ) (owners : Nat)

/-- The state of a call before its session begins. -/
def early : Search τ H C :=
  { Search.new p program with candidateSeeded := seeded, meters := m, program := u, owners }

theorem landed_early : Landed p (early p program seeded m u owners : Search τ H C) where
  operations := Nat.zero_le _
  marks := nofun
  optional _ := Nat.zero_le _
  rejected _ := rfl

theorem wp_earlyCall {α β : Type} {call' : Call τ α} {f : α → Eff (Search τ H C) β}
    {R : β → Search τ H C → Prop}
    (hf : ∀ a v, call' u = .ok (a, v) →
      wp (f a) ⟨R, fun _ t => Landed p t, False⟩ (early p program seeded m v owners)) :
    wp (call call' >>= f) ⟨R, fun _ t => Landed p t, False⟩
      (early p program seeded m u owners) := by
  rw [wp_bind]
  unfold wp call early
  dsimp only
  cases hcall : call' u with
  | error e => exact landed_early p program seeded m u owners
  | ok r => exact hf r.1 r.2 hcall

end Early

theorem wp_takesIdentity {survey : Survey H} :
    wp (takesIdentity p survey) ⟨fun b t => (∃ m, t = { s with meters := m }) ∧
      (b = true → ∃ best, survey.best = some best), fun _ _ => False, False⟩ s := by
  unfold takesIdentity
  cases hbest : survey.best with
  | none => exact ⟨⟨s.meters, rfl⟩, nofun⟩
  | some best => exact ⟨⟨_, rfl⟩, fun _ => ⟨best, rfl⟩⟩

theorem wp_sealIdentity {best : Incumbent H} (hbest : BestIdentity p candidates best)
    (program : τ) (seeded : List Bool) (m : Meters) :
    wp (sealIdentity p (candidateAt candidates best.candidateIndex) best)
      ⟨fun r t => Landed p t ∧ Reported p program candidates t r, fun _ t => Landed p t, False⟩
      (early p program seeded m program 0 : Search τ H C) := by
  refine wp_earlyCall p program seeded m program 0 fun frontiers v hv => ?_
  refine wp_earlyCall p program seeded m v 0 fun plan w hw => ?_
  cases plan with
  | none => exact ⟨landed_early _ _ _ _ _ _, .unsealed hbest ⟨frontiers, v, w, hv, hw⟩⟩
  | some plan =>
    exact ⟨landed_early _ _ _ _ _ _, .identity hbest rfl ⟨frontiers, v, w, hv, hw⟩ rfl⟩

/-- Every call of `plan` ends, within its bounds, and returns what it should. -/
theorem wp_plan (p : Problem τ H C P) (program : τ) :
    wp (plan p) ⟨fun r t => Landed p t ∧ ∃ candidates,
      validate p.candidates p.rootCandidateIndex = .ok candidates ∧
        Reported p program candidates t r, fun _ t => Landed p t, False⟩
      (Search.new p program : Search τ H C) := by
  have hlanded := landed_early (H := H) (C := C) p program []
    { budget := { allowance := p.allowance, started := 0, granted := 0 } } program 0
  unfold plan
  rw [wp_bind, wp_answer]
  refine ⟨fun candidates hvalidate => ?_, fun _ _ => hlanded⟩
  have hvalidated := validate_ok hvalidate
  dsimp only
  rw [wp_bind, wp_answer]
  refine ⟨fun survey hsurvey => ?_, fun _ _ => hlanded⟩
  have hsurveyed := foldlM_surveyCandidate surveyed_nil hsurvey
  rw [List.nil_append] at hsurveyed
  dsimp only
  rw [wp_modify_bind, wp_bind]
  refine wp_mono wp_takesIdentity ?_ (fun _ _ hfalse => hfalse.elim) False.elim
  rintro immediate _ ⟨⟨m, rfl⟩, himmediate⟩
  dsimp only
  rw [wp_ite]
  constructor
  · intro htrue
    obtain ⟨best, hbest⟩ := himmediate htrue
    rw [hbest]
    refine wp_mono (wp_sealIdentity (hsurveyed.some best hbest) program survey.candidateSeeded m)
      ?_ (fun _ _ ht => ht) False.elim
    rintro r t ⟨ht, hreported⟩
    exact ⟨ht, candidates, hvalidate, hreported⟩
  · intro _
    rw [wp_bind]
    refine wp_earlyCall p program survey.candidateSeeded _ program 0 fun pressure u hu => ?_
    rw [wp_bind, wp_require]
    refine ⟨fun _ => landed_early _ _ _ _ _ _, fun _ => ?_⟩
    dsimp only
    rw [wp_modify_bind]
    have hbegun : ∀ m, Begun (⟨p, candidates, survey, pressure⟩ : Setting τ H C P)
        (early p program survey.candidateSeeded m u pressure.ownerPolicy.length) := by
      intro m
      refine ⟨rfl, rfl, rfl, rfl, ?_, rfl, rfl, fun _ => rfl, rfl, rfl, rfl⟩
      rw [hvalidated.length]
      rfl
    refine wp_mono (keeps_planSearch (hbegun _) hsurveyed hvalidated.root _) ?_
      (fun _ t ht => ht.landed hvalidated.length) id
    rintro r t ⟨hends, hnone, hsome⟩
    refine ⟨hends.landed hvalidated.length, candidates, hvalidate, ?_⟩
    cases r with
    | none =>
      obtain ⟨v, hv, hinfeasible⟩ := hnone rfl
      exact .infeasible hu hv hinfeasible
    | some result => exact .target rfl rfl hu (hsome result rfl)

/-- The target of an identity is that identity. -/
def Problem.DocumentsIdentities (p : Problem τ H C P) : Prop :=
  ∀ input ∈ p.candidates, ∀ identity, input.candidate = some identity →
    ∀ target s t, p.session.identityTarget input.id s = .ok (target, t) →
      ∀ a u v, p.session.assess target u = .ok (a, v) →
        a.candidate = input.id ∧ a.physicalStatus = identity.physicalStatus ∧
          a.sourceMode = identity.sourceMode ∧ a.ownerOutcomes = [] ∧ a.checkpointImpacts = []

/-! ## A session with four targets -/

/-- The identity, the Root maximal target, one that the construction reaches, and one that the
    expansion of the identity finds. -/
inductive SmallTarget where
  | identity
  | maximal
  | constructed
  | expanded
  deriving Inhabited, DecidableEq

/-- The owners that each target evicts. -/
def smallOwners : SmallTarget → List UInt32
  | .identity => []
  | .maximal => [0, 1]
  | .constructed => [0]
  | .expanded => [1]

def smallOutcomes (target : SmallTarget) : List PressureOwnerOutcome :=
  (smallOwners target).map fun owner => { owner := ⟨owner⟩, disposition := .evicted }

def smallTokens : SmallTarget → UInt64
  | .identity => 0
  | .maximal => 90
  | .constructed => 40
  | .expanded => 30

def smallWork (target : SmallTarget) : MaterializationMachineWork :=
  { remainingPrefillWork := { tokens := smallTokens target } }

def smallAssessment (target : SmallTarget) : Assessment :=
  { physicalStatus := if target = .identity then .infeasible else .feasible
    machineWork := smallWork target
    ownerOutcomes := smallOutcomes target
    candidate := ⟨0⟩
    stableTargetOrdinal := UInt32.ofNat target.ctorIdx
    rootMaximal := target = .maximal }

def smallGuidance (target : SmallTarget) : PressureTargetGuidance :=
  { physical := { unsatisfiedConstraints := if target = .identity then 1 else 0 }
    estimatedMachineWork := smallWork target
    ownerOutcomes := smallOutcomes target
    candidate := ⟨0⟩
    stableTargetOrdinal := UInt32.ofNat target.ctorIdx
    recoveryEstimateComplete := true }

/-- What a session with `s` targets says of one of them. -/
def known {α : Type} (target : SmallTarget) (a : α) : Call Nat α := fun s =>
  if target.ctorIdx < s then .ok (a, s) else .error (.logicError "unknown target")

/-- The target is new where it is the next one. -/
def named (target : SmallTarget) : Call Nat SmallTarget := fun s =>
  .ok (target, if s = target.ctorIdx then s + 1 else s)

/-- The state of this session is the number of its targets. -/
def smallSession : Session Nat SmallTarget Unit Unit where
  pressureInputs s := .ok ({ ownerPolicy := [{ owner := ⟨0⟩ }, { owner := ⟨1⟩ }] }, s)
  beginPressurePlanning _ := .ok ((), 1)
  identityTarget _ s := .ok (.identity, s)
  rootMaximalTarget _ := named .maximal
  maximalTarget _ := named .maximal
  guidance target := known target (smallGuidance target)
  assess target := known target (smallAssessment target)
  prepareExpansion _ _ s := .ok (if s = 3 then 1 else 0, s)
  discardExpansion s := s
  commitExpansion s := .ok (if s = 3 then (⟨[.expanded], 1, true⟩, 4) else (⟨[], 0, true⟩, s))
  beginConstruction _ _ s := .ok ((), s)
  nextConstructionOption _ s :=
    .ok ({ guidance := some (smallGuidance .constructed), exhausted := true }, s)
  chooseConstruction _ _ s := .ok ((), s)
  constructionTarget _ s := .ok (some .constructed, if s = 2 then 3 else s)
  releaseCursor _ s := s
  scheduleIdentity _ s := .ok ([], s)
  scheduleTarget _ _ s := .ok ([], s)
  sealIdentity _ _ s := .ok (none, s)
  sealTarget _ _ _ s := .ok (some (), s)

/-- One candidate whose identity does not fit. The clock stands still. -/
def smallProblem : Problem Nat SmallTarget Unit Unit where
  session := smallSession
  machineCost :=
    { price := fun work => { immediateNs := work.remainingPrefillWork.tokens * 1000000 }
      recoveryNs := fun _ => 0
      transferNs := fun _ _ => 0 }
  candidates :=
    [{ candidate := some { physicalStatus := .infeasible, expandable := true }
       id := ⟨0⟩ }]
  rootCandidateIndex := 0
  logicalGoal _ _ _ := .ok (some 3)
  allowance := { startedNs := 0 }
  now _ := 0
  cancelled _ := false

def smallResult : Result Unit :=
  { plan := ()
    candidate := ⟨0⟩
    publicationSlot := 3
    sourceMode := .consumeToActive
    ownerOutcomes := smallOutcomes .expanded }

theorem next_or_same (n s : Nat) :
    (if s = n then s + 1 else s) = s ∨ (if s = n then s + 1 else s) = s + 1 ∧ n = s := by
  split_ifs with h
  · exact .inr ⟨rfl, h.symm⟩
  · exact .inl rfl

theorem known_ok {α : Type} {target : SmallTarget} {s u : Nat} {a b : α}
    (h : known target a s = .ok (b, u)) : target.ctorIdx < s ∧ a = b ∧ s = u := by
  unfold known at h
  split_ifs at h with hlt
  cases h
  exact ⟨hlt, rfl, rfl⟩

/-- The result that a call returned, with the number of its operations and optional targets and
    the ordinals that it assessed. -/
def returnedPlan (o : Outcome (Search τ H C) (Option (Result P))) :
    Option (Result P × Nat × UInt32 × List UInt32) :=
  match o with
  | .ok (some r) t =>
    some (r, t.operations, t.optionalTargets, t.assessments.map (·.2.stableTargetOrdinal))
  | _ => none

/-- The session numbers its targets as they are found. -/
def smallNumbering : Numbering smallProblem.session smallProblem.candidates.length where
  canonical := id
  ordinalOf := SmallTarget.ctorIdx
  begins s a u h := by
    cases h
    rfl
  identityTarget id s target u h := by
    cases h
    rfl
  rootMaximalTarget id s target u h := by
    cases h
    exact next_or_same 1 s
  maximalTarget id s target u h := by
    cases h
    exact next_or_same 1 s
  constructionTarget c s o u h := by
    cases h
    by_cases hs : s = 2
    · subst hs
      exact .inr ⟨rfl, .constructed, rfl, rfl⟩
    · exact .inl (if_neg hs)
  guidance target s guide u h := by
    obtain ⟨hlt, rfl, rfl⟩ := known_ok h
    refine ⟨rfl, ?_, hlt⟩
    cases target <;> rfl
  assess target s a u h := by
    obtain ⟨hlt, rfl, rfl⟩ := known_ok h
    refine ⟨rfl, ?_, hlt⟩
    cases target <;> rfl
  prepareExpansion target n s count u h := by
    cases h
    rfl
  discardExpansion s := rfl
  commitExpansion target n s count t e u hprepare hcommit := by
    cases hprepare
    have hcommit := Except.ok.inj hcommit
    by_cases hs : s = 3
    all_goals
      simp only [hs, if_true, if_false, Prod.mk.injEq] at hcommit ⊢
      obtain ⟨rfl, rfl⟩ := hcommit
      exact ⟨rfl, rfl⟩
  beginConstruction target r s c u h := by
    cases h
    rfl
  nextConstructionOption c s o u h := by
    cases h
    rfl
  chooseConstruction c o s a u h := by
    cases h
    rfl
  releaseCursor c s := rfl

theorem smallProblem_documentsIdentities : smallProblem.DocumentsIdentities := by
  intro input hinput identity hidentity target s t htarget a u v ha
  cases htarget
  obtain ⟨_, rfl, rfl⟩ := known_ok ha
  cases List.mem_singleton.mp hinput
  cases hidentity
  exact ⟨rfl, rfl, rfl, rfl, rfl⟩

/-- The search constructs a target, expands the identity, and takes what the expansion found. -/
theorem smallProblem_plan : ∃ t, plan smallProblem (Search.new smallProblem 0) =
      .ok (some smallResult) t ∧ t.operations = 5 ∧ t.optionalTargets = 2 ∧
        t.assessments.map (·.2.stableTargetOrdinal) = [1, 2, 3] := by
  have hplan : returnedPlan (plan smallProblem (Search.new smallProblem 0)) =
      some (smallResult, 5, 2, [1, 2, 3]) := by decide +kernel
  unfold returnedPlan at hplan
  split at hplan
  next r t h =>
    simp only [Option.some.injEq, Prod.mk.injEq] at hplan
    obtain ⟨rfl, hrest⟩ := hplan
    exact ⟨t, h, hrest⟩
  next => cases hplan

/-! ## The results -/

/-- The search of every call ends. It makes at most one operation more than the work limit, the
    confirmation of an identity; the optional targets stay within their budget, and every ordinal
    that a numbering session names has its place in the ledger. -/
theorem materialization_search_is_bounded (p : Problem τ H C P) (program : τ) :
    plan p (Search.new p program : Search τ H C) ≠ .dead ∧
    ∀ t, (plan p (Search.new p program : Search τ H C)).Lands t →
      t.operations ≤ kTargetBudget.toNat * (16 + 16 * t.owners) + 1 ∧
      (∀ n m, t.ledger.marked n m = true → n < p.candidates.length + 1 + kTargetBudget.toNat) ∧
      ∀ _ : Numbering p.session p.candidates.length,
        t.optionalTargets.toNat ≤ kTargetBudget.toNat ∧ t.rejected = false := by
  have h := wp_plan (H := H) (C := C) p program
  refine ⟨wp_not_dead h id, fun t ht => ?_⟩
  have hlanded : Landed p t :=
    wp_lands (wp_imp h (fun _ _ ht => ht.1)) ht
  exact ⟨hlanded.operations, hlanded.marks, fun N => ⟨hlanded.optional N, hlanded.rejected N⟩⟩

theorem materialization_search_is_bounded_small :
    ∃ t, plan smallProblem (Search.new smallProblem 0) = .ok (some smallResult) t ∧
      t.operations = 5 ∧ t.optionalTargets = 2 ∧
      t.operations ≤ kTargetBudget.toNat * (16 + 16 * t.owners) + 1 ∧
      t.optionalTargets.toNat ≤ kTargetBudget.toNat ∧ t.rejected = false := by
  obtain ⟨t, ht, hfive, htwo, _⟩ := smallProblem_plan
  obtain ⟨_, hbounds⟩ := materialization_search_is_bounded smallProblem 0
  rw [ht] at hbounds
  obtain ⟨hoperations, _, hnumbered⟩ := hbounds t rfl
  exact ⟨t, ht, hfive, htwo, hoperations, hnumbered smallNumbering⟩

/-- Everything that a result reports is from one exact assessment, which was feasible and has a
    goal. -/
structure FromAssessment (p : Problem τ H C P) (r : Result P) (target : H) (a : Assessment) :
    Prop where
  assessed : ∃ s u, p.session.assess target s = .ok (a, u)
  sealed : ∃ frontiers s u, p.session.sealTarget target a frontiers s = .ok (some r.plan, u)
  feasible : a.physicalStatus = .feasible
  goal : p.logicalGoal a.candidate a.sourceMode a.ownerOutcomes = .ok (some r.publicationSlot)
  candidate : r.candidate = a.candidate
  sourceMode : r.sourceMode = a.sourceMode
  ownerOutcomes : r.ownerOutcomes = a.ownerOutcomes
  checkpointOutcomes : r.checkpointOutcomes = a.checkpointOutcomes

/-- The same for a result that is an identity and was sealed without a session. -/
structure FromIdentity (p : Problem τ H C P) (program : τ) (r : Result P) (c : Candidate) :
    Prop where
  sealed : SealsIdentity p program c (some r.plan)
  feasible : c.identity.physicalStatus = .feasible
  goal : p.logicalGoal c.id c.identity.sourceMode [] = .ok (some r.publicationSlot)
  candidate : r.candidate = c.id
  sourceMode : r.sourceMode = c.identity.sourceMode
  ownerOutcomes : r.ownerOutcomes = []
  checkpointOutcomes : r.checkpointOutcomes = []

/-- No identity with a goal costs less. -/
def LeastIdentity (p : Problem τ H C P) (candidates : List Candidate) (cost : FoldedCost) : Prop :=
  ∀ c ∈ candidates, ∀ slot, p.identityGoal c = .ok (some slot) →
    cost.key ≤ (foldIdentity p.machineCost c).key

/-- The result is a target of a session with these pressure inputs, and no target that was found
    feasible with a goal costs less. -/
def LeastTarget (p : Problem τ H C P) (pressure : PressureInputs) (candidates : List Candidate)
    (assessments : List (Candidate × Assessment)) (r : Result P) : Prop :=
  ∃ c ∈ candidates, ∃ target a cost, FromAssessment p r target a ∧
    (foldAssessment p.machineCost pressure c a = .ok cost ∨
      (∃ s u, p.session.identityTarget c.id s = .ok (target, u)) ∧
        cost = foldIdentity p.machineCost c) ∧
    LeastIdentity p candidates cost ∧
    ∀ e ∈ assessments, ∀ slot cost', p.goalFor e.2 = .ok (some slot) →
      foldAssessment p.machineCost pressure e.1 e.2 = .ok cost' → cost.key ≤ cost'.key

theorem BestIdentity.fromIdentity {best : Incumbent H} {program : τ}
    (h : BestIdentity p candidates best)
    (hseal : SealsIdentity p program (candidateAt candidates best.candidateIndex) (some r.plan))
    (hr : r = { plan := r.plan
                candidate := (candidateAt candidates best.candidateIndex).id
                publicationSlot := best.publicationSlot
                sourceMode := best.sourceMode }) :
    FromIdentity p program r (candidateAt candidates best.candidateIndex) := by
  obtain ⟨hfeasible, hgoal⟩ := identityGoal_some h.goal
  rw [hr]
  exact ⟨hseal, hfeasible, hgoal, rfl, h.sourceMode, rfl, rfl⟩

/-- An incumbent that is sealed reports one exact assessment. -/
theorem SealedFrom.leastTarget {x : Setting τ H C P} {assessments : List (Candidate × Assessment)}
    (h : SealedFrom x assessments r) (hdoc : x.problem.DocumentsIdentities)
    (hvalidated : Validated x.problem x.candidates) :
    LeastTarget x.problem x.pressure x.candidates assessments r := by
  obtain ⟨incumbent, a, hbest, hconfirmed, hsealed, hcandidate, hslot, hmode, howners,
    hcheckpoints⟩ := h
  refine ⟨x.candidate incumbent.candidateIndex, candidateAt_mem hbest.index, incumbent.target, a,
    incumbent.cost, ?_⟩
  rcases hconfirmed with htarget | ⟨hidentity, hassess, hfeasible⟩
  · obtain ⟨hfeasible, hgoal⟩ := goalFor_some htarget.goal
    refine ⟨⟨htarget.assessed, hsealed, hfeasible, ?_, ?_, ?_, ?_, ?_⟩, .inl htarget.cost,
      hbest.identities, hbest.assessed⟩
    · rw [hslot]
      exact hgoal
    · rw [hcandidate]
      exact htarget.candidate.symm
    · rw [hmode]
      exact htarget.sourceMode
    · rw [howners]
      exact htarget.ownerOutcomes
    · rw [hcheckpoints]
      exact htarget.checkpointOutcomes
  · obtain ⟨input, hinput, hid, hpointer⟩ := hvalidated.inputs _ (candidateAt_mem hbest.index)
    obtain ⟨s, u, hassess⟩ := hassess
    obtain ⟨v, w, hhandle⟩ := hidentity.target
    have hhandle' : x.problem.session.identityTarget input.id v = .ok (incumbent.target, w) := by
      rw [hid]
      exact hhandle
    obtain ⟨hdcandidate, _, hdmode, hdowners, hdimpacts⟩ :=
      hdoc input hinput _ hpointer _ _ _ hhandle' _ _ _ hassess
    obtain ⟨_, hgoal⟩ := identityGoal_some hidentity.goal
    refine ⟨⟨⟨s, u, hassess⟩, hsealed, hfeasible, ?_, ?_, ?_, ?_, ?_⟩,
      .inr ⟨⟨v, w, hhandle⟩, hidentity.cost⟩, hbest.identities, hbest.assessed⟩
    · rw [hdcandidate, hdmode, hdowners, hslot, hid]
      exact hgoal
    · rw [hcandidate, hdcandidate, hid]
      rfl
    · rw [hmode, hdmode]
      exact hidentity.sourceMode
    · rw [howners, hdowners]
      exact hidentity.ownerOutcomes
    · rw [hcheckpoints, hidentity.checkpointOutcomes, PressureTargetAssessment.checkpointOutcomes,
        hdimpacts]
      rfl

end Materialization

end Ninfer.Planner
