/-
  The search for a materialization: `MaterializationPlanner::plan` of `materialization_planner.h`.

  A Program session is code outside the model: each of its calls is an arbitrary function of the
  Program's state that may throw. The clock and the cancellation flag are arbitrary sequences of
  readings, so time may stand still or run backwards. The two heaps are lists from which an entry
  of the least key is taken. The diagnostics of a result, and the readings of the clock that only
  they use, are left out.

  The two loops run on fuel and die without it; that they never do is proved with their rules. The
  search keeps a history that no code reads: what was assessed, how many operations of the session
  were made after the first incumbent, and whether the ledger rejected an ordinal.
-/
import Ninfer.Planner.MaterializationCost
import Ninfer.Planner.SearchBudget

namespace Ninfer.Planner

open Lib
open Resources (PrivateSourceMode)

namespace Materialization

variable {τ H C P : Type}

def kTargetBudget : UInt32 := 4096

/-! ## The Program session -/

structure PressureConstructionOptionId where
  cursorGeneration : UInt32 := 0
  scanGeneration : UInt32 := 0
  index : UInt32 := 0

structure PressureConstructionStep where
  guidance : Option PressureTargetGuidance := none
  option : PressureConstructionOptionId := {}
  exhausted : Bool := false

structure PressureExpansion (H : Type) where
  children : List H
  newCanonicalCount : UInt32
  complete : Bool

/-- A call of the Program: it returns and changes the Program, or throws. -/
abbrev Call (τ α : Type) := StateT τ (Except Fault) α

/-- The Program and the callers' functions that `plan` is given. `scheduleIdentity` and
    `scheduleTarget` are `final_schedule`, which prices splits by calls of the Program. -/
structure Session (τ H C P : Type) where
  pressureInputs : Call τ PressureInputs
  beginPressurePlanning : Call τ Unit
  identityTarget : PlanningCandidateId → Call τ H
  rootMaximalTarget : PlanningCandidateId → Call τ H
  maximalTarget : PlanningCandidateId → Call τ H
  guidance : H → Call τ PressureTargetGuidance
  assess : H → Call τ Assessment
  /-- Returns `new_canonical_count` of the prepared expansion. -/
  prepareExpansion : H → UInt32 → Call τ UInt32
  discardExpansion : τ → τ
  commitExpansion : Call τ (PressureExpansion H)
  beginConstruction : H → Bool → Call τ C
  nextConstructionOption : C → Call τ PressureConstructionStep
  chooseConstruction : C → PressureConstructionOptionId → Call τ Unit
  constructionTarget : C → Call τ (Option H)
  /-- The destructor of a cursor. -/
  releaseCursor : C → τ → τ
  scheduleIdentity : PlanningCandidateId → Call τ (List UInt32)
  scheduleTarget : PlanningCandidateId → Assessment → Call τ (List UInt32)
  sealIdentity : PlanningCandidateId → List UInt32 → Call τ (Option P)
  sealTarget : H → Assessment → List UInt32 → Call τ (Option P)

/-! ## The problem -/

/-- A candidate as `plan` gets it; its `AdmissionCandidate` may be a null pointer. -/
structure CandidateInput where
  candidate : Option IdentityMaterializationAssessment
  id : PlanningCandidateId
  stableOrdinal : UInt32 := 0
  currentSessionBinding : Bool := false

structure Problem (τ H C P : Type) where
  session : Session τ H C P
  machineCost : MachineCost
  candidates : List CandidateInput
  rootCandidateIndex : Nat
  logicalGoal : PlanningCandidateId → PrivateSourceMode → List PressureOwnerOutcome →
    Except Fault (Option UInt32)
  allowance : PlanningAllowance
  /-- The readings of the clock. -/
  now : Nat → Int
  /-- The cancellation flag at each of these readings. -/
  cancelled : Nat → Bool

/-- One turn of the check of the candidates. -/
def admitCandidate (prior : List Candidate) (input : CandidateInput) :
    Except Fault (List Candidate) :=
  match input.candidate with
  | none => .error (.invalidArgument "materialization candidate IDs are invalid")
  | some identity =>
    if prior.any fun candidate => candidate.id = input.id then
      .error (.invalidArgument "materialization candidate IDs are invalid")
    else
      .ok (prior ++
        [{ id := input.id
           stableOrdinal := input.stableOrdinal
           currentSessionBinding := input.currentSessionBinding
           identity }])

/-- `candidates[index]`. -/
def candidateAt (candidates : List Candidate) (index : Nat) : Candidate :=
  candidates.getD index { id := ⟨0⟩, identity := {} }

/-- Returns the candidates that are behind the pointers. -/
def validate (candidates : List CandidateInput) (rootCandidateIndex : Nat) :
    Except Fault (List Candidate) := do
  refuse (candidates.length = 0 ∨ candidates.length ≤ rootCandidateIndex)
    (.invalidArgument "materialization planning problem has no root candidate")
  candidates.foldlM admitCandidate []

/-! ## Identities -/

structure Incumbent (H : Type) [Inhabited H] where
  target : H := default
  assessed : Option Assessment := none
  candidateIndex : Nat := 0
  publicationSlot : UInt32 := 4294967295
  sourceMode : PrivateSourceMode := .consumeToActive
  cost : FoldedCost := {}
  ownerOutcomes : List PressureOwnerOutcome := []
  checkpointOutcomes : List PressureCheckpointOutcome := []
  degradationUnits : UInt32 := 0

variable [Inhabited H]

structure IdentityRoot where
  candidateIndex : Nat
  lowerBoundNs : UInt64
  expandable : Bool

/-- What the loop over the identities leaves. -/
structure Survey (H : Type) [Inhabited H] where
  identityCosts : List FoldedCost := []
  candidateSeeded : List Bool := []
  roots : List IdentityRoot := []
  best : Option (Incumbent H) := none

variable (p : Problem τ H C P)

/-- The goal of a candidate's identity, if that is feasible. -/
def Problem.identityGoal (c : Candidate) : Except Fault (Option UInt32) :=
  if c.identity.physicalStatus = .feasible then p.logicalGoal c.id c.identity.sourceMode []
  else .ok none

/-- The goal of an assessed target, if that is feasible. -/
def Problem.goalFor (a : Assessment) : Except Fault (Option UInt32) :=
  if a.physicalStatus = .feasible then p.logicalGoal a.candidate a.sourceMode a.ownerOutcomes
  else .ok none

/-- An identity with a goal becomes the best one if none is or if it costs less. -/
def Survey.offer (v : Survey H) (c : Candidate) (cost : FoldedCost) (goal : Option UInt32) :
    Option (Incumbent H) :=
  match goal with
  | none => v.best
  | some slot =>
    if v.best.all fun best => cost.less best.cost then
      some
        { candidateIndex := v.identityCosts.length
          publicationSlot := slot
          sourceMode := c.identity.sourceMode
          cost }
    else v.best

/-- One turn of the loop over the identities. -/
def surveyCandidate (v : Survey H) (c : Candidate) :
    Except Fault (Survey H) := do
  let cost := foldIdentity p.machineCost c
  let goal ← p.identityGoal c
  let feasible := decide (c.identity.physicalStatus = .feasible)
  pure
    { identityCosts := v.identityCosts ++ [cost]
      candidateSeeded := v.candidateSeeded ++ [goal.isSome]
      roots := v.roots ++
        [{ candidateIndex := v.identityCosts.length
           lowerBoundNs := cost.lowerBoundNs
           expandable := (!goal.isSome && (feasible || c.identity.expandable)) ||
             (goal.isSome && feasible && c.identity.pressureMayChangeMachineWork) }]
      best := v.offer c cost goal }

/-! ## The state of the search -/

structure QueueEntry (H : Type) where
  target : H
  candidateIndex : Nat
  lowerBoundNs : UInt64
  affectedSelectedHits : UInt64 := 0
  newestAffectedHitEpoch : UInt64 := 0
  ownerEvictions : UInt32 := 0
  checkpointDrops : UInt32 := 0
  copyOperations : UInt32 := 0
  transferredBytes : UInt64 := 0
  remainingPrefill : UInt64 := 0
  remainingVisionPrefill : UInt64 := 0
  reusedPromptTokens : UInt32 := 0
  currentSessionBinding : Bool := false
  candidateOrdinal : UInt32 := 0
  stableTargetOrdinal : UInt32 := 0

def queueKey (e : QueueEntry H) : List Nat :=
  [e.lowerBoundNs.toNat, e.affectedSelectedHits.toNat, e.newestAffectedHitEpoch.toNat,
    e.ownerEvictions.toNat, e.checkpointDrops.toNat, e.copyOperations.toNat,
    e.transferredBytes.toNat, e.remainingPrefill.toNat, e.remainingVisionPrefill.toNat,
    (4294967295 - e.reusedPromptTokens).toNat, if e.currentSessionBinding then 0 else 1,
    e.candidateOrdinal.toNat, e.stableTargetOrdinal.toNat]

structure PendingEntry (H : Type) where
  target : H
  candidateIndex : Nat
  lowerBoundNs : UInt64
  guidance : GuidanceCost

def pendingKey (e : PendingEntry H) : List Nat := e.lowerBoundNs.toNat :: e.guidance.key

/-- The front of a heap and what a pop leaves. -/
def popLeast {α : Type} (key : α → List Nat) : List α → Option (α × List α)
  | [] => none
  | a :: l =>
    match popLeast key l with
    | none => some (a, [])
    | some (b, rest) => if key b < key a then some (b, a :: rest) else some (a, l)

structure ConstructionPath (C : Type) where
  cursor : Option C := none
  candidateIndex : Nat := 0
  feasibilityFirst : Bool := false
  repair : Bool := false
  restore : Bool := false
  parent : GuidanceCost := {}
  best : Option GuidanceCost := none
  bestOption : PressureConstructionOptionId := {}
  visited : List UInt32 := []

/-- Everything that only decides how long the search goes on. -/
structure Meters where
  ticks : Nat := 0
  budget : MaterializationSearchBudget
  optionStepNs : UInt64 := 1000
  assessmentStepNs : UInt64 := 20000
  expansionStepNs : UInt64 := 20000

structure Search (τ H C : Type) [Inhabited H] where
  program : τ
  meters : Meters
  queue : List (QueueEntry H) := []
  pending : List (PendingEntry H) := []
  ledger : BoundedTargetLedger
  candidateSeeded : List Bool := []
  incumbent : Incumbent H := {}
  searchWork : UInt64 := 0
  optionalTargets : UInt32 := 0
  paths : Fin 4 → ConstructionPath C := fun _ => {}
  nextPath : Nat := 0
  searchStopped : Bool := false
  rescueDone : Bool := false
  refinementSeeded : Bool := false
  /-- History: the owners that the pressure inputs have a policy for. -/
  owners : Nat := 0
  /-- History: the assessments that were folded, each with its candidate. -/
  assessments : List (Candidate × Assessment) := []
  /-- History: the construction steps, assessments and expansions after the first incumbent. -/
  operations : Nat := 0
  /-- History: whether the ledger was asked for an ordinal that it has no room for. -/
  rejected : Bool := false

namespace Search

variable (s : Search τ H C)

def seeded (index : Nat) : Bool := s.candidateSeeded.getD index false

def havePaths : Bool := (List.finRange 4).any fun i => (s.paths i).cursor.isSome

def withPath (i : Fin 4) (path : ConstructionPath C) : Search τ H C :=
  { s with paths := Function.update s.paths i path }

@[simp] theorem withPath_self (i : Fin 4) (path : ConstructionPath C) :
    (s.withPath i path).paths i = path := by
  exact Function.update_self i path s.paths

@[simp] theorem withPath_of_ne {i j : Fin 4} (path : ConstructionPath C) (h : j ≠ i) :
    (s.withPath i path).paths j = s.paths j := by
  exact Function.update_of_ne h path s.paths

end Search

/-- Everything that stays fixed during a search. -/
structure Setting (τ H C P : Type) [Inhabited H] where
  problem : Problem τ H C P
  candidates : List Candidate
  survey : Survey H
  pressure : PressureInputs

namespace Setting

variable (x : Setting τ H C P)

def session : Session τ H C P := x.problem.session

def candidate (index : Nat) : Candidate := candidateAt x.candidates index

def identityCost (index : Nat) : FoldedCost := x.survey.identityCosts.getD index {}

def workLimit : UInt64 :=
  kTargetBudget.toUInt64 * (16 + 16 * UInt64.ofNat x.pressure.ownerPolicy.length)

/-- The expandable roots, those of the least lower bounds first. -/
def order : List Nat :=
  ((x.survey.roots.filter (·.expandable)).map (·.candidateIndex)).mergeSort fun a b =>
    decide ((x.identityCost a).lowerBoundNs ≤ (x.identityCost b).lowerBoundNs)

def candidateIndexFor (id : PlanningCandidateId) : Except Fault Nat :=
  match x.candidates.findIdx? fun candidate => candidate.id = id with
  | none => .error (.logicError "pressure target references an unknown candidate ID")
  | some index => .ok index

def rankGuidance (index : Nat) (guide : PressureTargetGuidance) : Except Fault GuidanceCost := do
  let cost ← foldGuidance x.problem.machineCost x.pressure (x.candidate index) guide
  let goal ← x.problem.logicalGoal (x.candidate index).id guide.sourceMode guide.ownerOutcomes
  if goal.isSome then pure { cost with logicalReady := true }
  else
    pure { cost with
        logicalReady := false
        unsatisfiedConstraints := cost.unsatisfiedConstraints + 1
        normalizedResidualQ20 := cost.normalizedResidualQ20 + 1048576
        estimatedRemainingSteps := max 1 cost.estimatedRemainingSteps }

end Setting

/-! ## Small steps -/

def call {α : Type} (m : Call τ α) : Eff (Search τ H C) α := fun s =>
  match m s.program with
  | .ok (a, program) => .ok a { s with program }
  | .error e => .throw e s

/-- A reading of the clock and of the cancellation flag. -/
def tick : Eff (Search τ H C) (Int × Bool) := fun s =>
  .ok (p.now s.meters.ticks, p.cancelled s.meters.ticks)
    { s with meters := { s.meters with ticks := s.meters.ticks + 1 } }

/-- `allowance.remaining(planning_now_ns())`. -/
def remainingNow : Eff (Search τ H C) UInt64 := do
  let reading ← tick p
  pure (p.allowance.remaining reading.2 (UInt64.ofInt reading.1))

def elapsedNs (start stop : Int) : UInt64 :=
  if 0 < stop - start then UInt64.ofInt (stop - start) else 0

/-- The new estimate of a step that started at `started`. -/
def observeStep (estimate : UInt64) (started : Int) :
    Eff (Search τ H C) UInt64 := do
  let reading ← tick p
  pure (max 1 (estimate / 2 + elapsedNs started reading.1 / 2))

def withMeters (f : Meters → Meters) : Eff (Search τ H C) Unit :=
  Eff.modify fun s => { s with meters := f s.meters }

/-- Notes in the history whether the ledger has room for an ordinal. -/
def noteOrdinal (ordinal : UInt32) : Eff (Search τ H C) Unit :=
  Eff.modify fun s =>
    { s with rejected := s.rejected || decide (s.ledger.capacity ≤ ordinal.toNat) }

def targetMarked (ordinal : UInt32) (mark : TargetMark) : Eff (Search τ H C) Bool := do
  noteOrdinal ordinal
  let s ← Eff.get
  Eff.answer (s.ledger.contains ordinal mark)

def markTarget (ordinal : UInt32) (marks : List TargetMark) : Eff (Search τ H C) Unit := do
  noteOrdinal ordinal
  let s ← Eff.get
  let ledger ← Eff.answer (s.ledger.mark ordinal marks)
  Eff.modify fun s => { s with ledger }

def queuePush (entry : QueueEntry H) : Eff (Search τ H C) Unit :=
  Eff.modify fun s => { s with queue := s.queue ++ [entry] }

def pendingPush (entry : PendingEntry H) : Eff (Search τ H C) Unit :=
  Eff.modify fun s => { s with pending := s.pending ++ [entry] }

/-- An operation of the session is made. -/
def operate : Eff (Search τ H C) Unit :=
  Eff.modify fun s => { s with operations := s.operations + 1 }

/-- `++search_work`. -/
def countWork : Eff (Search τ H C) Unit :=
  Eff.modify fun s => { s with searchWork := s.searchWork + 1 }

section Planner

variable (x : Setting τ H C P)

variable (i : Fin 4)

/-- `path.cursor.reset()`. -/
def resetCursor : Eff (Search τ H C) Unit :=
  Eff.modify fun s =>
    match (s.paths i).cursor with
    | none => s
    | some cursor =>
      { s with
        program := x.session.releaseCursor cursor s.program
        paths := Function.update s.paths i { s.paths i with cursor := none } }

def allowWork (operation completion gain : UInt64) (complete discoveryEligible : Bool) :
    Eff (Search τ H C) Bool := do
  let s ← Eff.get
  if x.workLimit ≤ s.searchWork then pure false
  else
    let reading ← tick x.problem
    let granted := s.meters.budget.allow
      { now := UInt64.ofInt reading.1
        nextOperationNs := operation
        completionNs := completion
        gainNs := gain
        completePrediction := complete
        progress := s.searchWork
        discoveryEligible
        cancelled := reading.2 }
    withMeters fun m => { m with budget := granted.2 }
    pure granted.1

/-- `search_work >= work_limit || allowance.remaining(planning_now_ns()) == 0`. -/
def outOfWork : Eff (Search τ H C) Bool := do
  let s ← Eff.get
  if x.workLimit ≤ s.searchWork then pure true
  else
    let remaining ← remainingNow x.problem
    pure (decide (remaining = 0))

/-! ## Assessing and expanding -/

variable (target : H)

variable (candidateIndex : Nat)

variable (a : Assessment)

variable (cost : FoldedCost)

def makeIncumbent (slot : UInt32) : Incumbent H :=
  { target
    assessed := some a
    candidateIndex
    publicationSlot := slot
    sourceMode := a.sourceMode
    cost
    ownerOutcomes := a.ownerOutcomes
    checkpointOutcomes := a.checkpointOutcomes
    degradationUnits := a.degradationUnits }

def makeQueueEntry :
    QueueEntry H :=
  { target
    candidateIndex
    lowerBoundNs := cost.lowerBoundNs
    affectedSelectedHits := cost.affectedSelectedHits
    newestAffectedHitEpoch := cost.newestAffectedHitEpoch
    ownerEvictions := cost.ownerEvictions
    checkpointDrops := cost.checkpointDrops
    copyOperations := cost.copyOperations
    transferredBytes := cost.transferredBytes
    remainingPrefill := cost.remainingTextPrefill
    remainingVisionPrefill := cost.remainingVisionPrefill
    reusedPromptTokens := cost.reusedPromptTokens
    currentSessionBinding := cost.currentSessionBinding
    candidateOrdinal := cost.candidateOrdinal
    stableTargetOrdinal := a.stableTargetOrdinal }

/-- A target with a goal seeds its candidate, and becomes the incumbent if it costs less. -/
def offerTarget (slot : UInt32) (s : Search τ H C) : Search τ H C :=
  { s with
    candidateSeeded := s.candidateSeeded.set candidateIndex true
    incumbent :=
      if cost.less s.incumbent.cost then makeIncumbent target candidateIndex a cost slot
      else s.incumbent }

/-- The session's assessment of a target, with the history of it. -/
def assessOnce : Eff (Search τ H C) Assessment := do
  let a ← call (x.session.assess target)
  Eff.modify fun s => { s with assessments := s.assessments ++ [(x.candidate candidateIndex, a)] }
  pure a

/-- The end of `assess_target` for the target's goal. -/
def offerGoal :
    Option UInt32 → Eff (Search τ H C) Unit
  | none => pure ()
  | some slot => do
    markTarget a.stableTargetOrdinal [.feasible]
    Eff.modify (offerTarget target candidateIndex a cost slot)

def assessTarget (expectedCandidate : Nat) (expectedOrdinal : UInt32) :
    Eff (Search τ H C) Unit := do
  operate
  let a ← assessOnce x target expectedCandidate
  Eff.require (a.candidate = (x.candidate expectedCandidate).id)
    (.logicError "pressure target changed admission candidate")
  let index ← Eff.answer (x.candidateIndexFor a.candidate)
  Eff.require (index = expectedCandidate ∧ a.stableTargetOrdinal = expectedOrdinal)
    (.logicError "pressure target changed admission candidate")
  markTarget a.stableTargetOrdinal [.discovered, .assessed]
  let cost ← Eff.answer
    (foldAssessment x.problem.machineCost x.pressure (x.candidate expectedCandidate) a)
  let goal ← Eff.answer (x.problem.goalFor a)
  offerGoal target expectedCandidate a cost goal
  if a.expandable then
    markTarget a.stableTargetOrdinal [.expandable]
    queuePush (makeQueueEntry target expectedCandidate a cost)
  else pure ()

/-- An assessment with the measurement of its time, which counts as work. -/
def assessMeasured (index : Nat) (ordinal : UInt32) : Eff (Search τ H C) Unit := do
  let started ← tick x.problem
  assessTarget x target index ordinal
  let step ← Eff.gets (·.meters.assessmentStepNs)
  let estimate ← observeStep x.problem step started.1
  withMeters fun m => { m with assessmentStepNs := estimate }
  countWork

/-- One turn of the loop over the children of an expansion. -/
def discoverChild (parent : QueueEntry H) (child : H) : Eff (Search τ H C) Unit := do
  let guidance ← call (x.session.guidance child)
  Eff.require (guidance.candidate = (x.candidate parent.candidateIndex).id)
    (.logicError "pressure guidance changed admission candidate")
  let index ← Eff.answer (x.candidateIndexFor guidance.candidate)
  let discovered ← targetMarked guidance.stableTargetOrdinal .discovered
  if discovered then pure ()
  else
    markTarget guidance.stableTargetOrdinal [.discovered]
    let cost ← Eff.answer
      (foldGuidance x.problem.machineCost x.pressure (x.candidate index) guidance)
    let goal ← Eff.answer (x.problem.logicalGoal (x.candidate index).id guidance.sourceMode
      guidance.ownerOutcomes)
    pendingPush
      { target := child
        candidateIndex := index
        lowerBoundNs := max (x.identityCost index).lowerBoundNs parent.lowerBoundNs
        guidance := { cost with logicalReady := goal.isSome } }

/-- An expansion that is not complete leaves its target in the queue. -/
def keepParent (parent : QueueEntry H) (complete : Bool) : Eff (Search τ H C) Unit :=
  if complete then markTarget parent.stableTargetOrdinal [.expanded] else queuePush parent

def expandTarget (parent : QueueEntry H) : Eff (Search τ H C) Bool := do
  let expanded ← targetMarked parent.stableTargetOrdinal .expanded
  if expanded then pure true
  else
    let optionalTargets ← Eff.gets (·.optionalTargets)
    if kTargetBudget ≤ optionalTargets then pure false
    else
      operate
      let count ← call (x.session.prepareExpansion parent.target 8)
      if count > kTargetBudget - optionalTargets then
        Eff.modify fun s => { s with program := x.session.discardExpansion s.program }
        pure false
      else
        let children ← call x.session.commitExpansion
        Eff.modify fun s =>
          { s with optionalTargets := s.optionalTargets + children.newCanonicalCount }
        keepParent parent children.complete
        Eff.forEach children.children (discoverChild x parent)
        pure true

/-! ## Construction -/

def startPath (candidate : Nat) (target : H) (feasibility restore : Bool) :
    Eff (Search τ H C) Unit := do
  resetCursor x i
  let guide ← call (x.session.guidance target)
  let parent ← Eff.answer (x.rankGuidance candidate guide)
  let cursor ← call (x.session.beginConstruction target restore)
  Eff.modify fun s => s.withPath i { s.paths i with
      cursor := some cursor
      candidateIndex := candidate
      feasibilityFirst := feasibility
      repair := parent.requiresExactFeedback
      restore
      parent
      best := none
      visited := [parent.stableTargetOrdinal] }

/-- An operation was not allowed: the path ends, and perhaps the search. -/
def giveUp : Eff (Search τ H C) Bool := do
  let stop ← outOfWork x
  Eff.modify fun s => { s with searchStopped := stop }
  resetCursor x i
  pure false

/-- The end of a slice that reached a target worth assessing. -/
def settle (chosen : GuidanceCost) : Eff (Search τ H C) Bool := do
  let feasible ← targetMarked chosen.stableTargetOrdinal .feasible
  resetCursor x i
  let path ← Eff.gets fun s => s.paths i
  if feasible = false ∧ path.restore = false then
    let expandable ← targetMarked chosen.stableTargetOrdinal .expandable
    if expandable then
      let cursor ← call (x.session.beginConstruction target false)
      Eff.modify fun s => s.withPath i { s.paths i with cursor := some cursor, repair := true }
      pure true
    else pure true
  else pure true

/-- The chosen target of a slice is assessed, unless it was before. -/
def assessChosen (chosen : GuidanceCost) (gain : UInt64) :
    Eff (Search τ H C) Bool := do
  let assessed ← targetMarked chosen.stableTargetOrdinal .assessed
  if assessed then settle x i target chosen
  else
    let s ← Eff.get
    let index := (s.paths i).candidateIndex
    let targetGain := monus s.incumbent.cost.totalNs chosen.estimatedTotalNs
    let step := s.meters.assessmentStepNs
    let granted ← allowWork x step step (if chosen.recoveryComplete then targetGain else gain)
      (chosen.recoveryComplete && decide (chosen.unsatisfiedConstraints = 0)) (!s.seeded index)
    if granted then
      assessMeasured x target index chosen.stableTargetOrdinal
      settle x i target chosen
    else giveUp x i

/-- A chosen target that is new is charged and waits for its assessment. -/
def discoverChosen (index : Nat) (chosen : GuidanceCost) :
    Eff (Search τ H C) Unit := do
  let discovered ← targetMarked chosen.stableTargetOrdinal .discovered
  if discovered then pure ()
  else
    markTarget chosen.stableTargetOrdinal [.discovered]
    Eff.modify fun s => { s with optionalTargets := s.optionalTargets + 1 }
    pendingPush
      { target
        candidateIndex := index
        lowerBoundNs := (x.identityCost index).lowerBoundNs
        guidance := chosen }

/-- The target that a slice chose becomes the parent of the next one. -/
def reachTarget (gain : UInt64) : Eff (Search τ H C) Bool := do
  let index ← Eff.gets fun s => (s.paths i).candidateIndex
  let guide ← call (x.session.guidance target)
  let chosen ← Eff.answer (x.rankGuidance index guide)
  let path ← Eff.gets fun s => s.paths i
  if chosen.stableTargetOrdinal ∈ path.visited then
    resetCursor x i
    pure false
  else
    discoverChosen x target index chosen
    Eff.modify fun s => s.withPath i
      { s.paths i with
        parent := chosen
        best := none
        visited := path.visited ++ [chosen.stableTargetOrdinal] }
    if chosen.unsatisfiedConstraints ≠ 0 ∧ path.repair = false ∧ path.restore = false then
      pure true
    else assessChosen x i target chosen gain

/-- A scan of the options came to its end. -/
def chooseOption (cursor : C) (gain : UInt64) : Eff (Search τ H C) Bool := do
  let s ← Eff.get
  if (s.paths i).best = none ∨ kTargetBudget ≤ s.optionalTargets then
    resetCursor x i
    pure false
  else
    call (x.session.chooseConstruction cursor (s.paths i).bestOption)
    let target ← call (x.session.constructionTarget cursor)
    match target with
    | none =>
      Eff.modify fun s => { s with searchStopped := true }
      pure false
    | some target => reachTarget x i target gain

/-- The option of a step is kept if it is better than the best so far. -/
def noteOption (step : PressureConstructionStep) : Eff (Search τ H C) Unit := do
  let path ← Eff.gets fun s => s.paths i
  match step.guidance with
  | none => pure ()
  | some guide =>
    let cost ← Eff.answer (x.rankGuidance path.candidateIndex guide)
    Eff.when (constructionOptionBetter path.parent path.best cost path.feasibilityFirst
        path.restore = true)
      (Eff.modify fun s => s.withPath i
        { s.paths i with best := some cost, bestOption := step.option })

/-- One slice of a path: `false` is the `break` of its loop. -/
def slice (cursor : C) : Eff (Search τ H C) Bool := do
  let s ← Eff.get
  let path := s.paths i
  let forecast := path.best.getD path.parent
  let complete := decide (forecast.unsatisfiedConstraints = 0) && forecast.recoveryComplete
  let estimate := if complete then forecast.estimatedTotalNs
    else (x.identityCost path.candidateIndex).lowerBoundNs
  let gain := monus s.incumbent.cost.totalNs estimate
  let steps := min 64 (1 + forecast.estimatedRemainingSteps.toUInt64)
  let completion := s.meters.assessmentStepNs +
    s.meters.optionStepNs * steps * max 1 (UInt64.ofNat x.pressure.ownerPolicy.length)
  let granted ← allowWork x s.meters.optionStepNs completion gain complete
    (!s.seeded path.candidateIndex)
  if granted then
    let started ← tick x.problem
    operate
    let step ← call (x.session.nextConstructionOption cursor)
    let estimate ← observeStep x.problem s.meters.optionStepNs started.1
    withMeters fun m => { m with optionStepNs := estimate }
    countWork
    noteOption x i step
    if step.exhausted then chooseOption x i cursor gain else pure true
  else giveUp x i

/-- The slices of one path, at most `count` of them. -/
def slices (i : Fin 4) : Nat → Eff (Search τ H C) Unit
  | 0 => pure ()
  | count + 1 => do
    let s ← Eff.get
    match (s.paths i).cursor with
    | none => pure ()
    | some cursor =>
      let go ← slice x i cursor
      if go then slices i count else pure ()

/-- A path without a cursor starts at the next root. -/
def startNext : Eff (Search τ H C) Unit := do
  let s ← Eff.get
  if (s.paths i).cursor.isNone ∧ s.nextPath < 2 * x.order.length then
    let candidate := x.order.getD (s.nextPath / 2) 0
    let target ← call (x.session.identityTarget (x.candidate candidate).id)
    startPath x i candidate target (decide (s.nextPath % 2 ≠ 0)) false
    Eff.modify fun s => { s with nextPath := s.nextPath + 1 }
  else pure ()

/-- One turn of the loop over the paths. After `search_stopped` its turns do nothing. -/
def pathTurn : Eff (Search τ H C) Unit := do
  let s ← Eff.get
  if s.searchStopped then pure ()
  else
    startNext x i
    slices x i 8

/-- A target that is not discovered is charged. -/
def chargeNew (ordinal : UInt32) : Eff (Search τ H C) Unit := do
  let discovered ← targetMarked ordinal .discovered
  if discovered then pure ()
  else Eff.modify fun s => { s with optionalTargets := s.optionalTargets + 1 }

/-- The maximal target of a promising candidate is assessed. -/
def rescueCandidate (candidate : Nat) : Eff (Search τ H C) Unit := do
  let s ← Eff.get
  let step := s.meters.assessmentStepNs
  let gain := s.incumbent.cost.totalNs - (x.identityCost candidate).lowerBoundNs
  let granted ← allowWork x step step gain false true
  if granted then
    let target ← call (x.session.maximalTarget (x.candidate candidate).id)
    let guide ← call (x.session.guidance target)
    let assessed ← targetMarked guide.stableTargetOrdinal .assessed
    if assessed then pure ()
    else
      chargeNew guide.stableTargetOrdinal
      assessMeasured x target candidate guide.stableTargetOrdinal
  else pure ()

def rescue : Eff (Search τ H C) Unit := do
  let s ← Eff.get
  if s.rescueDone then pure ()
  else
    Eff.modify fun s => { s with rescueDone := true }
    let promising := x.order.find? fun candidate =>
      !s.seeded candidate &&
        decide ((x.identityCost candidate).lowerBoundNs < s.incumbent.cost.totalNs)
    match promising with
    | none => pure ()
    | some candidate =>
      if s.optionalTargets < kTargetBudget then rescueCandidate x candidate else pure ()

/-- The rescue and the refinement of the incumbent, once all roots have had their paths. -/
def refine : Eff (Search τ H C) Unit := do
  rescue x
  Eff.modify fun s => { s with refinementSeeded := true }
  let s ← Eff.get
  if s.incumbent.degradationUnits ≠ 0 then
    startPath x 0 s.incumbent.candidateIndex s.incumbent.target false true
  else pure ()

/-- One turn of the construction loop: `false` is its `break`. -/
def constructionTurn : Eff (Search τ H C) Bool := do
  let s ← Eff.get
  if s.nextPath = 2 * x.order.length ∧ s.havePaths = false then
    refine x
    let s ← Eff.get
    if s.havePaths then
      Eff.forEach (List.finRange 4) (pathTurn x)
      pure true
    else pure false
  else
    Eff.forEach (List.finRange 4) (pathTurn x)
    pure true

/-- The construction loop, which must have ended after `fuel` turns. -/
def constructionLoop : Nat → Eff (Search τ H C) Unit
  | 0 => Eff.die
  | fuel + 1 => do
    let s ← Eff.get
    if s.searchStopped = false ∧
        (s.nextPath < 2 * x.order.length ∨ s.havePaths = true ∨ s.refinementSeeded = false) then
      let go ← constructionTurn x
      if go then constructionLoop fuel else pure ()
    else pure ()

/-! ## Best first -/

/-- Expanded entries leave the front of the queue. -/
def dropExpanded : Nat → Eff (Search τ H C) Unit
  | 0 => pure ()
  | count + 1 => do
    let s ← Eff.get
    match popLeast queueKey s.queue with
    | none => pure ()
    | some (entry, rest) =>
      let expanded ← targetMarked entry.stableTargetOrdinal .expanded
      if expanded then
        Eff.modify fun s => { s with queue := rest }
        dropExpanded count
      else pure ()

/-- Assessed entries leave the front of the pending ones. -/
def dropAssessed : Nat → Eff (Search τ H C) Unit
  | 0 => pure ()
  | count + 1 => do
    let s ← Eff.get
    match popLeast pendingKey s.pending with
    | none => pure ()
    | some (entry, rest) =>
      let assessed ← targetMarked entry.guidance.stableTargetOrdinal .assessed
      if assessed then
        Eff.modify fun s => { s with pending := rest }
        dropAssessed count
      else pure ()

/-- The front that is taken next, with what its pop leaves. -/
inductive Choice (H : Type) where
  | assess (entry : PendingEntry H) (rest : List (PendingEntry H))
  | expand (entry : QueueEntry H) (rest : List (QueueEntry H))

def Search.choice (s : Search τ H C) : Option (Choice H) :=
  match popLeast queueKey s.queue, popLeast pendingKey s.pending with
  | none, none => none
  | some (q, qs), none => some (.expand q qs)
  | none, some (e, es) => some (.assess e es)
  | some (q, qs), some (e, es) =>
    if e.lowerBoundNs ≤ q.lowerBoundNs then some (.assess e es) else some (.expand q qs)

def assessPending (entry : PendingEntry H) (rest : List (PendingEntry H)) :
    Eff (Search τ H C) Bool := do
  let s ← Eff.get
  let step := s.meters.assessmentStepNs
  let guidance := entry.guidance
  let granted ← allowWork x step step (monus s.incumbent.cost.totalNs guidance.estimatedTotalNs)
    (guidance.recoveryComplete && decide (guidance.unsatisfiedConstraints = 0) &&
      guidance.logicalReady)
    (!s.seeded entry.candidateIndex)
  if granted then
    Eff.modify fun s => { s with pending := rest }
    assessMeasured x entry.target entry.candidateIndex guidance.stableTargetOrdinal
    pure true
  else
    let stop ← outOfWork x
    if stop then pure false
    else
      -- a forecast that cannot justify another window must not starve a different source
      Eff.modify fun s => { s with pending := rest }
      pure true

def expandQueued (entry : QueueEntry H) (rest : List (QueueEntry H)) : Eff (Search τ H C) Bool := do
  let s ← Eff.get
  let step := s.meters.expansionStepNs
  let granted ← allowWork x step (step + s.meters.assessmentStepNs)
    (monus s.incumbent.cost.totalNs entry.lowerBoundNs) false (!s.seeded entry.candidateIndex)
  if granted then
    let started ← tick x.problem
    if kTargetBudget ≤ s.optionalTargets then pure false
    else
      Eff.modify fun s => { s with queue := rest }
      let done ← expandTarget x entry
      if done then
        let estimate ← observeStep x.problem step started.1
        withMeters fun m => { m with expansionStepNs := estimate }
        countWork
        pure true
      else pure false
  else
    let stop ← outOfWork x
    if stop then pure false
    else
      Eff.modify fun s => { s with queue := rest }
      pure true

/-- One turn of the last loop: `false` is its `break`. -/
def bestFirstTurn : Eff (Search τ H C) Bool := do
  let s ← Eff.get
  dropExpanded s.queue.length
  dropAssessed s.pending.length
  let s ← Eff.get
  match s.choice with
  | none => pure false
  | some (.assess entry rest) => assessPending x entry rest
  | some (.expand entry rest) => expandQueued x entry rest

/-- The last loop, which must have ended after `fuel` turns. -/
def bestFirst : Nat → Eff (Search τ H C) Unit
  | 0 => Eff.die
  | fuel + 1 => do
    let go ← bestFirstTurn x
    if go then bestFirst fuel else pure ()

/-! ## The whole search -/

/-- An expandable root is queued. -/
def seedRoot (root : IdentityRoot) : Eff (Search τ H C) Unit :=
  if root.expandable then do
    let target ← call (x.session.identityTarget (x.candidate root.candidateIndex).id)
    let cost := x.identityCost root.candidateIndex
    let ordinal := UInt32.ofNat root.candidateIndex
    markTarget ordinal [.discovered, .assessed]
    queuePush
      { target
        candidateIndex := root.candidateIndex
        lowerBoundNs := root.lowerBoundNs
        remainingPrefill := cost.remainingTextPrefill
        remainingVisionPrefill := cost.remainingVisionPrefill
        reusedPromptTokens := cost.reusedPromptTokens
        currentSessionBinding := cost.currentSessionBinding
        candidateOrdinal := cost.candidateOrdinal
        stableTargetOrdinal := ordinal }
  else pure ()

def constructionFuel : Nat := 5 * x.workLimit.toNat + 4 * x.order.length + 11

def bestFirstFuel (s : Search τ H C) : Nat :=
  2 * x.workLimit.toNat + s.queue.length + s.pending.length + s.ledger.capacity + 1

/-- The search from the first incumbent on. -/
def search : Eff (Search τ H C) Unit := do
  Eff.forEach x.survey.roots (seedRoot x)
  constructionLoop x (constructionFuel x)
  Eff.forEach (List.finRange 4) (resetCursor x)
  let s ← Eff.get
  if s.searchStopped then pure () else bestFirst x (bestFirstFuel x s)

/-- The first incumbent is the best identity, or else the Root maximal target. Returns whether
    there is one. -/
def firstIncumbent : Eff (Search τ H C) Bool :=
  match x.survey.best with
  | some best => do
    let target ← call (x.session.identityTarget (x.candidate best.candidateIndex).id)
    Eff.modify fun s => { s with incumbent := { best with target } }
    pure true
  | none => do
    let root := x.problem.rootCandidateIndex
    let target ← call (x.session.rootMaximalTarget (x.candidate root).id)
    let a ← assessOnce x target root
    Eff.require (a.candidate = (x.candidate root).id)
      (.logicError "maximal pressure target changed admission candidate")
    let goal ← Eff.answer (x.problem.goalFor a)
    match goal with
    | none => pure false
    | some slot =>
      let cost ← Eff.answer (foldAssessment x.problem.machineCost x.pressure (x.candidate root) a)
      Eff.modify fun s => { s with incumbent := makeIncumbent target root a cost slot }
      markTarget a.stableTargetOrdinal [.discovered, .assessed]
      pure true

structure Result (P : Type) where
  plan : P
  candidate : PlanningCandidateId
  publicationSlot : UInt32
  sourceMode : PrivateSourceMode
  ownerOutcomes : List PressureOwnerOutcome := []
  checkpointOutcomes : List PressureCheckpointOutcome := []
  deriving DecidableEq

/-- The incumbent's assessment; the target of an identity is assessed only now. -/
def confirmIncumbent (incumbent : Incumbent H) : Eff (Search τ H C) Assessment :=
  match incumbent.assessed with
  | some a => pure a
  | none => do
    operate
    let a ← call (x.session.assess incumbent.target)
    Eff.require (a.candidate = (x.candidate incumbent.candidateIndex).id ∧
        a.physicalStatus = .feasible)
      (.logicError "selected identity target lost exact feasibility")
    pure a

def sealIncumbent : Eff (Search τ H C) (Result P) := do
  let incumbent ← Eff.gets (·.incumbent)
  let a ← confirmIncumbent x incumbent
  let id := (x.candidate incumbent.candidateIndex).id
  let frontiers ← call (x.session.scheduleTarget id a)
  let plan ← call (x.session.sealTarget incumbent.target a frontiers)
  match plan with
  | none => Eff.raise (.logicError "selected pressure target could not be sealed")
  | some plan =>
    pure
      { plan
        candidate := id
        publicationSlot := incumbent.publicationSlot
        sourceMode := incumbent.sourceMode
        ownerOutcomes := incumbent.ownerOutcomes
        checkpointOutcomes := incumbent.checkpointOutcomes }

/-- The budget starts with the first incumbent. -/
def startBudget (origin : Int) : Eff (Search τ H C) Unit := do
  let reading ← tick x.problem
  let cost ← Eff.gets (·.incumbent.cost)
  withMeters fun m =>
    { m with budget := .new x.problem.allowance reading.2 (UInt64.ofInt origin) cost.totalNs }

/-- When the search started: after the Root maximal target, if that was assessed. -/
def searchOrigin (started : Int) : Eff (Search τ H C) Int :=
  if x.survey.best.isSome then pure started
  else do
    let reading ← tick x.problem
    pure reading.1

/-- The part of `plan` that has a session. -/
def planSearch (started : Int) : Eff (Search τ H C) (Option (Result P)) := do
  call x.session.beginPressurePlanning
  let found ← firstIncumbent x
  if found then
    let origin ← searchOrigin x started
    startBudget x origin
    search x
    let result ← sealIncumbent x
    pure (some result)
  else pure none

end Planner

/-- The best identity is sealed without a session. -/
def sealIdentity (c : Candidate) (best : Incumbent H) :
    Eff (Search τ H C) (Option (Result P)) := do
  let frontiers ← call (p.session.scheduleIdentity c.id)
  let plan ← call (p.session.sealIdentity c.id frontiers)
  match plan with
  | none => pure none
  | some plan =>
    pure (some
      { plan
        candidate := c.id
        publicationSlot := best.publicationSlot
        sourceMode := best.sourceMode })

/-- Whether the best identity is taken as it is. -/
def takesIdentity (survey : Survey H) : Eff (Search τ H C) Bool :=
  match survey.best with
  | none => pure false
  | some best => do
    let remaining ← remainingNow p
    let noAllowance := decide (remaining = 0) ||
      decide (best.cost.totalNs / 20 / (max 1 p.allowance.affectedRequests).toUInt64 = 0)
    pure (!survey.roots.any (·.expandable) || noAllowance)

/-- A whole call of `plan`. -/
def plan : Eff (Search τ H C) (Option (Result P)) := do
  let candidates ← Eff.answer (validate p.candidates p.rootCandidateIndex)
  let survey ← Eff.answer (candidates.foldlM (surveyCandidate p) {})
  Eff.modify fun s => { s with candidateSeeded := survey.candidateSeeded }
  let immediate ← takesIdentity p survey
  let best := survey.best.getD {}
  if immediate then
    sealIdentity p (candidateAt candidates best.candidateIndex) best
  else
    let started ← tick p
    let pressure ← call p.session.pressureInputs
    Eff.require (pressure.privateOwners = pressure.privateOwnerIds.length ∧
        pressure.sharedOwners = pressure.sharedOwnerIds.length)
      (.logicError "materialization pressure owner arrays are not aligned")
    Eff.modify fun s => { s with owners := pressure.ownerPolicy.length }
    planSearch { problem := p, candidates, survey, pressure } started.1

/-- The state that a call of `plan` starts in. -/
def Search.new (program : τ) : Search τ H C :=
  { program
    meters := { budget := { allowance := p.allowance, started := 0, granted := 0 } }
    ledger := .empty (p.candidates.length + 1 + kTargetBudget.toNat) }

end Materialization

end Ninfer.Planner
