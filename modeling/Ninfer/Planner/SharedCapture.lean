/-
  The planner of shared captures: `shared_capture_planner.h`.

  A Program session is code outside the model: each of its calls is an arbitrary function of the
  session's state that may throw. What is assumed of it is `Session.Consistent`: an expansion
  commits as many canonical targets as it was prepared with.

  The search keeps a history of the targets it assessed, of the expansions it committed and of the
  subtractions from its budget, which no code reads.
-/
import Ninfer.Planner.CaptureValue

namespace Ninfer.Planner

open Lib

namespace SharedCapture

variable {τ H W R P : Type}

/-! ## The Program session -/

/-- The part of a target's guidance that this planner reads. -/
structure TargetGuidance where
  candidate : PlanningCandidateId
  stableTargetOrdinal : UInt32

structure PressureExpansion (H : Type) where
  children : List H
  newCanonicalCount : UInt32

/-- A call of the session: it returns and changes the session, or throws. -/
def Call (τ α : Type) : Type := τ → Except Fault (α × τ)

structure Session (τ H W R P : Type) where
  /-- `begin_capture_pressure_planning`. -/
  start : Except Fault τ
  candidateId : τ → PlanningCandidateId
  identityTarget : Call τ H
  guidance : H → Call τ TargetGuidance
  assess : H → Call τ (PressureTargetAssessment W R)
  /-- Returns `new_canonical_count` of the prepared expansion. -/
  prepareExpansion : H → Call τ UInt32
  discardExpansion : τ → τ
  commitExpansion : Call τ (PressureExpansion H)
  sealTarget : H → PressureTargetAssessment W R → Call τ (Option P)

/-- An expansion commits as many targets as it was prepared with. -/
def Session.Consistent (session : Session τ H W R P) : Prop :=
  ∀ target s count t expansion u, session.prepareExpansion target s = .ok (count, t) →
    session.commitExpansion t = .ok (expansion, u) → expansion.newCanonicalCount = count

/-! ## The search -/

structure QueuedTarget (H : Type) where
  target : H
  ordinal : UInt32

structure Incumbent (H W R : Type) where
  target : H
  /-- The assessment that the assessed target carries. -/
  assessed : PressureTargetAssessment W R
  value : TransitionValue
  stableTarget : UInt32
  degradationUnits : UInt32
  droppedCheckpoints : UInt32
  ownerOutcomes : List PressureOwnerOutcome
  checkpointOutcomes : List PressureCheckpointOutcome

structure Result (P : Type) where
  pressure : P
  ownerOutcomes : List PressureOwnerOutcome
  checkpointOutcomes : List PressureCheckpointOutcome
  baselineValue : UInt64
  targetValue : UInt64
  immediateNs : UInt64
  netGain : UInt64
  stableScenarioOrdinal : UInt32
  stableTargetOrdinal : UInt32
  targetsEvaluated : UInt32

structure Search (τ H W R : Type) where
  session : τ
  queue : List (QueuedTarget H) := []
  cursor : Nat := 0
  ledger : BoundedTargetLedger
  incumbent : Option (Incumbent H W R) := none
  canonicalTargets : UInt32 := 1
  targetsEvaluated : UInt32 := 0
  /-- History: every assessment that the session returned. -/
  assessments : List (PressureTargetAssessment W R) := []
  /-- History: the new targets of each committed expansion. -/
  committed : List UInt32 := []
  /-- History: what was subtracted from the budget. -/
  subtracted : List UInt32 := []

def call {α : Type} (m : Call τ α) : Eff (Search τ H W R) α := fun s =>
  match m s.session with
  | .ok (a, session) => .ok a { s with session }
  | .error e => .throw e s

def targetMarked (ordinal : UInt32) (mark : TargetMark) : Eff (Search τ H W R) Bool := do
  let s ← Eff.get
  Eff.answer (s.ledger.contains ordinal mark)

def markTarget (ordinal : UInt32) (mark : TargetMark) : Eff (Search τ H W R) Unit := do
  let s ← Eff.get
  let ledger ← Eff.answer (s.ledger.mark ordinal [mark])
  Eff.modify fun s => { s with ledger }

/-- The tuple that `better` compares, as a list: lists of one length compare like tuples. -/
def rank (input : Input R) (gain : UInt64) (degradation dropped target : UInt32) : List Nat :=
  [gain.toNat, (4294967295 - degradation).toNat, (4294967295 - dropped).toNat,
    (4294967295 - input.stableScenarioOrdinal).toNat, (4294967295 - target).toNat]

def better (value : TransitionValue) (assessment : PressureTargetAssessment W R)
    (input : Input R) (incumbent : Incumbent H W R) : Bool :=
  decide (rank input value.gain assessment.degradationUnits assessment.droppedCheckpoints
      assessment.stableTargetOrdinal >
    rank input incumbent.value.gain incumbent.degradationUnits incumbent.droppedCheckpoints
      incumbent.stableTarget)

/-- A feasible target becomes the incumbent if its value is positive and better. -/
def offered (input : Input R) (target : H) (a : PressureTargetAssessment W R)
    (v : TransitionValue) (s : Search τ H W R) : Search τ H W R :=
  if v.positive = true ∧ ∀ incumbent ∈ s.incumbent, better v a input incumbent = true then
    { s with
      incumbent := some
        { target
          assessed := a
          value := v
          stableTarget := a.stableTargetOrdinal
          degradationUnits := a.degradationUnits
          droppedCheckpoints := a.droppedCheckpoints
          ownerOutcomes := a.ownerOutcomes
          checkpointOutcomes := a.checkpointOutcomes } }
  else s

section Planner

variable (session : Session τ H W R P) (cost : ContextMachineCostModel W R) (input : Input R)
  (capture : CaptureAssessment R)

variable (candidate : PlanningCandidateId)

variable (queued : QueuedTarget H)

/-- The assessment of one target, which may become the incumbent. -/
def assessQueued :
    Eff (Search τ H W R) (PressureTargetAssessment W R) := do
  let assessment ← call (session.assess queued.target)
  Eff.modify fun s => { s with assessments := s.assessments ++ [assessment] }
  Eff.require (assessment.candidate = candidate ∧ assessment.stableTargetOrdinal = queued.ordinal)
    (.logicError "shared capture target changed candidate identity")
  markTarget queued.ordinal .assessed
  Eff.modify fun s => { s with targetsEvaluated := s.targetsEvaluated + 1 }
  if assessment.physicalStatus = .feasible then
    let value ← Eff.answer (foldTarget input capture cost assessment)
    Eff.modify (offered input queued.target assessment value)
    pure assessment
  else pure assessment

/-- A child that was not discovered before is queued. -/
def discoverChild (child : H) : Eff (Search τ H W R) Unit := do
  let guidance ← call (session.guidance child)
  Eff.require (guidance.candidate = candidate)
    (.logicError "shared capture child changed candidate identity")
  let discovered ← targetMarked guidance.stableTargetOrdinal .discovered
  if discovered then pure ()
  else
    markTarget guidance.stableTargetOrdinal .discovered
    Eff.modify fun s =>
      { s with queue := s.queue ++ [{ target := child, ordinal := guidance.stableTargetOrdinal }] }

/-- The expansion of one target, as far as the budget allows it. -/
def expandQueued :
    Eff (Search τ H W R) Unit := do
  let count ← call (session.prepareExpansion queued.target)
  let canonicalTargets ← Eff.gets (·.canonicalTargets)
  Eff.modify fun s => { s with subtracted := s.subtracted ++ [canonicalTargets] }
  let remaining := input.targetBudget - canonicalTargets
  if count > remaining then
    Eff.modify fun s => { s with session := session.discardExpansion s.session }
  else
    let children ← call session.commitExpansion
    Eff.modify fun s =>
      { s with
        canonicalTargets := s.canonicalTargets + children.newCanonicalCount
        committed := s.committed ++ [children.newCanonicalCount] }
    markTarget queued.ordinal .expanded
    Eff.forEach children.children (discoverChild session candidate)

/-- One turn of the loop. -/
def turn :
    Eff (Search τ H W R) Unit := do
  Eff.modify fun s => { s with cursor := s.cursor + 1 }
  let assessed ← targetMarked queued.ordinal .assessed
  if assessed then pure ()
  else
    let assessment ← assessQueued session cost input capture candidate queued
    if assessment.expandable = false then pure ()
    else
      let expanded ← targetMarked queued.ordinal .expanded
      if expanded then pure () else expandQueued session input candidate queued

/-- At most `fuel` turns of the loop, which must have ended by then. -/
def searchLoop (candidate : PlanningCandidateId) : Nat → Eff (Search τ H W R) Unit
  | 0 => Eff.die
  | fuel + 1 => do
    let s ← Eff.get
    match s.queue[s.cursor]? with
    | none => pure ()
    | some queued =>
      if s.targetsEvaluated < input.targetBudget then
        turn session cost input capture candidate queued
        searchLoop candidate fuel
      else pure ()

/-- The search, from the identity target on. -/
def search : Eff (Search τ H W R) Unit := do
  let candidate ← Eff.gets fun s => session.candidateId s.session
  let identity ← call session.identityTarget
  let guide ← call (session.guidance identity)
  Eff.require (guide.candidate = candidate)
    (.logicError "shared capture identity guidance changed candidate identity")
  Eff.modify fun s =>
    { s with queue := s.queue ++ [{ target := identity, ordinal := guide.stableTargetOrdinal }] }
  markTarget guide.stableTargetOrdinal .discovered
  searchLoop session cost input capture candidate (input.targetBudget.toNat + 2)

/-- `plan` after the session has begun. -/
def planIn : Eff (Search τ H W R) (Option (Result P)) := do
  search session cost input capture
  let s ← Eff.get
  match s.incumbent with
  | none => pure none
  | some incumbent =>
    let pressure ← call (session.sealTarget incumbent.target incumbent.assessed)
    match pressure with
    | none => Eff.raise (.logicError "selected shared capture target could not be sealed")
    | some pressure =>
      pure (some
        { pressure
          ownerOutcomes := incumbent.ownerOutcomes
          checkpointOutcomes := incumbent.checkpointOutcomes
          baselineValue := incumbent.value.baselinePublic
          targetValue := incumbent.value.targetPublic
          immediateNs := incumbent.value.immediate
          netGain := incumbent.value.gain
          stableScenarioOrdinal := input.stableScenarioOrdinal
          stableTargetOrdinal := incumbent.stableTarget
          targetsEvaluated := s.targetsEvaluated })

end Planner

/-- The search state that a session begins with. -/
def Search.new (session : τ) (input : Input R) : Search τ H W R :=
  { session, ledger := .empty (input.targetBudget.toNat + 1) }

/-- How a whole call of `plan` ends: before the session, or in a search state. -/
def plan (session : Session τ H W R P) (cost : ContextMachineCostModel W R) (input : Input R) :
    Except Fault (Outcome (Search τ H W R) (Option (Result P))) := do
  let capture ← validate input
  let s ← session.start
  pure (planIn session cost input capture (Search.new s input))

/-! ## The rules of the small calls -/

variable {session : Session τ H W R P} {cost : ContextMachineCostModel W R} {input : Input R}
  {capture : CaptureAssessment R} {candidate : PlanningCandidateId} {s t : Search τ H W R}

theorem wp_call {α : Type} {m : Call τ α} {Q : Post (Search τ H W R) α}
    (hok : ∀ a u, m s.session = .ok (a, u) → Q.ok a { s with session := u })
    (hthrow : ∀ e, Q.throw e s) : wp (call m) Q s := by
  unfold wp call
  cases h : m s.session with
  | error e => exact hthrow e
  | ok r => exact hok r.1 r.2 h

variable {ordinal : UInt32} {a : PressureTargetAssessment W R} {queued : QueuedTarget H}

theorem wp_targetMarked {mark : TargetMark} {Q : Post (Search τ H W R) Bool}
    (hok : ordinal.toNat < s.ledger.capacity → Q.ok (s.ledger.marked ordinal.toNat mark) s)
    (hthrow : ∀ e, Q.throw e s) : wp (targetMarked ordinal mark) Q s := by
  unfold targetMarked
  simp only [wp_bind, wp_get, wp_answer]
  refine ⟨fun b hb => ?_, fun e _ => hthrow e⟩
  obtain ⟨hlt, rfl⟩ := BoundedTargetLedger.contains_ok hb
  exact hok hlt

theorem wp_markTarget {mark : TargetMark} {Q : Post (Search τ H W R) Unit}
    (hok : ordinal.toNat < s.ledger.capacity →
      Q.ok () { s with ledger := s.ledger.withMarks ordinal.toNat [mark] })
    (hthrow : ∀ e, Q.throw e s) : wp (markTarget ordinal mark) Q s := by
  unfold markTarget
  simp only [wp_bind, wp_get, wp_answer, wp_modify]
  refine ⟨fun ledger hledger => ?_, fun e _ => hthrow e⟩
  obtain ⟨hlt, rfl⟩ := BoundedTargetLedger.mark_ok hledger
  exact hok hlt

/-! ## The budget -/

/-- The committed targets are counted exactly and stay within the budget. -/
structure Budgeted (input : Input R) (s : Search τ H W R) : Prop where
  counted : s.canonicalTargets.toNat = 1 + (s.committed.map UInt32.toNat).sum
  within : s.canonicalTargets ≤ input.targetBudget
  subtracted : ∀ n ∈ s.subtracted, n ≤ input.targetBudget

/-- Two states of one budget. -/
def SameBudget (s t : Search τ H W R) : Prop :=
  t.canonicalTargets = s.canonicalTargets ∧ t.committed = s.committed ∧ t.subtracted = s.subtracted

theorem Budgeted.of_same (h : Budgeted input s) (hst : SameBudget s t) : Budgeted input t := by
  obtain ⟨h1, h2, h3⟩ := hst
  constructor
  · rw [h1, h2]
    exact h.counted
  · rw [h1]
    exact h.within
  · rw [h3]
    exact h.subtracted

theorem Budgeted.subtract (h : Budgeted input s) :
    Budgeted input { s with subtracted := s.subtracted ++ [s.canonicalTargets] } := by
  exact ⟨h.counted, h.within, forall_mem_push h.subtracted h.within⟩

theorem Budgeted.commit (h : Budgeted input s) {count : UInt32}
    (hcount : ¬ count > input.targetBudget - s.canonicalTargets) :
    Budgeted input { s with
      canonicalTargets := s.canonicalTargets + count
      committed := s.committed ++ [count] } := by
  have hroom := UInt32.toNat_sub_of_le _ _ h.within
  have hwithin := UInt32.le_iff_toNat_le.mp h.within
  have hbudget := input.targetBudget.toNat_lt
  rw [gt_iff_lt, UInt32.lt_iff_toNat_lt, hroom] at hcount
  have hsum : (s.canonicalTargets + count).toNat = s.canonicalTargets.toNat + count.toNat := by
    rw [UInt32.toNat_add]
    exact Nat.mod_eq_of_lt (by omega)
  refine ⟨?_, ?_, h.subtracted⟩
  · show (s.canonicalTargets + count).toNat = 1 + ((s.committed ++ [count]).map UInt32.toNat).sum
    rw [hsum, h.counted, List.map_append, List.sum_append, List.map_singleton,
      List.sum_singleton, Nat.add_assoc]
  · show s.canonicalTargets + count ≤ input.targetBudget
    rw [UInt32.le_iff_toNat_le, hsum]
    omega

/-! ## The queue -/

/-- Every queued target was discovered once. -/
structure Discovered (input : Input R) (s : Search τ H W R) : Prop where
  capacity : s.ledger.capacity = input.targetBudget.toNat + 1
  distinct : (s.queue.map fun q => q.ordinal.toNat).Nodup
  known : ∀ q ∈ s.queue, q.ordinal.toNat < s.ledger.capacity ∧
    s.ledger.marked q.ordinal.toNat .discovered = true

theorem Discovered.length_le (h : Discovered input s) :
    s.queue.length ≤ input.targetBudget.toNat + 1 := by
  have hsub : (s.queue.map fun q => q.ordinal.toNat) ⊆ List.range s.ledger.capacity := by
    intro n hn
    obtain ⟨q, hq, rfl⟩ := List.mem_map.mp hn
    exact List.mem_range.mpr (h.known q hq).1
  have hle := (h.distinct.subperm hsub).length_le
  rwa [List.length_map, List.length_range, h.capacity] at hle

theorem Discovered.mark (h : Discovered input s) (ordinal : Nat) (mark : TargetMark) :
    Discovered input { s with ledger := s.ledger.withMarks ordinal [mark] } :=
  ⟨h.capacity, h.distinct, fun q hq =>
    ⟨(h.known q hq).1, BoundedTargetLedger.marked_mono (h.known q hq).2⟩⟩

theorem Discovered.push (h : Discovered input s) (child : H)
    (hlt : ordinal.toNat < s.ledger.capacity)
    (hnew : s.ledger.marked ordinal.toNat .discovered ≠ true) :
    Discovered input { s with
      ledger := s.ledger.withMarks ordinal.toNat [.discovered]
      queue := s.queue ++ [{ target := child, ordinal }] } := by
  refine ⟨h.capacity, ?_, ?_⟩
  · show ((s.queue ++ [QueuedTarget.mk child ordinal]).map fun q => q.ordinal.toNat).Nodup
    rw [List.map_append]
    refine h.distinct.append (List.nodup_singleton _) (List.disjoint_singleton.mpr fun hmem => ?_)
    obtain ⟨q, hq, hsame⟩ := List.mem_map.mp hmem
    have hmarked := (h.known q hq).2
    rw [hsame] at hmarked
    exact hnew hmarked
  · refine forall_mem_push (fun q hq => ?_) ⟨hlt, ?_⟩
    · exact ⟨(h.known q hq).1, BoundedTargetLedger.marked_mono (h.known q hq).2⟩
    · exact BoundedTargetLedger.withMarks_marked.mpr (.inr ⟨rfl, List.mem_singleton.mpr rfl⟩)

/-! ## The incumbent -/

def Incumbent.rank (input : Input R) (i : Incumbent H W R) : List Nat :=
  SharedCapture.rank input i.value.gain i.degradationUnits i.droppedCheckpoints i.stableTarget

/-- The incumbent is an assessed target with the outcomes of its assessment, and no assessed target
    ranks higher. -/
structure Leading (input : Input R) (capture : CaptureAssessment R)
    (cost : ContextMachineCostModel W R) (s : Search τ H W R) : Prop where
  assessed : ∀ i ∈ s.incumbent, i.assessed ∈ s.assessments ∧ i.assessed.physicalStatus = .feasible
  valued : ∀ i ∈ s.incumbent, foldTarget input capture cost i.assessed = .ok i.value ∧
    i.value.positive = true
  copied : ∀ i ∈ s.incumbent, i.stableTarget = i.assessed.stableTargetOrdinal ∧
    i.degradationUnits = i.assessed.degradationUnits ∧
    i.droppedCheckpoints = i.assessed.droppedCheckpoints ∧
    i.ownerOutcomes = i.assessed.ownerOutcomes ∧
    i.checkpointOutcomes = i.assessed.checkpointOutcomes
  best : ∀ a ∈ s.assessments, a.physicalStatus = .feasible →
    ∃ v, foldTarget input capture cost a = .ok v ∧ (v.positive = true →
      ∃ i ∈ s.incumbent, rank input v.gain a.degradationUnits a.droppedCheckpoints
        a.stableTargetOrdinal ≤ i.rank input)

theorem Leading.of_same (h : Leading input capture cost s) (hi : t.incumbent = s.incumbent)
    (ha : t.assessments = s.assessments) : Leading input capture cost t := by
  constructor
  · rw [hi, ha]
    exact h.assessed
  · rw [hi]
    exact h.valued
  · rw [hi]
    exact h.copied
  · rw [hi, ha]
    exact h.best

/-- A target that cannot be used changes nothing. -/
theorem Leading.infeasible (h : Leading input capture cost s) (ha : a.physicalStatus ≠ .feasible) :
    Leading input capture cost { s with assessments := s.assessments ++ [a] } := by
  refine ⟨fun i hi => ⟨List.mem_append_left _ (h.assessed i hi).1, (h.assessed i hi).2⟩, h.valued,
    h.copied, forall_mem_push h.best fun hfeasible => absurd hfeasible ha⟩

theorem Leading.offered {target : H} {v : TransitionValue} (h : Leading input capture cost s)
    (hi : t.incumbent = s.incumbent) (hassessed : t.assessments = s.assessments ++ [a])
    (ha : a.physicalStatus = .feasible) (hv : foldTarget input capture cost a = .ok v) :
    Leading input capture cost (offered input target a v t) := by
  have hlast : a ∈ t.assessments := by
    rw [hassessed]
    exact List.mem_append_right _ (List.mem_singleton.mpr rfl)
  unfold SharedCapture.offered
  split_ifs with hbetter
  · refine ⟨?_, ?_, ?_, ?_⟩
    · rintro i ⟨⟩
      exact ⟨hlast, ha⟩
    · rintro i ⟨⟩
      exact ⟨hv, hbetter.1⟩
    · rintro i ⟨⟩
      exact ⟨rfl, rfl, rfl, rfl, rfl⟩
    · rw [hassessed]
      refine forall_mem_push (fun b hb hfeasible => ?_) fun _ => ⟨v, hv, fun _ => ⟨_, rfl, le_rfl⟩⟩
      -- an older target ranks below the old incumbent
      obtain ⟨w, hw, hbest⟩ := h.best b hb hfeasible
      refine ⟨w, hw, fun hpositive => ⟨_, rfl, ?_⟩⟩
      obtain ⟨i, hold, hle⟩ := hbest hpositive
      have hlt := of_decide_eq_true (hbetter.2 i (by rw [hi]; exact hold))
      exact hle.trans hlt.le
  · refine ⟨fun i hmem => ?_, fun i hmem => h.valued i (by rwa [hi] at hmem),
      fun i hmem => h.copied i (by rwa [hi] at hmem), ?_⟩
    · rw [hi] at hmem
      rw [hassessed]
      exact ⟨List.mem_append_left _ (h.assessed i hmem).1, (h.assessed i hmem).2⟩
    · rw [hassessed]
      refine forall_mem_push (hi ▸ h.best) fun _ => ⟨v, hv, fun hpositive => ?_⟩
      -- a positive value that is not taken has a better incumbent before it
      by_contra hno
      refine hbetter ⟨hpositive, fun i hmem => decide_eq_true ?_⟩
      exact not_le.mp fun hle => hno ⟨i, hmem, hle⟩

/-! ## One turn -/

/-- What holds at the head of the loop. -/
structure Sound (input : Input R) (capture : CaptureAssessment R)
    (cost : ContextMachineCostModel W R) (s : Search τ H W R) : Prop where
  budgeted : Budgeted input s
  discovered : Discovered input s
  leading : Leading input capture cost s

theorem wp_assessQueued (h : Sound input capture cost s) :
    wp (assessQueued session cost input capture candidate queued)
      ⟨fun _ t => Sound input capture cost t ∧ t.cursor = s.cursor ∧ t.queue = s.queue,
        fun _ t => Budgeted input t, False⟩ s := by
  unfold assessQueued
  rw [wp_bind]
  refine wp_call (fun a u _ => ?_) fun _ => h.budgeted
  simp only [wp_bind, wp_modify, wp_require]
  refine ⟨fun _ => h.budgeted.of_same ⟨rfl, rfl, rfl⟩, fun _ => ?_⟩
  refine wp_markTarget (fun _ => ?_) fun _ => h.budgeted.of_same ⟨rfl, rfl, rfl⟩
  have hdiscovered := h.discovered.mark queued.ordinal.toNat .assessed
  dsimp only
  rw [wp_ite]
  refine ⟨fun hfeasible => ?_, fun hfeasible => ?_⟩
  · simp only [wp_bind, wp_answer, wp_modify, wp_pure]
    refine ⟨fun v hv => ?_, fun _ _ => h.budgeted.of_same ⟨rfl, rfl, rfl⟩⟩
    refine ⟨⟨?_, ?_, h.leading.offered rfl rfl hfeasible hv⟩, ?_⟩
    · unfold offered
      split_ifs <;> exact h.budgeted.of_same ⟨rfl, rfl, rfl⟩
    · unfold offered
      split_ifs <;> exact ⟨hdiscovered.capacity, hdiscovered.distinct, hdiscovered.known⟩
    · unfold offered
      split_ifs <;> exact ⟨rfl, rfl⟩
  · exact ⟨⟨h.budgeted.of_same ⟨rfl, rfl, rfl⟩,
      ⟨hdiscovered.capacity, hdiscovered.distinct, hdiscovered.known⟩,
      (h.leading.infeasible hfeasible).of_same rfl rfl⟩, rfl, rfl⟩

theorem wp_discoverChild {child : H} (h : Sound input capture cost s) :
    wp (discoverChild session candidate child)
      ⟨fun _ t => Sound input capture cost t ∧ t.cursor = s.cursor ∧ s.queue <+: t.queue,
        fun _ t => Budgeted input t, False⟩ s := by
  unfold discoverChild
  rw [wp_bind]
  refine wp_call (fun guidance u _ => ?_) fun _ => h.budgeted
  have hcall : Sound input capture cost { s with session := u } :=
    ⟨h.budgeted.of_same ⟨rfl, rfl, rfl⟩,
      ⟨h.discovered.capacity, h.discovered.distinct, h.discovered.known⟩,
      h.leading.of_same rfl rfl⟩
  simp only [wp_bind, wp_require]
  refine ⟨fun _ => hcall.budgeted, fun _ => ?_⟩
  refine wp_targetMarked (fun hlt => ?_) fun _ => hcall.budgeted
  dsimp only
  rw [wp_ite]
  refine ⟨fun _ => ⟨hcall, rfl, List.prefix_rfl⟩, fun hnew => ?_⟩
  rw [wp_bind]
  refine wp_markTarget (fun _ => ?_) fun _ => hcall.budgeted
  exact ⟨⟨hcall.budgeted.of_same ⟨rfl, rfl, rfl⟩, hcall.discovered.push child hlt hnew,
    hcall.leading.of_same rfl rfl⟩, rfl, List.prefix_append _ _⟩

theorem wp_discoverChildren {children : List H} (h : Sound input capture cost s) :
    wp (Eff.forEach children (discoverChild session candidate))
      ⟨fun _ t => Sound input capture cost t ∧ t.cursor = s.cursor ∧ s.queue <+: t.queue,
        fun _ t => Budgeted input t, False⟩ s := by
  induction children generalizing s with
  | nil => exact ⟨h, rfl, List.prefix_rfl⟩
  | cons child children ih =>
    rw [wp_forEach_cons]
    refine wp_imp (wp_discoverChild h) ?_
    rintro _ t ⟨ht, hcursor, hqueue⟩
    refine wp_imp (ih ht) ?_
    rintro _ u ⟨hu, hcursor', hqueue'⟩
    exact ⟨hu, hcursor'.trans hcursor, hqueue.trans hqueue'⟩

theorem wp_expandQueued (hsession : session.Consistent) (h : Sound input capture cost s) :
    wp (expandQueued session input candidate queued)
      ⟨fun _ t => Sound input capture cost t ∧ t.cursor = s.cursor ∧ s.queue <+: t.queue,
        fun _ t => Budgeted input t, False⟩ s := by
  unfold expandQueued
  rw [wp_bind]
  refine wp_call (fun count u hprepared => ?_) fun _ => h.budgeted
  simp only [wp_bind, wp_gets, wp_modify]
  have hbudget : Budgeted input { s with
      session := u
      subtracted := s.subtracted ++ [s.canonicalTargets] } :=
    h.budgeted.subtract.of_same ⟨rfl, rfl, rfl⟩
  have hdiscovered : Discovered input { s with
      session := u
      subtracted := s.subtracted ++ [s.canonicalTargets] } :=
    ⟨h.discovered.capacity, h.discovered.distinct, h.discovered.known⟩
  rw [wp_ite]
  refine ⟨fun _ => ?_, fun hroom => ?_⟩
  · exact ⟨⟨hbudget.of_same ⟨rfl, rfl, rfl⟩,
      ⟨hdiscovered.capacity, hdiscovered.distinct, hdiscovered.known⟩,
      h.leading.of_same rfl rfl⟩, rfl, List.prefix_rfl⟩
  · rw [wp_bind]
    refine wp_call (fun expansion w hcommitted => ?_) fun _ => hbudget
    have hcount := hsession _ _ _ _ _ _ hprepared hcommitted
    simp only [wp_bind, wp_modify]
    rw [← hcount] at hroom
    have hcommit := hbudget.commit hroom
    refine wp_markTarget (fun _ => ?_) fun _ => hcommit.of_same ⟨rfl, rfl, rfl⟩
    have hmarked := hdiscovered.mark queued.ordinal.toNat .expanded
    exact wp_discoverChildren ⟨hcommit.of_same ⟨rfl, rfl, rfl⟩,
      ⟨hmarked.capacity, hmarked.distinct, hmarked.known⟩, h.leading.of_same rfl rfl⟩

theorem wp_turn (hsession : session.Consistent) (h : Sound input capture cost s) :
    wp (turn session cost input capture candidate queued)
      ⟨fun _ t => Sound input capture cost t ∧ t.cursor = s.cursor + 1 ∧ s.queue <+: t.queue,
        fun _ t => Budgeted input t, False⟩ s := by
  unfold turn
  simp only [wp_bind, wp_modify]
  have hnext : Sound input capture cost { s with cursor := s.cursor + 1 } :=
    ⟨h.budgeted.of_same ⟨rfl, rfl, rfl⟩,
      ⟨h.discovered.capacity, h.discovered.distinct, h.discovered.known⟩,
      h.leading.of_same rfl rfl⟩
  refine wp_targetMarked (fun _ => ?_) fun _ => hnext.budgeted
  dsimp only
  rw [wp_ite]
  refine ⟨fun _ => ⟨hnext, rfl, List.prefix_rfl⟩, fun _ => ?_⟩
  rw [wp_bind]
  refine wp_imp (wp_assessQueued hnext) ?_
  rintro a t ⟨ht, hcursor, hqueue⟩
  have hprefix : s.queue <+: t.queue := by
    rw [hqueue]
  rw [wp_ite]
  refine ⟨fun _ => ⟨ht, hcursor, hprefix⟩, fun _ => ?_⟩
  rw [wp_bind]
  refine wp_targetMarked (fun _ => ?_) fun _ => ht.budgeted
  dsimp only
  rw [wp_ite]
  refine ⟨fun _ => ⟨ht, hcursor, hprefix⟩, fun _ => ?_⟩
  refine wp_imp (wp_expandQueued hsession ht) ?_
  rintro _ u ⟨hu, hcursor', hqueue'⟩
  exact ⟨hu, hcursor'.trans hcursor, hprefix.trans hqueue'⟩

/-! ## The whole search -/

/-- The queue has an end that the fuel reaches. -/
theorem wp_searchLoop (hsession : session.Consistent) {fuel : Nat}
    (h : Sound input capture cost s) (hcursor : s.cursor ≤ s.queue.length)
    (hfuel : fuel + s.cursor = input.targetBudget.toNat + 2) :
    wp (searchLoop session cost input capture candidate fuel)
      ⟨fun _ t => Sound input capture cost t, fun _ t => Budgeted input t, False⟩ s := by
  induction fuel generalizing s with
  | zero =>
    have hlength := h.discovered.length_le
    omega
  | succ fuel ih =>
    rw [searchLoop, wp_bind, wp_get]
    dsimp only
    cases hqueued : s.queue[s.cursor]? with
    | none => exact h
    | some queued =>
      have hlt := (List.getElem?_eq_some_iff.mp hqueued).1
      rw [wp_ite]
      refine ⟨fun _ => ?_, fun _ => h⟩
      rw [wp_bind]
      refine wp_imp (wp_turn hsession h) ?_
      rintro _ t ⟨ht, hnext, hprefix⟩
      have hgrown := hprefix.length_le
      exact ih ht (by omega) (by omega)

theorem sound_new {u : τ} (hbudget : input.targetBudget ≠ 0) :
    Sound input capture cost (Search.new u input : Search τ H W R) where
  budgeted :=
    { counted := rfl
      within := by
        have hne : input.targetBudget.toNat ≠ 0 := fun hzero =>
          hbudget (UInt32.toNat_inj.mp hzero)
        exact UInt32.le_iff_toNat_le.mpr (Nat.one_le_iff_ne_zero.mpr hne)
      subtracted := fun _ h => nomatch h }
  discovered :=
    { capacity := rfl
      distinct := List.nodup_nil
      known := fun _ h => nomatch h }
  leading :=
    { assessed := fun _ h => nomatch h
      valued := fun _ h => nomatch h
      copied := fun _ h => nomatch h
      best := fun _ h => nomatch h }

theorem wp_search {u : τ} (hsession : session.Consistent) (hbudget : input.targetBudget ≠ 0) :
    wp (search session cost input capture)
      ⟨fun _ t => Sound input capture cost t, fun _ t => Budgeted input t, False⟩
      (Search.new u input) := by
  have hnew : Sound input capture cost (Search.new u input : Search τ H W R) := sound_new hbudget
  unfold search
  simp only [wp_bind, wp_gets]
  refine wp_call (fun identity v _ => ?_) fun _ => hnew.budgeted
  refine wp_call (fun guide w _ => ?_) fun _ => hnew.budgeted.of_same ⟨rfl, rfl, rfl⟩
  simp only [wp_require, wp_modify]
  refine ⟨fun _ => hnew.budgeted.of_same ⟨rfl, rfl, rfl⟩, fun _ => ?_⟩
  refine wp_markTarget (fun hlt => ?_) fun _ => hnew.budgeted.of_same ⟨rfl, rfl, rfl⟩
  have hpushed := hnew.discovered.push identity hlt Bool.false_ne_true
  refine wp_searchLoop hsession ⟨hnew.budgeted.of_same ⟨rfl, rfl, rfl⟩,
    ⟨hpushed.capacity, hpushed.distinct, hpushed.known⟩, hnew.leading.of_same rfl rfl⟩
    (Nat.zero_le _) (Nat.add_zero _)

theorem validate_ok (h : validate input = .ok capture) :
    input.capture = some capture ∧ input.targetBudget ≠ 0 := by
  unfold validate at h
  cases hcapture : input.capture with
  | none =>
    rw [hcapture] at h
    cases h
  | some c =>
    rw [hcapture] at h
    dsimp only at h
    split_ifs at h with hbad
    cases h
    exact ⟨rfl, fun hzero => hbad (.inr (.inl hzero))⟩

/-- A result is made of the incumbent. -/
theorem wp_planIn {u : τ} (hsession : session.Consistent) (hbudget : input.targetBudget ≠ 0) :
    wp (planIn session cost input capture)
      ⟨fun r t => Sound input capture cost t ∧ ∀ result ∈ r, ∃ i ∈ t.incumbent,
          result.netGain = i.value.gain ∧ result.stableTargetOrdinal = i.stableTarget ∧
          result.ownerOutcomes = i.ownerOutcomes ∧
          result.checkpointOutcomes = i.checkpointOutcomes,
        fun _ t => Budgeted input t, False⟩ (Search.new u input) := by
  unfold planIn
  rw [wp_bind]
  refine wp_imp (wp_search hsession hbudget) ?_
  intro _ t ht
  rw [wp_bind, wp_get]
  dsimp only
  cases hincumbent : t.incumbent with
  | none => exact ⟨ht, nofun⟩
  | some i =>
    rw [wp_bind]
    refine wp_call (fun pressure v _ => ?_) fun _ => ht.budgeted
    have hcalled : Sound input capture cost { t with session := v } :=
      ⟨ht.budgeted.of_same ⟨rfl, rfl, rfl⟩,
        ⟨ht.discovered.capacity, ht.discovered.distinct, ht.discovered.known⟩,
        ht.leading.of_same rfl rfl⟩
    cases pressure with
    | none => exact hcalled.budgeted
    | some pressure =>
      refine ⟨hcalled, ?_⟩
      rintro result ⟨⟩
      exact ⟨i, hincumbent, rfl, rfl, rfl, rfl⟩

/-! ## The selected target -/

/-- The order of targets with equal gains. -/
def Ahead (b a : PressureTargetAssessment W R) : Prop :=
  b.degradationUnits < a.degradationUnits ∨ b.degradationUnits = a.degradationUnits ∧
      (b.droppedCheckpoints < a.droppedCheckpoints ∨ b.droppedCheckpoints = a.droppedCheckpoints ∧
          b.stableTargetOrdinal < a.stableTargetOrdinal)

theorem toNat_flipped (n : UInt32) : (4294967295 - n).toNat = 4294967295 - n.toNat := by
  have hlt := n.toNat_lt
  exact UInt32.toNat_sub_of_le _ _ (UInt32.le_iff_toNat_le.mpr (by show _ ≤ 4294967295; omega))

theorem rank_lt_of_ahead (input : Input R) {b : PressureTargetAssessment W R} {g g' : UInt64}
    (h : g < g' ∨ g' = g ∧ Ahead b a) :
    rank input g a.degradationUnits a.droppedCheckpoints a.stableTargetOrdinal <
      rank input g' b.degradationUnits b.droppedCheckpoints b.stableTargetOrdinal := by
  have hdegradation := a.degradationUnits.toNat_lt
  have hdropped := a.droppedCheckpoints.toNat_lt
  have hordinal := a.stableTargetOrdinal.toNat_lt
  unfold Ahead at h
  unfold rank
  simp only [List.cons_lt_cons_iff, toNat_flipped, UInt32.lt_iff_toNat_lt,
    UInt64.lt_iff_toNat_lt, ← UInt32.toNat_inj, ← UInt64.toNat_inj] at h ⊢
  rcases h with hgain | ⟨hgain, hunits | ⟨hunits, hdrops | ⟨hdrops, htarget⟩⟩⟩
  · exact .inl hgain
  · exact .inr ⟨hgain.symm, .inl (by omega)⟩
  · exact .inr ⟨hgain.symm, .inr ⟨by omega, .inl (by omega)⟩⟩
  · exact .inr ⟨hgain.symm, .inr ⟨by omega, .inr ⟨by omega, .inr ⟨trivial, .inl (by omega)⟩⟩⟩⟩

/-- A call of `plan` stays within its target budget however it ends, and what it returns is an
    assessed feasible target with a real gain, ahead of which no other assessed target is. -/
theorem shared_capture_selects_real_gains (session : Session τ H W R P)
    (cost : ContextMachineCostModel W R) (input : Input R) (hsession : session.Consistent)
    (out : Outcome (Search τ H W R) (Option (Result P)))
    (hplan : plan session cost input = .ok out) :
    out ≠ .dead ∧
    (∀ s, out.Lands s → 1 + (s.committed.map UInt32.toNat).sum ≤ input.targetBudget.toNat ∧
      ∀ n ∈ s.subtracted, n ≤ input.targetBudget) ∧
    ∀ result s, out = .ok (some result) s →
      ∃ capture ∈ input.capture, ∃ a ∈ s.assessments, a.physicalStatus = .feasible ∧
        Gains input capture cost a result.netGain.toNat ∧
        result.stableTargetOrdinal = a.stableTargetOrdinal ∧
        result.ownerOutcomes = a.ownerOutcomes ∧
        result.checkpointOutcomes = a.checkpointOutcomes ∧
        ∀ b ∈ s.assessments, b.physicalStatus = .feasible → ∀ g, Gains input capture cost b g →
            ¬ (result.netGain.toNat < g ∨ g = result.netGain.toNat ∧ Ahead b a) := by
  obtain ⟨capture, hvalid, hplan⟩ := bind_eq_ok hplan
  obtain ⟨u, -, hplan⟩ := bind_eq_ok hplan
  obtain ⟨hcapture, hbudget⟩ := validate_ok hvalid
  cases hplan
  have hrun : wp (planIn session cost input capture) _ (Search.new u input) :=
    wp_planIn hsession hbudget
  refine ⟨wp_not_dead hrun id, fun s hs => ?_, fun result s hout => ?_⟩
  · have hend : Budgeted input s :=
      wp_lands (wp_imp hrun (fun _ _ h => h.1.budgeted)) hs
    refine ⟨?_, hend.subtracted⟩
    rw [← hend.counted]
    exact UInt32.le_iff_toNat_le.mp hend.within
  · unfold wp at hrun
    rw [hout] at hrun
    obtain ⟨hsound, hresult⟩ := hrun
    obtain ⟨i, hi, hgain, htarget, howners, hcheckpoints⟩ := hresult result rfl
    obtain ⟨hmem, hfeasible⟩ := hsound.leading.assessed i hi
    obtain ⟨hvalue, hpositive⟩ := hsound.leading.valued i hi
    obtain ⟨hordinal, hunits, hdropped, hcopied, hcopied'⟩ := hsound.leading.copied i hi
    refine ⟨capture, hcapture, i.assessed, hmem, hfeasible, ?_, htarget.trans hordinal,
      howners.trans hcopied, hcheckpoints.trans hcopied', ?_⟩
    · rw [hgain]
      exact (gains_iff hvalue _).mpr ⟨hpositive, rfl⟩
    · intro b hb hfeasible' g hg hahead
      obtain ⟨v, hv, hbest⟩ := hsound.leading.best b hb hfeasible'
      obtain ⟨hvpositive, rfl⟩ := (gains_iff hv g).mp hg
      obtain ⟨j, hj, hle⟩ := hbest hvpositive
      cases hi.symm.trans hj
      rw [hgain, ← UInt64.lt_iff_toNat_lt, UInt64.toNat_inj] at hahead
      have hlt := rank_lt_of_ahead input hahead
      unfold Incumbent.rank at hle
      rw [hordinal, hunits, hdropped] at hle
      exact absurd hlt hle.not_gt

/-- Three targets: as they are the owners leave no room, and the other two take it from the second
    owner, which loses a checkpoint in the first of them and is evicted in the second. -/
def threeAssessments (target : Fin 3) : PressureTargetAssessment UInt64 UInt64 :=
  { physicalStatus := if target = 0 then .infeasible else .feasible
    machineWork := ![0, 40, 10] target
    candidate := ⟨7⟩
    stableTargetOrdinal := UInt32.ofNat target
    expandable := true
    droppedCheckpoints := ![0, 1, 2] target
    ownerOutcomes := ![[], [{ owner := ⟨1⟩, disposition := .retained, droppedCheckpoints := 1 }],
      [{ owner := ⟨1⟩, disposition := .evicted, droppedCheckpoints := 2 }]] target
    checkpointImpacts := ![[], [⟨⟨⟨1⟩, { frontier := 8 }, false⟩, [300]⟩],
      [⟨⟨⟨1⟩, { frontier := 4 }, false⟩, [200]⟩, ⟨⟨⟨1⟩, { frontier := 8 }, false⟩, [900]⟩]] target }

/-- The state of this session is the number of targets in the prepared expansion. -/
def threeTargets : Session UInt32 (Fin 3) UInt64 UInt64 Unit where
  start := .ok 0
  candidateId _ := ⟨7⟩
  identityTarget n := .ok (0, n)
  guidance target n := .ok ({ candidate := ⟨7⟩, stableTargetOrdinal := UInt32.ofNat target }, n)
  assess target n := .ok (threeAssessments target, n)
  prepareExpansion target _ := if target = 0 then .ok (2, 2) else .ok (0, 0)
  discardExpansion _ := 0
  commitExpansion n := .ok (⟨if n = 0 then [] else [1, 2], n⟩, 0)
  sealTarget _ _ n := .ok (some (), n)

/-- Work is priced by its own number. -/
def ownNumber : ContextMachineCostModel UInt64 UInt64 where
  price work := { immediateNs := work }
  recoveryNs alternatives := alternatives.headD 0

/-- A capture that is restored in one nanosecond and rebuilt in a thousand, beside two owners. -/
def twoOwners : Input UInt64 :=
  { capture := some
      { publishesShared := true
        sharedEvidence := { explicitBoundary := true }
        projectedRecoveryWork := [1] }
    privateOwners := 2
    privateOwnerIds := [⟨0⟩, ⟨1⟩]
    ownerPolicies := [{ owner := ⟨0⟩, privateRetentionWeight := 2 },
      { owner := ⟨1⟩, privateRetentionWeight := 1 }]
    checkpointPolicies := [
      { owner := ⟨0⟩, checkpoint := { frontier := 8 }, rebuildNs := 500, baselineRecoveryNs := 5 },
      { owner := ⟨1⟩, checkpoint := { frontier := 4 }, rebuildNs := 200, baselineRecoveryNs := 4 },
      { owner := ⟨1⟩, checkpoint := { frontier := 8 }, rebuildNs := 900, baselineRecoveryNs := 8 }]
    candidateRebuildNs := 1000
    targetBudget := 4 }

theorem threeTargets_consistent : threeTargets.Consistent := by
  intro target s count t expansion u hprepared hcommitted
  cases hcommitted
  simp only [threeTargets] at hprepared
  split_ifs at hprepared <;> cases hprepared <;> rfl

/-- The gain, the target and the outcomes that a call returned, with the ordinals that it
    assessed. -/
def returnedGain (out : Except Fault (Outcome (Search τ H W R) (Option (Result P)))) :
    Option (UInt64 × UInt32 × List PressureCheckpointOutcome × List UInt32) :=
  match out with
  | .ok (.ok (some r) s) =>
    some (r.netGain, r.stableTargetOrdinal, r.checkpointOutcomes,
      s.assessments.map (·.stableTargetOrdinal))
  | _ => none

/-- The second owner keeps one of its checkpoints: its eviction costs less now, but loses more than
    the faster work brings. -/
theorem shared_capture_selects_real_gains_drop : threeTargets.Consistent ∧
    ∃ result s, plan threeTargets ownNumber twoOwners = .ok (.ok (some result) s) ∧
      result.netGain = 667 ∧ result.stableTargetOrdinal = 1 ∧
      result.checkpointOutcomes = [⟨⟨1⟩, { frontier := 8 }, false⟩] ∧
      s.assessments.map (·.stableTargetOrdinal) = [0, 1, 2] ∧
      ∃ capture ∈ twoOwners.capture, ∃ a ∈ s.assessments,
        Gains twoOwners capture ownNumber a result.netGain.toNat := by
  have hreturned : returnedGain (plan threeTargets ownNumber twoOwners) =
      some (667, 1, [⟨⟨1⟩, { frontier := 8 }, false⟩], [0, 1, 2]) := by
    decide +kernel
  unfold returnedGain at hreturned
  split at hreturned
  case h_2 => cases hreturned
  case h_1 result s hplan =>
    obtain ⟨hgain, htarget, houtcomes, hassessed⟩ := by
      simpa only [Option.some.injEq, Prod.mk.injEq] using hreturned
    obtain ⟨capture, hcapture, a, ha, -, hgains, -⟩ :=
      (shared_capture_selects_real_gains threeTargets ownNumber twoOwners threeTargets_consistent _
        hplan).2.2 _ _ rfl
    exact ⟨threeTargets_consistent, result, s, hplan, hgain, htarget, houtcomes, hassessed, capture,
      hcapture, a, ha, hgains⟩

end SharedCapture

end Ninfer.Planner
