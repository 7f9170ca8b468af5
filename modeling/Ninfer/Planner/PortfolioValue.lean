/-
  The value of a portfolio of checkpoints: `context_portfolio_value.h`.

  `ContextPortfolioValue.fold` keeps running maxima by owner and by demand and adds them up with
  saturation. `Portfolio` says what it computes: sums of best savings, as exact numbers. The fold
  returns those numbers, each cut off at 64 bits, and reports saturation exactly when one of them
  does not fit (`fold_eq`).
-/
import Ninfer.Lib.Fallible
import Ninfer.Lib.Saturating

namespace Ninfer.Planner

open Lib Saturating

structure PlanningOwnerId where
  value : UInt32
  deriving DecidableEq

structure ContextPortfolioOwnerPolicy where
  owner : PlanningOwnerId
  privateRetentionWeight : UInt32 := 0
  explicitSharedCredit : Bool := false

structure ContextPortfolioCheckpointValue where
  owner : PlanningOwnerId
  demandMask : UInt32 := 0
  rebuildNs : UInt64 := 0
  baselineRecoveryNs : UInt64 := 0
  targetRecoveryNs : UInt64 := 0

structure ContextPortfolioValueResult where
  baselinePublicValue : UInt64 := 0
  targetPublicValue : UInt64 := 0
  privateTransitionLoss : UInt64 := 0
  saturated : Bool := false

/-- `a > b ? a - b : 0`. -/
def monus (a b : UInt64) : UInt64 := if a > b then a - b else 0

theorem toNat_monus (a b : UInt64) : (monus a b).toNat = a.toNat - b.toNat :=
  Lib.Saturating.toNat_subOrZero a b

namespace ContextPortfolioCheckpointValue

variable (c : ContextPortfolioCheckpointValue)

def baselineSaving : UInt64 := monus c.rebuildNs c.baselineRecoveryNs

def targetSaving : UInt64 := monus c.rebuildNs c.targetRecoveryNs

/-- What the target saves less than the baseline. -/
def loss : UInt64 := monus c.baselineSaving c.targetSaving

/-- Whether the checkpoint serves the demand of a bit. -/
def serves (bit : Nat) : Bool := c.demandMask &&& (1 <<< UInt32.ofNat bit) ≠ 0

end ContextPortfolioCheckpointValue

/-! ## The fold of the source -/

structure OwnerValue where
  owner : PlanningOwnerId
  privateRetentionWeight : UInt32 := 0
  explicitSharedCredit : Bool := false
  baselineBest : UInt64 := 0
  targetBest : UInt64 := 0
  privateTransitionLoss : UInt64 := 0

namespace ContextPortfolioValue

/-- The first loop: an entry for each owner. -/
def startOwners : List OwnerValue → List ContextPortfolioOwnerPolicy →
    Except Fault (List OwnerValue)
  | scratch, [] => .ok scratch
  | scratch, policy :: policies =>
    if scratch.any (fun item => item.owner = policy.owner) then
      .error (.logicError "portfolio owner policy ID is duplicated")
    else
      startOwners (scratch ++
          [{ owner := policy.owner
             privateRetentionWeight := policy.privateRetentionWeight
             explicitSharedCredit := policy.explicitSharedCredit }])
        policies

def noteOwner (c : ContextPortfolioCheckpointValue) (owner : OwnerValue) : OwnerValue :=
  { owner with
    baselineBest := max owner.baselineBest c.baselineSaving
    targetBest := max owner.targetBest c.targetSaving
    privateTransitionLoss := max owner.privateTransitionLoss c.loss }

/-- The entry that `find_if` finds is updated. -/
def noteFirst (c : ContextPortfolioCheckpointValue) : List OwnerValue → Option (List OwnerValue)
  | [] => none
  | item :: rest =>
    if item.owner = c.owner then some (noteOwner c item :: rest)
    else (noteFirst c rest).map (item :: ·)

/-- What the second loop keeps. -/
structure Running where
  owners : List OwnerValue
  baselineDemand : Nat → UInt64 := fun _ => 0
  targetDemand : Nat → UInt64 := fun _ => 0

/-- One turn of the second loop. The inner loop visits the 32 bits; each is its own cell. -/
def noteCheckpoint (s : Running) (c : ContextPortfolioCheckpointValue) : Except Fault Running :=
  match noteFirst c s.owners with
  | none => .error (.logicError "portfolio checkpoint has no owner policy")
  | some owners =>
    .ok
      { owners
        baselineDemand := fun bit =>
          if c.serves bit then max (s.baselineDemand bit) c.baselineSaving
          else s.baselineDemand bit
        targetDemand := fun bit =>
          if c.serves bit then max (s.targetDemand bit) c.targetSaving else s.targetDemand bit }

section Adding

variable (r : ContextPortfolioValueResult)

def addBaseline (increment : UInt64) : ContextPortfolioValueResult :=
  let sum := add r.baselinePublicValue increment r.saturated
  { r with baselinePublicValue := sum.1, saturated := sum.2 }

def addTarget (increment : UInt64) : ContextPortfolioValueResult :=
  let sum := add r.targetPublicValue increment r.saturated
  { r with targetPublicValue := sum.1, saturated := sum.2 }

def addLoss (increment : UInt64) (weight : UInt32) : ContextPortfolioValueResult :=
  let sum := addWeighted r.privateTransitionLoss increment weight r.saturated
  { r with privateTransitionLoss := sum.1, saturated := sum.2 }

/-- One turn of the loop over the owners. -/
def addOwner (owner : OwnerValue) : ContextPortfolioValueResult :=
  let r := if owner.privateRetentionWeight ≠ 0 then
      addLoss r owner.privateTransitionLoss owner.privateRetentionWeight
    else r
  if owner.explicitSharedCredit then addTarget (addBaseline r owner.baselineBest) owner.targetBest
  else r

end Adding

/-- The last two loops. -/
def total (s : Running) : ContextPortfolioValueResult :=
  let r := (List.range 32).foldl
    (fun r bit => addTarget (addBaseline r (s.baselineDemand bit)) (s.targetDemand bit)) {}
  s.owners.foldl addOwner r

def fold (owners : List ContextPortfolioOwnerPolicy)
    (checkpoints : List ContextPortfolioCheckpointValue) :
    Except Fault ContextPortfolioValueResult := do
  let scratch ← startOwners [] owners
  let s ← checkpoints.foldlM noteCheckpoint { owners := scratch }
  pure (total s)

end ContextPortfolioValue

/-! ## What it computes -/

/-- The owners and the checkpoints of a portfolio. -/
structure Portfolio where
  owners : List ContextPortfolioOwnerPolicy
  checkpoints : List ContextPortfolioCheckpointValue

/-- The largest of some values, or nothing. -/
def best {α : Type} (value : α → UInt64) (l : List α) : UInt64 :=
  l.foldl (fun b a => max b (value a)) 0

namespace Portfolio

variable (p : Portfolio)

/-- The checkpoints of an owner. -/
def ofOwner (owner : PlanningOwnerId) : List ContextPortfolioCheckpointValue :=
  p.checkpoints.filter fun c => c.owner = owner

def serving (bit : Nat) : List ContextPortfolioCheckpointValue :=
  p.checkpoints.filter fun c => c.serves bit

/-- The best saving of each demand, and of each owner with explicit credit. -/
def publicValue (saving : ContextPortfolioCheckpointValue → UInt64) : Nat :=
  ((List.range 32).map fun bit => (best saving (p.serving bit)).toNat).sum +
    ((p.owners.filter (·.explicitSharedCredit)).map fun o =>
      (best saving (p.ofOwner o.owner)).toNat).sum

/-- The weighted worst loss of each owner. -/
def transitionLoss : Nat :=
  (p.owners.map fun o => (best (·.loss) (p.ofOwner o.owner)).toNat *
    o.privateRetentionWeight.toNat).sum

/-- One more checkpoint. -/
def withCheckpoint (c : ContextPortfolioCheckpointValue) : Portfolio :=
  { p with checkpoints := p.checkpoints ++ [c] }

def baselinePublic : Nat := p.publicValue (·.baselineSaving)

def targetPublic : Nat := p.publicValue (·.targetSaving)

end Portfolio

/-- Three exact numbers as the source returns them. -/
def ContextPortfolioValueResult.ofExact (baseline target loss : Nat) :
    ContextPortfolioValueResult :=
  { baselinePublicValue := clamp baseline
    targetPublicValue := clamp target
    privateTransitionLoss := clamp loss
    saturated := decide (18446744073709551615 < baseline) || decide (18446744073709551615 < target)
      || decide (18446744073709551615 < loss) }

namespace ContextPortfolioValue

open ContextPortfolioValueResult (ofExact)

/-! ## The last two loops add exactly -/

theorem saturated_ofExact {b t l : Nat} : (ofExact b t l).saturated = true ↔
      18446744073709551615 < b ∨ 18446744073709551615 < t ∨ 18446744073709551615 < l := by
  unfold ofExact
  rw [Bool.or_eq_true, Bool.or_eq_true, decide_eq_true_iff, decide_eq_true_iff,
    decide_eq_true_iff, or_assoc]

/-- The flag of larger sums, where the one that grew is `n`. -/
theorem saturated_grow {b t l b' t' l' n : Nat} (hb : b ≤ b') (ht : t ≤ t') (hl : l ≤ l')
    (hn : n = b' ∧ t' = t ∧ l' = l ∨ n = t' ∧ b' = b ∧ l' = l ∨ n = l' ∧ b' = b ∧ t' = t) :
    ((ofExact b t l).saturated || decide (18446744073709551615 < n)) =
      (ofExact b' t' l').saturated := by
  rw [Bool.eq_iff_iff, Bool.or_eq_true, saturated_ofExact, saturated_ofExact, decide_eq_true_iff]
  omega

theorem addBaseline_ofExact (b t l : Nat) (i : UInt64) :
    addBaseline (ofExact b t l) i = ofExact (b + i.toNat) t l := by
  have hsum := add_clamp b i (ofExact b t l).saturated fun h =>
    saturated_ofExact.mpr (.inl h)
  rw [saturated_grow (Nat.le_add_right b i.toNat) le_rfl le_rfl (.inl ⟨rfl, rfl, rfl⟩)] at hsum
  show { ofExact b t l with
    baselinePublicValue := (add (clamp b) i (ofExact b t l).saturated).1
    saturated := (add (clamp b) i (ofExact b t l).saturated).2 } = _
  rw [hsum]
  rfl

theorem addTarget_ofExact (b t l : Nat) (i : UInt64) :
    addTarget (ofExact b t l) i = ofExact b (t + i.toNat) l := by
  have hsum := add_clamp t i (ofExact b t l).saturated fun h =>
    saturated_ofExact.mpr (.inr (.inl h))
  rw [saturated_grow le_rfl (Nat.le_add_right t i.toNat) le_rfl
    (.inr (.inl ⟨rfl, rfl, rfl⟩))] at hsum
  show { ofExact b t l with
    targetPublicValue := (add (clamp t) i (ofExact b t l).saturated).1
    saturated := (add (clamp t) i (ofExact b t l).saturated).2 } = _
  rw [hsum]
  rfl

theorem addLoss_ofExact (b t l : Nat) (i : UInt64) (w : UInt32) :
    addLoss (ofExact b t l) i w = ofExact b t (l + i.toNat * w.toNat) := by
  have hsum := addWeighted_clamp l i w (ofExact b t l).saturated fun h =>
    saturated_ofExact.mpr (.inr (.inr h))
  rw [saturated_grow le_rfl le_rfl (Nat.le_add_right l (i.toNat * w.toNat))
    (.inr (.inr ⟨rfl, rfl, rfl⟩))] at hsum
  show { ofExact b t l with
    privateTransitionLoss := (addWeighted (clamp l) i w (ofExact b t l).saturated).1
    saturated := (addWeighted (clamp l) i w (ofExact b t l).saturated).2 } = _
  rw [hsum]
  rfl

/-- What an owner's entry adds to the public values. -/
def credit (owner : OwnerValue) (value : UInt64) : Nat :=
  if owner.explicitSharedCredit then value.toNat else 0

theorem addOwner_ofExact (b t l : Nat) (o : OwnerValue) : addOwner (ofExact b t l) o =
      ofExact (b + credit o o.baselineBest) (t + credit o o.targetBest)
        (l + o.privateTransitionLoss.toNat * o.privateRetentionWeight.toNat) := by
  have hloss : (if o.privateRetentionWeight ≠ 0 then
      addLoss (ofExact b t l) o.privateTransitionLoss o.privateRetentionWeight
      else ofExact b t l) =
      ofExact b t (l + o.privateTransitionLoss.toNat * o.privateRetentionWeight.toNat) := by
    split_ifs with hw
    · exact addLoss_ofExact b t l _ _
    · rw [not_not.mp hw, UInt32.toNat_zero, Nat.mul_zero, Nat.add_zero]
  unfold addOwner credit
  rw [hloss]
  dsimp only
  split_ifs with hcredit
  · rw [addBaseline_ofExact, addTarget_ofExact]
  · rfl

theorem foldl_addOwner (owners : List OwnerValue) (b t l : Nat) :
    owners.foldl addOwner (ofExact b t l) =
      ofExact (b + (owners.map fun o => credit o o.baselineBest).sum)
        (t + (owners.map fun o => credit o o.targetBest).sum)
        (l + (owners.map fun o =>
          o.privateTransitionLoss.toNat * o.privateRetentionWeight.toNat).sum) := by
  induction owners generalizing b t l with
  | nil => rfl
  | cons o owners ih =>
    rw [List.foldl_cons, addOwner_ofExact, ih]
    simp only [List.map_cons, List.sum_cons, Nat.add_assoc]

theorem foldl_demands (bits : List Nat) (base target : Nat → UInt64) (b t l : Nat) :
    bits.foldl (fun r bit => addTarget (addBaseline r (base bit)) (target bit)) (ofExact b t l) =
      ofExact (b + (bits.map fun bit => (base bit).toNat).sum)
        (t + (bits.map fun bit => (target bit).toNat).sum) l := by
  induction bits generalizing b t with
  | nil => rfl
  | cons bit bits ih =>
    rw [List.foldl_cons, addBaseline_ofExact, addTarget_ofExact, ih]
    simp only [List.map_cons, List.sum_cons, Nat.add_assoc]

theorem total_eq (s : Running) : total s = ofExact
      (((List.range 32).map fun bit => (s.baselineDemand bit).toNat).sum +
        (s.owners.map fun o => credit o o.baselineBest).sum)
      (((List.range 32).map fun bit => (s.targetDemand bit).toNat).sum +
        (s.owners.map fun o => credit o o.targetBest).sum)
      (s.owners.map fun o =>
        o.privateTransitionLoss.toNat * o.privateRetentionWeight.toNat).sum := by
  have hzero : ({} : ContextPortfolioValueResult) = ofExact 0 0 0 := rfl
  unfold total
  rw [hzero]
  rw [foldl_demands, foldl_addOwner, Nat.zero_add, Nat.zero_add, Nat.zero_add]

/-! ## The running maxima -/

theorem best_concat {α : Type} (value : α → UInt64) (l : List α) (a : α) :
    best value (l ++ [a]) = max (best value l) (value a) := by
  unfold best
  rw [List.foldl_append]
  rfl

/-- The entry of an owner after some checkpoints. -/
def entry (p : Portfolio) (policy : ContextPortfolioOwnerPolicy) : OwnerValue :=
  { owner := policy.owner
    privateRetentionWeight := policy.privateRetentionWeight
    explicitSharedCredit := policy.explicitSharedCredit
    baselineBest := best (·.baselineSaving) (p.ofOwner policy.owner)
    targetBest := best (·.targetSaving) (p.ofOwner policy.owner)
    privateTransitionLoss := best (·.loss) (p.ofOwner policy.owner) }

/-- What the second loop keeps after the checkpoints of `p`. -/
def running (p : Portfolio) : Running :=
  { owners := p.owners.map (entry p)
    baselineDemand := fun bit => best (·.baselineSaving) (p.serving bit)
    targetDemand := fun bit => best (·.targetSaving) (p.serving bit) }

variable {p : Portfolio} {c : ContextPortfolioCheckpointValue}

theorem best_filter_concat {α : Type} (value : α → UInt64) (keep : α → Bool) (l : List α) (a : α) :
    best value ((l ++ [a]).filter keep) = if keep a then max (best value (l.filter keep)) (value a)
      else best value (l.filter keep) := by
  rw [List.filter_append, List.filter_singleton]
  cases keep a with
  | true => exact best_concat value _ a
  | false => exact congrArg (best value) (List.append_nil _)

theorem entry_withCheckpoint (policy : ContextPortfolioOwnerPolicy) :
    entry (p.withCheckpoint c) policy =
      if policy.owner = c.owner then noteOwner c (entry p policy) else entry p policy := by
  unfold entry noteOwner Portfolio.ofOwner Portfolio.withCheckpoint
  simp only [best_filter_concat]
  split_ifs with h h' h'
  · rfl
  · exact absurd (of_decide_eq_true h).symm h'
  · exact absurd (decide_eq_true h'.symm) h
  · rfl

theorem noteFirst_entries {policies : List ContextPortfolioOwnerPolicy}
    (hdistinct : (policies.map (·.owner)).Nodup) :
    noteFirst c (policies.map (entry p)) = if c.owner ∈ policies.map (·.owner) then
        some (policies.map (entry (p.withCheckpoint c)))
      else none := by
  induction policies with
  | nil => rfl
  | cons policy policies ih =>
    rw [List.map_cons, List.nodup_cons] at hdistinct
    rw [List.map_cons, List.map_cons, List.map_cons, noteFirst, ih hdistinct.2,
      entry_withCheckpoint]
    by_cases hfirst : policy.owner = c.owner
    · -- the owner does not occur again
      have hrest : policies.map (entry (p.withCheckpoint c)) = policies.map (entry p) := by
        refine List.map_congr_left fun other hother => ?_
        rw [entry_withCheckpoint, if_neg]
        intro hsame
        exact hdistinct.1 (hfirst.trans hsame.symm ▸ List.mem_map_of_mem hother)
      rw [if_pos (show (entry p policy).owner = c.owner from hfirst), if_pos hfirst,
        if_pos (by rw [hfirst]; exact List.mem_cons_self), hrest]
    · rw [if_neg (show ¬ (entry p policy).owner = c.owner from hfirst), if_neg hfirst]
      by_cases hlater : c.owner ∈ policies.map (·.owner)
      · rw [if_pos hlater, if_pos (List.mem_cons_of_mem _ hlater), Option.map_some]
      · rw [if_neg hlater, if_neg, Option.map_none]
        intro hmem
        rcases List.mem_cons.mp hmem with h | h
        · exact hfirst h.symm
        · exact hlater h

/-- One checkpoint: its owner must be known. -/
theorem noteCheckpoint_running (hdistinct : (p.owners.map (·.owner)).Nodup) :
    noteCheckpoint (running p) c =
      if c.owner ∈ p.owners.map (·.owner) then .ok (running (p.withCheckpoint c))
      else .error (.logicError "portfolio checkpoint has no owner policy") := by
  unfold noteCheckpoint
  rw [show (running p).owners = p.owners.map (entry p) from rfl, noteFirst_entries hdistinct]
  by_cases hknown : c.owner ∈ p.owners.map (·.owner)
  · rw [if_pos hknown, if_pos hknown]
    unfold running Portfolio.serving Portfolio.withCheckpoint
    simp only [best_filter_concat]
  · rw [if_neg hknown, if_neg hknown]

theorem foldlM_noteCheckpoint {checkpoints : List ContextPortfolioCheckpointValue}
    (hdistinct : (p.owners.map (·.owner)).Nodup) :
    checkpoints.foldlM noteCheckpoint (running p) =
      if ∀ c ∈ checkpoints, c.owner ∈ p.owners.map (·.owner) then
        .ok (running { p with checkpoints := p.checkpoints ++ checkpoints })
      else .error (.logicError "portfolio checkpoint has no owner policy") := by
  induction checkpoints generalizing p with
  | nil =>
    rw [if_pos (List.forall_mem_nil _), List.append_nil]
    rfl
  | cons c checkpoints ih =>
    rw [List.foldlM_cons, noteCheckpoint_running hdistinct]
    simp only [List.forall_mem_cons]
    by_cases hknown : c.owner ∈ p.owners.map (·.owner)
    · have hrest := ih (p := p.withCheckpoint c) hdistinct
      rw [if_pos hknown]
      refine hrest.trans ?_
      unfold Portfolio.withCheckpoint
      simp [hknown]
    · rw [if_neg hknown, if_neg fun h => hknown h.1]
      rfl

/-- The first loop accepts distinct owners only. -/
theorem startOwners_eq {before policies : List ContextPortfolioOwnerPolicy}
    (hbefore : (before.map (·.owner)).Nodup) :
    startOwners (before.map (entry ⟨[], []⟩)) policies =
      if ((before ++ policies).map (·.owner)).Nodup then
        .ok ((before ++ policies).map (entry ⟨[], []⟩))
      else .error (.logicError "portfolio owner policy ID is duplicated") := by
  induction policies generalizing before with
  | nil =>
    rw [List.append_nil, if_pos hbefore]
    rfl
  | cons policy policies ih =>
    have hany : (before.map (entry ⟨[], []⟩)).any (fun item => item.owner = policy.owner) = true ↔
        policy.owner ∈ before.map (·.owner) := by
      rw [List.any_map, List.any_eq_true, List.mem_map]
      simp only [Function.comp_apply, decide_eq_true_eq]
      rfl
    rw [startOwners]
    by_cases hknown : policy.owner ∈ before.map (·.owner)
    · rw [if_pos (hany.mpr hknown), if_neg]
      rw [List.map_append, List.map_cons]
      intro h
      exact List.disjoint_of_nodup_append h hknown List.mem_cons_self
    · rw [if_neg (hknown ∘ hany.mp)]
      have hnodup : ((before ++ [policy]).map (·.owner)).Nodup := by
        rw [List.map_append]
        exact hbefore.append (List.nodup_singleton _) (List.disjoint_singleton.mpr hknown)
      have hrest := ih hnodup
      rw [List.append_assoc, List.map_append] at hrest
      exact hrest

theorem sum_credit (owners : List ContextPortfolioOwnerPolicy) (p : Portfolio)
    (field : OwnerValue → UInt64) :
    ((owners.map (entry p)).map fun o => credit o (field o)).sum =
      ((owners.filter (·.explicitSharedCredit)).map fun o => (field (entry p o)).toNat).sum := by
  induction owners with
  | nil => rfl
  | cons o owners ih =>
    rw [List.map_cons, List.map_cons, List.sum_cons, ih, List.filter_cons, credit]
    by_cases hcredit : o.explicitSharedCredit = true
    · rw [if_pos hcredit, if_pos (show (entry p o).explicitSharedCredit = true from hcredit),
        List.map_cons, List.sum_cons]
    · rw [if_neg hcredit, if_neg (show ¬ (entry p o).explicitSharedCredit = true from hcredit),
        Nat.zero_add]

/-- The exact values of a portfolio, each cut off at 64 bits. -/
def exactValues (p : Portfolio) : ContextPortfolioValueResult :=
  ofExact p.baselinePublic p.targetPublic p.transitionLoss

/-- The fold checks the owners, and returns the exact values. -/
theorem fold_eq_ite (owners : List ContextPortfolioOwnerPolicy)
    (checkpoints : List ContextPortfolioCheckpointValue) :
    fold owners checkpoints = if (owners.map (·.owner)).Nodup then
        if ∀ c ∈ checkpoints, c.owner ∈ owners.map (·.owner) then
          .ok (exactValues ⟨owners, checkpoints⟩)
        else .error (.logicError "portfolio checkpoint has no owner policy")
      else .error (.logicError "portfolio owner policy ID is duplicated") := by
  have hstart := @startOwners_eq [] owners List.nodup_nil
  rw [List.map_nil, List.nil_append] at hstart
  rw [fold, hstart]
  by_cases hdistinct : (owners.map (·.owner)).Nodup
  · have hnote := @foldlM_noteCheckpoint ⟨owners, []⟩ checkpoints hdistinct
    rw [if_pos hdistinct, if_pos hdistinct]
    change (checkpoints.foldlM noteCheckpoint (running ⟨owners, []⟩) >>=
      fun s => pure (total s)) = _
    rw [hnote]
    split_ifs
    · show Except.ok (total (running ⟨owners, checkpoints⟩)) = _
      rw [total_eq]
      unfold running
      rw [sum_credit _ _ (·.baselineBest), sum_credit _ _ (·.targetBest), List.map_map]
      rfl
    · rfl
  · rw [if_neg hdistinct, if_neg hdistinct]
    rfl

theorem fold_eq {owners : List ContextPortfolioOwnerPolicy}
    {checkpoints : List ContextPortfolioCheckpointValue} {r : ContextPortfolioValueResult}
    (h : fold owners checkpoints = .ok r) :
    r = exactValues ⟨owners, checkpoints⟩ := by
  rw [fold_eq_ite] at h
  split_ifs at h
  exact (Except.ok.inj h).symm

/-! ## Order and monotonicity -/

section Laws

variable {α : Type} {value : α → UInt64} {keep : α → Bool}

theorem best_le_iff {l : List α} {n : Nat} :
    (best value l).toNat ≤ n ↔ ∀ a ∈ l, (value a).toNat ≤ n := by
  induction l using List.reverseRecOn with
  | nil => exact ⟨fun _ => List.forall_mem_nil _, fun _ => Nat.zero_le n⟩
  | append_singleton l a ih =>
    rw [best_concat, UInt64.toNat_max, Nat.max_le, ih, List.forall_mem_append,
      List.forall_mem_singleton]

theorem best_perm {l l' : List α} (h : l.Perm l') : best value l = best value l' := by
  refine UInt64.toNat_inj.mp (Nat.le_antisymm ?_ ?_)
  · exact best_le_iff.mpr fun a ha => best_le_iff.mp le_rfl a (h.mem_iff.mp ha)
  · exact best_le_iff.mpr fun a ha => best_le_iff.mp le_rfl a (h.mem_iff.mpr ha)

/-- One element that is worth less, in the place of another that is kept alike. -/
theorem best_replace_le {before after : List α} {a b : α} (hkeep : keep b = keep a)
    (hvalue : (value b).toNat ≤ (value a).toNat) :
    (best value ((before ++ b :: after).filter keep)).toNat ≤
      (best value ((before ++ a :: after).filter keep)).toNat := by
  have hlast : ∀ c, best value ((before ++ c :: after).filter keep) =
      best value (((before ++ after) ++ [c]).filter keep) := fun c =>
    best_perm ((List.perm_middle.trans (List.perm_append_singleton c _).symm).filter keep)
  rw [hlast, hlast, best_filter_concat, best_filter_concat, hkeep]
  split_ifs
  · rw [UInt64.toNat_max, UInt64.toNat_max]
    omega
  · exact le_rfl

/-- Neither the order of the owners nor that of the checkpoints matters. -/
theorem exactValues_perm {p q : Portfolio} (howners : p.owners.Perm q.owners)
    (hcheckpoints : p.checkpoints.Perm q.checkpoints) : exactValues p = exactValues q := by
  have hbest : ∀ (saving : ContextPortfolioCheckpointValue → UInt64)
      (keep : ContextPortfolioCheckpointValue → Bool),
      best saving (p.checkpoints.filter keep) = best saving (q.checkpoints.filter keep) :=
    fun _ _ => best_perm (hcheckpoints.filter _)
  have hpublic : ∀ saving, p.publicValue saving = q.publicValue saving := by
    intro saving
    unfold Portfolio.publicValue Portfolio.serving Portfolio.ofOwner
    simp only [hbest]
    rw [((howners.filter _).map _).sum_eq]
  have hloss : p.transitionLoss = q.transitionLoss := by
    unfold Portfolio.transitionLoss Portfolio.ofOwner
    simp only [hbest]
    exact (howners.map _).sum_eq
  rw [exactValues, exactValues, hloss, Portfolio.baselinePublic, Portfolio.baselinePublic,
    Portfolio.targetPublic, Portfolio.targetPublic, hpublic, hpublic]

variable {owners : List ContextPortfolioOwnerPolicy}
  {before after : List ContextPortfolioCheckpointValue} {c : ContextPortfolioCheckpointValue}
  {recovery : UInt64}

theorem clamp_le_clamp {m n : Nat} (h : m ≤ n) : (clamp m).toNat ≤ (clamp n).toNat := by
  rw [toNat_clamp, toNat_clamp]
  omega

/-- A slower target recovery of one checkpoint. -/
theorem exactValues_slower (h : c.targetRecoveryNs.toNat ≤ recovery.toNat) :
    (exactValues ⟨owners, before ++ { c with targetRecoveryNs := recovery } :: after⟩
        ).targetPublicValue.toNat ≤
      (exactValues ⟨owners, before ++ c :: after⟩).targetPublicValue.toNat ∧
    (exactValues ⟨owners, before ++ c :: after⟩).privateTransitionLoss.toNat ≤
      (exactValues ⟨owners, before ++ { c with targetRecoveryNs := recovery } :: after⟩
        ).privateTransitionLoss.toNat := by
  have hsaving : ({ c with targetRecoveryNs := recovery } : ContextPortfolioCheckpointValue
      ).targetSaving.toNat ≤ c.targetSaving.toNat := by
    unfold ContextPortfolioCheckpointValue.targetSaving
    rw [toNat_monus, toNat_monus]
    exact Nat.sub_le_sub_left h _
  have hloss : c.loss.toNat ≤ ({ c with targetRecoveryNs := recovery } :
      ContextPortfolioCheckpointValue).loss.toNat := by
    unfold ContextPortfolioCheckpointValue.loss
    rw [toNat_monus, toNat_monus]
    exact Nat.sub_le_sub_left hsaving _
  constructor
  · refine clamp_le_clamp (Nat.add_le_add (List.sum_le_sum fun bit _ => ?_)
      (List.sum_le_sum fun o _ => ?_))
    · exact best_replace_le rfl hsaving
    · exact best_replace_le rfl hsaving
  · refine clamp_le_clamp (List.sum_le_sum fun o _ => Nat.mul_le_mul_right _ ?_)
    exact best_replace_le rfl hloss

/-- With distinct owners the fold returns for checkpoints of those owners, and then the sums of
    best savings and of weighted worst losses: exactly, unless it reports that one of them does not
    fit 64 bits. Neither order matters, and a slower recovery can only cost. -/
theorem portfolio_value_law (owners : List ContextPortfolioOwnerPolicy)
    (checkpoints : List ContextPortfolioCheckpointValue)
    (hdistinct : (owners.map (·.owner)).Nodup) :
    ((∃ r, fold owners checkpoints = .ok r) ↔ ∀ c ∈ checkpoints, c.owner ∈ owners.map (·.owner)) ∧
    (∀ r, fold owners checkpoints = .ok r → (r.saturated = true ↔
        18446744073709551615 < Portfolio.baselinePublic ⟨owners, checkpoints⟩ ∨
        18446744073709551615 < Portfolio.targetPublic ⟨owners, checkpoints⟩ ∨
        18446744073709551615 < Portfolio.transitionLoss ⟨owners, checkpoints⟩) ∧
      (r.saturated = false →
        r.baselinePublicValue.toNat = Portfolio.baselinePublic ⟨owners, checkpoints⟩ ∧
        r.targetPublicValue.toNat = Portfolio.targetPublic ⟨owners, checkpoints⟩ ∧
        r.privateTransitionLoss.toNat = Portfolio.transitionLoss ⟨owners, checkpoints⟩)) ∧
    (∀ owners' checkpoints', owners'.Perm owners → checkpoints'.Perm checkpoints →
      fold owners' checkpoints' = fold owners checkpoints) ∧
    ∀ before c after recovery, checkpoints = before ++ c :: after →
      c.targetRecoveryNs.toNat ≤ recovery.toNat → ∀ r, fold owners checkpoints = .ok r →
      ∃ r', fold owners (before ++ { c with targetRecoveryNs := recovery } :: after) = .ok r' ∧
        r'.targetPublicValue.toNat ≤ r.targetPublicValue.toNat ∧
        r.privateTransitionLoss.toNat ≤ r'.privateTransitionLoss.toNat := by
  refine ⟨?_, fun r hr => ?_, fun owners' checkpoints' ho hc => ?_, ?_⟩
  · rw [fold_eq_ite, if_pos hdistinct]
    split_ifs with hknown
    · exact ⟨fun _ => hknown, fun _ => ⟨_, rfl⟩⟩
    · exact ⟨nofun, fun h => absurd h hknown⟩
  · obtain rfl := fold_eq hr
    refine ⟨saturated_ofExact, fun hfits => ?_⟩
    rw [exactValues, ← Bool.not_eq_true, saturated_ofExact, not_or, not_or] at hfits
    obtain ⟨hbaseline, htarget, hloss⟩ := hfits
    simp only [exactValues, ofExact, toNat_clamp]
    exact ⟨by omega, by omega, by omega⟩
  · rw [fold_eq_ite, fold_eq_ite, exactValues_perm (p := ⟨owners', checkpoints'⟩)
      (q := ⟨owners, checkpoints⟩) ho hc]
    simp [(ho.map _).nodup_iff, (ho.map _).mem_iff, hc.mem_iff]
  · rintro before c after recovery rfl hslower r hr
    obtain rfl := fold_eq hr
    refine ⟨_, ?_, exactValues_slower hslower⟩
    rw [fold_eq_ite, if_pos hdistinct] at hr ⊢
    split_ifs at hr with hknown
    refine if_pos ?_
    rw [List.forall_mem_append, List.forall_mem_cons] at hknown ⊢
    exact hknown

/-- Two owners, of which the first has credit and loses one of its two checkpoints in the target. -/
def twoOwnerPolicies : List ContextPortfolioOwnerPolicy := [⟨⟨1⟩, 2, true⟩, ⟨⟨2⟩, 3, false⟩]

def threeCheckpointValues : List ContextPortfolioCheckpointValue :=
  [⟨⟨1⟩, 1, 8, 3, 5⟩, ⟨⟨1⟩, 2, 10, 4, 10⟩, ⟨⟨2⟩, 1, 6, 1, 2⟩]

/-- The worst loss of the first owner is that of the lost checkpoint, 6 twice, and that of the
    second one 1 three times. -/
theorem portfolio_value_law_lost :
    ∃ r, fold twoOwnerPolicies threeCheckpointValues = .ok r ∧
      r.privateTransitionLoss.toNat = 15 := by
  have hlaw := portfolio_value_law twoOwnerPolicies threeCheckpointValues (by decide)
  obtain ⟨r, hr⟩ := hlaw.1.mpr (by decide)
  have hfits : r.saturated = false := by
    rw [← Bool.not_eq_true, (hlaw.2.1 r hr).1]
    decide
  exact ⟨r, hr, ((hlaw.2.1 r hr).2 hfits).2.2.trans (by decide)⟩

end Laws

end ContextPortfolioValue

end Ninfer.Planner
