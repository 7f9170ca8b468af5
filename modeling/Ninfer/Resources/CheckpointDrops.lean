/-
  The exact checkpoint drop sets of an owner claim.

  `selected_checkpoint_drops` reads the drop set off the rows of a Program, and
  `continuation_matches_claim` compares it with the summary the Program leaves. The second counts
  before it looks: that counting, with refs that are all different, makes the sets equal is the
  counting lemma at the head. Counts are natural numbers, so a summary of `2^32` checkpoints,
  where the source's count stops, is not told apart.
-/
import Ninfer.Lib.Fallible
import Ninfer.Resources.Contract

namespace Ninfer.Resources

open Lib

section Counting

variable {α : Type} [DecidableEq α] {before after drops : List α}

/-- A duplicate-free list and what it leaves of a larger one are the larger one. -/
theorem perm_filter_append (hbefore : before.Nodup) (hdrops : drops.Nodup) (hsub : drops ⊆ before) :
    (before.filter (· ∉ drops) ++ drops).Perm before := by
  refine (List.perm_ext_iff_of_nodup ?_ hbefore).mpr fun r => ?_
  · refine (hbefore.filter _).append hdrops fun r hr hd => ?_
    exact of_decide_eq_true (List.mem_filter.mp hr).2 hd
  · rw [List.mem_append, List.mem_filter, decide_eq_true_eq]
    constructor
    · rintro (⟨hr, -⟩ | hr)
      · exact hr
      · exact hsub hr
    · intro hr
      by_cases hd : r ∈ drops
      · exact .inr hd
      · exact .inl ⟨hr, hd⟩

/-- Lengths that add up and one-sided membership tests make the sets equal. -/
theorem counted_iff_difference (hbefore : before.Nodup) (hdrops : drops.Nodup) :
    (after.length + drops.length = before.length ∧
      (∀ r ∈ before, ¬ (r ∈ after ↔ r ∈ drops)) ∧ drops ⊆ before) ↔
    after.Nodup ∧ drops ⊆ before ∧ ∀ r, r ∈ after ↔ r ∈ before ∧ r ∉ drops := by
  have hrest := hbefore.filter (p := (· ∉ drops))
  have hmem : ∀ r, r ∈ before.filter (· ∉ drops) ↔ r ∈ before ∧ r ∉ drops := fun r => by
    rw [List.mem_filter, decide_eq_true_eq]
  constructor
  · rintro ⟨hcount, hmarks, hsub⟩
    have hlength := (perm_filter_append hbefore hdrops hsub).length_eq
    rw [List.length_append] at hlength
    have hinto : before.filter (· ∉ drops) ⊆ after := fun r hr => by
      obtain ⟨hr, hd⟩ := (hmem r).mp hr
      by_contra hno
      exact hmarks r hr ⟨fun h => absurd h hno, fun h => absurd h hd⟩
    have hperm : (before.filter (· ∉ drops)).Perm after :=
      (hrest.subperm hinto).perm_of_length_le (by omega)
    exact ⟨hperm.nodup_iff.mp hrest, hsub, fun r => by rw [← hperm.mem_iff, hmem]⟩
  · rintro ⟨hnodup, hsub, hiff⟩
    have hperm : (before.filter (· ∉ drops)).Perm after :=
      (List.perm_ext_iff_of_nodup hrest hnodup).mpr fun r => by rw [hmem, hiff]
    have hlength := (perm_filter_append hbefore hdrops hsub).length_eq
    rw [List.length_append, hperm.length_eq] at hlength
    refine ⟨hlength, fun r hr heq => ?_, hsub⟩
    by_cases hd : r ∈ drops
    · exact ((hiff r).mp (heq.mpr hd)).2 hd
    · exact hd (heq.mp ((hiff r).mpr ⟨hr, hd⟩))

end Counting

/-! ## The claim and the final summary -/

def ContinuationSummary.refs (s : ContinuationSummary) : List CheckpointRef :=
  s.checkpoints.map (·.ref)

theorem continuationContainsCheckpoint_iff {s : ContinuationSummary} {r : CheckpointRef} :
    continuationContainsCheckpoint s r = true ↔ r ∈ s.refs := by
  simp only [continuationContainsCheckpoint, List.any_eq_true, decide_eq_true_eq,
    ContinuationSummary.refs, List.mem_map]

theorem length_refs (s : ContinuationSummary) : s.refs.length = continuationCheckpointCount s :=
  List.length_map ..

variable {before : ContinuationSummary} {after : Option ContinuationSummary}
  {disposition : VictimDisposition} {drops : List CheckpointRef}

/-- `continuation_matches_claim`, in lists of refs. -/
theorem continuationMatchesClaim_iff : continuationMatchesClaim before after disposition drops ↔
    (disposition = .evicted ∧ after = none ∧ drops.length = before.refs.length) ∨
    (disposition = .retained ∧ ∃ a, after = some a ∧
      a.refs.length + drops.length = before.refs.length ∧
      (∀ r ∈ before.refs, ¬ (r ∈ a.refs ↔ r ∈ drops)) ∧ drops ⊆ before.refs) := by
  cases disposition with
  | evicted => simp [continuationMatchesClaim, length_refs]
  | retained =>
    cases after with
    | none => simp [continuationMatchesClaim]
    | some a =>
      have hmarks : (before.checkpoints.all fun c => continuationContainsCheckpoint a c.ref ≠
          drops.contains c.ref) ↔ ∀ r ∈ before.refs, ¬ (r ∈ a.refs ↔ r ∈ drops) := by
        rw [List.all_eq_true, ContinuationSummary.refs, List.forall_mem_map]
        refine forall₂_congr fun c _ => ?_
        rw [decide_eq_true_eq, ne_eq, Bool.eq_iff_iff, List.contains_iff_mem,
          continuationContainsCheckpoint_iff]
      have hdrops : drops.all (continuationContainsCheckpoint before) ↔ drops ⊆ before.refs := by
        rw [List.all_eq_true]
        exact forall₂_congr fun r _ => continuationContainsCheckpoint_iff
      simp only [continuationMatchesClaim, decide_eq_true_eq, length_refs, hmarks, hdrops,
        reduceCtorEq, false_and, false_or, true_and, Option.some.injEq, exists_eq_left']

/-! ## The rows of the Program -/

/-- One round of the loop over the outcomes; `prior` are the rows before this one. -/
def outcomeRound (owner : Nat) (containsCheckpoint : CheckpointRef → Bool)
    (prior : List PressureCheckpointOutcome) (observed : Nat) (dropped : List CheckpointRef)
    (outcome : PressureCheckpointOutcome) : Except Fault (Nat × List CheckpointRef) :=
  if outcome.owner ≠ owner then .ok (observed, dropped)
  else if ¬ containsCheckpoint outcome.checkpoint ∨
      ∃ p ∈ prior, p.owner = owner ∧ p.checkpoint = outcome.checkpoint then
    .error (.logicError "selected checkpoint outcome is unknown or duplicated")
  else .ok (observed + 1, if outcome.survives then dropped else dropped ++ [outcome.checkpoint])

def scanOutcomes (owner : Nat) (containsCheckpoint : CheckpointRef → Bool) :
    List PressureCheckpointOutcome → Nat → List CheckpointRef → List PressureCheckpointOutcome →
      Except Fault (Nat × List CheckpointRef)
  | _, observed, dropped, [] => .ok (observed, dropped)
  | prior, observed, dropped, outcome :: rest =>
    (outcomeRound owner containsCheckpoint prior observed dropped outcome).bind fun found =>
      scanOutcomes owner containsCheckpoint (prior ++ [outcome]) found.1 found.2 rest

/-- `selected_checkpoint_drops` as its loop computes it. -/
def scannedCheckpointDrops (owner : Nat) (disposition : VictimDisposition)
    (expectedDropCount : Nat) (outcomes : List PressureCheckpointOutcome) (checkpointCount : Nat)
    (containsCheckpoint : CheckpointRef → Bool) : Except Fault (List CheckpointRef) :=
  (scanOutcomes owner containsCheckpoint [] 0 [] outcomes).bind fun found =>
    if found.1 ≠ checkpointCount ∨ found.2.length ≠ expectedDropCount ∨
        ¬ (disposition = .evicted ↔ found.2.length = checkpointCount) then
      .error (.logicError "selected checkpoint outcome is incomplete")
    else .ok found.2

def ownerRows (owner : Nat) (outcomes : List PressureCheckpointOutcome) :
    List PressureCheckpointOutcome :=
  outcomes.filter (·.owner = owner)

def droppedRefs (rows : List PressureCheckpointOutcome) : List CheckpointRef :=
  (rows.filter fun o => ¬ o.survives).map (·.checkpoint)

section Rows

variable {owner : Nat} {contains : CheckpointRef → Bool}

/-- The scan goes through exactly when its rows are known and repeat neither one another nor an
    earlier row; it counts them and collects the drops. -/
theorem scanOutcomes_eq (prior : List PressureCheckpointOutcome) (observed : Nat)
    (dropped : List CheckpointRef) (outcomes : List PressureCheckpointOutcome) :
    scanOutcomes owner contains prior observed dropped outcomes =
      if (∀ o ∈ ownerRows owner outcomes, contains o.checkpoint = true ∧
          ∀ p ∈ ownerRows owner prior, p.checkpoint ≠ o.checkpoint) ∧
          ((ownerRows owner outcomes).map (·.checkpoint)).Nodup then
        .ok (observed + (ownerRows owner outcomes).length,
          dropped ++ droppedRefs (ownerRows owner outcomes))
      else .error (.logicError "selected checkpoint outcome is unknown or duplicated") := by
  induction outcomes generalizing prior observed dropped with
  | nil => simp [scanOutcomes, ownerRows, droppedRefs]
  | cons o rest ih =>
    rw [scanOutcomes, outcomeRound]
    by_cases howner : o.owner = owner
    · have hrows : ownerRows owner (o :: rest) = o :: ownerRows owner rest := by
        simp [ownerRows, howner]
      have hprior : ownerRows owner (prior ++ [o]) = ownerRows owner prior ++ [o] := by
        simp [ownerRows, howner]
      have hbad : (¬ contains o.checkpoint = true ∨
          ∃ p ∈ prior, p.owner = owner ∧ p.checkpoint = o.checkpoint) ↔
          ¬ (contains o.checkpoint = true ∧
            ∀ p ∈ ownerRows owner prior, p.checkpoint ≠ o.checkpoint) := by
        simp only [ownerRows, List.mem_filter, decide_eq_true_eq, not_and_or, not_forall, ne_eq,
          not_not, exists_prop, and_assoc]
      have hdropped : ∀ rows, (if o.survives then dropped else dropped ++ [o.checkpoint]) ++
          droppedRefs rows = dropped ++ droppedRefs (o :: rows) := fun rows => by
        cases hs : o.survives <;> simp [droppedRefs, hs]
      rw [if_neg (not_not.mpr howner), if_congr hbad rfl rfl, ite_not, hrows]
      split
      · next hok =>
        show scanOutcomes owner contains (prior ++ [o]) (observed + 1) _ rest = _
        rw [ih, hprior, hdropped, List.length_cons, Nat.add_assoc, Nat.add_comm 1]
        simp only [List.forall_mem_append, List.forall_mem_singleton, List.forall_mem_cons,
          List.map_cons, List.nodup_cons, List.mem_map, not_exists, not_and, hok, true_and]
        grind
      · next hok => exact (if_neg fun h => hok (h.1 o (List.mem_cons_self ..))).symm
    · have hrows : ownerRows owner (o :: rest) = ownerRows owner rest := by
        simp [ownerRows, howner]
      have hprior : ownerRows owner (prior ++ [o]) = ownerRows owner prior := by
        simp [ownerRows, howner]
      rw [if_pos howner, hrows, ← hprior]
      exact ih _ _ _

variable {expected count : Nat} {outcomes : List PressureCheckpointOutcome}

/-- The whole scan. -/
theorem scanOutcomes_all : scanOutcomes owner contains [] 0 [] outcomes =
    if (ownerRows owner outcomes).all (fun o => contains o.checkpoint) ∧
        ((ownerRows owner outcomes).map (·.checkpoint)).Nodup then
      .ok ((ownerRows owner outcomes).length, droppedRefs (ownerRows owner outcomes))
    else .error (.logicError "selected checkpoint outcome is unknown or duplicated") := by
  have hprior : ownerRows owner [] = [] := rfl
  simp [scanOutcomes_eq, hprior]

/-- The rows as the manager's planning reads them are what the loop computes. -/
theorem selectedCheckpointDrops_eq_scan {σ : Type} :
    (selectedCheckpointDrops owner disposition expected outcomes count contains : Eff σ _) =
      Eff.answer (scannedCheckpointDrops owner disposition expected outcomes count contains) := by
  have hdef : (selectedCheckpointDrops owner disposition expected outcomes count contains :
      Eff σ _) = Eff.bind (Eff.when (¬ ((ownerRows owner outcomes).all
          (fun o => contains o.checkpoint) ∧
          ((ownerRows owner outcomes).map (·.checkpoint)).Nodup))
        (Eff.raise (.logicError "selected checkpoint outcome is unknown or duplicated"))) fun _ =>
      Eff.bind (Eff.when ((ownerRows owner outcomes).length ≠ count ∨
          (droppedRefs (ownerRows owner outcomes)).length ≠ expected ∨
          ¬ (disposition = .evicted ↔ (droppedRefs (ownerRows owner outcomes)).length = count))
        (Eff.raise (.logicError "selected checkpoint outcome is incomplete"))) fun _ =>
      Eff.pure (droppedRefs (ownerRows owner outcomes)) := rfl
  rw [hdef, scannedCheckpointDrops, scanOutcomes_all, Eff.when, Eff.when, ite_not]
  split
  · simp only [Except.bind]
    split <;> rfl
  · rfl

/-- The rows are accepted exactly when they are those of the owner's checkpoints, each once. -/
theorem scannedCheckpointDrops_ok_iff {refs dropped : List CheckpointRef} (hrefs : refs.Nodup)
    (hcount : count = refs.length) (hcontains : ∀ r, contains r = true ↔ r ∈ refs) :
    scannedCheckpointDrops owner disposition expected outcomes count contains = .ok dropped ↔
      ((ownerRows owner outcomes).map (·.checkpoint)).Perm refs ∧ dropped.length = expected ∧
      (disposition = .evicted ↔ dropped.length = refs.length) ∧
      dropped = droppedRefs (ownerRows owner outcomes) := by
  have hperm : ((ownerRows owner outcomes).all (fun o => contains o.checkpoint) ∧
      ((ownerRows owner outcomes).map (·.checkpoint)).Nodup ∧
      (ownerRows owner outcomes).length = refs.length) ↔
      ((ownerRows owner outcomes).map (·.checkpoint)).Perm refs := by
    rw [← List.length_map (f := (·.checkpoint)), List.all_eq_true]
    constructor
    · rintro ⟨hknown, hnodup, hlength⟩
      refine (hnodup.subperm ?_).perm_of_length_le (Nat.le_of_eq hlength.symm)
      exact List.forall_mem_map.mpr fun o ho => (hcontains _).mp (hknown o ho)
    · intro h
      refine ⟨fun o ho => ?_, h.nodup_iff.mpr hrefs, h.length_eq⟩
      exact (hcontains _).mpr (h.mem_iff.mp (List.mem_map_of_mem ho))
  rw [scannedCheckpointDrops, ← hperm, hcount, scanOutcomes_all]
  constructor
  · intro h
    split_ifs at h with hrows
    on_goal 2 => cases h
    simp only [Except.bind] at h
    split_ifs at h with hbad
    simp only [ne_eq, not_or, not_not] at hbad
    obtain rfl := Except.ok.inj h
    exact ⟨⟨hrows.1, hrows.2, hbad.1⟩, hbad.2.1, hbad.2.2, rfl⟩
  · rintro ⟨⟨hknown, hnodup, hlength⟩, hexpected, hevicted, rfl⟩
    rw [if_pos ⟨hknown, hnodup⟩]
    refine if_neg ?_
    simp only [ne_eq, not_or, not_not]
    exact ⟨hlength, hexpected, hevicted⟩

end Rows

/-! ## Results -/

/-- With refs that are all different: a claim matches a retained owner's final summary exactly
    when that lists, once each, the refs of `before` that are not dropped. For an evicted owner
    only the number of drops is compared, which is the set itself for drops of `before`. The
    rows of a Program are accepted exactly when they name each checkpoint of the owner once, drop
    as many as announced, and drop all of them exactly for an evicted owner. -/
theorem checkpoint_drop_sets_exact (before : ContinuationSummary)
    (after : Option ContinuationSummary) (disposition : VictimDisposition)
    (drops : List CheckpointRef) (hbefore : before.refs.Nodup) (hdrops : drops.Nodup) :
    (continuationMatchesClaim before after disposition drops ↔
      (disposition = .evicted ∧ after = none ∧ drops.length = before.refs.length) ∨
      (disposition = .retained ∧ ∃ a, after = some a ∧ a.refs.Nodup ∧ drops ⊆ before.refs ∧
        ∀ r, r ∈ a.refs ↔ r ∈ before.refs ∧ r ∉ drops)) ∧
    (drops ⊆ before.refs → (drops.length = before.refs.length ↔ ∀ r, r ∈ drops ↔ r ∈ before.refs)) ∧
    ∀ owner expected outcomes dropped, scannedCheckpointDrops owner disposition expected outcomes
          (continuationCheckpointCount before) (continuationContainsCheckpoint before) =
          .ok dropped ↔
        ((ownerRows owner outcomes).map (·.checkpoint)).Perm before.refs ∧
        dropped.length = expected ∧
        (disposition = .evicted ↔ dropped.length = before.refs.length) ∧
        dropped = droppedRefs (ownerRows owner outcomes) := by
  refine ⟨?_, fun hsub => ⟨fun hlength => ?_, fun hsame => ?_⟩, fun owner expected outcomes _ => ?_⟩
  · rw [continuationMatchesClaim_iff]
    simp [counted_iff_difference hbefore hdrops]
  · have hperm := (hdrops.subperm hsub).perm_of_length_le (Nat.le_of_eq hlength.symm)
    exact fun r => hperm.mem_iff
  · exact ((List.perm_ext_iff_of_nodup hdrops hbefore).mpr hsame).length_eq
  · exact scannedCheckpointDrops_ok_iff hbefore (length_refs before).symm fun _ =>
      continuationContainsCheckpoint_iff

/-- The refs of a continuation with one checkpoint of each kind. -/
def turnRef : CheckpointRef := { kind := .turnClosure, frontier := 4 }

def anchorRef : CheckpointRef := { kind := .longAnchor, frontier := 2 }

def oneOfEach : ContinuationSummary :=
  { endpoint := some { ref := { frontier := 8 } }
    rewrite := some { ref := turnRef }
    longAnchors := [{ ref := anchorRef }] }

/-- What is left of it without its turn closure. -/
def withoutTurn : ContinuationSummary := { oneOfEach with rewrite := none }

/-- The owner is 5, which loses its turn closure; the second row is of another owner. -/
def turnDropped : List PressureCheckpointOutcome :=
  [⟨5, { frontier := 8 }, true⟩, ⟨6, turnRef, false⟩, ⟨5, anchorRef, true⟩, ⟨5, turnRef, false⟩]

theorem checkpoint_drop_sets_exact_turn :
    continuationMatchesClaim oneOfEach (some withoutTurn) .retained [turnRef] ∧
    scannedCheckpointDrops 5 .retained 1 turnDropped (continuationCheckpointCount oneOfEach)
      (continuationContainsCheckpoint oneOfEach) = .ok [turnRef] := by
  have hexact := checkpoint_drop_sets_exact oneOfEach (some withoutTurn) .retained [turnRef]
    (by decide) (by decide)
  have hrefs : withoutTurn.refs = oneOfEach.refs.filter (· ∉ [turnRef]) := by decide
  refine ⟨hexact.1.mpr (.inr ⟨rfl, _, rfl, by decide, by decide, fun r => ?_⟩),
    (hexact.2.2 5 1 turnDropped [turnRef]).mpr (by decide)⟩
  rw [hrefs, List.mem_filter, decide_eq_true_iff]

/-- A continuation with the endpoint at token 8 alone. -/
def endpointOnly : ContinuationSummary := { endpoint := some { ref := { frontier := 8 } } }

/-- The eviction of a continuation matches a claim of as many drops, whichever they are. -/
theorem eviction_matches_foreign_drop :
    endpointOnly.refs.Nodup ∧ [({ frontier := 9 } : CheckpointRef)].Nodup ∧
      continuationMatchesClaim endpointOnly none .evicted [{ frontier := 9 }] ∧
      ({ frontier := 9 } : CheckpointRef) ∉ endpointOnly.refs := by
  decide

end Ninfer.Resources
