/-
  The two loops of the materialization search end, whatever the clock and the session do.

  The construction loop lowers `Setting.measure` with every turn. The best-first loop lowers
  `Setting.frontier`: a turn spends work or takes an entry from a heap. An expansion may add many
  entries at once, but each of them was not discovered before, and the ledger bounds how often
  that can be.
-/
import Ninfer.Planner.MaterializationPaths

namespace Ninfer.Planner

open Lib

namespace Materialization

variable {τ H C P : Type} [Inhabited H] {x : Setting τ H C P} {κ κ' : x.Counts} {d : Nat}
  {s t : Search τ H C} {i : Fin 4}

/-! ## One turn of the paths -/

/-- A turn that changed nothing had nothing to do on the path. -/
def Idle (x : Setting τ H C P) (s : Search τ H C) (i : Fin 4) : Prop :=
  s.searchStopped = true ∨ (s.paths i).cursor = none ∧ 2 * x.order.length ≤ s.nextPath

/-- What holds at every turn of the construction loop. -/
structure Constructing (x : Setting τ H C P) (s : Search τ H C) : Prop where
  inv : Inv x 0 s
  nextPath : s.nextPath ≤ 2 * x.order.length

theorem keeps_startNext (h : Constructing x s) (i : Fin 4) :
    wp (startNext x i) (Keeps x fun _ t => Constructing x t ∧ (x.measure t < x.measure s ∨
        t = s ∧ ((s.paths i).cursor.isSome = true ∨ 2 * x.order.length ≤ s.nextPath))) s := by
  unfold startNext
  rw [wp_get_bind, wp_ite]
  constructor
  · rintro ⟨_, hnext⟩
    refine Keeps.bind (h.inv.call fun N _ _ hu => N.identityTarget _ _ _ _ hu) ?_
    rintro target _ ⟨h1, u, _, rfl⟩
    refine Keeps.bind (keeps_startPath h1 i _ target _ false) ?_
    rintro _ t ⟨ht, hstarts⟩
    have hnextPath : t.nextPath = s.nextPath := hstarts.nextPath
    refine ⟨⟨ht.withFlags _ t.searchStopped t.rescueDone t.refinementSeeded, ?_⟩, .inl ?_⟩
    · show t.nextPath + 1 ≤ _
      rw [hnextPath]
      exact hnext
    · have hcursors : cursors t.paths ≤ cursors s.paths + 1 := hstarts.cursors
      have hwork : t.searchWork = s.searchWork := hstarts.searchWork
      have hseeded : t.refinementSeeded = s.refinementSeeded := hstarts.refinementSeeded
      unfold Setting.measure
      dsimp only
      rw [hnextPath, hwork, hseeded]
      omega
  · intro hcond
    refine ⟨h, .inr ⟨rfl, ?_⟩⟩
    by_cases hcursor : (s.paths i).cursor.isSome = true
    · exact .inl hcursor
    · refine .inr (Nat.not_lt.mp fun hlt => hcond ⟨?_, hlt⟩)
      rw [Option.isNone_iff_eq_none]
      exact Option.not_isSome_iff_eq_none.mp hcursor

theorem keeps_pathTurn (h : Constructing x s) (i : Fin 4) :
    wp (pathTurn x i) (Keeps x fun _ t => Constructing x t ∧
      (x.measure t < x.measure s ∨ t = s ∧ Idle x s i)) s := by
  unfold pathTurn
  rw [wp_get_bind, wp_ite]
  refine ⟨fun hstopped => ⟨h, .inr ⟨rfl, .inl hstopped⟩⟩, fun _ => ?_⟩
  refine Keeps.bind (keeps_startNext h i) ?_
  rintro _ t ⟨ht, hstart⟩
  refine Keeps.mono (keeps_slices ht.inv 8) ?_
  rintro _ u ⟨hu, hnext, hslices⟩
  refine ⟨⟨hu, hnext.trans_le ht.nextPath⟩, ?_⟩
  rcases hslices with hless | ⟨rfl, hnone⟩
  · rcases hstart with hlt | ⟨rfl, _⟩
    · exact .inl (hless.trans hlt)
    · exact .inl hless
  · rcases hstart with hlt | ⟨rfl, hcursor⟩
    · exact .inl hlt
    · have hnone : (u.paths i).cursor = none := hnone.resolve_left (by decide)
      refine .inr ⟨rfl, .inr ⟨hnone, hcursor.resolve_left ?_⟩⟩
      rw [hnone]
      exact Bool.noConfusion

theorem keeps_pathTurns (h : Constructing x s) (l : List (Fin 4)) :
    wp (Eff.forEach l (pathTurn x)) (Keeps x fun _ t => Constructing x t ∧
      (x.measure t < x.measure s ∨ t = s ∧ ∀ i ∈ l, Idle x s i)) s := by
  induction l generalizing s with
  | nil => exact ⟨h, .inr ⟨rfl, nofun⟩⟩
  | cons i l ih =>
    refine Keeps.bind (f := fun _ => Eff.forEach l (pathTurn x)) (keeps_pathTurn h i) ?_
    rintro _ t ⟨ht, hturn⟩
    refine Keeps.mono (ih ht) ?_
    rintro _ u ⟨hu, hrest⟩
    refine ⟨hu, ?_⟩
    rcases hrest with hless | ⟨rfl, hidle⟩
    · rcases hturn with hlt | ⟨rfl, _⟩
      · exact .inl (hless.trans hlt)
      · exact .inl hless
    · rcases hturn with hlt | ⟨rfl, hi⟩
      · exact .inl hlt
      · exact .inr ⟨rfl, List.forall_mem_cons.mpr ⟨hi, hidle⟩⟩

/-! ## The rescue and the refinement -/

theorem keeps_chargeNew {ordinal : UInt32} (h : Accounts x κ d s) (hfresh : Fresh κ κ' ordinal)
    (hn : ∀ N, ordinal.toNat < κ' N) (hopt : ¬ kTargetBudget ≤ s.optionalTargets) :
    wp (chargeNew ordinal) (Keeps x fun _ t => Accounts x κ' d t ∧ After s t ∧
      t.program = s.program ∧ t.incumbent = s.incumbent ∧ t.assessments = s.assessments ∧
      t.searchWork = s.searchWork) s := by
  refine Keeps.bind (keeps_targetMarked h.ends _ (h.roomFresh hfresh hn hopt)) ?_
  rintro discovered s ⟨rfl, _, hdiscovered⟩
  rw [wp_ite]
  constructor
  · intro hknown
    have hold : κ' = κ := by
      refine hfresh.eq_of_lt fun N => (h.numbered N).marks _ .discovered ?_
      rw [← hdiscovered]
      exact hknown
    exact ⟨hold ▸ h, After.refl _, rfl, rfl, rfl, rfl⟩
  · intro _
    exact ⟨h.chargeFresh hfresh hopt, ⟨UInt64.le_refl _, rfl, rfl⟩, rfl, rfl, rfl, rfl⟩

theorem keeps_rescueCandidate (h : Inv x 0 s) (candidate : Nat)
    (hopt : s.optionalTargets < kTargetBudget) :
    wp (rescueCandidate x candidate) (Keeps x fun _ t => Inv x 0 t ∧ After s t) s := by
  have hopt' : ¬ kTargetBudget ≤ s.optionalTargets := UInt32.not_le.mpr hopt
  unfold rescueCandidate
  rw [wp_get_bind]
  refine Keeps.bind (keeps_allowWork _ _ _ _ _) ?_
  rintro granted _ ⟨⟨m, rfl⟩, hgranted⟩
  rw [wp_ite]
  refine ⟨fun hgrant => ?_, fun _ => ⟨h.withMeters m, UInt64.le_refl _, rfl, rfl⟩⟩
  have hwork := hgranted hgrant
  have h1 := h.accounts.withMeters m
  refine Keeps.bind (keeps_call h1.ends _) ?_
  rintro target _ ⟨u, hu, rfl⟩
  have h2 := h1.withProgram u
  refine Keeps.bind (keeps_call h2.ends _) ?_
  rintro guide _ ⟨v, hv, rfl⟩
  have h3 := h2.withProgram v
  have hn : ∀ N, guide.stableTargetOrdinal.toNat < x.counts v N := by
    intro N
    obtain ⟨hkept, heq, hlt⟩ := N.guidance _ _ _ _ hv
    rw [heq]
    exact hlt.trans_eq hkept.symm
  have hfresh : Fresh (x.counts s.program) (x.counts v) guide.stableTargetOrdinal := by
    intro N
    obtain ⟨hkept, heq, _⟩ := N.guidance _ _ _ _ hv
    rw [Setting.counts, hkept, heq]
    exact N.maximalTarget _ _ _ _ hu
  refine Keeps.bind (keeps_targetMarked h3.ends _ (h3.roomFresh hfresh hn hopt')) ?_
  rintro assessed _ ⟨rfl, _, hassessed⟩
  rw [wp_ite]
  constructor
  · intro hknown
    have hold : x.counts v = x.counts s.program := by
      refine hfresh.eq_of_lt fun N => (h3.numbered N).marks _ .assessed ?_
      rw [← hassessed]
      exact hknown
    exact ⟨.of_counts h3 h.best (congrFun hold), UInt64.le_refl _, rfl, rfl⟩
  · intro _
    refine Keeps.bind (keeps_chargeNew h3 hfresh hn hopt') ?_
    rintro _ t ⟨h4, hafter, hprogram, hincumbent, hassessments, hsame⟩
    have h5 : Inv x 0 t := by
      refine .of_counts h4 ?_ fun N => by rw [hprogram]; rfl
      rw [hincumbent, hassessments]
      exact h.best
    have hwork' : t.searchWork < x.workLimit := by
      rw [hsame]
      exact hwork
    refine Keeps.mono (keeps_assessMeasured h5 hwork') ?_
    rintro _ w ⟨hw, hmeasured⟩
    have hrest := hafter.trans hmeasured.after
    exact ⟨hw, hrest.searchWork, hrest.nextPath, hrest.refinementSeeded⟩

theorem keeps_rescue (h : Inv x 0 s) :
    wp (rescue x) (Keeps x fun _ t => Inv x 0 t ∧ After s t) s := by
  unfold rescue
  rw [wp_get_bind, wp_ite]
  refine ⟨fun _ => ⟨h, After.refl s⟩, fun _ => ?_⟩
  rw [wp_modify_bind]
  have h1 := h.withFlags s.nextPath s.searchStopped true s.refinementSeeded
  dsimp only
  split
  · exact ⟨h1, UInt64.le_refl _, rfl, rfl⟩
  next candidate _ =>
    rw [wp_ite]
    refine ⟨fun hopt => ?_, fun _ => ⟨h1, UInt64.le_refl _, rfl, rfl⟩⟩
    refine Keeps.mono (keeps_rescueCandidate h1 candidate hopt) ?_
    rintro _ t ⟨ht, hafter⟩
    exact ⟨ht, hafter.searchWork, hafter.nextPath, hafter.refinementSeeded⟩

/-- The refinement is seeded once, which outweighs its path. -/
theorem keeps_refine (h : Constructing x s) (hseeded : s.refinementSeeded = false) :
    wp (refine x) (Keeps x fun _ t => Constructing x t ∧ x.measure t < x.measure s) s := by
  have hlower : ∀ t : Search τ H C, s.searchWork ≤ t.searchWork → t.nextPath = s.nextPath →
      t.refinementSeeded = true → x.measure t < x.measure s := by
    intro t hwork hnext ht
    have hcursors := cursors_le t.paths
    have hle := UInt64.le_iff_toNat_le.mp hwork
    unfold Setting.measure
    rw [hnext, ht, hseeded]
    simp only [if_true, Bool.false_eq_true, if_false]
    omega
  refine Keeps.bind (keeps_rescue h.inv) ?_
  rintro _ t ⟨ht, hafter⟩
  rw [wp_modify_bind, wp_get_bind]
  have h1 := ht.withFlags t.nextPath t.searchStopped t.rescueDone true
  rw [wp_ite]
  constructor
  · intro _
    refine Keeps.mono (keeps_startPath h1 0 _ _ false true) ?_
    rintro _ u ⟨hu, hstarts⟩
    have hnext : u.nextPath = s.nextPath := hstarts.nextPath.trans hafter.nextPath
    refine ⟨⟨hu, hnext.trans_le h.nextPath⟩, hlower u ?_ hnext hstarts.refinementSeeded⟩
    rw [hstarts.searchWork]
    exact hafter.searchWork
  · intro _
    exact ⟨⟨h1, hafter.nextPath.trans_le h.nextPath⟩,
      hlower _ hafter.searchWork hafter.nextPath rfl⟩

/-! ## The construction loop -/

theorem havePaths_eq_false (h : ∀ i, (s.paths i).cursor = none) : s.havePaths = false := by
  unfold Search.havePaths
  rw [List.any_eq_false]
  intro i _
  rw [h i]
  exact Bool.noConfusion

/-- Step lemma of the construction loop. -/
theorem keeps_constructionTurn (h : Constructing x s) (hrunning : s.searchStopped = false)
    (hmore : s.nextPath < 2 * x.order.length ∨ s.havePaths = true ∨ s.refinementSeeded = false) :
    wp (constructionTurn x) (Keeps x fun go t => Constructing x t ∧
      (go = true → x.measure t < x.measure s)) s := by
  unfold constructionTurn
  rw [wp_get_bind, wp_ite]
  constructor
  · rintro ⟨hnext, hpaths⟩
    have hseeded : s.refinementSeeded = false := by
      rcases hmore with hlt | htrue | hfalse
      · exact absurd hlt (hnext ▸ Nat.lt_irrefl _)
      · rw [hpaths] at htrue
        cases htrue
      · exact hfalse
    refine Keeps.bind (keeps_refine h hseeded) ?_
    rintro _ t ⟨ht, hlt⟩
    rw [wp_get_bind, wp_ite]
    refine ⟨fun _ => ?_, fun _ => ⟨ht, Bool.noConfusion⟩⟩
    refine Keeps.bind (keeps_pathTurns ht _) ?_
    rintro _ u ⟨hu, hless | ⟨rfl, _⟩⟩
    · exact ⟨hu, fun _ => hless.trans hlt⟩
    · exact ⟨hu, fun _ => hlt⟩
  · intro hcond
    refine Keeps.bind (keeps_pathTurns h _) ?_
    rintro _ u ⟨hu, hless | ⟨rfl, hidle⟩⟩
    · exact ⟨hu, fun _ => hless⟩
    · -- nothing happened: then all starts are used up and no path has a cursor
      have hnone : ∀ i, (u.paths i).cursor = none ∧ 2 * x.order.length ≤ u.nextPath := by
        intro i
        rcases hidle i (List.mem_finRange i) with hstopped | hidle
        · rw [hrunning] at hstopped
          cases hstopped
        · exact hidle
      exact absurd ⟨h.nextPath.antisymm (hnone 0).2, havePaths_eq_false fun i => (hnone i).1⟩ hcond

/-- Run lemma of the construction loop: it ends within its fuel. -/
theorem keeps_constructionLoop (h : Constructing x s) {fuel : Nat} (hfuel : x.measure s < fuel) :
    wp (constructionLoop x fuel) (Keeps x fun _ t => Inv x 0 t) s := by
  induction fuel generalizing s with
  | zero => exact absurd hfuel (Nat.not_lt_zero _)
  | succ fuel ih =>
    unfold constructionLoop
    rw [wp_get_bind, wp_ite]
    refine ⟨fun hcond => ?_, fun _ => h.inv⟩
    refine Keeps.bind (keeps_constructionTurn h hcond.1 hcond.2) ?_
    rintro go t ⟨ht, hlt⟩
    rw [wp_ite]
    exact ⟨fun hgo => ih ht (by have := hlt hgo; omega), fun _ => ht.inv⟩

theorem measure_lt_fuel (s : Search τ H C) : x.measure s < constructionFuel x := by
  have hcursors := cursors_le s.paths
  unfold Setting.measure constructionFuel
  split_ifs <;> omega

/-! ## The best-first loop -/

/-- What every turn of the best-first loop lowers. -/
def Setting.frontier (x : Setting τ H C P) (s : Search τ H C) : Nat :=
  2 * (x.workLimit.toNat - s.searchWork.toNat) + s.queue.length + s.pending.length +
    undiscovered s.ledger

variable {entry : QueueEntry H} {rest : List (QueueEntry H)}

theorem Inv.popQueue (h : Inv x d s) (hpop : popLeast queueKey s.queue = some (entry, rest)) :
    Inv x d { s with queue := rest } :=
  ⟨h.accounts.withQueue fun N e he => (h.accounts.numbered N).queue e
    (mem_of_popLeast hpop (List.mem_cons_of_mem _ he)), h.best⟩

theorem Inv.popPending (h : Inv x d s) {entry : PendingEntry H} {rest : List (PendingEntry H)}
    (hpop : popLeast pendingKey s.pending = some (entry, rest)) :
    Inv x d { s with pending := rest } :=
  ⟨h.accounts.withPending fun N e he => (h.accounts.numbered N).pending e
    (mem_of_popLeast hpop (List.mem_cons_of_mem _ he)), h.best⟩

/-- The ordinal at the front of the queue is the number of a target. -/
theorem Inv.queueFront (h : Inv x d s) (hpop : popLeast queueKey s.queue = some (entry, rest))
    (N : x.Numbering) :
    entry.stableTargetOrdinal.toNat < N.canonical s.program :=
  (h.accounts.numbered N).queue entry (mem_of_popLeast hpop List.mem_cons_self)

theorem Inv.pendingFront (h : Inv x d s) {entry : PendingEntry H} {rest : List (PendingEntry H)}
    (hpop : popLeast pendingKey s.pending = some (entry, rest))
    (N : x.Numbering) :
    entry.guidance.stableTargetOrdinal.toNat < N.canonical s.program :=
  (h.accounts.numbered N).pending entry (mem_of_popLeast hpop List.mem_cons_self)

theorem keeps_dropExpanded (h : Inv x 0 s) (count : Nat) :
    wp (dropExpanded count) (Keeps x fun _ t => Inv x 0 t ∧ x.frontier t ≤ x.frontier s) s := by
  induction count generalizing s with
  | zero => exact ⟨h, le_rfl⟩
  | succ count ih =>
    unfold dropExpanded
    rw [wp_get_bind]
    cases hpop : popLeast queueKey s.queue with
    | none => exact ⟨h, le_rfl⟩
    | some front =>
      obtain ⟨entry, rest⟩ := front
      refine Keeps.bind (keeps_targetMarked h.ends _ (h.room (h.queueFront hpop))) ?_
      rintro expanded s ⟨rfl, _, _⟩
      rw [wp_ite]
      refine ⟨fun _ => ?_, fun _ => ⟨h, le_rfl⟩⟩
      refine Keeps.mono (ih (h.popQueue hpop)) ?_
      rintro _ t ⟨ht, hle⟩
      refine ⟨ht, hle.trans ?_⟩
      have hlength := popLeast_length hpop
      unfold Setting.frontier
      dsimp only
      omega

theorem keeps_dropAssessed (h : Inv x 0 s) (count : Nat) :
    wp (dropAssessed count) (Keeps x fun _ t => Inv x 0 t ∧ x.frontier t ≤ x.frontier s) s := by
  induction count generalizing s with
  | zero => exact ⟨h, le_rfl⟩
  | succ count ih =>
    unfold dropAssessed
    rw [wp_get_bind]
    cases hpop : popLeast pendingKey s.pending with
    | none => exact ⟨h, le_rfl⟩
    | some front =>
      obtain ⟨entry, rest⟩ := front
      refine Keeps.bind (keeps_targetMarked h.ends _ (h.room (h.pendingFront hpop))) ?_
      rintro assessed s ⟨rfl, _, _⟩
      rw [wp_ite]
      refine ⟨fun _ => ?_, fun _ => ⟨h, le_rfl⟩⟩
      refine Keeps.mono (ih (h.popPending hpop)) ?_
      rintro _ t ⟨ht, hle⟩
      refine ⟨ht, hle.trans ?_⟩
      have hlength := popLeast_length hpop
      unfold Setting.frontier
      dsimp only
      omega

/-- What a turn of the best-first loop leaves: it goes on with a smaller frontier, or it ends. -/
def Turned (x : Setting τ H C P) (s : Search τ H C) (go : Bool) (t : Search τ H C) : Prop :=
  (go = true → Inv x 0 t ∧ x.frontier t < x.frontier s) ∧ (go = false → ∃ d, Inv x d t)

theorem keeps_assessPending {entry : PendingEntry H} {rest : List (PendingEntry H)}
    (h : Inv x 0 s) (hpop : popLeast pendingKey s.pending = some (entry, rest)) :
    wp (assessPending x entry rest) (Keeps x (Turned x s)) s := by
  have hlength := popLeast_length hpop
  unfold assessPending
  rw [wp_get_bind]
  refine Keeps.bind (keeps_allowWork _ _ _ _ _) ?_
  rintro granted _ ⟨⟨m, rfl⟩, hgranted⟩
  have h1 := (h.popPending hpop).withMeters m
  rw [wp_ite]
  constructor
  · intro hgrant
    rw [wp_modify_bind]
    refine Keeps.bind (keeps_assessMeasured h1 (hgranted hgrant)) ?_
    rintro _ t ⟨ht, hmeasured⟩
    refine ⟨fun _ => ⟨ht, ?_⟩, nofun⟩
    have hlimit := UInt64.lt_iff_toNat_lt.mp (hgranted hgrant)
    have hwork : t.searchWork.toNat = s.searchWork.toNat + 1 := hmeasured.searchWork
    have hpending : t.pending = rest := hmeasured.pending
    have hqueue : t.queue.length ≤ s.queue.length + 1 := hmeasured.queue
    have hledger : undiscovered t.ledger ≤ undiscovered s.ledger := hmeasured.undiscovered
    unfold Setting.frontier
    rw [hpending]
    omega
  · intro _
    refine Keeps.bind keeps_outOfWork ?_
    rintro stop _ ⟨m', rfl⟩
    rw [wp_ite]
    refine ⟨fun _ => ⟨nofun, fun _ => ⟨0, h.withMeters m'⟩⟩, fun _ => ?_⟩
    refine ⟨fun _ => ⟨(h.popPending hpop).withMeters m', ?_⟩, nofun⟩
    unfold Setting.frontier
    dsimp only
    omega

theorem keeps_expandQueued (h : Inv x 0 s) (hpop : popLeast queueKey s.queue = some (entry, rest)) :
    wp (expandQueued x entry rest) (Keeps x (Turned x s)) s := by
  have hlength := popLeast_length hpop
  unfold expandQueued
  rw [wp_get_bind]
  refine Keeps.bind (keeps_allowWork _ _ _ _ _) ?_
  rintro granted _ ⟨⟨m, rfl⟩, hgranted⟩
  rw [wp_ite]
  constructor
  · intro hgrant
    refine Keeps.bind keeps_tick ?_
    rintro started _ ⟨m', rfl⟩
    rw [wp_ite]
    refine ⟨fun _ => ⟨nofun, fun _ => ⟨0, h.withMeters m'⟩⟩, fun _ => ?_⟩
    rw [wp_modify_bind]
    refine Keeps.bind (keeps_expandTarget ((h.popQueue hpop).withMeters m') (hgranted hgrant)
      (h.queueFront hpop)) ?_
    rintro done t ⟨ht, hexpands⟩
    rw [wp_ite]
    refine ⟨fun _ => ?_, fun _ => ⟨nofun, fun _ => ⟨1, ht⟩⟩⟩
    refine Keeps.bind (keeps_observeStep _ _) ?_
    rintro estimate _ ⟨m1, rfl⟩
    refine Keeps.bind (keeps_withMeters _) ?_
    rintro _ _ ⟨m2, rfl⟩
    refine ⟨fun _ => ⟨(ht.withMeters m2).countWork, ?_⟩, nofun⟩
    have hlimit := UInt64.lt_iff_toNat_lt.mp (hgranted hgrant)
    have hwork : (t.searchWork + 1).toNat = s.searchWork.toNat + 1 :=
      ht.accounts.toNat_searchWork_succ.trans
        (congrArg (fun work : UInt64 => work.toNat + 1) hexpands.searchWork)
    have hqueue : t.queue.length ≤ rest.length + 1 := hexpands.queue
    have hwaiting : t.pending.length + undiscovered t.ledger ≤
        s.pending.length + undiscovered s.ledger := hexpands.waiting
    unfold Setting.frontier
    dsimp only
    omega
  · intro _
    refine Keeps.bind keeps_outOfWork ?_
    rintro stop _ ⟨m', rfl⟩
    rw [wp_ite]
    refine ⟨fun _ => ⟨nofun, fun _ => ⟨0, h.withMeters m'⟩⟩, fun _ => ?_⟩
    refine ⟨fun _ => ⟨(h.popQueue hpop).withMeters m', ?_⟩, nofun⟩
    unfold Setting.frontier
    dsimp only
    omega

/-- The choice is the front of one of the heaps. -/
theorem choice_cases {choice : Choice H} (h : s.choice = some choice) :
    (∃ entry rest, choice = .assess entry rest ∧
      popLeast pendingKey s.pending = some (entry, rest)) ∨
    (∃ entry rest, choice = .expand entry rest ∧
      popLeast queueKey s.queue = some (entry, rest)) := by
  unfold Search.choice at h
  split at h
  · cases h
  next hqueue _ =>
    cases h
    exact .inr ⟨_, _, rfl, hqueue⟩
  next _ hpending =>
    cases h
    exact .inl ⟨_, _, rfl, hpending⟩
  next hqueue hpending =>
    split_ifs at h
    · cases h
      exact .inl ⟨_, _, rfl, hpending⟩
    · cases h
      exact .inr ⟨_, _, rfl, hqueue⟩

theorem Turned.of_le {u : Search τ H C} {go : Bool} (h : Turned x t go u)
    (hle : x.frontier t ≤ x.frontier s) : Turned x s go u :=
  ⟨fun hgo => ⟨(h.1 hgo).1, (h.1 hgo).2.trans_le hle⟩, h.2⟩

/-- Step lemma of the best-first loop. -/
theorem keeps_bestFirstTurn (h : Inv x 0 s) : wp (bestFirstTurn x) (Keeps x (Turned x s)) s := by
  unfold bestFirstTurn
  rw [wp_get_bind]
  refine Keeps.bind (keeps_dropExpanded h _) ?_
  rintro _ t ⟨ht, hle⟩
  refine Keeps.bind (keeps_dropAssessed ht _) ?_
  rintro _ u ⟨hu, hle'⟩
  rw [wp_get_bind]
  have hfrontier := hle'.trans hle
  cases hchoice : u.choice with
  | none => exact ⟨nofun, fun _ => ⟨0, hu⟩⟩
  | some choice =>
    obtain ⟨entry, rest, rfl, hpop⟩ | ⟨entry, rest, rfl, hpop⟩ := choice_cases hchoice
    · exact Keeps.mono (keeps_assessPending hu hpop) fun _ _ hturned => hturned.of_le hfrontier
    · exact Keeps.mono (keeps_expandQueued hu hpop) fun _ _ hturned => hturned.of_le hfrontier

/-- Run lemma of the best-first loop: it ends within its fuel. -/
theorem keeps_bestFirst (h : Inv x 0 s) {fuel : Nat} (hfuel : x.frontier s < fuel) :
    wp (bestFirst x fuel) (Keeps x fun _ t => ∃ d, Inv x d t) s := by
  induction fuel generalizing s with
  | zero => exact absurd hfuel (Nat.not_lt_zero _)
  | succ fuel ih =>
    refine Keeps.bind (keeps_bestFirstTurn h) ?_
    rintro go t ⟨hgo, hstop⟩
    rw [wp_ite]
    constructor
    · intro htrue
      obtain ⟨ht, hlt⟩ := hgo htrue
      exact ih ht (by omega)
    · intro hfalse
      exact hstop (Bool.eq_false_iff.mpr hfalse)

theorem frontier_lt_fuel (s : Search τ H C) : x.frontier s < bestFirstFuel x s := by
  have hledger := undiscovered_le_capacity s.ledger
  unfold Setting.frontier bestFirstFuel
  omega

/-! ## The search -/

/-- What holds when the search begins. -/
structure Ready (x : Setting τ H C P) (s : Search τ H C) : Prop where
  inv : Inv x 0 s
  nextPath : s.nextPath = 0

theorem keeps_seedRoot (h : Ready x s) {root : IdentityRoot}
    (hroot : root.candidateIndex < x.candidates.length) :
    wp (seedRoot x root) (Keeps x fun _ t => Ready x t) s := by
  unfold seedRoot
  rw [wp_ite]
  refine ⟨fun _ => ?_, fun _ => h⟩
  refine Keeps.bind (h.inv.call fun N _ _ hu => N.identityTarget _ _ _ _ hu) ?_
  rintro target _ ⟨h1, u, _, rfl⟩
  have hn : ∀ N : x.Numbering, (UInt32.ofNat root.candidateIndex).toNat < N.canonical u := by
    intro N
    exact (Nat.mod_le _ _).trans_lt (hroot.trans_le (h1.accounts.numbered N).roots)
  refine Keeps.bind (keeps_markTarget h1.ends _ (h1.room hn)) ?_
  rintro _ _ ⟨rfl, hroom⟩
  have h2 := h1.accounts.mark [.discovered, .assessed] hroom hn
  exact ⟨⟨h2.withQueue fun N => forall_mem_push (h1.accounts.numbered N).queue (hn N), h1.best⟩,
    h.nextPath⟩

/-- The whole search ends and keeps its invariant. -/
theorem keeps_search (h : Ready x s)
    (hroots : ∀ root ∈ x.survey.roots, root.candidateIndex < x.candidates.length) :
    wp (search x) (Keeps x fun _ t => ∃ d, Inv x d t) s := by
  refine Keeps.bind (Keeps.forEach (I := Ready x) h fun root hroot t ht =>
    keeps_seedRoot ht (hroots root hroot)) ?_
  rintro _ t ht
  have hconstructing : Constructing x t := ⟨ht.inv, ht.nextPath.trans_le (Nat.zero_le _)⟩
  refine Keeps.bind (keeps_constructionLoop hconstructing (measure_lt_fuel t)) ?_
  rintro _ u hu
  refine Keeps.bind (Keeps.forEach (I := Inv x 0) hu fun i _ v hv =>
    Keeps.mono (keeps_resetCursor hv i) fun _ _ hw => hw.1) ?_
  rintro _ v hv
  rw [wp_get_bind, wp_ite]
  exact ⟨fun _ => ⟨0, hv⟩, fun _ => keeps_bestFirst hv (frontier_lt_fuel v)⟩

end Materialization

end Ninfer.Planner
