/-
  What the steps of the materialization search keep.

  `Accounts` counts: every operation of the session is paid for by one unit of search work, and
  under a session that numbers its canonical targets consecutively, each of them beyond the roots
  and the Root maximal target is charged to the optional targets. So every ordinal that the session
  names has a place in the ledger. `Best` says what the incumbent is: an exactly assessed target
  with a goal whose cost is at most that of every other one. `Ends` is what is left of the two
  after an exception.
-/
import Ninfer.Planner.MaterializationSearch

namespace Ninfer.Planner

open Lib
open Resources (PrivateSourceMode)

namespace Materialization

variable {τ H C P : Type} [Inhabited H]

/-! ## Heaps -/

theorem popLeast_eq_none {α : Type} {key : α → List Nat} {l : List α}
    (h : popLeast key l = none) : l = [] := by
  cases l with
  | nil => rfl
  | cons a l =>
    unfold popLeast at h
    split at h
    · cases h
    · split_ifs at h

theorem popLeast_perm {α : Type} {key : α → List Nat} {l rest : List α} {a : α}
    (h : popLeast key l = some (a, rest)) : (a :: rest).Perm l := by
  induction l generalizing a rest with
  | nil => cases h
  | cons b l ih =>
    unfold popLeast at h
    split at h
    next hnone =>
      cases h
      rw [popLeast_eq_none hnone]
    next c others hsome =>
      split_ifs at h
      · cases h
        exact (List.Perm.swap b a others).trans ((ih hsome).cons b)
      · cases h
        exact List.Perm.refl _

theorem popLeast_length {α : Type} {key : α → List Nat} {l rest : List α} {a : α}
    (h : popLeast key l = some (a, rest)) : rest.length + 1 = l.length :=
  (popLeast_perm h).length_eq

theorem mem_of_popLeast {α : Type} {key : α → List Nat} {l rest : List α} {a b : α}
    (h : popLeast key l = some (a, rest)) (hb : b ∈ a :: rest) : b ∈ l :=
  (popLeast_perm h).mem_iff.mp hb

/-! ## The ledger -/

/-- How many ordinals are not yet discovered. -/
def undiscovered (l : BoundedTargetLedger) : Nat :=
  ((Finset.range l.capacity).filter fun n => l.marked n .discovered = false).card

theorem undiscovered_le_capacity (l : BoundedTargetLedger) : undiscovered l ≤ l.capacity := by
  exact (Finset.card_filter_le _ _).trans_eq (Finset.card_range _)

section Ledger

variable {l : BoundedTargetLedger} {n : Nat} {marks : List TargetMark}

theorem not_marked_of_withMarks {k : Nat} {m : TargetMark}
    (h : (l.withMarks n marks).marked k m = false) : l.marked k m = false := by
  by_contra hk
  rw [Bool.not_eq_false] at hk
  rw [BoundedTargetLedger.marked_mono hk] at h
  cases h

theorem undiscovered_withMarks_le : undiscovered (l.withMarks n marks) ≤ undiscovered l := by
  refine Finset.card_le_card fun k hk => ?_
  obtain ⟨hk, hnew⟩ := Finset.mem_filter.mp hk
  exact Finset.mem_filter.mpr ⟨hk, not_marked_of_withMarks hnew⟩

theorem undiscovered_discover (hn : n < l.capacity) (hnew : l.marked n .discovered = false)
    (hmark : .discovered ∈ marks) : undiscovered (l.withMarks n marks) < undiscovered l := by
  refine Finset.card_lt_card (Finset.ssubset_iff_subset_ne.mpr ⟨fun k hk => ?_, fun heq => ?_⟩)
  · obtain ⟨hk, hold⟩ := Finset.mem_filter.mp hk
    exact Finset.mem_filter.mpr ⟨hk, not_marked_of_withMarks hold⟩
  · have hmem : n ∈ (Finset.range l.capacity).filter fun n => l.marked n .discovered = false :=
      Finset.mem_filter.mpr ⟨Finset.mem_range.mpr hn, hnew⟩
    rw [← heq, Finset.mem_filter] at hmem
    rw [BoundedTargetLedger.withMarks_marked.mpr (.inr ⟨rfl, hmark⟩)] at hmem
    exact Bool.noConfusion hmem.2

end Ledger

/-! ## Sessions that number their targets -/

/-- A session that numbers its canonical targets consecutively: `canonical` is how many there are,
    and a target that is new gets that number. -/
structure Numbering (session : Session τ H C P) (candidates : Nat) where
  canonical : τ → Nat
  ordinalOf : H → Nat
  begins : ∀ s a u, session.beginPressurePlanning s = .ok (a, u) → canonical u = candidates
  identityTarget : ∀ id s h u, session.identityTarget id s = .ok (h, u) → canonical u = canonical s
  rootMaximalTarget : ∀ id s h u, session.rootMaximalTarget id s = .ok (h, u) →
    canonical u = canonical s ∨ canonical u = canonical s + 1 ∧ ordinalOf h = canonical s
  maximalTarget : ∀ id s h u, session.maximalTarget id s = .ok (h, u) →
    canonical u = canonical s ∨ canonical u = canonical s + 1 ∧ ordinalOf h = canonical s
  constructionTarget : ∀ c s o u, session.constructionTarget c s = .ok (o, u) →
    canonical u = canonical s ∨
      canonical u = canonical s + 1 ∧ ∃ h, o = some h ∧ ordinalOf h = canonical s
  guidance : ∀ h s g u, session.guidance h s = .ok (g, u) →
    canonical u = canonical s ∧ g.stableTargetOrdinal.toNat = ordinalOf h ∧
      ordinalOf h < canonical s
  assess : ∀ h s a u, session.assess h s = .ok (a, u) →
    canonical u = canonical s ∧ a.stableTargetOrdinal.toNat = ordinalOf h ∧
      ordinalOf h < canonical s
  prepareExpansion : ∀ h n s count u, session.prepareExpansion h n s = .ok (count, u) →
    canonical u = canonical s
  discardExpansion : ∀ s, canonical (session.discardExpansion s) = canonical s
  /-- An expansion commits as many targets as it was prepared with. -/
  commitExpansion : ∀ h n s count t e u, session.prepareExpansion h n s = .ok (count, t) →
    session.commitExpansion t = .ok (e, u) →
    e.newCanonicalCount = count ∧ canonical u = canonical t + count.toNat
  beginConstruction : ∀ h r s c u, session.beginConstruction h r s = .ok (c, u) →
    canonical u = canonical s
  nextConstructionOption : ∀ c s o u, session.nextConstructionOption c s = .ok (o, u) →
    canonical u = canonical s
  chooseConstruction : ∀ c o s a u, session.chooseConstruction c o s = .ok (a, u) →
    canonical u = canonical s
  releaseCursor : ∀ c s, canonical (session.releaseCursor c s) = canonical s

abbrev Setting.Numbering (x : Setting τ H C P) : Type :=
  Materialization.Numbering x.session x.candidates.length

/-- How many canonical targets there are, by any numbering. -/
abbrev Setting.Counts (x : Setting τ H C P) : Type := x.Numbering → Nat

/-- The counts of a Program state. -/
def Setting.counts (x : Setting τ H C P) (program : τ) : x.Counts := fun N => N.canonical program

/-! ## Invariants -/

/-- With `count` canonical targets, every ordinal in use is the number of one. -/
structure Numbered (x : Setting τ H C P) (count : Nat) (optionalTargets : UInt32)
    (ledger : BoundedTargetLedger) (queue : List (QueueEntry H)) (pending : List (PendingEntry H))
    (paths : Fin 4 → ConstructionPath C) (rejected : Bool) : Prop where
  counted : count ≤ x.candidates.length + 1 + optionalTargets.toNat
  roots : x.candidates.length ≤ count
  optional : optionalTargets.toNat ≤ 4096
  marks : ∀ n m, ledger.marked n m = true → n < count
  queue : ∀ e ∈ queue, e.stableTargetOrdinal.toNat < count
  pending : ∀ e ∈ pending, e.guidance.stableTargetOrdinal.toNat < count
  visited : ∀ i, ∀ v ∈ (paths i).visited, v.toNat < count
  rejected : rejected = false

/-- The counters of the search, when `d` operations are made that are not yet counted. -/
structure Accounts (x : Setting τ H C P) (κ : x.Counts) (d : Nat) (s : Search τ H C) : Prop where
  owners : s.owners = x.pressure.ownerPolicy.length
  operations : s.operations ≤ s.searchWork.toNat + d
  work : s.searchWork.toNat + d ≤ x.workLimit.toNat
  capacity : s.ledger.capacity = x.candidates.length + 1 + 4096
  marks : ∀ n m, s.ledger.marked n m = true → n < s.ledger.capacity
  numbered : ∀ N, Numbered x (κ N) s.optionalTargets s.ledger s.queue s.pending s.paths s.rejected

/-- What an exception leaves. -/
structure Ends (x : Setting τ H C P) (s : Search τ H C) : Prop where
  owners : s.owners = x.pressure.ownerPolicy.length
  operations : s.operations ≤ x.workLimit.toNat + 1
  capacity : s.ledger.capacity = x.candidates.length + 1 + 4096
  marks : ∀ n m, s.ledger.marked n m = true → n < s.ledger.capacity
  optional : ∀ _ : x.Numbering, s.optionalTargets.toNat ≤ 4096
  rejected : ∀ _ : x.Numbering, s.rejected = false

/-- The incumbent is the identity of its candidate. -/
structure HoldsIdentity (x : Setting τ H C P) (incumbent : Incumbent H) : Prop where
  target : ∃ s u, x.session.identityTarget (x.candidate incumbent.candidateIndex).id s =
    .ok (incumbent.target, u)
  goal : x.problem.identityGoal (x.candidate incumbent.candidateIndex) =
    .ok (some incumbent.publicationSlot)
  cost : incumbent.cost = foldIdentity x.problem.machineCost (x.candidate incumbent.candidateIndex)
  sourceMode : incumbent.sourceMode = (x.candidate incumbent.candidateIndex).identity.sourceMode
  ownerOutcomes : incumbent.ownerOutcomes = []
  checkpointOutcomes : incumbent.checkpointOutcomes = []

/-- The incumbent is an assessed target. -/
structure HoldsTarget (x : Setting τ H C P) (incumbent : Incumbent H) (a : Assessment) : Prop where
  assessed : ∃ s u, x.session.assess incumbent.target s = .ok (a, u)
  candidate : a.candidate = (x.candidate incumbent.candidateIndex).id
  goal : x.problem.goalFor a = .ok (some incumbent.publicationSlot)
  cost : foldAssessment x.problem.machineCost x.pressure (x.candidate incumbent.candidateIndex) a =
    .ok incumbent.cost
  sourceMode : incumbent.sourceMode = a.sourceMode
  ownerOutcomes : incumbent.ownerOutcomes = a.ownerOutcomes
  checkpointOutcomes : incumbent.checkpointOutcomes = a.checkpointOutcomes

/-- The incumbent costs at most what any target costs that was assessed feasible with a goal. -/
structure Best (x : Setting τ H C P) (incumbent : Incumbent H)
    (assessments : List (Candidate × Assessment)) : Prop where
  index : incumbent.candidateIndex < x.candidates.length
  identity : incumbent.assessed = none → HoldsIdentity x incumbent
  target : ∀ a, incumbent.assessed = some a → HoldsTarget x incumbent a
  identities : ∀ c ∈ x.candidates, ∀ slot, x.problem.identityGoal c = .ok (some slot) →
    incumbent.cost.key ≤ (foldIdentity x.problem.machineCost c).key
  assessed : ∀ e ∈ assessments, ∀ slot cost, x.problem.goalFor e.2 = .ok (some slot) →
    foldAssessment x.problem.machineCost x.pressure e.1 e.2 = .ok cost →
    incumbent.cost.key ≤ cost.key

/-- The invariant of the search. -/
structure Inv (x : Setting τ H C P) (d : Nat) (s : Search τ H C) : Prop where
  accounts : Accounts x (x.counts s.program) d s
  best : Best x s.incumbent s.assessments

variable {x : Setting τ H C P} {κ : x.Counts} {d : Nat} {s t : Search τ H C}

/-! ## Updates of the accounts -/

theorem Numbered.grow {count count' : Nat} {optionalTargets optionalTargets' : UInt32}
    {ledger : BoundedTargetLedger} {queue : List (QueueEntry H)} {pending : List (PendingEntry H)}
    {paths : Fin 4 → ConstructionPath C} {rejected : Bool}
    (h : Numbered x count optionalTargets ledger queue pending paths rejected)
    (hle : count ≤ count')
    (hcounted : count' ≤ x.candidates.length + 1 + optionalTargets'.toNat)
    (hoptional : optionalTargets'.toNat ≤ 4096) :
    Numbered x count' optionalTargets' ledger queue pending paths rejected where
  counted := hcounted
  roots := h.roots.trans hle
  optional := hoptional
  marks n m hn := (h.marks n m hn).trans_le hle
  queue e he := (h.queue e he).trans_le hle
  pending e he := (h.pending e he).trans_le hle
  visited i v hv := (h.visited i v hv).trans_le hle
  rejected := h.rejected

namespace Accounts

section

variable (h : Accounts x κ d s)

include h

theorem ends : Ends x s where
  owners := h.owners
  operations := by have := h.operations; have := h.work; omega
  capacity := h.capacity
  marks := h.marks
  optional N := (h.numbered N).optional
  rejected N := (h.numbered N).rejected

/-- The ledger has room for the number of every target. -/
theorem room {N : x.Numbering} {n : Nat}
    (hn : n < κ N) : n < s.ledger.capacity := by
  have hcounted := (h.numbered N).counted
  have hoptional := (h.numbered N).optional
  rw [h.capacity]
  omega

/-- The number of targets may have grown by those that are charged. -/
theorem grow {κ' : x.Counts} (hle : ∀ N, κ N ≤ κ' N)
    (hcounted : ∀ N, κ' N ≤ x.candidates.length + 1 + s.optionalTargets.toNat) :
    Accounts x κ' d s :=
  { h with numbered := fun N =>
      (h.numbered N).grow (hle N) (hcounted N) (h.numbered N).optional }

theorem withMeters (m : Meters) : Accounts x κ d { s with meters := m } :=
  { h with }

theorem withProgram (u : τ) : Accounts x κ d { s with program := u } :=
  { h with }

theorem withIncumbent (seeded : List Bool) (incumbent : Incumbent H) :
    Accounts x κ d { s with candidateSeeded := seeded, incumbent } :=
  { h with }

theorem withAssessments (l : List (Candidate × Assessment)) :
    Accounts x κ d { s with assessments := l } :=
  { h with }

/-- The flags and the position of the construction loop count nothing. -/
theorem withFlags (nextPath : Nat) (stopped done seeded : Bool) :
    Accounts x κ d { s with
        nextPath
        searchStopped := stopped
        rescueDone := done
        refinementSeeded := seeded } :=
  { h with }

theorem withPath (i : Fin 4) (path : ConstructionPath C)
    (hvisited : ∀ N, ∀ v ∈ path.visited, v.toNat < κ N) :
    Accounts x κ d (s.withPath i path) := by
  refine { h with numbered := fun N => { h.numbered N with visited := ?_ } }
  intro j v hv
  by_cases hj : j = i
  · subst hj
    rw [Search.withPath_self] at hv
    exact hvisited N v hv
  · rw [Search.withPath_of_ne s path hj] at hv
    exact (h.numbered N).visited j v hv

theorem mark {ordinal : UInt32} (marks : List TargetMark)
    (hroom : ordinal.toNat < s.ledger.capacity) (hn : ∀ N, ordinal.toNat < κ N) :
    Accounts x κ d { s with ledger := s.ledger.withMarks ordinal.toNat marks } := by
  refine { h with
    marks := fun n m hm => ?_
    numbered := fun N => { h.numbered N with marks := fun n m hm => ?_ } }
  · rcases BoundedTargetLedger.withMarks_marked.mp hm with hm | ⟨rfl, _⟩
    · exact h.marks n m hm
    · exact hroom
  · rcases BoundedTargetLedger.withMarks_marked.mp hm with hm | ⟨rfl, _⟩
    · exact (h.numbered N).marks n m hm
    · exact hn N

theorem withQueue {queue : List (QueueEntry H)}
    (hqueue : ∀ N, ∀ e ∈ queue, e.stableTargetOrdinal.toNat < κ N) :
    Accounts x κ d { s with queue } :=
  { h with numbered := fun N => { h.numbered N with queue := hqueue N } }

theorem withPending {pending : List (PendingEntry H)}
    (hpending : ∀ N, ∀ e ∈ pending, e.guidance.stableTargetOrdinal.toNat < κ N) :
    Accounts x κ d { s with pending } :=
  { h with numbered := fun N => { h.numbered N with pending := hpending N } }

/-- `n` more targets are charged. -/
theorem charge {n : UInt32} {κ' : x.Counts} (hle : ∀ N, κ N ≤ κ' N)
    (hnew : ∀ N, κ' N ≤ κ N + n.toNat)
    (hn : ∀ _ : x.Numbering, s.optionalTargets.toNat + n.toNat ≤ 4096) :
    Accounts x κ' d { s with optionalTargets := s.optionalTargets + n } := by
  refine { h with numbered := fun N => ?_ }
  have hcounted := (h.numbered N).counted
  have hnew := hnew N
  have hn := hn N
  have hsum : (s.optionalTargets + n).toNat = s.optionalTargets.toNat + n.toNat := by
    rw [UInt32.toNat_add]
    exact Nat.mod_eq_of_lt (by omega)
  exact (h.numbered N).grow (hle N) (by rw [hsum]; omega) (hsum.trans_le hn)

end

/-- An operation is made that the work limit still allows. -/
theorem operate (h : Accounts x κ 0 s) (hwork : s.searchWork < x.workLimit) :
    Accounts x κ 1 { s with operations := s.operations + 1 } :=
  { h with
    operations := Nat.add_le_add_right h.operations 1
    work := UInt64.lt_iff_toNat_lt.mp hwork }

/-- Work that the limit still allows need not be an operation. -/
theorem slack (h : Accounts x κ 0 s) (hwork : s.searchWork < x.workLimit) : Accounts x κ 1 s :=
  { h with
    operations := h.operations.trans (Nat.le_succ _)
    work := UInt64.lt_iff_toNat_lt.mp hwork }

theorem toNat_searchWork_succ (h : Accounts x κ 1 s) :
    (s.searchWork + 1).toNat = s.searchWork.toNat + 1 := by
  have hwork := h.work
  have hlimit := x.workLimit.toNat_lt
  exact Nat.mod_eq_of_lt (by show s.searchWork.toNat + 1 < 2 ^ 64; omega)

theorem countWork (h : Accounts x κ 1 s) :
    Accounts x κ 0 { s with searchWork := s.searchWork + 1 } :=
  { h with
    operations := h.operations.trans_eq h.toNat_searchWork_succ.symm
    work := h.toNat_searchWork_succ.trans_le h.work }

end Accounts

/-- After an ordinal that the ledger has no room for, there is no numbering. -/
theorem Ends.reject (h : Ends x s) {ordinal : UInt32}
    (hroom : ∀ _ : x.Numbering, ordinal.toNat < s.ledger.capacity)
    (hfull : s.ledger.capacity ≤ ordinal.toNat) : Ends x { s with rejected := true } :=
  { h with rejected := fun N => absurd (hroom N) (Nat.not_lt.mpr hfull) }

/-! ## Rules of the small steps -/

/-- The search goes on with `R`, or an exception leaves what `Ends` says. -/
def Keeps (x : Setting τ H C P) {α : Type} (R : α → Search τ H C → Prop) : Post (Search τ H C) α :=
  ⟨R, fun _ t => Ends x t, False⟩

section Keeps

variable {α β : Type} {m : Eff (Search τ H C) α} {f : α → Eff (Search τ H C) β}
  {R R' : α → Search τ H C → Prop} {Q : β → Search τ H C → Prop}

theorem Keeps.mono (h : wp m (Keeps x R) s) (hR : ∀ a t, R a t → R' a t) : wp m (Keeps x R') s :=
  wp_imp h hR

theorem Keeps.bind (h : wp m (Keeps x R) s) (hf : ∀ a t, R a t → wp (f a) (Keeps x Q) t) :
    wp (m >>= f) (Keeps x Q) s := by
  rw [wp_bind]
  exact wp_imp h hf

theorem keeps_call (h : Ends x s) (m : Call τ α) :
    wp (call m) (Keeps x fun a t => ∃ u, m s.program = .ok (a, u) ∧ t = { s with program := u })
      s := by
  unfold wp call
  cases hm : m s.program with
  | error e => exact h
  | ok r => exact ⟨r.2, rfl, rfl⟩

theorem keeps_answer (h : Ends x s) (e : Except Fault α) :
    wp (Eff.answer e) (Keeps x fun a t => t = s ∧ e = .ok a) s :=
  (wp_answer e).mpr ⟨fun _ ha => ⟨rfl, ha⟩, fun _ _ => h⟩

theorem keeps_require (h : Ends x s) (c : Prop) [Decidable c] (e : Fault) :
    wp (Eff.require c e) (Keeps x fun _ t => t = s ∧ c) s :=
  (wp_require c e).mpr ⟨fun _ => h, fun hc => ⟨rfl, hc⟩⟩

theorem keeps_tick : wp (tick x.problem) (Keeps x fun _ t => ∃ m, t = { s with meters := m }) s :=
  ⟨_, rfl⟩

theorem keeps_observeStep (estimate : UInt64) (started : Int) :
    wp (observeStep x.problem estimate started)
      (Keeps x fun _ t => ∃ m, t = { s with meters := m }) s :=
  ⟨_, rfl⟩

theorem keeps_withMeters (f : Meters → Meters) :
    wp (withMeters f) (Keeps x fun _ t => ∃ m, t = { s with meters := m }) s :=
  ⟨_, rfl⟩

theorem keeps_allowWork (operation completion gain : UInt64) (complete eligible : Bool) :
    wp (allowWork x operation completion gain complete eligible)
      (Keeps x fun granted t => (∃ m, t = { s with meters := m }) ∧
        (granted = true → s.searchWork < x.workLimit)) s := by
  unfold allowWork
  rw [wp_get_bind, wp_ite]
  refine ⟨fun _ => ⟨⟨s.meters, rfl⟩, Bool.noConfusion⟩, fun hwork => ?_⟩
  exact ⟨⟨_, rfl⟩, fun _ => UInt64.not_le.mp hwork⟩

theorem keeps_outOfWork :
    wp (outOfWork x) (Keeps x fun _ t => ∃ m, t = { s with meters := m }) s := by
  unfold outOfWork
  rw [wp_get_bind, wp_ite]
  exact ⟨fun _ => ⟨s.meters, rfl⟩, fun _ => ⟨_, rfl⟩⟩

variable {ordinal : UInt32}

theorem noted_of_room (hroom : ordinal.toNat < s.ledger.capacity) :
    { s with rejected := s.rejected || decide (s.ledger.capacity ≤ ordinal.toNat) } = s := by
  rw [decide_eq_false (Nat.not_le.mpr hroom), Bool.or_false]

theorem noted_of_full (hfull : s.ledger.capacity ≤ ordinal.toNat) :
    { s with rejected := s.rejected || decide (s.ledger.capacity ≤ ordinal.toNat) } =
      { s with rejected := true } := by
  rw [decide_eq_true hfull, Bool.or_true]

theorem keeps_targetMarked (h : Ends x s) (mark : TargetMark)
    (hroom : ∀ _ : x.Numbering, ordinal.toNat < s.ledger.capacity) :
    wp (targetMarked ordinal mark) (Keeps x fun b t => t = s ∧ ordinal.toNat < s.ledger.capacity ∧
        b = s.ledger.marked ordinal.toNat mark) s := by
  unfold targetMarked noteOrdinal
  rw [wp_modify_bind]
  by_cases hfull : s.ledger.capacity ≤ ordinal.toNat
  · rw [noted_of_full hfull, wp_get_bind, wp_answer]
    refine ⟨fun b hb => ?_, fun _ _ => h.reject hroom hfull⟩
    exact absurd (BoundedTargetLedger.contains_ok hb).1 (Nat.not_lt.mpr hfull)
  · rw [noted_of_room (Nat.not_le.mp hfull), wp_get_bind, wp_answer]
    exact ⟨fun b hb => ⟨rfl, BoundedTargetLedger.contains_ok hb⟩, fun _ _ => h⟩

theorem keeps_markTarget (h : Ends x s) (marks : List TargetMark)
    (hroom : ∀ _ : x.Numbering, ordinal.toNat < s.ledger.capacity) :
    wp (markTarget ordinal marks)
      (Keeps x fun _ t => t = { s with ledger := s.ledger.withMarks ordinal.toNat marks } ∧
        ordinal.toNat < s.ledger.capacity) s := by
  unfold markTarget noteOrdinal
  rw [wp_modify_bind]
  by_cases hfull : s.ledger.capacity ≤ ordinal.toNat
  · rw [noted_of_full hfull, wp_get_bind, wp_bind, wp_answer]
    refine ⟨fun b hb => ?_, fun _ _ => h.reject hroom hfull⟩
    exact absurd (BoundedTargetLedger.mark_ok hb).1 (Nat.not_lt.mpr hfull)
  · rw [noted_of_room (Nat.not_le.mp hfull), wp_get_bind, wp_bind, wp_answer]
    refine ⟨fun ledger hledger => ?_, fun _ _ => h⟩
    obtain ⟨hlt, rfl⟩ := BoundedTargetLedger.mark_ok hledger
    exact ⟨rfl, hlt⟩

end Keeps

end Materialization

end Ninfer.Planner
