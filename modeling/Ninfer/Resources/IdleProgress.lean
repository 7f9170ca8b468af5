/-
  Progress of an idle manager.

  With no lane active and no transaction open every catalogued owner is inactive. If the root
  candidate is feasible once all of them are released, an inspection should return a choice: the
  planner falls back on the target that releases every owner it knows of. Of eight private owners
  or more publication grace withholds the newest, and a request that needs their pages is blocked.
  A choice comes back exactly when some candidate is usable as it stands or the owners outside
  grace are enough.

  `ProgramContract` collects what the inspection relies on at the Program: its answers pass the
  manager's checks, plans seal, and the maximal target releases the owners it was given.
-/
import Ninfer.Resources.AnyRun

namespace Ninfer.Resources

open Lib Function ResourceManager

/-! ## The contract -/

namespace ResourceManager

/-- The owners of an idle manager. -/
def inactiveOwners (s : ResourceManager) : List CatalogCapability :=
  s.privateOwners.map s.privateCapability ++ s.sharedOwners.map s.sharedCapability

/-- The owners an idle manager hands to the planner. -/
def pressureOwners (s : ResourceManager) : List CatalogCapability :=
  s.pressurePrivate.map s.privateCapability ++ s.pressureShared.map s.sharedCapability

/-- The checkpoints of the owner of a capability. -/
def ownerCheckpoints (s : ResourceManager) (c : CatalogCapability) : List CheckpointRef :=
  if c.owner.kind = .sharedPrefix then [(s.sharedCatalog c.slot).summary.checkpoint.ref]
  else (s.catalog c.slot).summary.checkpoints.map (·.ref)

end ResourceManager

/-- The rows of an outcome name each checkpoint of the owner once and drop as many as the outcome
    says, all of them exactly for an eviction. -/
structure CompleteRows (s : ResourceManager) (c : CatalogCapability)
    (impacts : List PressureCheckpointOutcome) (o : PressureOwnerOutcome) : Prop where
  known : ∀ row ∈ impacts, row.owner = o.owner → row.checkpoint ∈ s.ownerCheckpoints c
  once : ((impacts.filter (·.owner = o.owner)).map (·.checkpoint)).Nodup
  all : (impacts.filter (·.owner = o.owner)).length = (s.ownerCheckpoints c).length
  dropped : ((impacts.filter (·.owner = o.owner)).filter fun row => ¬ row.survives).length =
    o.droppedCheckpoints
  evicted : o.disposition = .evicted ↔ o.droppedCheckpoints = (s.ownerCheckpoints c).length

/-- A target the Program assessed names owners it was given, with complete rows. -/
structure TargetOk (s : ResourceManager) (records : List PlanningOwnerRecord)
    (a : PressureTargetAssessment) : Prop where
  owners : ∀ o ∈ a.ownerOutcomes, ∃ record, records.find? (·.id = o.owner) = some record ∧
    CompleteRows s record.capability a.checkpointImpacts o
  recovery : a.recoveryKnown
  impacts : (a.checkpointImpacts.map fun o => (o.owner, o.checkpoint)).Nodup

/-- The target of the root candidate that releases every owner it was given. -/
structure ReleasesAll (s : ResourceManager) (records : List PlanningOwnerRecord)
    (a : PressureTargetAssessment) : Prop extends TargetOk s records a where
  candidate : a.candidate = 0
  mode : a.sourceMode = .consumeToActive
  released : a.ownerOutcomes.map (·.owner) = records.map (·.id)
  evicted : ∀ o ∈ a.ownerOutcomes, o.disposition = .evicted

/-- The session cell an inspection looks at. -/
def inspectedCell (s : ResourceManager) (base : RequestBasePlan) : Option Nat :=
  if s.cacheEnabled ∧ base.updateSessionIndex then
    base.sessionKey.bind (findSessionCell s.catalogCount s.sessionIndex)
  else none

/-- The candidates an inspection for the lane hands to the planner. -/
def Inspected (s : ResourceManager) (view : PlanningView) (base : RequestBasePlan) (lane : Nat)
    (candidates : List Candidate) : Prop :=
  ∃ root sources, view.inspectAdmission lane none none none false = some root ∧
    Eff.collect (if s.cacheEnabled then s.prefixIndex else [])
      (candidateOf view base lane (inspectedCell s base)) s = .ok sources s ∧
    candidates = { plan := root } :: sources.reduceOption

structure ProgramContract (s : ResourceManager) (view : PlanningView) (base : RequestBasePlan) :
    Prop where
  noTransaction : view.hasContextTransaction = false
  isolated : view.isolatedRequestFeasible = true
  root : ∀ lane, ∃ plan, view.inspectAdmission lane none none none false = some plan
  sources : ∀ lane priv shared c retain plan,
    view.inspectAdmission lane priv shared (some c) retain = some plan →
    plan.reusablePromptTokens ≠ 0 ∧
      (shared.isSome ∨ retain = true → plan.identity.sourceMode = .retain)
  /-- The prepared request has few shared candidates, each with its rebuild work. -/
  prepared : (base.opportunities.filter (·.kind = .sharedStablePrefix)).length ≤ 7 ∧
    ∀ o ∈ base.opportunities, base.hasRebuildWork o.frontier = true
  maximal : ∀ owners, owners.Sublist s.inactiveOwners → ReleasesAll s (ownerRecords owners)
      (view.rootMaximalTarget (ownerRecords owners))
  /-- With every inactive owner released the root candidate is feasible. -/
  feasible : (view.rootMaximalTarget (ownerRecords s.inactiveOwners)).physicalStatus = .feasible
  search : ∀ lane candidates, Inspected s view base lane candidates →
    ∀ owners, owners.Sublist s.inactiveOwners → ∀ a ∈ view.search (ownerRecords owners),
        a.candidate < candidates.length ∧ TargetOk s (ownerRecords owners) a
  identity : ∀ lane candidates, Inspected s view base lane candidates →
    ∀ records (i : Nat) c, candidates[i]? = some c → c.plan.identity.physicalStatus = .feasible →
      (view.assessIdentity records i).candidate = i ∧
        (view.assessIdentity records i).physicalStatus = .feasible
  seals : (∀ i frontiers, (view.sealIdentity i frontiers).isSome) ∧
    ∀ i outcomes frontiers, (view.sealTarget i outcomes frontiers).isSome

/-! ## Idle managers -/

/-- No lane is active and no transaction is open. -/
structure Idle (s : ResourceManager) : Prop where
  transaction : s.transaction = .none
  lanes : ∀ l < s.laneCount, (s.active l).occupied = false

variable {s : ResourceManager} {log : List Nat} {m : Nat} {view : PlanningView}
  {base : RequestBasePlan}

section

variable (h : Idle s)

include h

theorem Idle.no_edge (j : Nat) : s.privateHasActiveEdge j = false := by
  unfold privateHasActiveEdge
  simp only [List.any_eq_false, List.mem_range, decide_eq_true_eq, not_and]
  intro l hl ho
  simp [h.lanes l hl] at ho

theorem Idle.no_shared_edge (j : Nat) : s.sharedActiveEdgeCount j = 0 := by
  refine List.sum_eq_zero fun x hx => ?_
  obtain ⟨l, hl, rfl⟩ := List.mem_map.mp hx
  simp [h.lanes l (List.mem_range.mp hl)]

theorem Idle.sharedIdle (hs : Sound s {}) {j : Nat} (hj : j < s.sharedCatalogCount) :
    s.SharedIdle j :=
  ⟨(hs.shared j hj).unpinned id, h.no_shared_edge j⟩

/-- Every lane is free. -/
theorem Idle.free (hinv : Invariant s log) {l : Nat} (hl : l < s.laneCount) :
    s.lanes l = .free := by
  have hocc := h.lanes l hl
  cases hst : s.lanes l with
  | free => rfl
  | active => simp [hinv.lanes.running l hl (.inl hst)] at hocc
  | terminalPending => simp [hinv.lanes.running l hl (.inr hst)] at hocc
  | materializing =>
    obtain ⟨r, hr, _⟩ := hinv.lanes.materializing l hl hst
    rw [h.transaction] at hr
    simp at hr

theorem Idle.eligible : s.eligibleOwners = s.privateOwners := by
  refine List.filter_eq_self.mpr fun j _ => ?_
  simp [h.no_edge j]

theorem Idle.pressureShared (hs : Sound s {}) : s.pressureShared = s.sharedOwners := by
  refine List.filter_eq_self.mpr fun j hj => ?_
  have hlt : j < s.sharedCatalogCount := List.mem_range.mp (List.mem_filter.mp hj).1
  simpa using h.sharedIdle hs hlt

/-- With few owners none is in publication grace. -/
theorem Idle.pressurePrivate_of_few
    (hfew : s.privateOwners.length < publicationGraceMinimumOwners) :
    s.pressurePrivate = s.privateOwners := by
  have hgrace : s.publicationGrace = [] := by
    unfold publicationGrace
    rw [h.eligible, if_pos hfew]
  unfold pressurePrivate privateInPublicationGrace
  rw [h.eligible, hgrace]
  exact List.filter_eq_self.mpr fun _ _ => by simp

/-- With eight owners or more publication grace withholds up to six of them. -/
theorem Idle.length_pressurePrivate
    (hmany : publicationGraceMinimumOwners ≤ s.privateOwners.length) :
    s.pressurePrivate.length = s.privateOwners.length -
      min publicationGraceOwners (s.privateOwners.length - 2) := by
  have hnodup : s.privateOwners.Nodup := List.nodup_range.filter _
  obtain ⟨sorted, hperm, hgrace⟩ : ∃ sorted : List Nat, sorted.Perm s.privateOwners ∧
    s.publicationGrace = sorted.take (min publicationGraceOwners (s.privateOwners.length - 2)) := by
    unfold publicationGrace
    rw [h.eligible, if_neg (Nat.not_lt.mpr hmany)]
    exact ⟨_, List.mergeSort_perm _ _, rfl⟩
  generalize min publicationGraceOwners (s.privateOwners.length - 2) = k at hgrace ⊢
  have hdisj : (sorted.take k).Disjoint (sorted.drop k) := by
    have hsorted := hperm.nodup_iff.mpr hnodup
    rw [← List.take_append_drop k sorted] at hsorted
    exact List.disjoint_of_nodup_append hsorted
  have hkeep : (sorted.filter fun j => ¬ s.privateInPublicationGrace j) = sorted.drop k := by
    conv_lhs => rw [← List.take_append_drop k sorted]
    unfold privateInPublicationGrace
    rw [List.filter_append, hgrace, List.filter_eq_nil_iff.mpr, List.filter_eq_self.mpr,
      List.nil_append]
    · exact fun j hj => by simpa using fun hmem => hdisj hmem hj
    · exact fun j hj => by simpa using hj
  unfold pressurePrivate
  rw [h.eligible, ← (hperm.filter _).length_eq, hkeep, List.length_drop, hperm.length_eq]

/-- Grace never withholds the last private owner. -/
theorem Idle.exists_pressurePrivate {j : Nat} (hj : j ∈ s.privateOwners) :
    ∃ i, i ∈ s.pressurePrivate := by
  rcases Nat.lt_or_ge s.privateOwners.length publicationGraceMinimumOwners with hfew | hmany
  · rw [h.pressurePrivate_of_few hfew]
    exact ⟨j, hj⟩
  · rw [← List.length_pos_iff_exists_mem, h.length_pressurePrivate hmany]
    unfold publicationGraceMinimumOwners at hmany
    omega

end

theorem pressureRecords_eq (s : ResourceManager) :
    s.pressureRecords = ownerRecords s.pressureOwners := rfl

theorem pressureOwners_sublist (s : ResourceManager) :
    s.pressureOwners.Sublist s.inactiveOwners := by
  refine List.Sublist.append (List.Sublist.map _ ?_) (List.Sublist.map _ ?_)
  · exact List.filter_sublist.trans List.filter_sublist
  · exact List.filter_sublist

/-! ## The logical goal of the maximal target -/

variable {l owners : List CatalogCapability} {r : PlanningOwnerRecord} {o : PressureOwnerOutcome}
  {root : AdmissionCandidate} {records : List PlanningOwnerRecord} {a : PressureTargetAssessment}
  {c : CatalogCapability} {candidates sources : List Candidate} {lane order n : Nat}
  {impacts : List PressureCheckpointOutcome}

theorem mem_ownerRecords (h : r ∈ ownerRecords l) : r.capability ∈ l := by
  obtain ⟨⟨c, i⟩, hmem, rfl⟩ := List.mem_map.mp h
  exact List.mem_of_getElem? (List.mk_mem_zipIdx_iff_getElem?.mp hmem)

theorem ids_ownerRecords (l : List CatalogCapability) :
    (ownerRecords l).map (·.id) = List.range l.length := by
  unfold ownerRecords
  rw [List.map_map, List.range_eq_range', ← List.zipIdx_map_snd 0 l]
  rfl

theorem nodup_ids (l : List CatalogCapability) : ((ownerRecords l).map (·.id)).Nodup := by
  rw [ids_ownerRecords]
  exact List.nodup_range

theorem length_ownerRecords (l : List CatalogCapability) : (ownerRecords l).length = l.length := by
  simp [ownerRecords]

/-- A record is found by its id. -/
theorem find_ownerRecords (h : r ∈ ownerRecords l) :
    (ownerRecords l).find? (·.id = r.id) = some r := by
  have hsome : ((ownerRecords l).find? (·.id = r.id)).isSome :=
    List.find?_isSome.mpr ⟨r, h, decide_eq_true rfl⟩
  obtain ⟨r', hr'⟩ := Option.isSome_iff_exists.mp hsome
  have hid : r'.id = r.id := by simpa using List.find?_some hr'
  rw [hr', List.inj_on_of_nodup_map (nodup_ids l) (List.mem_of_find?_eq_some hr') h hid]

/-- The owner of an inactive record can be released for the root candidate. -/
theorem Idle.goalOwner (h : Idle s) (hs : Sound s {}) {record : PlanningOwnerRecord}
    (hsub : owners.Sublist s.inactiveOwners)
    (hfind : (ownerRecords owners).find? (·.id = o.owner) = some record) :
    s.goalOwner (ownerRecords owners) { plan := root } o = some record := by
  have hmem := hsub.subset (mem_ownerRecords (List.mem_of_find?_eq_some hfind))
  unfold ResourceManager.goalOwner
  rw [hfind, Option.filter_some, if_pos]
  rcases List.mem_append.mp hmem with hc | hc
  · obtain ⟨j, hj, hj'⟩ := List.mem_map.mp hc
    obtain ⟨hlt, hst⟩ := List.mem_filter.mp hj
    rw [← hj']
    have hst' : (s.catalog j).state = .catalogued ∧ (s.catalog j).handle.isSome := by
      simpa using hst
    simp [privateCapability, List.mem_range.mp hlt, hst'.1, hst'.2, h.no_edge j]
  · obtain ⟨j, hj, hj'⟩ := List.mem_map.mp hc
    obtain ⟨hlt, hst⟩ := List.mem_filter.mp hj
    rw [← hj']
    have hst' : (s.sharedCatalog j).state = .catalogued ∧ (s.sharedCatalog j).handle.isSome := by
      simpa using hst
    have hidle := h.sharedIdle hs (List.mem_range.mp hlt)
    simp [sharedCapability, List.mem_range.mp hlt, hst'.1, hst'.2, hidle.1, hidle.2]

theorem goalSlot_isSome {candidate : Candidate} {outcomes : List PressureOwnerOutcome}
    {slot : Option Nat}
    (hown : ∀ o ∈ outcomes, ∃ record, s.goalOwner records candidate o = some record)
    (hnodup : (outcomes.map (·.owner)).Nodup)
    (hgives : slot.isSome ∨
      ∃ o ∈ outcomes, ∃ record, s.goalOwner records candidate o = some record ∧
      record.capability.owner.kind = .privateContinuation ∧ o.disposition = .evicted) :
    (s.goalSlot records candidate slot outcomes).isSome := by
  induction outcomes generalizing slot with
  | nil => simpa [goalSlot] using hgives
  | cons o rest ih =>
    obtain ⟨record, hrec⟩ := hown o (by simp)
    rw [List.map_cons, List.nodup_cons] at hnodup
    have hlast : rest.any (·.owner = o.owner) = false := by
      simp only [List.any_eq_false, decide_eq_true_eq]
      exact fun p hp heq => hnodup.1 (List.mem_map.mpr ⟨p, hp, heq⟩)
    unfold goalSlot
    rw [hrec]
    simp only [hlast, Bool.false_eq_true, if_false]
    refine ih (fun p hp => hown p (by simp [hp])) hnodup.2 ?_
    rcases hgives with hslot | ⟨p, hp, record', hrec', hkind, hev⟩
    · left
      split
      · rfl
      · exact hslot
    · rcases List.mem_cons.mp hp with rfl | hp
      · left
        obtain rfl := Option.mem_unique hrec hrec'
        cases slot with
        | none => simp [hkind, hev]
        | some j => simp
      · exact .inr ⟨p, hp, record', hrec', hkind, hev⟩

/-- In an idle manager a private slot is vacant or has an owner to release. -/
theorem Idle.vacant_or_owner (h : Idle s) (hs : Sound s {}) (hsize : 0 < s.catalogCount) :
    s.firstVacant.isSome ∨ ∃ j, j ∈ s.privateOwners := by
  have hslot := hs.priv 0 hsize
  cases hst : (s.catalog 0).state with
  | vacant =>
    left
    unfold firstVacant
    rw [List.find?_isSome]
    exact ⟨0, List.mem_range.mpr hsize, by simp [hst]⟩
  | catalogued =>
    right
    refine ⟨0, List.mem_filter.mpr ⟨List.mem_range.mpr hsize, ?_⟩⟩
    simpa [hst] using (hslot.catalogued hst).2
  | claimed => exact (hslot.claimed.mp hst).elim
  | reservedForActive =>
    obtain ⟨l, hl, ho, _⟩ := hslot.reserved.mp hst
    simp [h.lanes l hl] at ho

/-- A private owner is released with its slot. -/
theorem ReleasesAll.gives_slot (ha : ReleasesAll s (ownerRecords owners) a)
    (hc : c ∈ owners) : ∃ o ∈ a.ownerOutcomes, ∃ record,
      (ownerRecords owners).find? (·.id = o.owner) = some record ∧
      record.capability = c ∧ o.disposition = .evicted := by
  obtain ⟨i, hi⟩ := List.mem_iff_getElem?.mp hc
  have hrec : (⟨i, c⟩ : PlanningOwnerRecord) ∈ ownerRecords owners :=
    List.mem_map.mpr ⟨(c, i), List.mk_mem_zipIdx_iff_getElem?.mpr hi, rfl⟩
  have hid : i ∈ a.ownerOutcomes.map (·.owner) := by
    rw [ha.released]
    exact List.mem_map.mpr ⟨_, hrec, rfl⟩
  obtain ⟨o, ho, rfl⟩ := List.mem_map.mp hid
  exact ⟨o, ho, _, find_ownerRecords hrec, rfl, ha.evicted o ho⟩

theorem Idle.maximal_goal (h : Idle s) (hs : Sound s {}) (hsize : 0 < s.catalogCount)
    (root : AdmissionCandidate) (sources : List Candidate)
    (ha : ReleasesAll s s.pressureRecords a) (hf : a.physicalStatus = .feasible) :
    ∃ slot, assessmentGoal s s.pressureRecords ({ plan := root } :: sources) a = some slot := by
  have hsub := pressureOwners_sublist s
  rw [pressureRecords_eq] at ha ⊢
  rw [← Option.isSome_iff_exists]
  unfold assessmentGoal
  simp only [hf, if_true, ha.candidate, List.getElem?_cons_zero]
  simp only [ha.mode]
  refine goalSlot_isSome (fun o ho => ?_) ?_ ?_
  · obtain ⟨record, hfind, _⟩ := ha.owners o ho
    exact ⟨record, h.goalOwner hs hsub hfind⟩
  · rw [ha.released]
    exact nodup_ids _
  · rcases h.vacant_or_owner hs hsize with hv | ⟨j, hj⟩
    · exact .inl hv
    · obtain ⟨i, hi⟩ := h.exists_pressurePrivate hj
      have hmem : s.privateCapability i ∈ s.pressureOwners :=
        List.mem_append_left _ (List.mem_map.mpr ⟨i, hi, rfl⟩)
      obtain ⟨o, ho, record, hfind, hcap, hev⟩ := ha.gives_slot hmem
      refine .inr ⟨o, ho, record, h.goalOwner hs hsub hfind, ?_, hev⟩
      rw [hcap]
      rfl

/-! ## The checks of an inspection pass -/

theorem Fitted.prefixIndex_length (h : Fitted m s) :
    s.prefixIndex.length ≤ s.prefixIndexCapacity := by
  have hpriv : s.privateOwners.length ≤ s.catalogCount :=
    (List.length_filter_le _ _).trans_eq List.length_range
  have hshared : s.sharedOwners.length ≤ s.sharedCatalogCount :=
    (List.length_filter_le _ _).trans_eq List.length_range
  have hrows : ((s.privateOwners.flatMap fun j =>
      (s.catalog j).summary.checkpoints.map (s.privateIndexEntry j))).length ≤
        s.privateOwners.length * (s.maxLongAnchors + 2) := by
    rw [List.length_flatMap]
    refine (List.sum_le_card_nsmul _ (s.maxLongAnchors + 2) fun n hn => ?_).trans (by simp)
    obtain ⟨j, _, rfl⟩ := List.mem_map.mp hn
    have hanchors := (h.observed j).1
    have hall := length_checkpoints_le (s.catalog j).summary
    rw [List.length_map, h.anchors]
    omega
  have hmul := Nat.mul_le_mul_right (s.maxLongAnchors + 2) hpriv
  unfold prefixIndex prefixIndexCapacity
  rw [List.length_append, List.length_map]
  omega

theorem returns_rebuildPrefixIndex (h : Fitted m s) :
    Returns rebuildPrefixIndex s fun i => i = s.prefixIndex := by
  refine .get_bind ?_
  exact (Returns.require h.prefixIndex_length _).bind fun _ _ => Returns.pure rfl

theorem Fitted.pressureObserved (h : Fitted m s) : s.pressureObserved = true := by
  unfold ResourceManager.pressureObserved
  simp only [List.all_eq_true]
  exact fun j _ c hc => (h.observed j).2 c hc

theorem returns_candidateOf (h : ProgramContract s view base) (lane : Nat) (cell : Option Nat)
    (i : PrefixIndexEntry) : Returns (candidateOf view base lane cell i) s fun _ => True := by
  refine .get_bind ?_
  split
  · exact .pure trivial
  · next hvalid =>
    split
    · next hshared =>
      split
      · exact .pure trivial
      · next plan hplan =>
        have hhandle : (s.sharedCatalog i.slot).handle.isSome := by
          have hv : s.validPrefixIndexEntry i = true := by simpa using (not_or.mp hvalid).1
          unfold validPrefixIndexEntry at hv
          rw [if_pos hshared] at hv
          exact (of_decide_eq_true hv).2.2.1
        have hp := h.sources lane _ _ _ _ plan hplan
        exact (Returns.require ⟨hp.1, hp.2 (Or.inl hhandle)⟩ _).bind fun _ _ => Returns.pure trivial
    · split
      · exact .pure trivial
      · dsimp only
        split
        · exact .pure trivial
        · next plan hplan =>
          have hp := h.sources lane _ _ _ _ plan hplan
          exact (Returns.require ⟨hp.1, fun hr => hp.2 (Or.inr hr)⟩ _).bind fun _ _ =>
            .pure trivial

theorem ProgramContract.exists_sources (h : ProgramContract s view base) (lane : Nat) :
    ∃ sources, Eff.collect (if s.cacheEnabled then s.prefixIndex else [])
      (candidateOf view base lane (inspectedCell s base)) s = .ok sources s := by
  obtain ⟨sources, hsources, _⟩ := (Returns.collect (Q := fun _ => True) fun i _ =>
    returns_candidateOf h lane (inspectedCell s base) i).exists
  exact ⟨sources, hsources⟩

theorem returns_finalSchedule (h : ProgramContract s view base) (candidate : Candidate)
    (demand : PrefixDemandRecord) :
    Returns (finalSchedule view base candidate demand) s fun _ => True := by
  refine .get_bind ?_
  have hsub : (s.sharedCaptureCandidates base candidate demand).Sublist
      (base.opportunities.filter (·.kind = .sharedStablePrefix)) := by
    exact List.monotone_filter_right _ fun o ho => by
      simp only [decide_eq_true_eq] at ho ⊢
      exact ho.1
  have hwork : ((s.sharedCaptureCandidates base candidate demand).map (·.frontier)).all
      base.hasRebuildWork = true := by
    simp only [List.all_eq_true, List.mem_map, forall_exists_index, and_imp]
    rintro f o ho rfl
    exact h.prepared.2 o (List.mem_of_mem_filter (hsub.subset ho))
  have hfew : ((s.sharedCaptureCandidates base candidate demand).map (·.frontier)).length ≤ 7 := by
    rw [List.length_map]
    exact hsub.length_le.trans h.prepared.1
  exact (Returns.require hwork _).bind fun _ _ => (Returns.require hfew _).bind fun _ _ =>
    .pure trivial

theorem returns_foldAssessment (h : TargetOk s records a) :
    Returns (foldAssessment records a) s fun _ => True := by
  have howners : ∀ o ∈ a.ownerOutcomes, records.any (·.id = o.owner) = true := fun o ho => by
    obtain ⟨record, hfind, _⟩ := h.owners o ho
    have hid := List.find?_some hfind
    exact List.any_eq_true.mpr ⟨record, List.mem_of_find?_eq_some hfind, hid⟩
  exact (Returns.require howners _).bind fun _ _ => (Returns.require h.recovery _).bind fun _ _ =>
    .require h.impacts _

/-! ## The incumbent can be sealed -/

/-- The incumbent is a candidate, feasible as it stands if it was not assessed, and its outcomes
    are of owners the planner was given, with complete rows. -/
structure Incumbent.Sealable (s : ResourceManager) (records : List PlanningOwnerRecord)
    (candidates : List Candidate) (i : Incumbent) : Prop where
  named : ∃ c, candidates[i.candidate]? = some c ∧
    (i.assessed = false → c.plan.identity.physicalStatus = .feasible)
  owners : ∀ o ∈ i.ownerOutcomes, ∃ record, records.find? (·.id = o.owner) = some record ∧
    CompleteRows s record.capability i.checkpointOutcomes o

/-- The sealed plan names a candidate, and its outcomes can be claimed. -/
structure Planned.Claimable (s : ResourceManager) (candidates : List Candidate) (p : Planned) :
    Prop where
  named : ∃ c, candidates[p.candidate]? = some c
  owners : ∀ o ∈ p.ownerOutcomes, ∃ record, s.pressureRecords.find? (·.id = o.owner) = some record ∧
    CompleteRows s record.capability p.checkpointOutcomes o

theorem identityBest_sealable (records : List PlanningOwnerRecord) (candidates : List Candidate) :
    ∀ best, identityBest s candidates = some best →
      best.Sealable s records candidates ∧ best.ownerOutcomes = [] := by
  refine identityBest_rule fun c i slot hc hgoal => ⟨⟨⟨c, hc, fun _ => ?_⟩, by simp⟩, rfl⟩
  unfold identityGoal at hgoal
  split at hgoal
  · assumption
  · simp at hgoal

theorem TargetOk.sealable (h : TargetOk s records a) (slot : Nat)
    (hc : a.candidate < candidates.length) : (makeIncumbent a slot).Sealable s records candidates :=
  ⟨⟨candidates[a.candidate], List.getElem?_eq_getElem hc, fun hf => by simp [makeIncumbent] at hf⟩,
    h.owners⟩

/-- Some candidate is usable as it stands, or the maximal target over the owners outside grace is
    feasible. -/
def Usable (s : ResourceManager) (view : PlanningView) (candidates : List Candidate) : Prop :=
  (∃ c ∈ candidates, (identityGoal s c).isSome) ∨
    (view.rootMaximalTarget s.pressureRecords).physicalStatus = .feasible

/-- Without a feasible candidate the planner starts from the maximal target. -/
theorem Idle.returns_startIncumbent (h : Idle s) (hs : Sound s {}) (hsize : 0 < s.catalogCount)
    (hview : ProgramContract s view base) (hu : Usable s view ({ plan := root } :: sources)) :
    Returns (startIncumbent view ({ plan := root } :: sources) s.pressureRecords) s fun o =>
      ∃ i, o = some i ∧ i.Sealable s s.pressureRecords ({ plan := root } :: sources) := by
  refine Returns.get_bind ?_
  split
  · next best hbest =>
    exact Returns.pure ⟨best, rfl, (identityBest_sealable _ _ best hbest).1⟩
  · next hnone =>
    have hmax := hview.maximal _ (pressureOwners_sublist s)
    rw [← pressureRecords_eq] at hmax
    have hfeasible : (view.rootMaximalTarget s.pressureRecords).physicalStatus = .feasible :=
      hu.resolve_left fun ⟨c, hc, hgoal⟩ => by simp [identityBest_eq_none.mp hnone c hc] at hgoal
    obtain ⟨slot, hslot⟩ := h.maximal_goal hs hsize root sources hmax hfeasible
    refine (Returns.require hmax.candidate _).bind fun _ _ => ?_
    rw [hslot]
    refine (returns_foldAssessment hmax.toTargetOk).bind fun _ _ => Returns.pure ⟨_, rfl, ?_⟩
    exact hmax.toTargetOk.sealable slot (by simp [hmax.candidate])

theorem returns_searchTargets {targets : List PressureTargetAssessment} {incumbent : Incumbent}
    (ht : ∀ a ∈ targets, a.candidate < candidates.length ∧ TargetOk s records a)
    (h : incumbent.Sealable s records candidates) :
    Returns (searchTargets candidates records targets incumbent) s fun i =>
      i.Sealable s records candidates := by
  induction targets generalizing incumbent with
  | nil => exact Returns.pure h
  | cons a rest ih =>
    obtain ⟨hc, hok⟩ := ht a (by simp)
    have hrest := fun b hb => ht b (List.mem_cons_of_mem a hb)
    refine Returns.get_bind ?_
    refine (Returns.require hc _).bind fun _ _ => (returns_foldAssessment hok).bind fun _ _ => ?_
    split
    · exact ih hrest h
    · next slot _ =>
      split
      · exact ih hrest (hok.sealable slot hc)
      · exact ih hrest h

theorem returns_sealIncumbent {incumbent : Incumbent} (hview : ProgramContract s view base)
    (hcand : Inspected s view base lane candidates) (demand : PrefixDemandRecord)
    (h : incumbent.Sealable s s.pressureRecords candidates) :
    Returns (sealIncumbent view base candidates demand s.pressureRecords incumbent) s fun o =>
      ∃ p, o = some p ∧ p.Claimable s candidates := by
  obtain ⟨c, hc, hfeasible⟩ := h.named
  have hexact : incumbent.assessed = true ∨
      ((view.assessIdentity s.pressureRecords incumbent.candidate).candidate = incumbent.candidate ∧
      (view.assessIdentity s.pressureRecords incumbent.candidate).physicalStatus = .feasible) := by
    cases ha : incumbent.assessed with
    | true => exact Or.inl rfl
    | false => exact Or.inr (hview.identity lane candidates hcand _ _ c hc (hfeasible ha))
  refine (Returns.require hexact _).bind fun _ _ => (Returns.deref hc).bind fun d _ =>
    (returns_finalSchedule hview d demand).bind fun frontiers _ => ?_
  obtain ⟨plan, hplan⟩ := Option.isSome_iff_exists.mp
    (hview.seals.2 incumbent.candidate incumbent.ownerOutcomes frontiers)
  rw [hplan]
  exact Returns.pure ⟨_, rfl, ⟨c, hc⟩, h.owners⟩

theorem returns_sealIdentityBest {best : Incumbent} (hview : ProgramContract s view base)
    (demand : PrefixDemandRecord) (h : best.Sealable s s.pressureRecords candidates) :
    Returns (sealIdentityBest view base candidates demand best) s fun o =>
      ∃ p, o = some p ∧ p.Claimable s candidates := by
  obtain ⟨c, hc, _⟩ := h.named
  refine (Returns.deref hc).bind fun d _ =>
    (returns_finalSchedule hview d demand).bind fun frontiers _ => ?_
  obtain ⟨plan, hplan⟩ := Option.isSome_iff_exists.mp (hview.seals.1 best.candidate frontiers)
  rw [hplan]
  exact Returns.pure ⟨_, rfl, ⟨c, hc⟩, by simp⟩

/-- What an idle manager plans with. -/
structure Plannable (s : ResourceManager) (log : List Nat) (m : Nat) : Prop where
  idle : Idle s
  inv : Invariant s log
  fitted : Fitted m s

theorem Plannable.sound (h : Plannable s log m) : Sound s {} := by
  have hs := h.inv.sound
  unfold holding at hs
  rwa [h.idle.transaction] at hs

theorem Plannable.returns_planUnderPressure (h : Plannable s log m)
    (hview : ProgramContract s view base)
    (hcand : Inspected s view base lane ({ plan := root } :: sources))
    (hu : Usable s view ({ plan := root } :: sources)) (demand : PrefixDemandRecord) :
    Returns (planUnderPressure view base ({ plan := root } :: sources) demand) s fun o =>
      ∃ p, o = some p ∧ p.Claimable s ({ plan := root } :: sources) := by
  refine Returns.get_bind ?_
  refine (Returns.require h.fitted.pressureObserved _).bind fun _ _ => ?_
  refine (h.idle.returns_startIncumbent h.sound h.inv.size hview hu).bind ?_
  rintro _ ⟨i, rfl, hi⟩
  have htargets := hview.search lane _ hcand _ (pressureOwners_sublist s)
  refine (returns_searchTargets htargets hi).bind fun i' hi' => ?_
  exact returns_sealIncumbent hview hcand demand hi'

theorem Plannable.returns_planTarget (h : Plannable s log m)
    (hview : ProgramContract s view base)
    (hcand : Inspected s view base lane ({ plan := root } :: sources))
    (hu : Usable s view ({ plan := root } :: sources)) (demand : PrefixDemandRecord) :
    Returns (planTarget view base ({ plan := root } :: sources) demand) s fun o =>
      ∃ p, o = some p ∧ p.Claimable s ({ plan := root } :: sources) := by
  refine .get_bind ?_
  split
  · next best hbest =>
    split
    · exact returns_sealIdentityBest hview demand (identityBest_sealable _ _ best hbest).1
    · exact h.returns_planUnderPressure hview hcand hu demand
  · exact h.returns_planUnderPressure hview hcand hu demand

/-! ## The choice -/

theorem returns_selectedCheckpointDrops (h : CompleteRows s c impacts o) {count : Nat}
    {contains : CheckpointRef → Bool} (hcount : count = (s.ownerCheckpoints c).length)
    (hcontains : ∀ r ∈ s.ownerCheckpoints c, contains r = true) :
    Returns (selectedCheckpointDrops o.owner o.disposition o.droppedCheckpoints impacts count
      contains) s fun _ => True := by
  have hrows : (impacts.filter (·.owner = o.owner)).all (fun row => contains row.checkpoint) ∧
      ((impacts.filter (·.owner = o.owner)).map (·.checkpoint)).Nodup := by
    refine ⟨List.all_eq_true.mpr fun row hrow => ?_, h.once⟩
    obtain ⟨hmem, howner⟩ := List.mem_filter.mp hrow
    exact hcontains _ (h.known row hmem (by simpa using howner))
  have hdropped : (((impacts.filter (·.owner = o.owner)).filter fun row => ¬ row.survives).map
      (·.checkpoint)).length = o.droppedCheckpoints := by
    rw [List.length_map]
    exact h.dropped
  have hcomplete : ¬ ((impacts.filter (·.owner = o.owner)).length ≠ count ∨
      (((impacts.filter (·.owner = o.owner)).filter fun row => ¬ row.survives).map
        (·.checkpoint)).length ≠ o.droppedCheckpoints ∨
      ¬ (o.disposition = .evicted ↔ (((impacts.filter (·.owner = o.owner)).filter fun row =>
        ¬ row.survives).map (·.checkpoint)).length = count)) := by
    rw [hdropped, hcount]
    simp [h.all, h.evicted]
  unfold selectedCheckpointDrops Returns
  simp only [wp_bind, wp_when, wp_raise, wp_pure]
  exact ⟨fun hn => absurd hrows hn, fun _ => ⟨fun hn => absurd hn hcomplete,
    fun _ => ⟨trivial, trivial⟩⟩⟩

theorem returns_ownerClaim (h : CompleteRows s c impacts o) :
    Returns (ownerClaim c impacts o) s fun _ => True := by
  have hdrops : Returns (ownerDrops c impacts o) s fun _ => True := by
    refine .get_bind ?_
    split
    · next hk =>
      exact returns_selectedCheckpointDrops h (by simp [ownerCheckpoints, hk])
        (by simp [ownerCheckpoints, hk])
    · next hk =>
      refine returns_selectedCheckpointDrops h
        (by simp [ownerCheckpoints, hk, continuationCheckpointCount]) fun r hr => ?_
      simpa [ownerCheckpoints, hk, continuationContainsCheckpoint] using hr
  exact hdrops.bind fun _ _ => .pure trivial

theorem Plannable.returns_planMaterialization (h : Plannable s log m)
    (hview : ProgramContract s view base)
    (hcand : Inspected s view base lane ({ plan := root } :: sources))
    (hu : Usable s view ({ plan := root } :: sources)) (order : Nat)
    (demand : PrefixDemandRecord) :
    Returns (planMaterialization view base lane ({ plan := root } :: sources) order demand) s
      fun o => ∃ choice, o = some choice := by
  refine Returns.get_bind ?_
  refine (h.returns_planTarget hview hcand hu demand).bind ?_
  rintro _ ⟨p, rfl, hp⟩
  obtain ⟨c, hc⟩ := hp.named
  refine (Returns.deref hc).bind fun d _ => ?_
  refine (Returns.collect (Q := fun _ => True) fun o ho => ?_).bind fun claims _ =>
    Returns.pure ⟨_, rfl⟩
  obtain ⟨record, hfind, hrows⟩ := hp.owners o ho
  unfold outcomeClaim
  rw [hfind]
  exact returns_ownerClaim hrows

/-- An inspection gets to the planner with lane 0, the first one that is free, and returns what
    the planner makes of it. -/
theorem Plannable.returns_inspect (h : Plannable s log m) (hview : ProgramContract s view base)
    (ho : order ≠ 0) {Q : Option Choice → Prop}
    (hplan : ∀ root sources demand, Inspected s view base 0 ({ plan := root } :: sources) →
      Returns (planMaterialization view base 0 ({ plan := root } :: sources) order demand) s Q) :
    Returns (inspect view base order) s fun i => ∃ o, i = inspectionOf o ∧ Q o := by
  have hlane : (List.range s.laneCount).find? (fun l => s.lanes l = .free) = some 0 := by
    obtain ⟨n, hn⟩ := Nat.exists_eq_succ_of_ne_zero h.fitted.lanes.ne'
    rw [hn, List.range_succ_eq_map]
    exact List.find?_cons_of_pos (by simpa using h.idle.free h.inv h.fitted.lanes)
  obtain ⟨root, hroot⟩ := hview.root 0
  refine Returns.get_bind ?_
  rw [if_neg (by simp [h.idle.transaction, hview.noTransaction])]
  refine (Returns.require ho _).bind fun _ _ => ?_
  rw [if_neg (by simp [hview.isolated]), hlane]
  refine (returns_rebuildPrefixIndex h.fitted).bind fun index hindex => ?_
  subst hindex
  rw [hroot]
  obtain ⟨sources, hsources⟩ := hview.exists_sources 0
  refine Returns.bind (Q := fun l => l = sources) ?_ fun l hl => ?_
  · unfold Returns wp
    have hcells := hsources
    unfold inspectedCell at hcells
    rw [hcells]
    exact ⟨rfl, rfl⟩
  · subst hl
    refine (hplan root l.reduceOption _ ⟨root, l, hroot, hsources, rfl⟩).bind fun o hq => ?_
    exact Returns.pure ⟨o, rfl, hq⟩

/-! ## Blocked by publication grace -/

/-- Nothing is feasible as it stands, nor with the owners under pressure released. -/
theorem Plannable.returns_none (h : Plannable s log m) (hview : ProgramContract s view base)
    (hu : ¬ Usable s view ({ plan := root } :: sources)) (order : Nat)
    (demand : PrefixDemandRecord) :
    Returns (planMaterialization view base lane ({ plan := root } :: sources) order demand) s
      fun o => o = none := by
  have hnone : identityBest s ({ plan := root } :: sources) = none :=
    identityBest_eq_none.mpr fun c hc => by
      simpa using fun hgoal => hu (.inl ⟨c, hc, hgoal⟩)
  have hgoal : assessmentGoal s s.pressureRecords ({ plan := root } :: sources)
      (view.rootMaximalTarget s.pressureRecords) = none := by
    unfold assessmentGoal
    rw [if_neg fun hf => hu (.inr hf)]
  have hcandidate : (view.rootMaximalTarget s.pressureRecords).candidate = 0 :=
    (hview.maximal _ (pressureOwners_sublist s)).candidate
  unfold planMaterialization planTarget planUnderPressure startIncumbent Returns
  simp [hnone, h.fitted.pressureObserved, hcandidate, hgoal]

theorem Inspected.unique {candidates' : List Candidate}
    (h : Inspected s view base lane candidates) (h' : Inspected s view base lane candidates') :
    candidates = candidates' := by
  obtain ⟨root, sources, hroot, hsources, rfl⟩ := h
  obtain ⟨root', sources', hroot', hsources', rfl⟩ := h'
  obtain rfl := Option.some.inj (hroot.symm.trans hroot')
  obtain ⟨rfl, _⟩ := Outcome.ok.inj (hsources.symm.trans hsources')
  rfl

/-- An inspection that gets to the planner has a choice exactly when the candidates are usable. -/
theorem Plannable.inspect_iff (h : Plannable s log m) (hview : ProgramContract s view base)
    (ho : order ≠ 0) :
    (∃ i, inspect view base order s = .ok i s ∧
      (i.readiness = .ready ∨ i.readiness = .needsTransfer) ∧ i.choice.isSome) ↔
    ∃ candidates, Inspected s view base 0 candidates ∧ Usable s view candidates := by
  constructor
  · rintro ⟨i, hi, -, hchoice⟩
    by_contra hn
    obtain ⟨_, hrun, _, rfl, rfl⟩ := (h.returns_inspect hview ho (Q := fun o => o = none)
      fun root sources demand hcand =>
        h.returns_none hview (fun hu => hn ⟨_, hcand, hu⟩) order demand).exists
    obtain ⟨rfl, -⟩ := Outcome.ok.inj (hi.symm.trans hrun)
    simp [inspectionOf] at hchoice
  · rintro ⟨candidates, hcand, hu⟩
    obtain ⟨_, hrun, _, rfl, choice, rfl⟩ := (h.returns_inspect hview ho
      fun root sources demand hcand' => h.returns_planMaterialization hview hcand'
        (hcand.unique hcand' ▸ hu) order demand).exists
    refine ⟨_, hrun, ?_, rfl⟩
    dsimp only [inspectionOf]
    split
    · exact .inr rfl
    · exact .inl rfl

/-! ## A Program that needs a number of owners released -/

/-- Every owner is a private one with one checkpoint. -/
structure SingleTokens (s : ResourceManager) : Prop where
  noShared : s.sharedCatalogCount = 0
  refs : ∀ j ∈ s.privateOwners, (s.catalog j).summary.checkpoints.map (·.ref) = [oneToken.ref]

theorem SingleTokens.refs_of_mem (h : SingleTokens s) (hc : c ∈ s.inactiveOwners) :
    s.ownerCheckpoints c = [oneToken.ref] := by
  rcases List.mem_append.mp hc with hc | hc
  · obtain ⟨j, hj, rfl⟩ := List.mem_map.mp hc
    exact h.refs j hj
  · simp [sharedOwners, h.noShared] at hc

/-- The rows of a record are the one of its owner. -/
theorem rows_releasesAtLeast (hr : r ∈ ownerRecords owners) :
    (releasesAtLeast n (ownerRecords owners)).checkpointImpacts.filter
      (·.owner = r.id) = [{ owner := r.id, checkpoint := oneToken.ref, survives := false }] := by
  have hnodup := nodup_ids owners
  have hone : (ownerRecords owners).filter (·.id = r.id) = [r] := by
    have hsame : ∀ x ∈ ownerRecords owners, decide (x.id = r.id) = decide (x = r) := fun x hx =>
      decide_eq_decide.mpr ⟨List.inj_on_of_nodup_map hnodup hx hr, congrArg _⟩
    rw [List.filter_congr hsame, List.filter_eq, List.count_eq_one_of_mem hnodup.of_map hr]
    rfl
  unfold releasesAtLeast
  rw [List.filter_map]
  simpa [Function.comp_def] using congrArg (List.map _) hone

theorem SingleTokens.releases (h : SingleTokens s) (n : Nat)
    (hsub : owners.Sublist s.inactiveOwners) :
    ReleasesAll s (ownerRecords owners) (releasesAtLeast n (ownerRecords owners)) where
  owners o ho := by
    obtain ⟨r, hr, rfl⟩ := List.mem_map.mp ho
    have hrefs := h.refs_of_mem (hsub.subset (mem_ownerRecords hr))
    have hrows := rows_releasesAtLeast (n := n) hr
    refine ⟨r, find_ownerRecords hr, ⟨fun row hrow _ => ?_, ?_, ?_, ?_, ?_⟩⟩
    · obtain ⟨_, _, rfl⟩ := List.mem_map.mp hrow
      simp [hrefs]
    all_goals simp [hrows, hrefs]
  recovery := rfl
  impacts := by
    refine List.Nodup.of_map Prod.fst ?_
    have hids : ((ownerRecords owners).map (·.id)).Nodup := nodup_ids owners
    simpa [releasesAtLeast, Function.comp_def] using hids
  candidate := rfl
  mode := rfl
  released := by simp [releasesAtLeast, Function.comp_def]
  evicted o ho := by
    obtain ⟨r, _, rfl⟩ := List.mem_map.mp ho
    rfl

/-- A request without shortlist keys has the root candidate only. -/
theorem inspected_root (h : Inspected s (needsOwners n) {} lane candidates) :
    candidates =
      [{ plan := { identity := { physicalStatus := .infeasible, expandable := true } } }] := by
  obtain ⟨root, sources, hroot, hsources, rfl⟩ := h
  have hnone : Returns (Eff.collect (if s.cacheEnabled then s.prefixIndex else [])
      (candidateOf (needsOwners n) {} lane (inspectedCell s {}))) s fun l => ∀ c ∈ l, c = none := by
    refine .collect fun i _ => ?_
    refine .get_bind ?_
    rw [if_pos (by simp)]
    exact .pure rfl
  obtain ⟨l, hl, hall⟩ := hnone.exists
  rw [hsources] at hl
  obtain ⟨rfl, _⟩ := Outcome.ok.inj hl
  have hempty : sources.reduceOption = [] := by
    refine List.filterMap_eq_nil_iff.mpr fun c hc => ?_
    simp [hall c hc]
  obtain rfl := Option.some.inj hroot
  rw [hempty]

theorem SingleTokens.contract (h : SingleTokens s) (hn : n ≤ s.inactiveOwners.length) :
    ProgramContract s (needsOwners n) {} where
  noTransaction := rfl
  isolated := rfl
  root _ := ⟨_, rfl⟩
  sources _ _ _ _ _ _ hplan := by simp [needsOwners] at hplan
  prepared := by simp
  maximal _ hsub := h.releases n hsub
  feasible := by simp [needsOwners, releasesAtLeast, length_ownerRecords, hn]
  search _ _ _ _ _ a ha := by simp [needsOwners, rootView] at ha
  identity lane candidates hcand records i c hc hf := by
    rw [inspected_root hcand] at hc
    obtain rfl := List.mem_singleton.mp (List.mem_of_getElem? hc)
    simp at hf
  seals := ⟨fun _ _ => rfl, fun _ _ _ => rfl⟩

/-! ## Progress -/

/-- What a request needs of an idle manager: a candidate its first lane can use as it stands, or a
    root candidate that is feasible with the owners outside publication grace released. -/
def Unblocked (s : ResourceManager) (view : PlanningView) (base : RequestBasePlan) : Prop :=
  (∃ candidates, Inspected s view base 0 candidates ∧
    ∃ c ∈ candidates, (identityGoal s c).isSome) ∨
  (view.rootMaximalTarget s.pressureRecords).physicalStatus = .feasible

theorem ManagerSystem.Reached.plannable {s : ManagerSystem} (h : ManagerSystem.Reached s)
    (hidle : Idle s.rm) : ∃ m, Plannable s.rm s.published m := by
  obtain ⟨m, hfitted⟩ := ManagerSystem.steady_of_reachedAny (h.mono fun _ _ _ => trivial)
  exact ⟨m, hidle, (ManagerSystem.inv_of_reached h).manager, hfitted.manager.2⟩

theorem ProgramContract.exists_inspected (h : ProgramContract s view base) :
    ∃ candidates, Inspected s view base 0 candidates := by
  obtain ⟨root, hroot⟩ := h.root 0
  obtain ⟨sources, hsources⟩ := h.exists_sources 0
  exact ⟨_, root, sources, hroot, hsources, rfl⟩

/-- An idle manager finds a choice for a request exactly when it is unblocked. With fewer than
    eight private owners every request is that is feasible with all inactive owners released. -/
theorem idle_progress (s : ManagerSystem) (h : ManagerSystem.Reached s) (hidle : Idle s.rm)
    (view : PlanningView) (base : RequestBasePlan) (hview : ProgramContract s.rm view base)
    (order : Nat) (ho : order ≠ 0) :
    ((∃ i, inspect view base order s.rm = .ok i s.rm ∧
      (i.readiness = .ready ∨ i.readiness = .needsTransfer) ∧ i.choice.isSome) ↔
        Unblocked s.rm view base) ∧
    (s.rm.privateOwners.length < publicationGraceMinimumOwners → Unblocked s.rm view base) := by
  obtain ⟨m, hplan⟩ := h.plannable hidle
  obtain ⟨candidates, hcand⟩ := hview.exists_inspected
  refine ⟨(hplan.inspect_iff hview ho).trans ⟨?_, ?_⟩, fun hfew => .inr ?_⟩
  · rintro ⟨candidates, hcand, hgoal | hmax⟩
    · exact .inl ⟨candidates, hcand, hgoal⟩
    · exact .inr hmax
  · rintro (⟨candidates, hcand, hgoal⟩ | hmax)
    · exact ⟨candidates, hcand, .inl hgoal⟩
    · exact ⟨candidates, hcand, .inr hmax⟩
  · have hall : s.rm.pressureOwners = s.rm.inactiveOwners := by
      unfold pressureOwners inactiveOwners
      rw [hidle.pressurePrivate_of_few hfew, hidle.pressureShared hplan.sound]
    rw [pressureRecords_eq, hall]
    exact hview.feasible

/-- The manager is idle, and its private owners are the first `n` slots with one token each. -/
def holdsTokens (n : Nat) (s : ResourceManager) : Bool :=
  s.transaction = .none ∧ (∀ l < s.laneCount, (s.active l).occupied = false) ∧
    s.sharedCatalogCount = 0 ∧ s.privateOwners = List.range n ∧
    ∀ j < n, (s.catalog j).summary.checkpoints.map (·.ref) = [oneToken.ref]

theorem idle_of_holdsTokens (h : holdsTokens n s = true) :
    Idle s ∧ SingleTokens s ∧ s.privateOwners = List.range n := by
  simp only [holdsTokens, decide_eq_true_eq] at h
  obtain ⟨htx, hocc, hshared, howners, hrefs⟩ := h
  refine ⟨⟨htx, hocc⟩, ⟨hshared, fun j hj => hrefs j ?_⟩, howners⟩
  rw [howners] at hj
  exact List.mem_range.mp hj

/-- Eight requests leave eight owners, of which publication grace leaves two to the planner. -/
theorem eightOwners_reached : ∃ s, ManagerSystem.Reached s ∧ Idle s.rm ∧ SingleTokens s.rm ∧
    s.rm.inactiveOwners.length = 8 ∧ s.rm.pressureRecords.length = 2 := by
  have hrun : (trace ManagerSystem.run ManagerSystem.May
      ((List.range 8).flatMap fun i => wholeRequest none (i + 1) i) (oneLane 8)).map (fun s =>
        holdsTokens 8 s.rm) = some true := by decide +kernel
  obtain ⟨s, hreach, htokens⟩ := Reach.of_trace_map (oneLane_init 8 (by simp)) hrun
  obtain ⟨hidle, hsingle, howners⟩ := idle_of_holdsTokens htokens
  obtain ⟨m, hplan⟩ := ManagerSystem.Reached.plannable hreach hidle
  have hlength : s.rm.privateOwners.length = 8 := by simp [howners]
  have hshared : s.rm.sharedOwners = [] := by simp [sharedOwners, hsingle.noShared]
  refine ⟨s, hreach, hidle, hsingle, by simp [inactiveOwners, hshared, hlength], ?_⟩
  rw [pressureRecords_eq, length_ownerRecords, pressureOwners, List.length_append, List.length_map,
    List.length_map, hidle.pressureShared hplan.sound, hshared,
    hidle.length_pressurePrivate (by rw [hlength]; decide), hlength]
  rfl

/-- With eight owners a request that needs two of them released is ready. -/
theorem idle_progress_eightOwners : ∃ s i, ManagerSystem.Reached s ∧ Idle s.rm ∧
    ProgramContract s.rm (needsOwners 2) {} ∧ s.rm.inactiveOwners.length = 8 ∧
    inspect (needsOwners 2) {} 9 s.rm = .ok i s.rm ∧ i.choice.isSome := by
  obtain ⟨s, hreach, hidle, hsingle, hlength, hpressure⟩ := eightOwners_reached
  have hview : ProgramContract s.rm (needsOwners 2) {} :=
    hsingle.contract (by rw [hlength]; decide)
  have hmax : ((needsOwners 2).rootMaximalTarget s.rm.pressureRecords).physicalStatus =
      .feasible := by simp [needsOwners, releasesAtLeast, hpressure]
  obtain ⟨i, hi, _, hchoice⟩ :=
    (idle_progress s hreach hidle (needsOwners 2) {} hview 9 (by decide)).1.mpr (.inr hmax)
  exact ⟨s, i, hreach, hidle, hview, hlength, hi, hchoice⟩

/-- With eight owners, a request that needs all of them released is blocked: publication grace
    keeps six of them from the planner. -/
theorem idle_blocked_eightOwners : ∃ s, ManagerSystem.Reached s ∧ Idle s.rm ∧
    ProgramContract s.rm (needsOwners 8) {} ∧
    inspect (needsOwners 8) {} 9 s.rm = .ok { readiness := .temporarilyBlocked, choice := none }
      s.rm := by
  obtain ⟨s, hreach, hidle, hsingle, hlength, hpressure⟩ := eightOwners_reached
  obtain ⟨m, hplan⟩ := ManagerSystem.Reached.plannable hreach hidle
  have hview : ProgramContract s.rm (needsOwners 8) {} := hsingle.contract hlength.ge
  have hblocked : ∀ candidates, Inspected s.rm (needsOwners 8) {} 0 candidates →
      ¬ Usable s.rm (needsOwners 8) candidates := by
    rintro candidates hcand (⟨c, hc, hgoal⟩ | hmax)
    · rw [inspected_root hcand] at hc
      obtain rfl := List.mem_singleton.mp hc
      simp [identityGoal] at hgoal
    · simp [needsOwners, releasesAtLeast, hpressure] at hmax
  obtain ⟨_, hi, _, rfl, rfl⟩ := (hplan.returns_inspect hview (Nat.succ_ne_zero 8)
    (Q := fun o => o = none) fun root sources demand hcand =>
      hplan.returns_none hview (hblocked _ hcand) 9 demand).exists
  exact ⟨s, hreach, hidle, hview, hi⟩

end Ninfer.Resources
