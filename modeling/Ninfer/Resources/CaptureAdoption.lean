/-
  Adoption of an active-capture result.

  `CaptureResultOk` is what a result that passed `checkActiveCapture` satisfies, `Captured` the
  state its changes leave: the victims as reported, the captured prefix catalogued with an edge
  of the lane, or the reserved slot given back.
-/
import Ninfer.Resources.Adoption

namespace Ninfer.Resources

open Lib Function ResourceManager

variable {s t : ResourceManager} {record : ActiveCaptureRecord} {result : ActiveCaptureResult}

/-! ## Checks -/

/-- The reserved shared slot of a record, as the check finds it. -/
structure ReservedOk (s : ResourceManager) (record : ActiveCaptureRecord) (slot : Nat) : Prop where
  lt : slot < s.sharedCatalogCount
  state : (s.sharedCatalog slot).state = .reservedCapture
  idle : s.sharedActiveEdgeCount slot = 0
  live : record.replacementId ≠ 0 → (s.sharedCatalog slot).id = record.replacementId ∧
    (s.sharedCatalog slot).handle.isSome

structure CaptureResultOk (s : ResourceManager) (record : ActiveCaptureRecord)
    (result : ActiveCaptureResult) : Prop where
  terminal : result.status ≠ .inProgress
  claims : ClaimsOk s record.privateClaims record.sharedClaims (result.status = .published)
    result.victims result.sharedVictims
  apart : ∀ c ∈ record.sharedClaims, some c.capability.slot ≠ record.publicationSlot
  lane : record.lane < s.laneCount
  occupied : (s.active record.lane).occupied
  reserved : record.publishesShared → ∃ slot, record.publicationSlot = some slot ∧
    ReservedOk s record slot
  privateOnly : record.publishesShared = false → record.publicationSlot = none
  priv : result.status = .published → record.publishesPrivate →
    validContinuationSummary s.maxLongAnchors result.activeSummary ∧
    ∃ slot < s.catalogCount, (s.active record.lane).publicationSlot = some slot ∧
      (s.catalog slot).state = .reservedForActive
  shared : result.status = .published → record.publishesShared → result.shared.isSome

section Checked

variable (record result)

theorem checks_checkCaptureReserved : Checks (checkCaptureReserved record result) s fun _ =>
      (record.publishesShared → ∃ slot, record.publicationSlot = some slot ∧
        ReservedOk s record slot) ∧
      (record.publishesShared = false → record.publicationSlot = none) := by
  refine .get_bind ?_
  cases hsh : record.publishesShared with
  | false =>
    exact Checks.require.mono fun _ h => ⟨by simp, fun _ => h.1⟩
  | true =>
    cases hp : record.publicationSlot with
    | none => exact .raise _
    | some slot =>
      refine Checks.require.bind fun _ hlt => Checks.require.mono fun _ h => ?_
      obtain ⟨hst, hidle, _, hrep⟩ := h
      refine ⟨fun _ => ⟨slot, rfl, hlt, hst, hidle, fun hne => ?_⟩, by simp⟩
      exact ⟨(hrep hne).1, (hrep hne).2.2.1⟩

theorem checks_catalogAt (slot : Option Nat) :
    Checks (catalogAt slot) s fun j => slot = some j ∧ j < s.catalogCount := by
  cases slot with
  | none => exact .raise _
  | some j => exact Checks.require.bind fun _ hlt => .pure ⟨rfl, hlt⟩

theorem checks_checkCapturePrivate :
    Checks (checkCapturePrivate record result) s fun _ => record.publishesPrivate →
      validContinuationSummary s.maxLongAnchors result.activeSummary ∧
      ∃ slot < s.catalogCount, (s.active record.lane).publicationSlot = some slot ∧
        (s.catalog slot).state = .reservedForActive := by
  refine .get_bind ?_
  cases record.publishesPrivate with
  | false => exact .pure (by simp)
  | true =>
    refine Checks.require.bind fun _ hv => (checks_catalogAt _).bind fun slot hslot =>
      Checks.require.mono fun _ h _ => ?_
    exact ⟨hv, slot, hslot.2, hslot.1, h.1⟩

theorem checks_checkCaptureShared : Checks (checkCaptureShared record result) s fun _ =>
      record.publishesShared → result.shared.isSome := by
  refine .get_bind ?_
  cases record.publishesShared with
  | false => exact Checks.require.mono fun _ _ => by simp
  | true =>
    refine Checks.require.mono fun _ h _ => ?_
    cases hr : result.shared with
    | none => simp [hr] at h
    | some _ => rfl

theorem checks_checkActiveCapture :
    Checks (checkActiveCapture record result) s fun _ => CaptureResultOk s record result := by
  refine Checks.require.bind fun _ hterm => Checks.require.bind fun _ _ => ?_
  refine (Checks.forEach fun p _ => Checks.require).bind fun _ hprivate => ?_
  have hsharedCheck : ∀ p ∈ record.sharedClaims.zipIdx, Checks (do
      Eff.require (∀ prior ∈ record.privateClaims, prior.planningId ≠ p.1.planningId)
        (.logicError "active capture owner ID changes kind")
      Eff.require (some p.1.capability.slot ≠ record.publicationSlot ∧
          FirstOfManifest record.sharedClaims p.2 p.1)
        (.logicError "active capture shared claim manifest is not unique")) s fun _ =>
      some p.1.capability.slot ≠ record.publicationSlot ∧
        FirstOfManifest record.sharedClaims p.2 p.1 := fun p _ =>
    Checks.require.bind fun _ _ => Checks.require
  refine (Checks.forEach hsharedCheck).bind fun _ hshared => ?_
  refine checks_privateActions.bind fun _ hprows => checks_sharedActions.bind fun _ hsrows => ?_
  refine Checks.require.bind fun _ hlane =>
    (checks_checkCaptureReserved record result).bind fun _ hres => ?_
  have hclaims := ClaimsOk.of_rows hprows hsrows hprivate fun p hp => (hshared p hp).2
  have happart : ∀ c ∈ record.sharedClaims, some c.capability.slot ≠ record.publicationSlot := by
    intro c hc
    obtain ⟨i, hi, rfl⟩ := List.getElem_of_mem hc
    refine (hshared (record.sharedClaims[i], i) ?_).1
    rw [List.mk_mem_zipIdx_iff_getElem?]
    exact List.getElem?_eq_getElem hi
  by_cases hpub : result.status = .published
  · simp only [hpub, decide_true, if_true]
    refine (checks_checkCapturePrivate record result).bind fun _ hpriv =>
      (checks_checkCaptureShared record result).mono fun _ hsh => ?_
    exact ⟨hterm, hclaims, happart, hlane.1, hlane.2.1, hres.1, hres.2, fun _ => hpriv,
      fun _ => hsh⟩
  · simp only [hpub, decide_false, Bool.false_eq_true, if_false]
    refine Checks.require.mono fun _ _ => ?_
    exact ⟨hterm, hclaims, happart, hlane.1, hlane.2.1, hres.1, hres.2,
      fun h => absurd h hpub, fun h => absurd h hpub⟩

end Checked

/-! ## Changes -/

/-- What a capture result reports for the slots its record publishes in. -/
structure CaptureReported (s t : ResourceManager) (record : ActiveCaptureRecord)
    (result : ActiveCaptureResult) : Prop where
  victims : ∀ c ∈ record.privateClaims, ∃ row, PrivateRow result.victims c row ∧
    ReportedVictim (s.catalog c.capability.slot) (t.catalog c.capability.slot) row False
  sharedVictims : ∀ c ∈ record.sharedClaims, ∃ row, SharedRow result.sharedVictims c row ∧
    ReportedShared (s.sharedCatalog c.capability.slot) (t.sharedCatalog c.capability.slot) row
  priv : result.status = .published → record.publishesPrivate →
    ∀ j ∈ (s.active record.lane).publicationSlot, (t.catalog j).state = .reservedForActive ∧
      (t.catalog j).summary = { result.activeSummary with activeReferences := 0 }
  shared : result.status = .published → record.publishesShared →
    ∀ j ∈ record.publicationSlot, ∃ shared ∈ result.shared,
      (t.sharedCatalog j).state = .catalogued ∧ (t.sharedCatalog j).handle = some shared.handle ∧
      (t.sharedCatalog j).summary = { shared.summary with activeReferences := 0 }
  restored : result.status = .aborted → record.replacementId ≠ 0 →
    result.capacityPreparationCommitted = false → ∀ j ∈ record.publicationSlot,
      t.sharedCatalog j = { s.sharedCatalog j with state := .catalogued }
  released : result.status = .aborted →
    (record.replacementId = 0 ∨ result.capacityPreparationCommitted) →
    ∀ j ∈ record.publicationSlot, (t.sharedCatalog j).state = .vacant ∧ (t.sharedCatalog j).Blank

structure Captured (s t : ResourceManager) (record : ActiveCaptureRecord)
    (result : ActiveCaptureResult) : Prop where
  frame : t = { s with
    catalog := t.catalog
    sharedCatalog := t.sharedCatalog
    sessionIndex := t.sessionIndex
    active := t.active
    publicationEpoch := t.publicationEpoch
    nextSharedPrefixId := t.nextSharedPrefixId
    transaction := .none }
  active : ∀ l, ∃ sources, t.active l = { s.active l with sharedSources := sources }
  cells : CellsKept s.sessionIndex t.sessionIndex
  reported : CaptureReported s t record result
  sound : CaptureOk s record → Sound s record.holding → Sound t {}

/-- The victims of a capture are dealt with; what it publishes in is untouched. -/
structure CaptureSettled (s t : ResourceManager) (record : ActiveCaptureRecord)
    (result : ActiveCaptureResult) : Prop where
  frame : t = { s with
    catalog := t.catalog
    sharedCatalog := t.sharedCatalog
    sessionIndex := t.sessionIndex }
  victims : ∀ c ∈ record.privateClaims, ∃ row, PrivateRow result.victims c row ∧
    ReportedVictim (s.catalog c.capability.slot) (t.catalog c.capability.slot) row False
  sharedVictims : ∀ c ∈ record.sharedClaims, ∃ row, SharedRow result.sharedVictims c row ∧
    ReportedShared (s.sharedCatalog c.capability.slot) (t.sharedCatalog c.capability.slot) row
  other : ∀ j, ¬ slotsOf record.privateClaims j → t.catalog j = s.catalog j
  sharedOther : ∀ j, ¬ slotsOf record.sharedClaims j → t.sharedCatalog j = s.sharedCatalog j
  cells : CellsKept s.sessionIndex t.sessionIndex
  sound : CaptureOk s record → Sound s record.holding →
    Sound t { captured := record.holding.captured }

theorem UpToHits.refl (e : CatalogEntry) : UpToHits e e := ⟨e.observations, rfl⟩

theorem UpToHit.refl (e : SharedCatalogEntry) : UpToHit e e := ⟨e.observation, rfl⟩

theorem SharedAlike.refl (e : SharedCatalogEntry) : SharedAlike e e := ⟨rfl, rfl, rfl, id, rfl⟩

theorem wp_settleCapture (hok : CaptureResultOk s record result) :
    wp (settleActiveCapture record result)
      ⟨fun _ t => CaptureSettled s t record result, fun _ _ => False, False⟩ s := by
  refine wp_seq (wp_applyPrivateActions ⟨hok.claims.priv, hok.claims.privDistinct⟩) fun _ t ht => ?_
  have hshared : SharedActionsOk t record.sharedClaims (result.status = .published)
      result.sharedVictims := by
    cases t
    cases ht.frame
    refine ⟨fun c hc => ?_, hok.claims.sharedDistinct⟩
    obtain ⟨row, hrow, hrok⟩ := hok.claims.shared c hc
    exact ⟨row, hrow, hrok.transport rfl ⟨rfl, rfl, rfl, rfl⟩⟩
  refine wp_imp (wp_applySharedActions hshared) fun _ u hu => ?_
  cases t
  cases ht.frame
  cases u
  cases hu.frame
  refine ⟨rfl, fun c hc => ?_, fun c hc => ?_, ht.other, hu.other, ht.cells, fun hpend hs => ?_⟩
  · obtain ⟨row, hrow, hrok⟩ := hok.claims.priv c hc
    exact ⟨row, hrow, ht.acted c hc row hrow ▸ reportedVictim_actedEntry hrok (UpToHits.refl _) id⟩
  · obtain ⟨row, hrow, hrok⟩ := hok.claims.shared c hc
    exact ⟨row, hrow, hu.acted c hc row hrow ▸
      reportedShared_actedShared hrok (UpToHit.refl _) (SharedAlike.refl _)⟩
  · have hend := hu.sound _ (fun c hc => (hpend.sharedClaims c hc).2.1)
      (fun _ _ hf => hf) (ht.sound _ (fun c hc => (hpend.claims c hc).2.1) hs)
    refine (hend.congrPriv fun j _ => ?_).congrShared fun j _ => ?_
    · simp [setOn, ActiveCaptureRecord.holding]
    · simp [setOn, ActiveCaptureRecord.holding]

variable {e : SharedCatalogEntry} {slot : Nat}

/-- The reserved slot of a capture becomes vacant or catalogued. -/
theorem Sound.settleCaptured {H : Holding} {j : Nat} (h : Sound s H)
    (hj : j < s.sharedCatalogCount) (hst : (s.sharedCatalog j).state = .reservedCapture)
    (he : SharedSlot e False False (H.pinned j)) :
    Sound (s.setSharedEntry j e) { H with captured := setOn (· = j) False H.captured } := by
  have hset := h.replaceShared hj (h.no_shared_edge (by simp [hst])) he
  refine hset.congrShared fun k _ => ?_
  by_cases hk : k = j
  · subst hk
    have hheld : ¬ H.shared k := by
      rw [← (h.shared k hj).claimed, hst]
      simp
    simp [setOn, hheld]
  · simp [setOn, hk]

theorem SharedSlot.ofVacant (hst : e.state = .vacant) (hb : e.Blank) (hp : e.transactionPins = 0) :
    SharedSlot e False False False :=
  ⟨by simp [hst], by simp [hst], False.elim, fun _ => hp, fun _ => hb, by simp [hst]⟩

theorem SharedSlot.ofCatalogued (hst : e.state = .catalogued) (hl : e.Live)
    (hp : e.transactionPins = 0) : SharedSlot e False False False :=
  ⟨by simp [hst], by simp [hst], False.elim, fun _ => hp, by simp [hst], fun _ => hl⟩

/-- Nothing is captured once the slot of the record is settled. -/
theorem Sound.captured_done (hslot : record.publicationSlot = some slot)
    (h : Sound t { captured := setOn (· = slot) False record.holding.captured }) : Sound t {} := by
  refine h.congrCaptured fun j _ => ?_
  simp only [setOn, ActiveCaptureRecord.holding, hslot, Option.some.injEq, and_false, false_or,
    iff_false, not_and]
  exact fun hne heq => hne heq.symm

theorem Sound.captured_none (hslot : record.publicationSlot = none)
    (h : Sound t { captured := record.holding.captured }) : Sound t {} := by
  refine h.congrCaptured fun j _ => ?_
  simp [ActiveCaptureRecord.holding, hslot]

theorem CaptureResultOk.reservedOk (hok : CaptureResultOk s record result)
    (hslot : record.publicationSlot = some slot) : ReservedOk s record slot := by
  cases hsh : record.publishesShared with
  | false =>
    rw [hok.privateOnly hsh] at hslot
    simp at hslot
  | true =>
    obtain ⟨j, hj, hres⟩ := hok.reserved hsh
    obtain rfl := Option.mem_unique hj hslot
    exact hres

section

variable (h : CaptureSettled s t record result)

include h

theorem CaptureSettled.reservedEntry
    (hok : CaptureResultOk s record result) (hslot : record.publicationSlot = some slot) :
    t.sharedCatalog slot = s.sharedCatalog slot := by
  refine h.sharedOther slot ?_
  rintro ⟨c, hc, hcs⟩
  exact hok.apart c hc (by rw [hslot, hcs])

/-- Victims are not the slot of the record, so what happens there keeps their report. -/
theorem CaptureSettled.sharedVictims_update
    (hok : CaptureResultOk s record result) (hslot : record.publicationSlot = some slot)
    {u : ResourceManager} (hu : u.sharedCatalog = update t.sharedCatalog slot e) :
    ∀ c ∈ record.sharedClaims, ∃ row, SharedRow result.sharedVictims c row ∧
      ReportedShared (s.sharedCatalog c.capability.slot) (u.sharedCatalog c.capability.slot)
        row := by
  intro c hc
  have hne : c.capability.slot ≠ slot := by
    rintro heq
    exact hok.apart c hc (by rw [hslot, heq])
  rw [hu, update_of_ne hne]
  exact h.sharedVictims c hc

theorem CaptureSettled.abandoned
    (hok : CaptureResultOk s record result) (hab : result.status = .aborted) :
    Captured s ((t.abandonCapture record result.capacityPreparationCommitted).setTransaction .none)
      record result := by
  have hnp : result.status ≠ .published := by simp [hab]
  cases hslot : record.publicationSlot with
  | none =>
    have heq : t.abandonCapture record result.capacityPreparationCommitted = t := by
      simp [abandonCapture, hslot]
    rw [heq]
    cases t
    cases h.frame
    exact ⟨rfl, fun l => ⟨_, rfl⟩, h.cells, ⟨h.victims, h.sharedVictims, fun hp => absurd hp hnp,
      fun hp => absurd hp hnp, by simp [hslot], by simp [hslot]⟩, fun hpend hs =>
      ((h.sound hpend hs).captured_none hslot).transfer rfl⟩
  | some slot =>
    have hres := hok.reservedOk hslot
    have hentry := h.reservedEntry hok hslot
    -- the entry the slot is left with
    have key : ∀ e, ((t.sharedCatalog slot).transactionPins = 0 → SharedSlot e False False False) →
        t.abandonCapture record result.capacityPreparationCommitted = t.setSharedEntry slot e →
        (record.replacementId ≠ 0 → result.capacityPreparationCommitted = false →
          e = { s.sharedCatalog slot with state := .catalogued }) →
        (record.replacementId = 0 ∨ result.capacityPreparationCommitted →
          e.state = .vacant ∧ e.Blank) →
        Captured s ((t.abandonCapture record
          result.capacityPreparationCommitted).setTransaction .none) record result := by
      intro e he heq hkept hgone
      rw [heq]
      cases t
      cases h.frame
      refine ⟨rfl, fun l => ⟨_, rfl⟩, h.cells, ⟨h.victims, h.sharedVictims_update hok hslot rfl,
        fun hp => absurd hp hnp, fun hp => absurd hp hnp, fun _ hr hc j hj => ?_,
        fun _ hr j hj => ?_⟩, fun hpend hs => ?_⟩
      · obtain rfl := Option.mem_unique hslot hj
        simpa [setTransaction, setSharedEntry] using hkept hr hc
      · obtain rfl := Option.mem_unique hslot hj
        simp only [setTransaction, setSharedEntry, update_self]
        exact hgone hr
      · have hs' := h.sound hpend hs
        have hsound := hs'.settleCaptured hres.lt (hentry ▸ hres.state)
          (he ((hs'.shared slot hres.lt).unpinned id))
        exact (hsound.captured_done hslot).transfer rfl
    by_cases hkeep : record.replacementId ≠ 0 ∧ result.capacityPreparationCommitted = false
    · refine key { t.sharedCatalog slot with state := .catalogued }
        (fun hz => SharedSlot.ofCatalogued rfl ?_ hz) ?_ (fun _ _ => by rw [hentry]) fun hr => ?_
      · have hl := hres.live hkeep.1
        rw [hentry]
        exact ⟨by rw [hl.1]; exact hkeep.1, hl.2⟩
      · simp [abandonCapture, hslot, hkeep, setSharedState]
      · rcases hr with hr | hr
        · exact absurd hr hkeep.1
        · rw [hkeep.2] at hr
          simp at hr
    · refine key (clearSharedEntry (t.sharedCatalog slot))
        (fun _ => SharedSlot.ofVacant rfl ⟨rfl, rfl⟩ rfl) ?_ (fun hr hc => absurd ⟨hr, hc⟩ hkeep)
        fun _ => ⟨rfl, rfl, rfl⟩
      simp [abandonCapture, hslot, if_neg hkeep]

end

/-- The private checkpoint of the lane is captured. -/
structure PrivateCaptured (t u : ResourceManager) (record : ActiveCaptureRecord)
    (result : ActiveCaptureResult) : Prop where
  frame : u = { t with catalog := u.catalog, publicationEpoch := u.publicationEpoch }
  other : ∀ j, (t.catalog j).state ≠ .reservedForActive → u.catalog j = t.catalog j
  published : record.publishesPrivate → ∀ j ∈ (t.active record.lane).publicationSlot,
    (u.catalog j).state = .reservedForActive ∧ (u.catalog j).summary = { result.activeSummary with
      activeReferences := 0 }
  sound : ∀ H, Sound t H → Sound u H

theorem wp_applyCapturePrivate (h : record.publishesPrivate →
      validContinuationSummary t.maxLongAnchors result.activeSummary ∧
      ∃ slot < t.catalogCount, (t.active record.lane).publicationSlot = some slot ∧
        (t.catalog slot).state = .reservedForActive) :
    wp (applyCapturePrivate record result)
      ⟨fun _ u => PrivateCaptured t u record result, fun _ _ => False, False⟩ t := by
  unfold applyCapturePrivate
  simp only [wp_bind, wp_get]
  cases hpriv : record.publishesPrivate with
  | false => exact ⟨rfl, fun _ _ => rfl, by simp [hpriv], fun _ hs => hs⟩
  | true =>
    obtain ⟨hv, slot, hlt, hslot, hst⟩ := h hpriv
    simp only [if_true, wp_bind, wp_deref, hslot, Option.some.injEq, forall_eq', reduceCtorEq,
      false_implies, and_true]
    refine (wp_renewEntry hv).mpr ?_
    refine ⟨rfl, fun j hj => ?_, fun _ j hj => ?_, fun H hs => ?_⟩
    · have hne : j ≠ slot := by
        rintro rfl
        exact hj hst
      simp [setEntry, update_of_ne hne]
    · obtain rfl := Option.mem_unique hslot hj
      simpa [setEntry, renewed] using hst
    · exact hs.tune hlt rfl rfl rfl rfl rfl (by simp [hst])

/-- The captured prefix enters its slot, and the lane gets an edge to it. -/
theorem Sound.publishCaptured (h : Sound t { captured := record.holding.captured })
    (shared : SharedPrefixPublication) (hslot : record.publicationSlot = some slot)
    (hlt : slot < t.sharedCatalogCount) (hst : (t.sharedCatalog slot).state = .reservedCapture)
    (hl : record.lane < t.laneCount) (hocc : (t.active record.lane).occupied) :
    Sound ((t.publishShared record slot shared).addSharedSource record.lane slot) {} := by
  have hpub : Sound (t.publishShared record slot shared) {} := by
    have hset := h.settleCaptured hlt hst (e := ((t.publishShared record slot
      shared).sharedCatalog slot)) ?_
    · refine (hset.captured_done hslot).transfer ?_
      simp [tables, publishShared, setSharedEntry]
    · simp only [publishShared, setSharedEntry, update_self]
      exact SharedSlot.ofCatalogued rfl ⟨freshId_ne_zero _, rfl⟩ rfl
  refine hpub.setEdges rfl rfl ?_
  obtain ⟨g1, g2, g3, g4, g5⟩ := hpub.lane record.lane hl
  have hactive : (t.publishShared record slot shared).active = t.active := rfl
  refine ⟨g1, g2, forall_mem_push g3 ⟨rfl, hlt, ?_, rfl⟩, ?_, fun hn => ?_⟩
  · simp [activeEdge, sharedCapability, publishShared, setSharedEntry]
  · -- the slot was reserved, so no edge of the lane names it yet
    rw [List.map_append, List.nodup_append]
    refine ⟨g4, by simp, fun a ha b hb => ?_⟩
    obtain ⟨e, he, rfl⟩ := List.mem_map.mp ha
    obtain rfl : b = slot := by simpa [activeEdge, sharedCapability] using hb
    exact h.not_shared (by simp [hst]) hl e he
  · rw [hactive] at hn
    exact absurd hocc (by simpa using hn)

theorem CaptureSettled.published (h : CaptureSettled s t record result)
    (hok : CaptureResultOk s record result) (hpub : result.status = .published) :
    wp (do
        applyCapturePrivate record result
        applyCaptureShared record result
        Eff.modify (·.setTransaction .none))
      ⟨fun _ u => Captured s u record result, fun _ _ => False, False⟩ t := by
  have hnab : result.status ≠ .aborted := by simp [hpub]
  cases t
  cases h.frame
  refine wp_seq (wp_applyCapturePrivate fun hp => ?_) fun _ u hu => ?_
  · obtain ⟨hv, slot, hlt, hslot, hst⟩ := hok.priv hpub hp
    refine ⟨hv, slot, hlt, hslot, ?_⟩
    rw [h.other slot, hst]
    rintro ⟨c, hc, rfl⟩
    obtain ⟨row, _, hrok⟩ := hok.claims.priv c hc
    rw [hrok.claimed] at hst
    simp at hst
  have hvictims : ∀ c ∈ record.privateClaims, ∃ row, PrivateRow result.victims c row ∧
      ReportedVictim (s.catalog c.capability.slot) (u.catalog c.capability.slot) row False := by
    intro c hc
    obtain ⟨row, hrow, hrep⟩ := h.victims c hc
    refine ⟨row, hrow, ?_⟩
    rw [hu.other]
    · exact hrep
    · intro hst
      cases hd : row.disposition with
      | evicted => cases hst.symm.trans (hrep.evicted hd id).1
      | retained => cases hst.symm.trans (hrep.retained hd).1
  have hsu : CaptureOk s record → Sound s record.holding → Sound u _ :=
    fun hpend hs => hu.sound _ (h.sound hpend hs)
  cases u
  cases hu.frame
  unfold applyCaptureShared
  cases hsh : record.publishesShared with
  | false =>
    refine ⟨rfl, fun l => ⟨_, rfl⟩, h.cells,
      ⟨hvictims, h.sharedVictims, fun _ => hu.published, by simp [hsh], fun hx => absurd hx hnab,
        fun hx => absurd hx hnab⟩, fun hpend hs => ?_⟩
    exact ((hsu hpend hs).captured_none (hok.privateOnly hsh)).transfer rfl
  | true =>
    obtain ⟨slot, hslot, hres⟩ := hok.reserved hsh
    obtain ⟨shared, hshared⟩ := Option.isSome_iff_exists.mp (hok.shared hpub hsh)
    have hentry := h.reservedEntry hok hslot
    simp only [if_true, wp_bind, wp_deref, hslot, hshared, Option.some.injEq, forall_eq',
      reduceCtorEq, false_implies, and_true, wp_modify]
    refine ⟨rfl, fun l => ?_, h.cells, ⟨hvictims, h.sharedVictims_update hok hslot rfl,
      fun _ => hu.published, fun _ _ j hj => ?_, fun hx => absurd hx hnab,
      fun hx => absurd hx hnab⟩, fun hpend hs => ?_⟩
    · rcases eq_or_ne l record.lane with rfl | hl
      · exact ⟨_, update_self ..⟩
      · exact ⟨_, update_of_ne hl _ _⟩
    · obtain rfl := Option.mem_unique hslot hj
      refine ⟨shared, hshared, ?_⟩
      simp [setTransaction, addSharedSource, setActive, publishShared, setSharedEntry]
    · have hend := (hsu hpend hs).publishCaptured shared hslot hres.lt (hentry ▸ hres.state)
        hok.lane hok.occupied
      exact hend.transfer rfl

theorem wp_applyActiveCapture (hok : CaptureResultOk s record result) :
    wp (applyActiveCapture record result)
      ⟨fun _ t => Captured s t record result, fun _ _ => False, False⟩ s := by
  refine wp_seq (wp_settleCapture hok) fun _ t ht => ?_
  rw [wp_ite]
  refine ⟨fun hab => ht.abandoned hok hab, fun hnab => ht.published hok ?_⟩
  cases hst : result.status with
  | inProgress => exact absurd hst hok.terminal
  | published => rfl
  | aborted => exact absurd hst hnab

end Ninfer.Resources
