/-
  Adoption of a materialization result.

  `Settled` is the state after the owners and sources were dealt with and before the lane starts
  or is given up. From it a published result starts the lane (`Started`) and an aborted one gives
  everything back (`Abandoned`).
-/
import Ninfer.Resources.Invariant

namespace Ninfer.Resources

open Lib Function ResourceManager

variable {s t : ResourceManager} {record : MaterializationRecord} {result : MaterializationResult}

/-! ## Owners and sources -/

/-- The part of a change that only moves observations. -/
def UpToHits (e e' : CatalogEntry) : Prop :=
  ∃ observations, e' = { e with observations }

def UpToHit (e e' : SharedCatalogEntry) : Prop :=
  ∃ observation, e' = { e with observation }

structure Settled (s t : ResourceManager) (record : MaterializationRecord)
    (result : MaterializationResult) (retained : Bool) : Prop where
  frame : t = { s with
    catalog := t.catalog
    sharedCatalog := t.sharedCatalog
    sessionIndex := t.sessionIndex
    retentionEpoch := t.retentionEpoch
    publicationEpoch := t.publicationEpoch }
  claim : ∀ c ∈ record.privateClaims, ∀ row, PrivateRow result.victims c row →
    ∃ e, UpToHits (s.catalog c.capability.slot) e ∧ t.catalog c.capability.slot = actedEntry row e
  sharedClaim : ∀ c ∈ record.sharedClaims, ∀ row, SharedRow result.sharedVictims c row →
    ∃ e, UpToHit (s.sharedCatalog c.capability.slot) e ∧
      t.sharedCatalog c.capability.slot = actedShared row e
  source : ∀ c ∈ record.privateSource, ∀ row ∈ result.source, ∃ e, UpToHits (s.catalog c.slot) e ∧
      t.catalog c.slot = sourceEntry record row c.slot s.publicationEpoch e
  sharedSource : ∀ c ∈ record.sharedSource, ∀ row ∈ result.sharedSource,
    ∃ e, UpToHit (s.sharedCatalog c.slot) e ∧ t.sharedCatalog c.slot = sharedSourceEntry row e
  other : ∀ j, ¬ slotsOf record.privateClaims j → ¬ sourceSlot record.privateSource j →
    UpToHits (s.catalog j) (t.catalog j)
  sharedOther : ∀ j, ¬ slotsOf record.sharedClaims j → ¬ sourceSlot record.sharedSource j →
    UpToHit (s.sharedCatalog j) (t.sharedCatalog j)
  cells : CellsKept s.sessionIndex t.sessionIndex
  flag : retained = true → record.privateSource.isSome ∧ result.source.any (·.mode = .retain) ∧
    result.status = .published
  sound : PendingOk s record → Sound s record.holding → Sound t
    { priv := setOn (sourceSlot record.privateSource)
        (result.source.any (·.mode = .consumeToActive))
        (setOn (slotsOf record.privateClaims) False record.NamesPrivate) }

variable {e e' : CatalogEntry} {claim c : OwnerClaim} {published b : Bool}
  {row : MaterializationVictimResult}

theorem SameOwner.of_hits (h : UpToHits e e') : SameOwner e e' := by
  obtain ⟨observations, rfl⟩ := h
  exact ⟨rfl, rfl, rfl, rfl⟩

theorem SameShared.of_hit {e e' : SharedCatalogEntry} (h : UpToHit e e') : SameShared e e' := by
  obtain ⟨observation, rfl⟩ := h
  exact ⟨rfl, rfl, rfl, rfl⟩

theorem wp_settleMaterialization (hok : MaterializationOk s record result) :
    wp (settleMaterialization record result)
      ⟨fun b t => Settled s t record result b, fun _ _ => False, False⟩ s := by
  -- the selected hit
  have hhit : wp (Eff.when (result.status = .published) (Eff.modify (·.observeSelectedHit record)))
      ⟨fun _ t => OnlyHit s t, fun _ _ => False, False⟩ s := by
    rw [wp_when]
    exact ⟨fun _ => onlyHit_observeSelectedHit record, fun _ => OnlyHit.refl s⟩
  refine wp_seq hhit fun _ s1 h1 => ?_
  cases s1
  cases h1.frame
  -- private owners
  refine wp_seq (wp_applyPrivateActions (?_ : PrivateActionsOk _ record.privateClaims
    (result.status = .published) result.victims)) fun _ s2 h2 => ?_
  · refine ⟨fun c hc => ?_, hok.claims.privDistinct⟩
    obtain ⟨row, hrow, hrok⟩ := hok.claims.priv c hc
    exact ⟨row, hrow, hrok.transport rfl rfl (SameOwner.of_hits (h1.priv _))⟩
  cases s2
  cases h2.frame
  -- shared owners
  refine wp_seq (wp_applySharedActions (?_ : SharedActionsOk _ record.sharedClaims
    (result.status = .published) result.sharedVictims)) fun _ s3 h3 => ?_
  · refine ⟨fun c hc => ?_, hok.claims.sharedDistinct⟩
    obtain ⟨row, hrow, hrok⟩ := hok.claims.shared c hc
    exact ⟨row, hrow, hrok.transport rfl (SameShared.of_hit (h1.shared _))⟩
  cases s3
  cases h3.frame
  -- the private source
  have hsrcHits := fun (c : CatalogCapability) (hc : c ∈ record.privateSource) =>
    h2.other c.slot (fun ⟨d, hd, hdc⟩ => hok.privateApart d hd c hc hdc) ▸ h1.priv c.slot
  refine wp_seq (wp_applyPrivateSource (?_ : PrivateSourceOk _ record result
    (result.status = .published))) fun b s4 h4 => ?_
  · have hsource := hok.source
    unfold PrivateSourceOk at hsource ⊢
    cases hps : record.privateSource with
    | none =>
      rw [hps] at hsource
      exact hsource
    | some c =>
      rw [hps] at hsource
      obtain ⟨hkind, hlt, row, hrow, hst, hid, hrev, hrest⟩ := hsource
      obtain ⟨e1, e2, e3, _⟩ := SameOwner.of_hits (hsrcHits c hps)
      exact ⟨hkind, hlt, row, hrow, e1.trans hst, e2.trans hid, e3.trans hrev, hrest⟩
  cases s4
  cases h4.frame
  -- the shared source
  refine wp_seq (wp_applySharedSource (?_ : SharedSourceRow _ record result)) fun _ t h5 => ?_
  · exact hok.sharedSource.row
  cases t
  cases h5.frame
  have hapart : ∀ c ∈ record.privateClaims,
      ¬ sourceSlot record.privateSource c.capability.slot := by
    rintro c hc ⟨d, hd, hdc⟩
    exact hok.privateApart c hc d hd hdc.symm
  have hsapart : ∀ c ∈ record.sharedClaims, ¬ sourceSlot record.sharedSource c.capability.slot := by
    rintro c hc ⟨d, hd, hdc⟩
    exact hok.sharedApart c hc d hd hdc.symm
  refine ⟨rfl, fun c hc row hr => ⟨_, h1.priv _, ?_⟩, fun c hc row hr => ⟨_, h1.shared _, ?_⟩,
    fun c hc row hr => ⟨_, hsrcHits c hc, h4.source c hc row hr⟩,
    fun c hc row hr => ⟨_, h1.shared _, ?_⟩, fun j hj hjs => ?_, fun j hj hjs => ?_,
    h2.cells.trans h4.cells, h4.flag, fun hpend hs => ?_⟩
  · exact (h4.other _ (hapart c hc)).trans (h2.acted c hc row hr)
  · exact (h5.other _ (hsapart c hc)).trans (h3.acted c hc row hr)
  · refine (h5.source c hc row hr).trans (congrArg _ (h3.other _ ?_))
    exact fun ⟨d, hd, hdc⟩ => hok.sharedApart d hd c hc hdc
  · exact (h4.other j hjs).trans (h2.other j hj) ▸ h1.priv j
  · exact (h5.other j hjs).trans (h3.other j hj) ▸ h1.shared j
  · have g2 := h2.sound _ (fun c hc =>
      (SameOwner.of_hits (h1.priv _)).2.1 ▸ (hpend.claims c hc).2.1) (h1.sound _ hs)
    have g3 := h3.sound _ (fun c hc =>
      (SameShared.of_hit (h1.shared _)).2.1 ▸ (hpend.sharedClaims c hc).2.1) hsapart g2
    have hlive := fun c hc => by
      obtain ⟨_, e2, _, e4⟩ := SameOwner.of_hits (hsrcHits c hc)
      have hl := (hpend.source c hc).2
      exact (⟨e2 ▸ hl.1, e4 ▸ hl.2⟩ : CatalogEntry.Live _)
    have g5 := h5.sound _ (h4.sound _ hlive g3)
    refine (g5.congrShared fun k _ => ?_).congrPinned fun k _ => ?_
    · simp [setOn, MaterializationRecord.holding]
    · simp [setOn, MaterializationRecord.holding]

/-! ## What a result reports -/

/-- A private victim after its row. `reused`: the lane that starts publishes in its slot. -/
structure ReportedVictim (before after : CatalogEntry) (row : MaterializationVictimResult)
    (reused : Prop) : Prop where
  evicted : row.disposition = .evicted → ¬ reused → after.state = .vacant ∧ after.Blank
  reserved : row.disposition = .evicted → reused →
    after.state = .reservedForActive ∧ after.handle = none
  retained : row.disposition = .retained → after.state = .catalogued ∧ after.id = before.id ∧
    after.handle = before.handle ∧ after.session = before.session
  uncommitted : row.disposition = .retained → row.pressureCommitted = false →
    after.summary = before.summary
  committed : row.disposition = .retained → row.pressureCommitted = true →
    ∃ final ∈ row.finalSummary, after.summary = { final with activeReferences := 0 }

structure ReportedShared (before after : SharedCatalogEntry)
    (row : MaterializationSharedVictimResult) : Prop where
  evicted : row.disposition = .evicted → after.state = .vacant ∧ after.Blank
  retained : row.disposition = .retained → after.state = .catalogued ∧ after.id = before.id ∧
    after.handle = before.handle
  uncommitted : row.disposition = .retained → row.pressureCommitted = false →
    after.summary = before.summary
  committed : row.disposition = .retained → row.pressureCommitted = true →
    row.finalSummary = some after.summary

/-- The private source after its row: it stays with the summary reported for it, or its slot is
    the one the lane publishes in. -/
structure ReportedSource (before after : CatalogEntry) (row : MaterializationSourceResult) :
    Prop where
  retained : row.mode = .retain → after.state = .catalogued ∧ after.id = before.id ∧
    after.handle = before.handle ∧ after.session = before.session ∧
    after.summary = (row.finalSummary.map fun final => { final with
      activeReferences := 0 }).getD before.summary
  consumed : row.mode = .consumeToActive → after.state = .reservedForActive ∧ after.handle = none

structure ReportedSharedSource (before after : SharedCatalogEntry)
    (row : MaterializationSharedSourceResult) : Prop where
  same : after.state = before.state ∧ after.id = before.id ∧ after.handle = before.handle
  unpinned : before.transactionPins = 1 → after.transactionPins = 0
  summary : after.summary = (row.finalSummary.map fun final => { final with
    activeReferences := 0 }).getD before.summary

/-- Every owner the record names is in the state the result reports. -/
structure Reported (s t : ResourceManager) (record : MaterializationRecord)
    (result : MaterializationResult) : Prop where
  victims : ∀ c ∈ record.privateClaims, ∃ row, PrivateRow result.victims c row ∧
    ReportedVictim (s.catalog c.capability.slot) (t.catalog c.capability.slot) row
      (result.status = .published ∧ c.capability.slot = record.publicationSlot)
  sharedVictims : ∀ c ∈ record.sharedClaims, ∃ row, SharedRow result.sharedVictims c row ∧
    ReportedShared (s.sharedCatalog c.capability.slot) (t.sharedCatalog c.capability.slot) row
  source : ∀ c ∈ record.privateSource, ∃ row ∈ result.source,
    ReportedSource (s.catalog c.slot) (t.catalog c.slot) row
  sharedSource : ∀ c ∈ record.sharedSource, ∃ row ∈ result.sharedSource,
    ReportedSharedSource (s.sharedCatalog c.slot) (t.sharedCatalog c.slot) row

theorem reportedVictim_actedEntry (h : PrivateActionOk s claim published row) (he : UpToHits e e')
    {reused : Prop} (hreused : ¬ reused) : ReportedVictim e (actedEntry row e') row reused := by
  obtain ⟨observations, rfl⟩ := he
  unfold actedEntry
  by_cases hev : row.disposition = .evicted
  · simp only [if_pos hev]
    constructor <;> simp [hev, clearCatalogEntry, CatalogEntry.Blank, hreused]
  · have hret := VictimDisposition.retained_of_ne hev
    cases hcom : row.pressureCommitted with
    | false =>
      constructor <;> simp [hret, hcom]
    | true =>
      obtain ⟨final, hfinal⟩ := Option.isSome_iff_exists.mp (h.retained hret hcom)
      constructor <;> simp [hret, hcom, hfinal, renewed]

/-- The entries agree in what a result reports. -/
def SharedAlike (e e' : SharedCatalogEntry) : Prop :=
  e'.state = e.state ∧ e'.id = e.id ∧ e'.handle = e.handle ∧
    (e.transactionPins = 0 → e'.transactionPins = 0) ∧ e'.summary = e.summary

theorem reportedShared_actedShared {row : MaterializationSharedVictimResult}
    (h : SharedActionOk s claim published row) {e e' after : SharedCatalogEntry}
    (he : UpToHit e e') (hafter : SharedAlike (actedShared row e') after) :
    ReportedShared e after row := by
  obtain ⟨observation, rfl⟩ := he
  obtain ⟨h1, h2, h3, _, h4⟩ := hafter
  suffices ReportedShared e (actedShared row { e with observation }) row by
    obtain ⟨g1, g2, g3, g4⟩ := this
    exact ⟨by simpa only [h1, h2, h3, SharedCatalogEntry.Blank] using g1,
      by simpa only [h1, h2, h3] using g2, by simpa only [h4] using g3,
      by simpa only [h4] using g4⟩
  unfold actedShared
  by_cases hev : row.disposition = .evicted
  · simp only [if_pos hev]
    constructor <;> simp [hev, clearSharedEntry, SharedCatalogEntry.Blank]
  · have hret := VictimDisposition.retained_of_ne hev
    cases hcom : row.pressureCommitted with
    | false =>
      constructor <;> simp [hret, hcom]
    | true =>
      obtain ⟨final, hfinal⟩ := Option.isSome_iff_exists.mp (h.retained hret hcom)
      constructor <;> simp [hret, hcom, hfinal]

theorem reportedSource_sourceEntry (record : MaterializationRecord)
    {row : MaterializationSourceResult} (slot epoch : Nat) (he : UpToHits e e')
    (hmode : row.mode = .retain) : ReportedSource e (sourceEntry record row slot epoch e') row := by
  obtain ⟨observations, rfl⟩ := he
  unfold sourceEntry
  cases hfinal : row.finalSummary with
  | none => constructor <;> simp [hmode, hfinal]
  | some final => constructor <;> simp [hmode, hfinal, renewed]

theorem reportedSharedSource {row : MaterializationSharedSourceResult}
    {e e' after : SharedCatalogEntry} (he : UpToHit e e')
    (hafter : SharedAlike (sharedSourceEntry row e') after) :
    ReportedSharedSource e after row := by
  obtain ⟨observation, rfl⟩ := he
  obtain ⟨h1, h2, h3, h4, h5⟩ := hafter
  obtain ⟨g1, g2, g3, g4⟩ := sharedSourceEntry_same row { e with observation }
  refine ⟨⟨h1.trans g1, h2.trans g2, h3.trans g3⟩, fun hpins => h4 ?_, ?_⟩
  · rw [g4]
    simp [hpins]
  rw [h5]
  unfold sharedSourceEntry
  cases hfinal : row.finalSummary with
  | none => simp
  | some final =>
    by_cases hne : { final with activeReferences := 0 } = e.summary
    · simp [hne]
    · simp [hne]

/-! ## The publication slot of a published result -/

theorem ClaimsOk.eq_of_slot {privateClaims sharedClaims : List OwnerClaim}
    {victims : List MaterializationVictimResult}
    {sharedVictims : List MaterializationSharedVictimResult}
    (h : ClaimsOk s privateClaims sharedClaims published victims sharedVictims) {d : OwnerClaim}
    (hc : c ∈ privateClaims) (hd : d ∈ privateClaims)
    (hslot : c.capability.slot = d.capability.slot) : c = d := by
  have hnd : (privateClaims.map fun a => a.capability.slot).Nodup :=
    List.pairwise_map.mpr h.privDistinct
  exact List.inj_on_of_nodup_map hnd hc hd hslot

section

variable (hok : MaterializationOk s record result)

include hok

/-- A victim in the publication slot of a published result was evicted. -/
theorem MaterializationOk.evicted_of_publication
    (hpub : result.status = .published) (hc : c ∈ record.privateClaims)
    (hslot : c.capability.slot = record.publicationSlot) (hrow : PrivateRow result.victims c row) :
    row.disposition = .evicted := by
  rcases hok.released hpub with ⟨hnone, _⟩ | ⟨⟨source, hsrc, hp⟩, _⟩ | ⟨d, hd, hdslot, hany⟩
  · obtain ⟨_, _, hrok⟩ := hok.claims.priv c hc
    have hlive := hrok.handle
    rw [hslot, hnone] at hlive
    simp at hlive
  · exact absurd (hslot.trans hp) (hok.privateApart c hc source hsrc)
  · obtain rfl : c = d := hok.claims.eq_of_slot hc hd (hslot.trans hdslot.symm)
    rw [← List.head?_filter, hrow] at hany
    simp only [List.head?_cons, Option.any_some, decide_eq_true_eq] at hany
    exact hany.1

/-- The mode a published result reports for the source is the one the record asked for. -/
theorem MaterializationOk.mode_of_published
    (hpub : result.status = .published) {c : CatalogCapability} (hc : c ∈ record.privateSource)
    {row : MaterializationSourceResult} (hrow : row ∈ result.source) :
    row.mode = record.sourceMode := by
  have hsource := hok.source
  unfold PrivateSourceOk at hsource
  rw [Option.mem_def.mp hc] at hsource
  obtain ⟨_, _, row', hrow', _, _, _, _, hmode, _⟩ := hsource
  obtain rfl := Option.mem_unique hrow' hrow
  exact hmode (by simp [hpub])

theorem MaterializationOk.source_row {c : CatalogCapability} (hc : c ∈ record.privateSource) :
    ∃ row, row ∈ result.source ∧ (result.status ≠ .published → row.mode = .retain) := by
  have hsource := hok.source
  unfold PrivateSourceOk at hsource
  rw [Option.mem_def.mp hc] at hsource
  obtain ⟨_, _, row, hrow, _, _, _, hmode, _⟩ := hsource
  exact ⟨row, hrow, fun h => hmode (by simp [h])⟩

theorem MaterializationOk.shared_row
    {c : CatalogCapability} (hc : c ∈ record.sharedSource) : ∃ row, row ∈ result.sharedSource :=
  (hok.sharedSource.row c hc).2

end

/-- The slot a lane is to publish in is neither a victim nor the source, unless that is gone. -/
theorem Settled.publication (h : Settled s t record result b)
    (hok : MaterializationOk s record result) (hfits : record.Fits)
    (hpub : result.status = .published) :
    ((t.catalog record.publicationSlot).handle = none) ∧
    ((PendingOk s record) → ((t.catalog record.publicationSlot).state = .vacant ∨
      (t.catalog record.publicationSlot).state = .claimed) ∧
      (t.catalog record.publicationSlot).session = none) := by
  by_cases hsrc : sourceSlot record.privateSource record.publicationSlot
  · obtain ⟨c, hc, hp⟩ := hsrc
    obtain ⟨row, hrow, _⟩ := hok.source_row hc
    have hmode : row.mode = .consumeToActive := by
      rw [hok.mode_of_published hpub hc hrow]
      cases hm : record.sourceMode with
      | retain => exact absurd hp (hfits.retained hm c hc)
      | consumeToActive => rfl
    obtain ⟨e, ⟨observations, he⟩, ht⟩ := h.source c hc row hrow
    have hcl := hok.claimed
    rw [← hp, ht, he]
    rw [← hp] at hcl
    simp only [sourceEntry, hmode, consumedEntry]
    exact ⟨trivial, fun _ => ⟨.inr hcl, trivial⟩⟩
  by_cases hcl : slotsOf record.privateClaims record.publicationSlot
  · obtain ⟨d, hd, hp⟩ := hcl
    obtain ⟨row, hrow, _⟩ := hok.claims.priv d hd
    have hev := hok.evicted_of_publication hpub hd hp hrow
    obtain ⟨e, _, ht⟩ := h.claim d hd row hrow
    rw [← hp, ht]
    simp [actedEntry, hev, clearCatalogEntry]
  · obtain ⟨observations, he⟩ := h.other _ hcl hsrc
    rw [he]
    refine ⟨?_, fun hpend => ⟨.inr hok.claimed, (hpend.spare hsrc hcl).2.2⟩⟩
    rcases hok.released hpub with ⟨hnone, _⟩ | ⟨⟨c, hc, hp⟩, _⟩ | ⟨d, hd, hp, _⟩
    · exact hnone
    · exact absurd ⟨c, hc, hp.symm⟩ hsrc
    · exact absurd ⟨d, hd, hp⟩ hcl

/-! ## The lane starts -/

/-- A published result was adopted: the lane runs, and nothing is held any more. -/
structure Started (s t : ResourceManager) (record : MaterializationRecord)
    (result : MaterializationResult) : Prop where
  frame : t = { s with
    catalog := t.catalog
    sharedCatalog := t.sharedCatalog
    sessionIndex := t.sessionIndex
    active := t.active
    retentionEpoch := t.retentionEpoch
    publicationEpoch := t.publicationEpoch
    nextContinuationId := t.nextContinuationId
    demandWindow := t.demandWindow
    demandEpoch := t.demandEpoch }
  others : ∀ l ≠ record.destination, t.active l = s.active l
  occupied : (t.active record.destination).occupied = true
  order : (t.active record.destination).publicationOrder = record.publicationOrder
  cells : CellsKept s.sessionIndex t.sessionIndex
  reported : Reported s t record result
  sound : PendingOk s record → Sound s record.holding → Sound t {}

/-- A demand changes no more of an entry than its credit. -/
theorem commitDemand_entry (demand : PrefixDemandRecord) (j : Nat) :
    ∃ credit expiry, (s.commitDemand demand).sharedCatalog j = { s.sharedCatalog j with
      explicitCredit := credit
      creditExpiryEpoch := expiry } := by
  simp only [commitDemand, creditAfter]
  split
  · split <;> exact ⟨_, _, rfl⟩
  · exact ⟨_, _, rfl⟩

theorem Sound.commitDemand {H : Holding} (h : Sound s H) (demand : PrefixDemandRecord) :
    Sound (s.commitDemand demand) H := by
  refine ⟨h.priv, fun j hj => ?_, fun l hl => ?_, h.publisher, h.indexed⟩
  · obtain ⟨_, _, he⟩ := commitDemand_entry demand j (s := s)
    rw [he]
    exact { h.shared j hj with }
  · obtain ⟨g1, g2, g3, g4, g5⟩ := h.lane l hl
    refine ⟨g1, g2, fun a ha => ?_, g4, g5⟩
    obtain ⟨_, _, he⟩ := commitDemand_entry demand a.slot (s := s)
    obtain ⟨hkind, hlt, hst, hid⟩ := g3 a ha
    exact ⟨hkind, hlt, by rw [he]; exact hst, by rw [he]; exact hid⟩

/-- The id a new continuation gets is not 0. -/
theorem freshId_ne_zero (next : UInt64) : next + (if next = 0 then 1 else 0) ≠ 0 := by
  by_cases h : next = 0
  · simp [h]
  · simp [h]

/-- The state a settled result starts its lane in. -/
def ResourceManager.startLane (t : ResourceManager) (record : MaterializationRecord)
    (retained : Bool) : ResourceManager :=
  let u := t.reservePublication record
  (u.setActive record.destination (startedEntry u record retained)).commitDemand record.demand

section

variable (h : Settled s t record result b)

include h

theorem Settled.start_sound (hok : MaterializationOk s record result) (hpend : PendingOk s record)
    (hs : Sound s record.holding) (hpub : result.status = .published) :
    Sound (t.startLane record b) {} := by
  obtain ⟨hhandle, hrest⟩ := h.publication hok hpend.fits hpub
  obtain ⟨hst, hsession⟩ := hrest hpend
  have hsound := h.sound hpend hs
  have hn : t.catalogCount = s.catalogCount := by rw [h.frame]
  have hm : t.sharedCatalogCount = s.sharedCatalogCount := by rw [h.frame]
  have hl : t.laneCount = s.laneCount := by rw [h.frame]
  have ha : t.active = s.active := by rw [h.frame]
  have hp : record.publicationSlot < t.catalogCount := hn ▸ hok.publication
  have hun : Unnamed t.catalogCount t.sessionIndex record.publicationSlot :=
    hsound.indexed.unnamed_of_no_session hsession
  -- the retained source is catalogued, so it is not the publication slot
  have hret : b = true → ∀ c ∈ record.privateSource, c.slot ≠ record.publicationSlot ∧
      c.slot < t.catalogCount ∧ (t.catalog c.slot).state = .catalogued := by
    intro hb c hc
    obtain ⟨_, hany, _⟩ := h.flag hb
    obtain ⟨row, hrow, _⟩ := hok.source_row hc
    rw [Option.mem_def.mp hrow] at hany
    have hmode : row.mode = .retain := by simpa using hany
    obtain ⟨e, he, ht⟩ := h.source c hc row hrow
    have hcat : (t.catalog c.slot).state = .catalogued := by
      rw [ht]
      exact ((reportedSource_sourceEntry _ _ _ he hmode).retained hmode).1
    refine ⟨fun heq => ?_, hn ▸ (hpend.source c hc).1, hcat⟩
    rw [heq] at hcat
    rcases hst with hs | hs <;> rw [hs] at hcat <;> simp at hcat
  have hshared : ∀ c ∈ record.sharedSource, c.slot < t.sharedCatalogCount ∧
      (t.sharedCatalog c.slot).state = .catalogued := by
    intro c hc
    obtain ⟨row, hrow⟩ := hok.shared_row hc
    obtain ⟨hlt, hcat⟩ := hpend.sharedSource c hc
    obtain ⟨e, ⟨observation, he⟩, ht⟩ := h.sharedSource c hc row hrow
    refine ⟨hm ▸ hlt, ?_⟩
    rw [ht, (sharedSourceEntry_same row e).1, he]
    exact hcat
  refine Sound.commitDemand ?_ _
  have hact := hsound.activate (l := record.destination) (j := record.publicationSlot)
    (a := startedEntry (t.reservePublication record) record b)
    (e := (t.reservePublication record).catalog record.publicationSlot)
    (hl ▸ hok.destination) (by rw [ha]; exact hok.idle) hp hst hun
    (by simp [reservePublication, setEntry])
    (by
      simp only [reservePublication, setEntry, update_self]
      exact freshId_ne_zero _)
    (by simpa [reservePublication, setEntry] using hhandle)
    rfl rfl rfl ?_ ?_ ?_
  · have htr : Sound ((t.reservePublication record).setActive record.destination
        (startedEntry (t.reservePublication record) record b)) _ :=
      hact.transfer (by simp [tables, setActive, reservePublication, setEntry])
    refine htr.congrPriv fun j _ => ?_
    -- a consumed source is the publication slot
    simp only [setOn, MaterializationRecord.NamesPrivate, iff_false, not_or, not_and]
    refine ⟨fun _ hf => hf, fun hjp => ⟨fun hsrc hany => ?_, fun hsrc => ?_⟩⟩
    · obtain ⟨c, hc, hcj⟩ := hsrc
      obtain ⟨row, hrow, _⟩ := hok.source_row hc
      rw [Option.mem_def.mp hrow] at hany
      have hmode : row.mode = .consumeToActive := by simpa using hany
      have hsm := hok.mode_of_published hpub hc hrow
      exact hjp (hcj.symm.trans (hpend.fits.consumed (hsm.symm.trans hmode) c hc))
    · refine ⟨fun _ hf => hf, fun hcl => ⟨hsrc, hcl, hjp⟩⟩
  · intro edge hedge
    cases hb : b with
    | false =>
      rw [hb] at hedge
      have hnone : (t.active record.destination).retainedPrivateSource = none := by
        rw [ha]; exact hok.noRetained
      simp [startedEntry, reservePublication, setEntry, hnone] at hedge
    | true =>
      rw [hb] at hedge
      simp only [startedEntry, if_true, Option.mem_def, Option.map_eq_some_iff] at hedge
      obtain ⟨c, hc, rfl⟩ := hedge
      obtain ⟨hne, hlt, hcat⟩ := hret hb c hc
      refine ⟨rfl, hlt, hcat, ?_⟩
      simp [activeEdge, privateCapability, reservePublication, setEntry, update_of_ne hne]
  · intro edge hedge
    have hnone : (t.active record.destination).sharedSources = [] := by
      rw [ha]; exact hok.noShared
    simp only [startedEntry, reservePublication, setEntry, hnone,
      List.nil_append, Option.mem_toList, Option.map_eq_some_iff] at hedge
    obtain ⟨c, hc, rfl⟩ := hedge
    obtain ⟨hlt, hcat⟩ := hshared c hc
    exact ⟨rfl, hlt, hcat, rfl⟩
  · have hnone : (t.active record.destination).sharedSources = [] := by
      rw [ha]; exact hok.noShared
    cases hsrc : record.sharedSource <;>
      simp [startedEntry, reservePublication, setEntry, hnone, hsrc]

/-- No victim of a settled result is still claimed. -/
theorem Settled.claim_settled
    (hok : MaterializationOk s record result) (hc : c ∈ record.privateClaims) :
    (t.catalog c.capability.slot).state ≠ .claimed := by
  obtain ⟨row, hrow, hrok⟩ := hok.claims.priv c hc
  obtain ⟨e, he, ht⟩ := h.claim c hc row hrow
  have hrep := reportedVictim_actedEntry hrok he id
  rw [ht]
  cases hd : row.disposition with
  | evicted => simp [(hrep.evicted hd id).1]
  | retained => simp [(hrep.retained hd).1]

theorem Settled.shared_settled
    (hok : MaterializationOk s record result) (hc : c ∈ record.sharedClaims) :
    (t.sharedCatalog c.capability.slot).state ≠ .claimed := by
  obtain ⟨row, hrow, hrok⟩ := hok.claims.shared c hc
  obtain ⟨e, he, ht⟩ := h.sharedClaim c hc row hrow
  have hrep := reportedShared_actedShared hrok he ⟨rfl, rfl, rfl, id, rfl⟩
  rw [ht]
  cases hd : row.disposition with
  | evicted => simp [(hrep.evicted hd).1]
  | retained => simp [(hrep.retained hd).1]

/-- Nor is the source of one that was not published. -/
theorem Settled.source_settled
    (hok : MaterializationOk s record result) (hnp : result.status ≠ .published)
    {c : CatalogCapability} (hc : c ∈ record.privateSource) :
    (t.catalog c.slot).state ≠ .claimed := by
  obtain ⟨row, hrow, hmode⟩ := hok.source_row hc
  obtain ⟨e, he, ht⟩ := h.source c hc row hrow
  rw [ht, ((reportedSource_sourceEntry _ _ _ he (hmode hnp)).retained (hmode hnp)).1]
  simp

/-- The entries of a settled result stay what they are, but for the publication slot. -/
theorem Settled.reported
    (hok : MaterializationOk s record result) (hfits : record.Fits) {u : ResourceManager}
    (hcat : ∀ j, (result.status = .published → j ≠ record.publicationSlot) →
      (t.catalog j).state ≠ .claimed → u.catalog j = t.catalog j)
    (hpub : result.status = .published →
      (u.catalog record.publicationSlot).state = .reservedForActive ∧
        (u.catalog record.publicationSlot).handle = none)
    (hshared : ∀ j, SharedAlike (t.sharedCatalog j) (u.sharedCatalog j)) :
    Reported s u record result := by
  refine ⟨fun c hc => ?_, fun c hc => ?_, fun c hc => ?_, fun c hc => ?_⟩
  · obtain ⟨row, hrow, hrok⟩ := hok.claims.priv c hc
    obtain ⟨e, he, ht⟩ := h.claim c hc row hrow
    refine ⟨row, hrow, ?_⟩
    by_cases hreused : result.status = .published ∧ c.capability.slot = record.publicationSlot
    · obtain ⟨hp, hslot⟩ := hreused
      have hev := hok.evicted_of_publication hp hc hslot hrow
      have hres := hpub hp
      rw [← hslot] at hres
      refine ⟨fun _ hn => absurd ⟨hp, hslot⟩ hn, fun _ _ => hres, ?_, ?_, ?_⟩ <;> simp [hev]
    · rw [hcat _ (fun hp heq => hreused ⟨hp, heq⟩) (h.claim_settled hok hc), ht]
      exact reportedVictim_actedEntry hrok he hreused
  · obtain ⟨row, hrow, hrok⟩ := hok.claims.shared c hc
    obtain ⟨e, he, ht⟩ := h.sharedClaim c hc row hrow
    exact ⟨row, hrow, reportedShared_actedShared hrok he (ht ▸ hshared _)⟩
  · obtain ⟨row, hrow, hmode⟩ := hok.source_row hc
    obtain ⟨e, he, ht⟩ := h.source c hc row hrow
    refine ⟨row, hrow, ?_⟩
    cases hm : row.mode with
    | retain =>
      have hrep := reportedSource_sourceEntry record c.slot s.publicationEpoch he hm
      have hcatalogued : (t.catalog c.slot).state = .catalogued := by
        rw [ht]
        exact (hrep.retained hm).1
      rw [hcat c.slot (fun hp heq => ?_) (by simp [hcatalogued]), ht]
      · exact hrep
      · exact hfits.retained ((hok.mode_of_published hp hc hrow).symm.trans hm) c hc heq
    | consumeToActive =>
      have hp : result.status = .published := by
        by_contra hne
        rw [hmode hne] at hm
        simp at hm
      have hslot := hfits.consumed ((hok.mode_of_published hp hc hrow).symm.trans hm) c hc
      have hres := hpub hp
      rw [← hslot] at hres
      exact ⟨by simp [hm], fun _ => hres⟩
  · obtain ⟨row, hrow⟩ := hok.shared_row hc
    obtain ⟨e, he, ht⟩ := h.sharedSource c hc row hrow
    exact ⟨row, hrow, reportedSharedSource he (ht ▸ hshared _)⟩

theorem Settled.started (hok : MaterializationOk s record result) (hfits : record.Fits)
    (hpub : result.status = .published) : Started s (t.startLane record b) record result := by
  refine ⟨?_, fun l hl => ?_, ?_, ?_, h.cells, ?_, fun hpend hs => h.start_sound hok hpend hs hpub⟩
  · cases t
    cases h.frame
    rfl
  · cases t
    cases h.frame
    exact update_of_ne hl _ _
  · simp [startLane, commitDemand, setActive, startedEntry]
  · simp [startLane, commitDemand, setActive, startedEntry]
  · refine h.reported hok hfits (fun j hj _ => update_of_ne (hj hpub) _ _) (fun _ => ?_) fun j => ?_
    · have := (h.publication hok hfits hpub).1
      simpa [startLane, commitDemand, setActive, reservePublication, setEntry] using this
    · obtain ⟨_, _, he⟩ := commitDemand_entry record.demand j
      exact he ▸ ⟨rfl, rfl, rfl, id, rfl⟩

end

/-! ## The lane is given up -/

/-- An aborted result was adopted: the lane is free, and nothing is held any more. -/
structure Abandoned (s t : ResourceManager) (record : MaterializationRecord)
    (result : MaterializationResult) : Prop where
  frame : t = { s with
    catalog := t.catalog
    sharedCatalog := t.sharedCatalog
    sessionIndex := t.sessionIndex
    retentionEpoch := t.retentionEpoch
    publicationEpoch := t.publicationEpoch
    lanes := update s.lanes record.destination .free
    transaction := .none }
  cells : CellsKept s.sessionIndex t.sessionIndex
  reported : Reported s t record result
  sound : PendingOk s record → Sound s record.holding → Sound t {}

theorem setEntry_restored {j : Nat} (hst : (s.catalog j).state ≠ .claimed) :
    s.setEntry j (restoredEntry (s.catalog j)) = s := by
  simp [setEntry, restoredEntry, hst]

theorem setShared_restored {j : Nat} (hst : (s.sharedCatalog j).state ≠ .claimed) :
    s.setSharedEntry j (restoredShared (s.sharedCatalog j)) = s := by
  simp [setSharedEntry, restoredShared, hst]

theorem foldl_same {σ α : Type} {f : σ → α → σ} {x : σ} {l : List α} (h : ∀ a ∈ l, f x a = x) :
    l.foldl f x = x := by
  induction l with
  | nil => rfl
  | cons a l ih =>
    rw [List.foldl_cons, h a (by simp)]
    exact ih fun b hb => h b (by simp [hb])

/-- The pins of an aborted record are dropped once more; there are none left. -/
def ResourceManager.unpinSource (t : ResourceManager) (record : MaterializationRecord) :
    ResourceManager :=
  record.sharedSource.elim t fun c => t.unpinShared c.slot

theorem alike_unpinSource (record : MaterializationRecord) (j : Nat) :
    SharedAlike (t.sharedCatalog j) ((t.unpinSource record).sharedCatalog j) := by
  unfold unpinSource
  cases record.sharedSource with
  | none => exact ⟨rfl, rfl, rfl, id, rfl⟩
  | some c =>
    by_cases hj : j = c.slot
    · subst hj
      simp only [SharedAlike, Option.elim_some, unpinShared,
        setSharedEntry, update_self, true_and, and_true]
      omega
    · simp [SharedAlike, unpinShared, setSharedEntry, update_of_ne hj]

theorem unpinSource_self
    (hpins : ∀ c ∈ record.sharedSource, (t.sharedCatalog c.slot).transactionPins = 0) :
    t.unpinSource record = t := by
  unfold unpinSource
  cases hss : record.sharedSource with
  | none => rfl
  | some c =>
    have hz : (t.sharedCatalog c.slot).transactionPins - 1 =
        (t.sharedCatalog c.slot).transactionPins := by rw [hpins c hss]
    show t.unpinShared c.slot = t
    rw [unpinShared, hz]
    simp [setSharedEntry]

section

variable (h : Settled s t record result b)

include h

/-- After a settled result only a spare publication slot is left to restore. -/
theorem Settled.restored
    (hok : MaterializationOk s record result) (hnp : result.status ≠ .published) :
    t.restoreUnreportedMaterialization record =
      if (t.catalog record.publicationSlot).state = .claimed ∧
          (t.catalog record.publicationSlot).id = 0 ∧
          (t.catalog record.publicationSlot).handle = none then
        (t.unpinSource record).setCatalogState record.publicationSlot .vacant
      else t.unpinSource record := by
  have h1 : (record.privateSource.elim t fun c =>
      t.setEntry c.slot (restoredEntry (t.catalog c.slot))) = t := by
    cases hps : record.privateSource with
    | none => rfl
    | some c => exact setEntry_restored (h.source_settled hok hnp hps)
  have hcat : (t.unpinSource record).catalog = t.catalog := by
    unfold unpinSource
    cases record.sharedSource <;> rfl
  have h2 : record.privateClaims.foldl (fun s c => s.setEntry c.capability.slot
      (restoredEntry (s.catalog c.capability.slot))) (t.unpinSource record) =
        t.unpinSource record :=
    foldl_same fun c hc => setEntry_restored (hcat ▸ h.claim_settled hok hc)
  have h3 : record.sharedClaims.foldl (fun s c => s.setSharedEntry c.capability.slot
      (restoredShared (s.sharedCatalog c.capability.slot))) (t.unpinSource record) =
        t.unpinSource record :=
    foldl_same fun c hc => setShared_restored (by
      rw [(alike_unpinSource record _).1]
      exact h.shared_settled hok hc)
  unfold restoreUnreportedMaterialization
  simp only [h1]
  unfold unpinSource at hcat h2 h3
  simp only [h2, h3, hcat]
  rfl

section

variable (hok : MaterializationOk s record result)

include hok

/-- Only a spare publication slot is still held when an aborted result was settled. -/
theorem Settled.claimed_iff (hpend : PendingOk s record)
    (hs : Sound s record.holding) (hnp : result.status ≠ .published) :
    ∀ j < t.catalogCount, (t.catalog j).state = .claimed ↔
      (j = record.publicationSlot ∧ ¬ sourceSlot record.privateSource j ∧
        ¬ slotsOf record.privateClaims j) := by
  intro j hj
  constructor
  · intro hcl
    have hsrc : ¬ sourceSlot record.privateSource j := by
      rintro ⟨c, hc, rfl⟩
      exact h.source_settled hok hnp hc hcl
    have hncl : ¬ slotsOf record.privateClaims j := by
      rintro ⟨c, hc, rfl⟩
      exact h.claim_settled hok hc hcl
    rw [((h.sound hpend hs).priv j hj).claimed] at hcl
    rcases hcl with ⟨hx, _⟩ | ⟨_, ⟨_, hf⟩ | ⟨_, hx | hx | hx⟩⟩
    · exact absurd hx hsrc
    · exact hf.elim
    · exact absurd hx hsrc
    · exact absurd hx hncl
    · exact ⟨hx, hsrc, hncl⟩
  · rintro ⟨hp, hsrc, hncl⟩
    rw [((h.sound hpend hs).priv j hj).claimed]
    exact .inr ⟨hsrc, .inr ⟨hncl, .inr (.inr hp)⟩⟩

theorem Settled.abandon_sound (hpend : PendingOk s record)
    (hs : Sound s record.holding) (hnp : result.status ≠ .published) :
    Sound (((t.restoreUnreportedMaterialization record).setLane record.destination
      .free).setTransaction .none) {} := by
  have hn : t.catalogCount = s.catalogCount := by rw [h.frame]
  have hm : t.sharedCatalogCount = s.sharedCatalogCount := by rw [h.frame]
  have hsound := h.sound hpend hs
  have hheld := h.claimed_iff hok hpend hs hnp
  have hpins : t.unpinSource record = t := unpinSource_self fun c hc =>
    (hsound.shared _ (hm ▸ (hpend.sharedSource c hc).1)).unpinned id
  rw [h.restored hok hnp, hpins]
  by_cases hcl : (t.catalog record.publicationSlot).state = .claimed
  · obtain ⟨_, hsrc, hncl⟩ := (hheld _ (hn ▸ hok.publication)).mp hcl
    have hb : (t.catalog record.publicationSlot).Blank := by
      obtain ⟨observations, he⟩ := h.other _ hncl hsrc
      rw [he]
      exact hpend.spare hsrc hncl
    rw [if_pos ⟨hcl, hb.1, hb.2.1⟩]
    have hv := hsound.vacate (hn ▸ hok.publication) hcl hb
    have htr : Sound (((t.setCatalogState record.publicationSlot .vacant).setLane
        record.destination .free).setTransaction .none) _ :=
      hv.transfer rfl
    refine htr.congrPriv fun j hj => ?_
    have hj' := hheld j hj
    rw [(hsound.priv j hj).claimed] at hj'
    simp only [setOn, and_false, false_or] at hj' ⊢
    simp only [hj', iff_false, not_and]
    exact fun hne hp => absurd hp hne
  · rw [if_neg fun hx => hcl hx.1]
    have htr : Sound ((t.setLane record.destination .free).setTransaction .none) _ :=
      hsound.transfer rfl
    refine htr.congrPriv fun j hj => ?_
    have hj' := hheld j hj
    rw [(hsound.priv j hj).claimed] at hj'
    rw [hj', iff_false]
    rintro ⟨rfl, hsrc, hncl⟩
    exact hcl ((hheld _ hj).mpr ⟨rfl, hsrc, hncl⟩)

theorem Settled.abandoned (hfits : record.Fits)
    (hab : result.status = .aborted) :
    Abandoned s (((t.restoreUnreportedMaterialization record).setLane record.destination
      .free).setTransaction .none) record result := by
  have hnp : result.status ≠ .published := by simp [hab]
  have hunpin : t.unpinSource record = { t with
      sharedCatalog := (t.unpinSource record).sharedCatalog } := by
    unfold unpinSource
    cases record.sharedSource <;> rfl
  have hrestored := h.restored hok hnp
  have hindex : (t.restoreUnreportedMaterialization record).sessionIndex = t.sessionIndex := by
    rw [hrestored]
    split <;> rw [hunpin]
    rfl
  refine ⟨?_, ?_, ?_, fun hpend hs => h.abandon_sound hok hpend hs hnp⟩
  · unfold setTransaction setLane
    rw [hrestored]
    split
    · unfold setCatalogState setEntry
      rw [hunpin, h.frame]
    · rw [hunpin, h.frame]
  · show CellsKept s.sessionIndex (t.restoreUnreportedMaterialization record).sessionIndex
    rw [hindex]
    exact h.cells
  · refine h.reported hok hfits (fun j _ hj => ?_) (fun hp => absurd hp hnp) fun j => ?_
    · show (t.restoreUnreportedMaterialization record).catalog j = t.catalog j
      rw [hrestored]
      split
      · next hcl =>
        have hne : j ≠ record.publicationSlot := by
          rintro rfl
          exact hj hcl.1
        rw [hunpin]
        simp [setCatalogState, setEntry, update_of_ne hne]
      · rw [hunpin]
    · show SharedAlike (t.sharedCatalog j)
        ((t.restoreUnreportedMaterialization record).sharedCatalog j)
      rw [hrestored]
      split <;> exact alike_unpinSource record j

end

end

/-- A result that passed the checks is applied to its end. -/
def Applied (s t : ResourceManager) (record : MaterializationRecord)
    (result : MaterializationResult) : MaterializationOutcome → Prop
  | .published activation => result.status = .published ∧
      activation.destination = record.destination ∧ Started s t record result
  | .aborted => result.status = .aborted ∧ Abandoned s t record result

theorem wp_applyMaterialization (hok : MaterializationOk s record result) (hfits : record.Fits) :
    wp (applyMaterialization record result)
      ⟨fun o t => Applied s t record result o, fun _ _ => False, False⟩ s := by
  refine wp_seq (wp_settleMaterialization hok) fun b t ht => ?_
  rw [wp_ite]
  refine ⟨fun hab => ⟨hab, ht.abandoned hok hfits hab⟩, fun hnab => ?_⟩
  have hpub : result.status = .published := by
    cases hst : result.status with
    | inProgress => exact absurd hst hok.terminal
    | published => rfl
    | aborted => exact absurd hst hnab
  obtain ⟨start, hstart⟩ := Option.isSome_iff_exists.mp (hok.started.mp hpub)
  simp only [wp_bind, wp_modify, wp_deref, hstart, Option.some.injEq, forall_eq', reduceCtorEq,
    false_implies, and_true, wp_pure]
  exact ⟨hpub, rfl, ht.started hok hfits hpub⟩

end Ninfer.Resources
