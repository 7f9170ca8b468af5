/-
  The rules of a materialization result, part by part.

  `MaterializationOk` collects what a result that passed `checkMaterialization` is known to
  satisfy; `checks_checkMaterialization` says that the checks only read. The rest are the rules of
  the changes: the selected hit, the private source and the shared source, each with the entries
  it leaves, what it does not touch, and how the tables stay sound.
-/
import Ninfer.Resources.ActionRules

namespace Ninfer.Resources

open Lib Function ResourceManager

variable {s : ResourceManager}

/-! ## The manifest of a record -/

variable {claims : List OwnerClaim} {published : Bool} {victims : List MaterializationVictimResult}
  {record : MaterializationRecord} {result : MaterializationResult}

/-- No row repeats the planning id or the capability of an earlier one. -/
theorem pairwise_of_firstOfManifest (h : ∀ p ∈ claims.zipIdx, FirstOfManifest claims p.2 p.1) :
    claims.Pairwise fun a b => ¬ (a.planningId = b.planningId ∨ a.capability = b.capability) := by
  rw [List.pairwise_iff_getElem]
  intro i j hi hj hij
  have hmem : (claims[j], j) ∈ claims.zipIdx := by
    rw [List.mk_mem_zipIdx_iff_getElem?]
    exact List.getElem?_eq_getElem hj
  refine h _ hmem claims[i] ?_
  rw [List.mem_take_iff_getElem]
  exact ⟨i, by omega, rfl⟩

/-- Claims whose capabilities were read off one catalogue have distinct slots. -/
theorem distinct_slots (of : Nat → CatalogCapability)
    (hof : ∀ c ∈ claims, c.capability = of c.capability.slot)
    (h : claims.Pairwise fun a b =>
      ¬ (a.planningId = b.planningId ∨ a.capability = b.capability)) :
    claims.Pairwise fun a b => a.capability.slot ≠ b.capability.slot := by
  refine h.imp_of_mem fun {a b} ha hb hab hslot => hab (.inr ?_)
  rw [hof a ha, hof b hb, hslot]

theorem capability_eq {c : CatalogCapability} {kind : LogicalOwnerKind} {id revision : UInt64}
    (hk : c.owner.kind = kind) (hid : id = c.owner.id) (hr : revision = c.generation) :
    c = ⟨⟨kind, id⟩, c.slot, revision⟩ := by
  rw [← hk, hid, hr]

/-- The rows of a record's claims, as both adoptions check them. -/
structure ClaimsOk (s : ResourceManager) (privateClaims sharedClaims : List OwnerClaim)
    (published : Bool) (victims : List MaterializationVictimResult)
    (sharedVictims : List MaterializationSharedVictimResult) : Prop where
  priv : ∀ c ∈ privateClaims, ∃ row, PrivateRow victims c row ∧ PrivateActionOk s c published row
  shared : ∀ c ∈ sharedClaims, ∃ row, SharedRow sharedVictims c row ∧
    SharedActionOk s c published row
  privDistinct : privateClaims.Pairwise fun a b => a.capability.slot ≠ b.capability.slot
  sharedDistinct : sharedClaims.Pairwise fun a b => a.capability.slot ≠ b.capability.slot

theorem checks_privateActions {what : String} : Checks (Eff.forEach claims fun claim => do
        let row ← privateResultFor what victims claim
        validatePrivateAction claim published row) s fun _ =>
      ∀ c ∈ claims, ∃ row, PrivateRow victims c row ∧ PrivateActionOk s c published row := by
  refine .forEach fun c _ => checks_resultFor.bind fun row hrow => ?_
  exact (checks_validatePrivateAction c published row).mono fun _ hok => ⟨row, hrow, hok⟩

theorem checks_sharedActions {what : String} {victims : List MaterializationSharedVictimResult} :
    Checks (Eff.forEach claims fun claim => do
        let row ← sharedResultFor what victims claim
        validateSharedAction claim published row) s fun _ =>
      ∀ c ∈ claims, ∃ row, SharedRow victims c row ∧ SharedActionOk s c published row := by
  refine .forEach fun c _ => checks_resultFor.bind fun row hrow => ?_
  exact (checks_validateSharedAction c published row).mono fun _ hok => ⟨row, hrow, hok⟩

theorem ClaimsOk.of_rows {privateClaims sharedClaims : List OwnerClaim}
    {sharedVictims : List MaterializationSharedVictimResult}
    (hp : ∀ c ∈ privateClaims, ∃ row, PrivateRow victims c row ∧ PrivateActionOk s c published row)
    (hs : ∀ c ∈ sharedClaims, ∃ row, SharedRow sharedVictims c row ∧
      SharedActionOk s c published row)
    (hpm : ∀ p ∈ privateClaims.zipIdx, FirstOfManifest privateClaims p.2 p.1)
    (hsm : ∀ p ∈ sharedClaims.zipIdx, FirstOfManifest sharedClaims p.2 p.1) :
    ClaimsOk s privateClaims sharedClaims published victims sharedVictims := by
  refine ⟨hp, hs, distinct_slots s.privateCapability (fun c hc => ?_)
    (pairwise_of_firstOfManifest hpm), distinct_slots s.sharedCapability (fun c hc => ?_)
    (pairwise_of_firstOfManifest hsm)⟩
  · obtain ⟨row, _, hok⟩ := hp c hc
    exact capability_eq hok.kind hok.id hok.revision
  · obtain ⟨row, _, hok⟩ := hs c hc
    exact capability_eq hok.kind hok.id hok.revision

/-! ## The result of a materialization -/

/-- The private source of the record has a row that agrees with it. -/
def PrivateSourceOk (s : ResourceManager) (record : MaterializationRecord)
    (result : MaterializationResult) (published : Bool) : Prop :=
  match record.privateSource with
  | none => result.source = none
  | some source => source.owner.kind = .privateContinuation ∧ source.slot < s.catalogCount ∧
      ∃ row, result.source = some row ∧ PrivateSourceAgrees s record published source row

/-- The shared source of the record has a row, and is pinned and unchanged. -/
def SharedSourceOk (s : ResourceManager) (record : MaterializationRecord)
    (result : MaterializationResult) (published : Bool) : Prop :=
  match record.sharedSource with
  | none => result.sharedSource = none
  | some source => source.owner.kind = .sharedPrefix ∧ source.slot < s.sharedCatalogCount ∧
      (s.sharedCatalog source.slot).transactionPins ≠ 0 ∧
      (s.sharedCatalog source.slot).id = source.owner.id ∧
      (s.sharedCatalog source.slot).revision = source.generation ∧
      ∃ row, result.sharedSource = some row ∧ ∀ final ∈ row.finalSummary,
        validSharedPrefixSummary final ∧ final = expectedSharedSource
          (s.sharedCatalog source.slot).summary
          (if published then s.sharedActiveEdgeCount source.slot + 1
            else s.sharedActiveEdgeCount source.slot) final

structure MaterializationOk (s : ResourceManager) (record : MaterializationRecord)
    (result : MaterializationResult) : Prop where
  terminal : result.status ≠ .inProgress
  started : result.status = .published ↔ result.published.isSome
  destination : record.destination < s.laneCount
  materializing : s.lanes record.destination = .materializing
  idle : (s.active record.destination).occupied = false
  noRetained : (s.active record.destination).retainedPrivateSource = none
  noShared : (s.active record.destination).sharedSources = []
  publication : record.publicationSlot < s.catalogCount
  claimed : (s.catalog record.publicationSlot).state = .claimed
  claims : ClaimsOk s record.privateClaims record.sharedClaims (result.status = .published)
    result.victims result.sharedVictims
  privateApart : ∀ c ∈ record.privateClaims, ∀ source ∈ record.privateSource,
    c.capability.slot ≠ source.slot
  sharedApart : ∀ c ∈ record.sharedClaims, ∀ source ∈ record.sharedSource,
    c.capability.slot ≠ source.slot
  source : PrivateSourceOk s record result (result.status = .published)
  sharedSource : SharedSourceOk s record result (result.status = .published)
  released : result.status = .published → PublicationReleased s record result

theorem checks_checkPrivateSource (record : MaterializationRecord) (result : MaterializationResult)
    (published : Bool) :
    Checks (checkPrivateSource record result published) s fun _ =>
      PrivateSourceOk s record result published := by
  unfold checkPrivateSource PrivateSourceOk
  cases record.privateSource with
  | none => exact .require
  | some source =>
    refine Checks.require.bind fun _ hkind => Checks.require.mono fun _ hrow => ?_
    obtain ⟨row, hmem, hagree⟩ := hrow
    exact ⟨hkind.1, hkind.2, row, hmem, hagree⟩

theorem checks_checkSharedSource (record : MaterializationRecord) (result : MaterializationResult)
    (published : Bool) :
    Checks (checkSharedSource record result published) s fun _ =>
      SharedSourceOk s record result published := by
  unfold checkSharedSource SharedSourceOk
  cases record.sharedSource with
  | none => exact .require
  | some source =>
    refine Checks.require.bind fun _ hkind => Checks.require.bind fun _ hpin =>
      Checks.require.mono fun _ hfin => ?_
    obtain ⟨hsome, hp, hid, hr, _⟩ := hpin
    obtain ⟨row, hrow⟩ := Option.isSome_iff_exists.mp hsome
    exact ⟨hkind.1, hkind.2, hp, hid, hr, row, hrow, fun final hf => hfin row hrow final hf⟩

theorem checks_checkMaterialization (record : MaterializationRecord)
    (result : MaterializationResult) :
    Checks (checkMaterialization record result) s fun _ => MaterializationOk s record result := by
  refine Checks.require.bind fun _ hterm => Checks.require.bind fun _ _ =>
    Checks.require.bind fun _ hpub => Checks.require.bind fun _ hdest => ?_
  refine (Checks.forEach fun p _ => Checks.require).bind fun _ hprivate => ?_
  refine Checks.bind (.forEach fun p _ => .bind .require fun _ _ => .require) fun _ hshared => ?_
  refine checks_privateActions.bind fun _ hprows => checks_sharedActions.bind fun _ hsrows => ?_
  refine (checks_checkPrivateSource record result _).bind fun _ hsource =>
    (checks_checkSharedSource record result _).bind fun _ hssource =>
    Checks.require.mono fun _ hrel => ?_
  obtain ⟨hd, hmat, hidle, hnr, hns, hplt, hcl⟩ := hdest
  have hmem : ∀ {l : List OwnerClaim} {c : OwnerClaim}, c ∈ l → ∃ i, (c, i) ∈ l.zipIdx := by
    intro l c hc
    obtain ⟨i, hi, rfl⟩ := List.getElem_of_mem hc
    exact ⟨i, by rw [List.mk_mem_zipIdx_iff_getElem?]; exact List.getElem?_eq_getElem hi⟩
  refine ⟨hterm, ?_, hd, hmat, hidle, hnr, hns, hplt, hcl,
    ClaimsOk.of_rows hprows hsrows (fun p hp => (hprivate p hp).2) (fun p hp => (hshared p hp).2),
    fun c hc => ?_, fun c hc => ?_, hsource, hssource, fun h => hrel (by simpa using h)⟩
  · rw [← hpub]
    simp
  · obtain ⟨i, hi⟩ := hmem hc
    exact (hprivate _ hi).1
  · obtain ⟨i, hi⟩ := hmem hc
    exact (hshared _ hi).1

/-! ## The selected hit -/

/-- Only the observations and the retention epoch may differ. -/
structure OnlyHit (s t : ResourceManager) : Prop where
  frame : t = { s with
    catalog := t.catalog
    sharedCatalog := t.sharedCatalog
    retentionEpoch := t.retentionEpoch }
  priv : ∀ j, ∃ observations, t.catalog j = { s.catalog j with observations }
  shared : ∀ j, ∃ observation, t.sharedCatalog j = { s.sharedCatalog j with observation }
  sound : ∀ H, Sound s H → Sound t H

theorem OnlyHit.refl (s : ResourceManager) : OnlyHit s s :=
  ⟨rfl, fun j => ⟨(s.catalog j).observations, rfl⟩,
    fun j => ⟨(s.sharedCatalog j).observation, rfl⟩, fun _ h => h⟩

theorem onlyHit_observeSelectedHit (record : MaterializationRecord) :
    OnlyHit s (s.observeSelectedHit record) := by
  unfold observeSelectedHit
  split
  · exact OnlyHit.refl s
  · next key _ =>
    split
    · dsimp only
      split
      · next hkey =>
        refine ⟨rfl, fun j => ⟨(s.catalog j).observations, rfl⟩, fun j => ?_, fun H hs => ?_⟩
        · by_cases hj : j = key.slot
          · subst hj
            exact ⟨_, by simp [setSharedEntry]; rfl⟩
          · exact ⟨(s.sharedCatalog j).observation, by simp [setSharedEntry, hj]⟩
        · exact hs.tuneShared hkey.1 rfl rfl rfl rfl rfl
      · exact OnlyHit.refl s
    · dsimp only
      split
      · next hkey =>
        refine ⟨rfl, fun j => ?_, fun j => ⟨(s.sharedCatalog j).observation, rfl⟩, fun H hs => ?_⟩
        · by_cases hj : j = key.slot
          · subst hj
            exact ⟨_, by simp [setEntry]; rfl⟩
          · exact ⟨(s.catalog j).observations, by simp [setEntry, hj]⟩
        · exact hs.tune hkey.1 rfl rfl rfl rfl rfl fun _ => rfl
      · exact OnlyHit.refl s

/-! ## Sources -/

/-- The entry of the private source after its row. -/
def sourceEntry (record : MaterializationRecord) (row : MaterializationSourceResult)
    (slot epoch : Nat)
    (e : CatalogEntry) : CatalogEntry :=
  match row.mode, row.finalSummary with
  | .consumeToActive, _ => consumedEntry e (record.publicationSlot = slot)
  | .retain, none => { e with state := .catalogued }
  | .retain, some summary => { renewed e summary e.retention with
      publishedEpoch := epoch + 1
      state := .catalogued }

/-- The slot is the one of a source. -/
def sourceSlot (source : Option CatalogCapability) (j : Nat) : Prop := ∃ c ∈ source, c.slot = j
  deriving Decidable

structure PrivateSourceActed (s t : ResourceManager) (record : MaterializationRecord)
    (result : MaterializationResult) (retained : Bool) : Prop where
  frame : t = { s with
    catalog := t.catalog
    sessionIndex := t.sessionIndex
    publicationEpoch := t.publicationEpoch }
  source : ∀ c ∈ record.privateSource, ∀ row ∈ result.source,
    t.catalog c.slot = sourceEntry record row c.slot s.publicationEpoch (s.catalog c.slot)
  other : ∀ j, ¬ sourceSlot record.privateSource j → t.catalog j = s.catalog j
  cells : CellsKept s.sessionIndex t.sessionIndex
  flag : retained = true → record.privateSource.isSome ∧ result.source.any (·.mode = .retain) ∧
    result.status = .published
  sound : ∀ H, (∀ c ∈ record.privateSource, (s.catalog c.slot).Live) → Sound s H → Sound t { H with
      priv := setOn (sourceSlot record.privateSource)
        (result.source.any (·.mode = .consumeToActive)) H.priv }

theorem sourceSlot_some (c : CatalogCapability) : sourceSlot (some c) = (· = c.slot) := by
  funext j
  simp [sourceSlot, eq_comm]

theorem wp_retainPrivateSource (record : MaterializationRecord) {source : CatalogCapability}
    {final : Option ContinuationSummary}
    (hlt : source.slot < s.catalogCount) (hst : (s.catalog source.slot).state = .claimed)
    (hid : (s.catalog source.slot).id = source.owner.id)
    (hv : ∀ summary ∈ final, validContinuationSummary s.maxLongAnchors summary) :
    wp (retainPrivateSource source final) ⟨fun _ t => (t = { s with
          catalog := t.catalog
          sessionIndex := t.sessionIndex
          publicationEpoch := t.publicationEpoch }) ∧
        t.catalog = update s.catalog source.slot (sourceEntry record
          { mode := .retain, finalSummary := final } source.slot s.publicationEpoch
            (s.catalog source.slot)) ∧
        CellsKept s.sessionIndex t.sessionIndex ∧
        ∀ H, (s.catalog source.slot).Live → Sound s H → Sound t { H with
          priv := setOn (· = source.slot) False H.priv },
        fun _ _ => False, False⟩ s := by
  unfold retainPrivateSource
  cases final with
  | none =>
    refine ⟨rfl, rfl, .refl _, fun H hlive hs => ?_⟩
    have := hs.setKept .catalogued hlt (.inr hst) hlive (hs.no_edge (by simp [hst])) (.inl rfl)
    simpa using this
  | some summary =>
    simp only [wp_bind, wp_get]
    refine (wp_renewEntry (hv summary rfl)).mpr ?_
    refine ⟨rfl, ?_, cellsKept_refresh _ _ _ _ _, fun H hlive hs => ?_⟩
    · simp [setCatalogState, setEntry, refreshSession, sourceEntry]
    · have := hs.renew (e := { renewed (s.catalog source.slot) summary
          (s.catalog source.slot).retention with
          publishedEpoch := s.publicationEpoch + 1
          state := .catalogued }) hlt hst hlive rfl rfl rfl rfl
      rw [hid] at this
      refine this.transfer ?_
      simp [tables, setCatalogState, setEntry, refreshSession]

theorem wp_applyPrivateSource (h : PrivateSourceOk s record result published) :
    wp (applyPrivateSource record result)
      ⟨fun b t => PrivateSourceActed s t record result b, fun _ _ => False, False⟩ s := by
  unfold applyPrivateSource
  unfold PrivateSourceOk at h
  cases hsrc : record.privateSource with
  | none =>
    refine ⟨rfl, by simp [hsrc], fun _ _ => rfl, .refl _, by simp, fun H _ hs => ?_⟩
    refine hs.congrPriv fun k _ => ?_
    simp [setOn, sourceSlot, hsrc]
  | some source =>
    rw [hsrc] at h
    obtain ⟨_, hlt, row, hrow, hst, hid, _, _, _, hv, _, _⟩ := h
    have hslots : sourceSlot record.privateSource = (· = source.slot) := by
      rw [hsrc, sourceSlot_some]
    simp only [wp_bind, wp_get, hrow, wp_deref, Option.some.injEq, forall_eq', reduceCtorEq,
      false_implies, and_true]
    cases hmode : row.mode with
    | retain =>
      have hvalid : ∀ summary ∈ row.finalSummary,
          validContinuationSummary s.maxLongAnchors summary := by
        intro summary hs
        rw [Option.mem_def.mp hs] at hv
        exact hv
      simp only [wp_bind]
      refine wp_mono (wp_retainPrivateSource record hlt hst hid hvalid)
        (fun _ t ht => ?_) (fun _ _ hf => hf) (fun hf => hf)
      obtain ⟨hframe, hcat, hcells, hsound⟩ := ht
      refine ⟨hframe, fun c hc r hr => ?_, fun j hj => ?_, hcells, fun hb => ?_,
        fun H hlive hs => ?_⟩
      · obtain rfl := Option.mem_unique hsrc hc
        obtain rfl := Option.mem_unique hrow hr
        rw [hcat, update_self]
        obtain ⟨mode, final⟩ := row
        obtain rfl : mode = .retain := hmode
        rfl
      · have hne : j ≠ source.slot := fun hjs => hj ⟨source, hsrc, hjs.symm⟩
        rw [hcat, update_of_ne hne]
      · exact ⟨by simp [hsrc], by simp [hrow, hmode], by simpa using hb⟩
      · have := hsound H (hlive source hsrc) hs
        rw [hslots, hrow]
        simpa [hmode] using this
    | consumeToActive =>
      refine ⟨rfl, fun c hc r hr => ?_, fun j hj => ?_, cellsKept_erase _ _, by simp,
        fun H hlive hs => ?_⟩
      · obtain rfl := Option.mem_unique hsrc hc
        obtain rfl := Option.mem_unique hrow hr
        simp [setEntry, eraseSessions, sourceEntry, hmode]
      · have hne : j ≠ source.slot := fun hjs => hj ⟨source, hsrc, hjs.symm⟩
        simp [setEntry, eraseSessions, hne]
      · have := hs.consume hlt hst (hlive source hsrc).1
          (decide (record.publicationSlot = source.slot))
        rw [hslots, hrow]
        simpa [hmode, eraseSessions] using this

/-- The entry of the shared source after its row: one pin less, and the reported summary. -/
def sharedSourceEntry (row : MaterializationSharedSourceResult) (e : SharedCatalogEntry) :
    SharedCatalogEntry :=
  let e := { e with transactionPins := e.transactionPins - 1 }
  match row.finalSummary with
  | none => e
  | some final =>
    if { final with activeReferences := 0 } ≠ e.summary then { e with
      summary := { final with activeReferences := 0 }
      revision := advanceRevision e.revision }
    else e

theorem sharedSourceEntry_same (row : MaterializationSharedSourceResult) (e : SharedCatalogEntry) :
    (sharedSourceEntry row e).state = e.state ∧ (sharedSourceEntry row e).id = e.id ∧
      (sharedSourceEntry row e).handle = e.handle ∧
      (sharedSourceEntry row e).transactionPins = e.transactionPins - 1 := by
  unfold sharedSourceEntry
  cases row.finalSummary with
  | none => exact ⟨rfl, rfl, rfl, rfl⟩
  | some final =>
    dsimp only
    split <;> exact ⟨rfl, rfl, rfl, rfl⟩

structure SharedSourceActed (s t : ResourceManager) (record : MaterializationRecord)
    (result : MaterializationResult) : Prop where
  frame : SharedFrame s t
  source : ∀ c ∈ record.sharedSource, ∀ row ∈ result.sharedSource,
    t.sharedCatalog c.slot = sharedSourceEntry row (s.sharedCatalog c.slot)
  other : ∀ j, ¬ sourceSlot record.sharedSource j → t.sharedCatalog j = s.sharedCatalog j
  sound : ∀ H, Sound s H → Sound t { H with
    pinned := setOn (sourceSlot record.sharedSource) False H.pinned }

/-- The shared source exists and has a row. -/
def SharedSourceRow (s : ResourceManager) (record : MaterializationRecord)
    (result : MaterializationResult) : Prop :=
  ∀ c ∈ record.sharedSource, c.slot < s.sharedCatalogCount ∧ ∃ row, result.sharedSource = some row

theorem SharedSourceOk.row (h : SharedSourceOk s record result published) :
    SharedSourceRow s record result := by
  intro c hc
  unfold SharedSourceOk at h
  rw [Option.mem_def.mp hc] at h
  obtain ⟨_, hlt, _, _, _, row, hrow, _⟩ := h
  exact ⟨hlt, row, hrow⟩

theorem wp_applySharedSource (h : SharedSourceRow s record result) :
    wp (applySharedSource record result)
      ⟨fun _ t => SharedSourceActed s t record result, fun _ _ => False, False⟩ s := by
  unfold applySharedSource
  cases hsrc : record.sharedSource with
  | none =>
    refine ⟨rfl, by simp [hsrc], fun _ _ => rfl, fun H hs => ?_⟩
    refine hs.congrPinned fun k _ => ?_
    simp [setOn, sourceSlot, hsrc]
  | some source =>
    obtain ⟨hlt', row, hr⟩ := h source hsrc
    have key : ∀ t, t = s.setSharedEntry source.slot
        (sharedSourceEntry row (s.sharedCatalog source.slot)) →
        SharedSourceActed s t record result := by
      rintro t rfl
      obtain ⟨hst, hid, hh, hp⟩ := sharedSourceEntry_same row (s.sharedCatalog source.slot)
      refine ⟨rfl, fun c hc r hr' => ?_, fun j hj => ?_, fun H hs => ?_⟩
      · obtain rfl := Option.mem_unique hsrc hc
        obtain rfl := Option.mem_unique hr hr'
        simp [setSharedEntry]
      · have hne : j ≠ source.slot := fun hjs => hj ⟨source, hsrc, hjs.symm⟩
        simp [setSharedEntry, hne]
      · rw [hsrc, sourceSlot_some]
        refine (hs.unpin hlt').tuneShared (j := source.slot)
          (e := sharedSourceEntry row (s.sharedCatalog source.slot)) hlt' ?_ ?_ ?_ ?_ ?_ <;>
          simp [tables, unpinShared, setSharedEntry, hst, hid, hh, hp]
    simp only [wp_bind, wp_modify, hr, wp_deref, Option.some.injEq, forall_eq', reduceCtorEq,
      false_implies, and_true]
    cases hfin : row.finalSummary with
    | none =>
      refine key _ ?_
      simp [sharedSourceEntry, hfin, unpinShared]
    | some final =>
      refine key _ ?_
      simp only [sharedSourceEntry, hfin, unpinShared, setSharedEntry, update_self]
      split
      · simp
      · rfl

end Ninfer.Resources
