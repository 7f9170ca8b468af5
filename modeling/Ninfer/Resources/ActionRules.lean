/-
  What the owner actions of a transaction leave behind.

  For a row that passed its check, `applyPrivateAction` and `applySharedAction` run through, and
  `actedEntry` and `actedShared` are the entries they leave. `wp_applyPrivateActions` and
  `wp_applySharedActions` are the loops over the claims of a record: each claimed owner is acted
  on once, every other entry stays, and the tables stay sound while the claims are given up.
-/
import Ninfer.Resources.Moves

namespace Ninfer.Resources

open Lib Function ResourceManager

variable {s : ResourceManager} {H : Holding}

/-! ## Renewal -/

/-- An owner republished with a summary. -/
def renewed (e : CatalogEntry) (summary : ContinuationSummary) (retention : RetentionClass) :
    CatalogEntry :=
  { e with
    summary := { summary with activeReferences := 0 }
    observations := summary.checkpoints.map fun c =>
      migratedObservation e.observations retention c.ref
    revision := advanceRevision e.revision }

/-- A valid summary fits the capacities the constructor reserved. -/
theorem wp_renewEntry {σ : Type} {t : σ} {P : Post σ CatalogEntry} {m : Nat} {e : CatalogEntry}
    {summary : ContinuationSummary} {retention : RetentionClass}
    (hv : validContinuationSummary m summary) :
    wp (renewEntry m e summary retention) P t ↔ P.ok (renewed e summary retention) t := by
  have hlong := length_longAnchors_of_valid hv
  have hall := length_checkpoints_le summary
  simp only [renewEntry, assignContinuationSummary, migrateObservations,
    if_neg (Nat.not_lt.mpr hlong), if_neg (show ¬ summary.checkpoints.length > 3 + m by omega)]
  exact .rfl

/-! ## Rows -/

section Rows

variable {Summary : Type} {claim : OwnerClaim} {published : Bool} {row row' : VictimResult Summary}
  {victims : List (VictimResult Summary)} {what : String}

/-- The row the result has for the claim. -/
def RowFor (victims : List (VictimResult Summary)) (claim : OwnerClaim)
    (row : VictimResult Summary) : Prop :=
  victims.filter (·.owner = claim.planningId) = [row]

theorem RowFor.unique (h : RowFor victims claim row) (h' : RowFor victims claim row') :
    row = row' := by
  unfold RowFor at h h'
  rw [h] at h'
  simpa using h'

theorem resultFor_eq {σ : Type} (h : RowFor victims claim row) :
    (resultFor what victims claim : Eff σ _) = pure row := by
  unfold RowFor at h
  simp [resultFor, h]

theorem checks_resultFor :
    Checks (resultFor what victims claim) s fun row => RowFor victims claim row := by
  unfold resultFor
  split
  · next row hrow => exact .pure hrow
  · exact .raise _

/-- What the checks of either kind find of a row. -/
structure ResultOk (claim : OwnerClaim) (published : Bool) (row : VictimResult Summary) :
    Prop where
  committed : published → row.pressureCommitted
  selected : row.pressureCommitted → row.disposition = claim.disposition
  evicted : row.disposition = .evicted → row.pressureCommitted ∧ row.finalSummary = none
  retained : row.disposition = .retained → row.pressureCommitted → row.finalSummary.isSome

variable (hcom : published → row.pressureCommitted)
  (hsel : row.pressureCommitted → row.disposition = claim.disposition)

include hcom hsel

theorem ResultOk.of_evicted (hev : row.disposition = .evicted)
    (hend : row.pressureCommitted ∧ row.finalSummary = none) : ResultOk claim published row :=
  ⟨hcom, hsel, fun _ => hend, fun h => absurd (hev.symm.trans h) (by simp)⟩

theorem ResultOk.of_retained (hret : row.disposition ≠ .evicted)
    (hsome : row.pressureCommitted → row.finalSummary.isSome) : ResultOk claim published row :=
  ⟨hcom, hsel, fun h => absurd h hret, fun _ => hsome⟩

end Rows

abbrev PrivateRow := @RowFor ContinuationSummary

abbrev SharedRow := @RowFor SharedPrefixSummary

/-! ## Private owners -/

/-- The row of a claim, and what its check found. -/
structure PrivateActionOk (s : ResourceManager) (claim : OwnerClaim) (published : Bool)
    (row : MaterializationVictimResult) : Prop extends ResultOk claim published row where
  slot : claim.capability.slot < s.catalogCount
  kind : claim.capability.owner.kind = .privateContinuation
  claimed : (s.catalog claim.capability.slot).state = .claimed
  id : (s.catalog claim.capability.slot).id = claim.capability.owner.id
  revision : (s.catalog claim.capability.slot).revision = claim.capability.generation
  handle : (s.catalog claim.capability.slot).handle.isSome
  valid : ∀ summary ∈ row.finalSummary, validContinuationSummary s.maxLongAnchors summary

theorem checks_validatePrivateAction (claim : OwnerClaim) (published : Bool)
    (row : MaterializationVictimResult) :
    Checks (validatePrivateAction claim published row) s fun _ =>
      PrivateActionOk s claim published row := by
  unfold validatePrivateAction Checks
  simp only [wp_bind, wp_get, wp_require, wp_ite, implies_true, true_and]
  rintro hslot ⟨hk, hc, hid, hr, hh⟩ hv hcom hsel
  have hvalid : ∀ summary ∈ row.finalSummary,
      validContinuationSummary s.maxLongAnchors summary := by
    intro summary hs
    rw [Option.mem_def.mp hs] at hv
    exact hv
  have hsel' := fun hp => (hsel hp).1
  refine ⟨fun hev hend => ?_, fun hret _ hsome => ?_⟩
  · exact ⟨.of_evicted hcom hsel' hev hend, hslot, hk, hc, hid, hr, hh, hvalid⟩
  · exact ⟨.of_retained hcom hsel' hret hsome, hslot, hk, hc, hid, hr, hh, hvalid⟩

/-- The entry a row leaves. -/
def actedEntry (row : MaterializationVictimResult) (e : CatalogEntry) : CatalogEntry :=
  if row.disposition = .evicted then clearCatalogEntry e
  else if row.pressureCommitted = false then { e with state := .catalogued }
  else match row.finalSummary with
    | none => e
    | some summary => { renewed e summary e.retention with state := .catalogued }

/-- Nothing but the private catalogue and its index changed. -/
def PrivateFrame (s t : ResourceManager) : Prop :=
  t = { s with catalog := t.catalog, sessionIndex := t.sessionIndex }

theorem PrivateFrame.trans {s t u : ResourceManager} (h : PrivateFrame s t)
    (h' : PrivateFrame t u) : PrivateFrame s u := by
  unfold PrivateFrame at *
  rw [h'] at *
  rw [h]

/-- One private action: the entry, the frame and the tables. -/
structure ActedOn (s t : ResourceManager) (slot : Nat) (e : CatalogEntry) : Prop where
  frame : PrivateFrame s t
  catalog : t.catalog = update s.catalog slot e
  cells : CellsKept s.sessionIndex t.sessionIndex
  sound : ∀ H, (s.catalog slot).id ≠ 0 → Sound s H → Sound t { H with
    priv := setOn (· = slot) False H.priv }

variable {claim : OwnerClaim} {published : Bool} {row : MaterializationVictimResult}
  {victims : List MaterializationVictimResult} {what : String}

theorem wp_applyPrivateAction (h : PrivateActionOk s claim published row) :
    wp (applyPrivateAction claim row) ⟨fun _ t => ActedOn s t claim.capability.slot
        (actedEntry row (s.catalog claim.capability.slot)), fun _ _ => False, False⟩ s := by
  unfold applyPrivateAction
  simp only [wp_bind, wp_get, wp_ite]
  refine ⟨fun hev => ?_, fun hret => ⟨fun hunc => ?_, fun hcom => ?_⟩⟩
  · refine ⟨rfl, ?_, cellsKept_erase _ _, fun H hid hs => ?_⟩
    · simp [setEntry, eraseSessions, actedEntry, hev]
    · have := hs.evict h.slot h.claimed hid
      rw [h.id] at this
      exact this
  · have hunc' : row.pressureCommitted = false := by simpa using hunc
    refine ⟨rfl, ?_, .refl _, fun H hid hs => ?_⟩
    · simp [setCatalogState, setEntry, actedEntry, hret, hunc']
    · have := hs.setKept .catalogued h.slot (.inr h.claimed) ⟨hid, h.handle⟩
        (hs.no_edge (by simp [h.claimed])) (.inl rfl)
      simpa using this
  · have hcom' : row.pressureCommitted = true := by simpa using hcom
    have hret' := VictimDisposition.retained_of_ne hret
    obtain ⟨summary, hsum⟩ := Option.isSome_iff_exists.mp (h.retained hret' hcom')
    rw [hsum, wp_deref]
    refine ⟨fun sm hsm => ?_, by simp⟩
    obtain rfl : summary = sm := Option.some.inj hsm
    refine (wp_renewEntry (h.valid summary hsum)).mpr ?_
    refine ⟨rfl, ?_, cellsKept_refresh _ _ _ _ _, fun H hid hs => ?_⟩
    · simp [setCatalogState, setEntry, refreshSession, actedEntry, hret', hcom', hsum]
    · have := hs.renew (e := { renewed (s.catalog claim.capability.slot) summary
          (s.catalog claim.capability.slot).retention with state := .catalogued })
        h.slot h.claimed ⟨hid, h.handle⟩ rfl rfl rfl rfl
      rw [h.id] at this
      simpa [setCatalogState, setEntry, refreshSession] using this

/-- The private actions of a record: each claim has its row, and claims have distinct slots. -/
structure PrivateActionsOk (s : ResourceManager) (claims : List OwnerClaim) (published : Bool)
    (victims : List MaterializationVictimResult) : Prop where
  rows : ∀ c ∈ claims, ∃ row, PrivateRow victims c row ∧ PrivateActionOk s c published row
  distinct : claims.Pairwise fun a b => a.capability.slot ≠ b.capability.slot

/-- The loop of private actions: each claimed entry is acted on, the others stay. -/
structure PrivateActed (s t : ResourceManager) (claims : List OwnerClaim)
    (victims : List MaterializationVictimResult) : Prop where
  frame : PrivateFrame s t
  acted : ∀ c ∈ claims, ∀ row, PrivateRow victims c row →
    t.catalog c.capability.slot = actedEntry row (s.catalog c.capability.slot)
  other : ∀ j, ¬ slotsOf claims j → t.catalog j = s.catalog j
  cells : CellsKept s.sessionIndex t.sessionIndex
  sound : ∀ H, (∀ c ∈ claims, (s.catalog c.capability.slot).id ≠ 0) → Sound s H →
    Sound t { H with priv := setOn (slotsOf claims) False H.priv }

/-- The same owner in the same state, as a check or an action sees it. -/
def SameOwner (e e' : CatalogEntry) : Prop :=
  e'.state = e.state ∧ e'.id = e.id ∧ e'.revision = e.revision ∧ e'.handle = e.handle

theorem PrivateActionOk.transport {t : ResourceManager}
    (h : PrivateActionOk s claim published row) (hn : t.catalogCount = s.catalogCount)
    (hm : t.maxLongAnchors = s.maxLongAnchors)
    (hc : SameOwner (s.catalog claim.capability.slot) (t.catalog claim.capability.slot)) :
    PrivateActionOk t claim published row := by
  obtain ⟨hrow, h1, h2, h3, h4, h5, h6, h7⟩ := h
  obtain ⟨hs, hid, hr, hh⟩ := hc
  exact ⟨hrow, hn ▸ h1, h2, hs ▸ h3, hid ▸ h4, hr ▸ h5, hh ▸ h6, hm ▸ h7⟩

theorem wp_applyPrivateActions {claims : List OwnerClaim}
    (h : PrivateActionsOk s claims published victims) :
    wp (Eff.forEach claims fun claim => do
        let row ← privateResultFor what victims claim
        applyPrivateAction claim row)
      ⟨fun _ t => PrivateActed s t claims victims, fun _ _ => False, False⟩ s := by
  induction claims generalizing s with
  | nil =>
    refine ⟨rfl, by simp, fun _ _ => rfl, .refl _, fun H _ hs => ?_⟩
    refine hs.congrPriv fun k _ => ?_
    simp [setOn, slotsOf]
  | cons c claims ih =>
    obtain ⟨row, hrow, hok⟩ := h.rows c (by simp)
    obtain ⟨hhead, htail⟩ := List.pairwise_cons.mp h.distinct
    rw [wp_forEach_cons, show privateResultFor what victims c = pure row from resultFor_eq hrow]
    refine wp_mono (wp_applyPrivateAction hok) (fun _ t ht => ?_) (fun _ _ hf => hf) (fun hf => hf)
    have hstay : ∀ j, j ≠ c.capability.slot → t.catalog j = s.catalog j := fun j hj => by
      rw [ht.catalog, update_of_ne hj]
    have hrest : PrivateActionsOk t claims published victims := by
      refine ⟨fun d hd => ?_, htail⟩
      obtain ⟨drow, hdrow, hdok⟩ := h.rows d (by simp [hd])
      refine ⟨drow, hdrow, hdok.transport (by rw [ht.frame]) (by rw [ht.frame]) ?_⟩
      rw [hstay _ (hhead d hd).symm]
      exact ⟨rfl, rfl, rfl, rfl⟩
    refine wp_mono (ih hrest) (fun _ u hu => ?_) (fun _ _ hf => hf) (fun hf => hf)
    have hcu : ¬ slotsOf claims c.capability.slot := by
      rintro ⟨d, hd, hdc⟩
      exact hhead d hd hdc.symm
    refine ⟨ht.frame.trans hu.frame, fun d hd drow hdrow => ?_, fun j hj => ?_,
      ht.cells.trans hu.cells, fun H hids hs => ?_⟩
    · rcases List.mem_cons.mp hd with rfl | hd
      · rw [hu.other _ hcu, ht.catalog, update_self, hrow.unique hdrow]
      · rw [hu.acted d hd drow hdrow, hstay _ (hhead d hd).symm]
    · rw [slotsOf_cons, not_or] at hj
      rw [hu.other j hj.1, hstay j hj.2]
    · have hend := hu.sound _ (fun d hd => ?_) (ht.sound H (hids c (by simp)) hs)
      · rwa [setOn_cons] at hend
      · rw [hstay _ (hhead d hd).symm]
        exact hids d (by simp [hd])

/-! ## Shared owners -/

structure SharedActionOk (s : ResourceManager) (claim : OwnerClaim) (published : Bool)
    (row : MaterializationSharedVictimResult) : Prop extends ResultOk claim published row where
  slot : claim.capability.slot < s.sharedCatalogCount
  kind : claim.capability.owner.kind = .sharedPrefix
  claimed : (s.sharedCatalog claim.capability.slot).state = .claimed
  id : (s.sharedCatalog claim.capability.slot).id = claim.capability.owner.id
  revision : (s.sharedCatalog claim.capability.slot).revision = claim.capability.generation
  handle : (s.sharedCatalog claim.capability.slot).handle.isSome

theorem checks_validateSharedAction (claim : OwnerClaim) (published : Bool)
    (row : MaterializationSharedVictimResult) :
    Checks (validateSharedAction claim published row) s fun _ =>
      SharedActionOk s claim published row := by
  unfold validateSharedAction Checks
  simp only [wp_bind, wp_get, wp_require, wp_ite, implies_true, true_and]
  rintro hslot ⟨hk, hc, hid, hr, hh⟩ _ hcom hsel
  have hsel' := fun hp => (hsel hp).1
  refine ⟨fun hev hend => ?_, fun hret _ hsome => ?_⟩
  · exact ⟨.of_evicted hcom hsel' hev hend, hslot, hk, hc, hid, hr, hh⟩
  · exact ⟨.of_retained hcom hsel' hret hsome, hslot, hk, hc, hid, hr, hh⟩

/-- The shared entry a row leaves. -/
def actedShared (row : MaterializationSharedVictimResult) (e : SharedCatalogEntry) :
    SharedCatalogEntry :=
  if row.disposition = .evicted then clearSharedEntry e
  else if row.pressureCommitted = false then { e with state := .catalogued }
  else match row.finalSummary with
    | none => e
    | some summary => { e with
        summary
        revision := advanceRevision e.revision
        state := .catalogued }

/-- Nothing but the shared catalogue changed. -/
def SharedFrame (s t : ResourceManager) : Prop :=
  t = { s with sharedCatalog := t.sharedCatalog }

theorem SharedFrame.trans {s t u : ResourceManager} (h : SharedFrame s t)
    (h' : SharedFrame t u) : SharedFrame s u := by
  unfold SharedFrame at *
  rw [h'] at *
  rw [h]

structure SharedActedOn (s t : ResourceManager) (slot : Nat) (e : SharedCatalogEntry) : Prop where
  frame : SharedFrame s t
  catalog : t.sharedCatalog = update s.sharedCatalog slot e
  sound : ∀ H : Holding, (s.sharedCatalog slot).id ≠ 0 → ¬ H.pinned slot → Sound s H →
    Sound t { H with shared := setOn (· = slot) False H.shared }

/-- A claimed shared owner becomes vacant or catalogued. -/
theorem Sound.settleShared {j : Nat} (h : Sound s H) (hj : j < s.sharedCatalogCount)
    (hst : (s.sharedCatalog j).state = .claimed) {e : SharedCatalogEntry}
    (he : SharedSlot e False False (H.pinned j)) :
    Sound (s.setSharedEntry j e) { H with shared := setOn (· = j) False H.shared } := by
  have hset := h.replaceShared hj (h.no_shared_edge (by simp [hst])) he
  refine hset.congrCaptured fun k _ => ?_
  by_cases hk : k = j
  · subst hk
    have hcap : ¬ H.captured k := by
      rw [← (h.shared k hj).reserved, hst]
      simp
    simp [setOn, hcap]
  · simp [setOn, hk]

theorem wp_applySharedAction {row : MaterializationSharedVictimResult}
    (h : SharedActionOk s claim published row) :
    wp (applySharedAction claim row) ⟨fun _ t => SharedActedOn s t claim.capability.slot
        (actedShared row (s.sharedCatalog claim.capability.slot)), fun _ _ => False, False⟩ s := by
  unfold applySharedAction
  simp only [wp_bind, wp_get, wp_ite]
  refine ⟨fun hev => ?_, fun hret => ⟨fun hunc => ?_, fun hcom => ?_⟩⟩
  · refine ⟨rfl, by simp [setSharedEntry, actedShared, hev], fun H _ hp hs => ?_⟩
    refine hs.settleShared h.slot h.claimed ?_
    exact ⟨by simp [clearSharedEntry], by simp [clearSharedEntry], fun hc => absurd hc hp,
      fun _ => rfl, fun _ => ⟨rfl, rfl⟩, by simp [clearSharedEntry]⟩
  · have hunc' : row.pressureCommitted = false := by simpa using hunc
    refine ⟨rfl, ?_, fun H hid _ hs => ?_⟩
    · simp [setSharedState, setSharedEntry, actedShared, hret, hunc']
    · have hslot := (hs.shared _ h.slot).setKept .catalogued ⟨hid, h.handle⟩ (.inl rfl)
      exact hs.settleShared h.slot h.claimed (by simpa using hslot)
  · have hcom' : row.pressureCommitted = true := by simpa using hcom
    have hret' := VictimDisposition.retained_of_ne hret
    obtain ⟨summary, hsum⟩ := Option.isSome_iff_exists.mp (h.retained hret' hcom')
    rw [hsum, wp_deref]
    refine ⟨fun sm hsm => ?_, by simp⟩
    obtain rfl : summary = sm := Option.some.inj hsm
    refine ⟨rfl, ?_, fun H hid _ hs => ?_⟩
    · simp [setSharedEntry, actedShared, hret', hcom', hsum]
    · have hslot := hs.shared _ h.slot
      exact hs.settleShared h.slot h.claimed
        ⟨by simp, by simp, hslot.pins, hslot.unpinned, by simp, fun _ => ⟨hid, h.handle⟩⟩

structure SharedActionsOk (s : ResourceManager) (claims : List OwnerClaim) (published : Bool)
    (victims : List MaterializationSharedVictimResult) : Prop where
  rows : ∀ c ∈ claims, ∃ row, SharedRow victims c row ∧ SharedActionOk s c published row
  distinct : claims.Pairwise fun a b => a.capability.slot ≠ b.capability.slot

structure SharedActed (s t : ResourceManager) (claims : List OwnerClaim)
    (victims : List MaterializationSharedVictimResult) : Prop where
  frame : SharedFrame s t
  acted : ∀ c ∈ claims, ∀ row, SharedRow victims c row →
    t.sharedCatalog c.capability.slot = actedShared row (s.sharedCatalog c.capability.slot)
  other : ∀ j, ¬ slotsOf claims j → t.sharedCatalog j = s.sharedCatalog j
  sound : ∀ H : Holding, (∀ c ∈ claims, (s.sharedCatalog c.capability.slot).id ≠ 0) →
    (∀ c ∈ claims, ¬ H.pinned c.capability.slot) → Sound s H → Sound t { H with
      shared := setOn (slotsOf claims) False H.shared }

def SameShared (e e' : SharedCatalogEntry) : Prop :=
  e'.state = e.state ∧ e'.id = e.id ∧ e'.revision = e.revision ∧ e'.handle = e.handle

theorem SharedActionOk.transport {t : ResourceManager} {row : MaterializationSharedVictimResult}
    (h : SharedActionOk s claim published row) (hn : t.sharedCatalogCount = s.sharedCatalogCount)
    (hc : SameShared (s.sharedCatalog claim.capability.slot)
      (t.sharedCatalog claim.capability.slot)) : SharedActionOk t claim published row := by
  obtain ⟨hrow, h1, h2, h3, h4, h5, h6⟩ := h
  obtain ⟨hs, hid, hr, hh⟩ := hc
  exact ⟨hrow, hn ▸ h1, h2, hs ▸ h3, hid ▸ h4, hr ▸ h5, hh ▸ h6⟩

theorem wp_applySharedActions {claims : List OwnerClaim}
    {victims : List MaterializationSharedVictimResult}
    (h : SharedActionsOk s claims published victims) :
    wp (Eff.forEach claims fun claim => do
        let row ← sharedResultFor what victims claim
        applySharedAction claim row)
      ⟨fun _ t => SharedActed s t claims victims, fun _ _ => False, False⟩ s := by
  induction claims generalizing s with
  | nil =>
    refine ⟨rfl, by simp, fun _ _ => rfl, fun H _ _ hs => ?_⟩
    refine hs.congrShared fun k _ => ?_
    simp [setOn, slotsOf]
  | cons c claims ih =>
    obtain ⟨row, hrow, hok⟩ := h.rows c (by simp)
    obtain ⟨hhead, htail⟩ := List.pairwise_cons.mp h.distinct
    rw [wp_forEach_cons, show sharedResultFor what victims c = pure row from resultFor_eq hrow]
    refine wp_mono (wp_applySharedAction hok) (fun _ t ht => ?_) (fun _ _ hf => hf) (fun hf => hf)
    have hstay : ∀ j, j ≠ c.capability.slot → t.sharedCatalog j = s.sharedCatalog j :=
      fun j hj => by rw [ht.catalog, update_of_ne hj]
    have hn : t.sharedCatalogCount = s.sharedCatalogCount := by rw [ht.frame]
    have hrest : SharedActionsOk t claims published victims := by
      refine ⟨fun d hd => ?_, htail⟩
      obtain ⟨drow, hdrow, hdok⟩ := h.rows d (by simp [hd])
      refine ⟨drow, hdrow, hdok.transport hn ?_⟩
      rw [hstay _ (hhead d hd).symm]
      exact ⟨rfl, rfl, rfl, rfl⟩
    refine wp_mono (ih hrest) (fun _ u hu => ?_) (fun _ _ hf => hf) (fun hf => hf)
    have hcu : ¬ slotsOf claims c.capability.slot := by
      rintro ⟨d, hd, hdc⟩
      exact hhead d hd hdc.symm
    refine ⟨ht.frame.trans hu.frame, fun d hd drow hdrow => ?_, fun j hj => ?_,
      fun H hids hp hs => ?_⟩
    · rcases List.mem_cons.mp hd with rfl | hd
      · rw [hu.other _ hcu, ht.catalog, update_self, hrow.unique hdrow]
      · rw [hu.acted d hd drow hdrow, hstay _ (hhead d hd).symm]
    · rw [slotsOf_cons, not_or] at hj
      rw [hu.other j hj.1, hstay j hj.2]
    · have h1 := ht.sound H (hids c (by simp)) (hp c (by simp)) hs
      have h2 := hu.sound { H with shared := setOn (· = c.capability.slot) False H.shared }
        (fun d hd => ?_) (fun d hd => hp d (by simp [hd])) h1
      · rwa [setOn_cons] at h2
      · rw [hstay _ (hhead d hd).symm]
        exact hids d (by simp [hd])

end Ninfer.Resources
